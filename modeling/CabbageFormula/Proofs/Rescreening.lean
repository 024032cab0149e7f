import CabbageFormula.Proofs.Blanks

/-!
# The verdict of the screening, and a second screening

The rules of the screening as a relation, each with what the rules before it leave.  What passes has
lost its blanks, so that a second screening can only find one thing: dice that were hidden by blanks
in the formula as it came.  But these have a `d`, and no text with a `d` is a sum of terms.

* `Screened`, `screen_eq_iff_screened` — **the verdict on a formula**, rule by rule.
* `HidesDice`, `asksForDice_strip_iff` — a `d` with a digit behind it once the blanks are gone.
* `screen_of_screen_eq_ok` — the verdict on what has passed.
* `attempt_of_mem` — no formula with a `d` is rolled.
* `screening_verdict` — all of this.
-/

namespace CabbageFormula

/-! ## The rules -/

/-- **The verdict on a formula.**  The empty formula is turned down, then one that asks for dice,
however long it is, then one with more characters than the cap allows, and then one that has nothing
but blanks.  Any other passes, as its characters that are not blank. -/
inductive Screened (caps : Caps) (formula : String) : Except ScreenFault String → Prop where
  | empty (h : formula = "") : Screened caps formula (.error .empty)
  | dice (h : AsksForDice formula) : Screened caps formula (.error .dice)
  | long (plain : ¬ AsksForDice formula) (h : caps.length.toNat < formula.length) :
      Screened caps formula (.error (.lengthCap formula.length caps.length))
  | blank (plain : ¬ AsksForDice formula) (short : formula.length ≤ caps.length.toNat)
      (h : Blank formula) : Screened caps formula (.error .empty)
  | passed {c : String} (plain : ¬ AsksForDice formula)
      (short : formula.length ≤ caps.length.toNat) (h : c.toList = visible formula)
      (ne_nil : visible formula ≠ []) : Screened caps formula (.ok c)

variable {caps : Caps} {formula : String}

lemma visible_eq_nil_iff : visible formula = [] ↔ Blank formula := by
  rw [← Formula.strip_eq_empty_iff, ← String.toList_eq_nil_iff, toList_strip_eq_visible]

/-- **Screening follows the rules.** -/
theorem screen_eq_iff_screened {v : Except ScreenFault String} :
    Formula.screen caps formula = v ↔ Screened caps formula v := by
  have hmention : Formula.mentionsDice formula.toList = true ↔ AsksForDice formula :=
    mentionsDice_iff_asksForDice
  constructor
  · rintro rfl
    rw [Formula.screen]
    split
    case isTrue hempty => exact .empty hempty
    case isFalse =>
      split
      case isTrue hdice => exact .dice (hmention.mp hdice)
      case isFalse hplain =>
        rw [hmention] at hplain
        split
        case isTrue hlong => exact .long hplain hlong
        case isFalse hshort =>
          rw [Nat.not_lt] at hshort
          split
          case isTrue hblank => exact .blank hplain hshort (Formula.strip_eq_empty_iff.mp hblank)
          case isFalse hblank =>
            rw [Formula.strip_eq_empty_iff, ← visible_eq_nil_iff] at hblank
            exact .passed hplain hshort (toList_strip_eq_visible formula) hblank
  · intro h
    cases h with
    | empty h => rw [Formula.screen, if_pos h]
    | dice h =>
        have hne : formula ≠ "" := by
          rintro rfl
          exact absurd h.mem_visible (by decide)
        rw [Formula.screen, if_neg hne, if_pos (hmention.mpr h)]
    | long plain h =>
        have hne : formula ≠ "" := by
          rintro rfl
          exact absurd h (Nat.not_lt_zero _)
        rw [Formula.screen, if_neg hne, if_neg (mt hmention.mp plain), if_pos h]
    | blank plain short h =>
        rw [Formula.screen_of_short short, if_neg (mt hmention.mp plain),
          if_pos (Formula.strip_eq_empty_iff.mpr h)]
    | @passed c plain short h ne_nil =>
        have hblank : Formula.strip formula ≠ "" := by
          rw [Ne, Formula.strip_eq_empty_iff, ← visible_eq_nil_iff]
          exact ne_nil
        have hc : c = Formula.strip formula := by
          apply String.toList_inj.mp
          rw [h, toList_strip_eq_visible]
        rw [Formula.screen_of_short short, if_neg (mt hmention.mp plain), if_neg hblank, hc]

/-! ## Dice that blanks hide -/

/-- **A formula hides dice** if there is a `d` with a digit behind it, and between them nothing but
blanks, at least one. -/
def HidesDice (formula : String) : Prop :=
  ∃ front gap digit back, gap ≠ [] ∧ (∀ c ∈ gap, Text.isBlank c = true) ∧ digit.isDigit = true ∧
    formula.toList = front ++ 'd' :: (gap ++ digit :: back)

/-- **Without its blanks a formula asks for dice** exactly if it does so with them or hides dice. -/
theorem asksForDice_strip_iff :
    AsksForDice (Formula.strip formula) ↔ AsksForDice formula ∨ HidesDice formula := by
  constructor
  · rintro ⟨front, digit, back, hdigit, heq⟩
    rw [Formula.toList_strip] at heq
    obtain ⟨left, right, hformula, -, hright⟩ := List.filter_eq_append_iff.mp heq
    obtain ⟨gap, rest, rfl, -, -, hrest⟩ := List.filter_eq_cons_iff.mp hright
    obtain ⟨between, rest, rfl, hbetween, -, -⟩ := List.filter_eq_cons_iff.mp hrest
    have hall : formula.toList = left ++ gap ++ 'd' :: (between ++ digit :: rest) := by
      rw [hformula, List.append_assoc]
    have hblank : ∀ c ∈ between, Text.isBlank c = true := by
      intro c hc
      simpa using hbetween c hc
    by_cases hnil : between = []
    · subst hnil
      exact .inl ⟨left ++ gap, digit, rest, hdigit, hall⟩
    · exact .inr ⟨left ++ gap, between, digit, rest, hnil, hblank, hdigit, hall⟩
  · have hd : Text.isBlank 'd' = false := by decide
    -- neither the `d` nor the digit is blank, so both are left, with nothing between them
    have hstrip : ∀ {front gap back : List Char} {digit : Char}, digit.isDigit = true →
        (∀ c ∈ gap, Text.isBlank c = true) →
          formula.toList = front ++ 'd' :: (gap ++ digit :: back) →
            AsksForDice (Formula.strip formula) := by
      intro front gap back digit hdigit hgap heq
      have hnone : gap.filter (fun c => !Text.isBlank c) = [] := by
        rw [List.filter_eq_nil_iff]
        intro c hc
        rw [hgap c hc]
        decide
      refine ⟨front.filter fun c => !Text.isBlank c, digit, back.filter fun c => !Text.isBlank c,
        hdigit, ?_⟩
      rw [Formula.toList_strip, heq, List.filter_append, List.filter_cons_of_pos (by rw [hd]; rfl),
        List.filter_append, hnone, List.nil_append,
        List.filter_cons_of_pos (by rw [Text.isBlank_eq_false_of_isDigit hdigit]; rfl)]
    rintro (⟨front, digit, back, hdigit, heq⟩ | ⟨front, gap, digit, back, -, hgap, hdigit, heq⟩)
    · have hnone : ∀ c ∈ ([] : List Char), Text.isBlank c = true := by simp
      exact hstrip hdigit hnone heq
    · exact hstrip hdigit hgap heq

/-! ## A second screening -/

/-- **What has passed a screening** passes again, or it asks for dice. -/
theorem screen_of_screen_eq_ok {c : String} (h : Formula.screen caps formula = .ok c) :
    Formula.screen caps c = if AsksForDice c then .error .dice else .ok c := by
  obtain ⟨-, hshort, hne, rfl⟩ := Formula.screen_eq_ok_iff.mp h
  have hlength : (Formula.strip formula).length ≤ caps.length.toNat := by
    rw [← String.length_toList, Formula.toList_strip]
    rw [← String.length_toList] at hshort
    exact Nat.le_trans (List.length_filter_le _ _) hshort
  have hagain : Formula.strip (Formula.strip formula) = Formula.strip formula := by
    apply String.toList_inj.mp
    rw [Formula.toList_strip, Formula.toList_strip, List.filter_filter]
    simp
  rw [Formula.screen_of_short hlength, hagain, if_neg hne]
  simp only [mentionsDice_iff_asksForDice]

/-- After a screening, dice that are asked for were hidden before. -/
lemma asksForDice_iff_hidesDice {c : String} (h : Formula.screen caps formula = .ok c) :
    AsksForDice c ↔ HidesDice formula := by
  obtain ⟨hplain, -, -, rfl⟩ := Formula.screen_eq_ok_iff.mp h
  rw [← Bool.not_eq_true, mentionsDice_iff_asksForDice] at hplain
  rw [asksForDice_strip_iff, or_iff_right hplain]

/-! ## Formulas with a `d` -/

/-- **No formula with a `d` is rolled**, wherever it stands: nothing is drawn for it. -/
theorem attempt_of_mem {σ : Type} [RollSource σ] (h : 'd' ∈ formula.toList) (source : σ) :
    ∃ why, attempt caps formula source = { result := .error why, source } ∧
      ∀ fault, why ≠ .roll fault := by
  rcases Formula.read_cases caps formula with ⟨why, hread⟩ | ⟨why, hread⟩ | ⟨w, hw, -, -⟩
  · exact ⟨.screen why, attempt_of_error hread source, by simp⟩
  · exact ⟨.read why, attempt_of_error hread source, by simp⟩
  · have hd : 'd' ∈ visible formula := List.mem_filter.mpr ⟨h, by decide⟩
    rw [← toList_strip_eq_visible, hw] at hd
    exact absurd rfl (w.alphabet_chars 'd' hd).2

/-- **The verdict of the screening.**  A formula is judged by the rules, and by nothing else.  What
has passed passes once more under the same caps, unlike before only if the formula hides dice, since
now it asks for them.  Then it has a `d`, and whatever has one is not read as terms; so no formula
with a `d` is rolled. -/
theorem screening_verdict (caps : Caps) (formula : String) :
    (∀ v, Formula.screen caps formula = v ↔ Screened caps formula v) ∧
    (∀ c, Formula.screen caps formula = .ok c →
      (¬ HidesDice formula → Formula.screen caps c = .ok c) ∧
      (HidesDice formula → Formula.screen caps c = .error .dice ∧ 'd' ∈ c.toList) ∧
      ('d' ∈ c.toList → ∀ max, ∃ why, readTerms max c = .error why)) ∧
    ('d' ∈ formula.toList → ∀ (σ : Type) [RollSource σ] (source : σ),
      ∃ why, attempt caps formula source = { result := .error why, source } ∧
        ∀ fault, why ≠ .roll fault) := by
  refine ⟨fun v => screen_eq_iff_screened, fun c hc => ⟨?_, ?_, ?_⟩, ?_⟩
  · intro hplain
    rw [screen_of_screen_eq_ok hc, if_neg (mt (asksForDice_iff_hidesDice hc).mp hplain)]
  · intro hhides
    have hdice : AsksForDice c := (asksForDice_iff_hidesDice hc).mpr hhides
    refine ⟨?_, (List.mem_filter.mp hdice.mem_visible).1⟩
    rw [screen_of_screen_eq_ok hc, if_pos hdice]
  · exact fun hd max => exists_readTerms_error_of_mem max hd
  · exact fun hd σ _ source => attempt_of_mem hd source

/-- Dice that a blank hides come to light, and a word with a `d` passes twice; neither is rolled. -/
theorem screening_verdict_hidden_dice :
    (Formula.screen {} "1d 20" = .ok "1d20" ∧ HidesDice "1d 20" ∧
      Formula.screen {} "1d20" = .error .dice ∧ (∃ why, readTerms 5 "1d20" = .error why)) ∧
    (Formula.screen {} "do nut" = .ok "donut" ∧ ¬ HidesDice "do nut" ∧
      Formula.screen {} "donut" = .ok "donut") ∧
    'd' ∈ "do nut".toList ∧ ∃ why, attempt {} "do nut" (⟨7⟩ : Fixed) =
      { result := .error why, source := ⟨7⟩ } := by
  have hdice : Formula.screen {} "1d 20" = .ok "1d20" := by decide +kernel
  have hgap : ∀ c ∈ [' '], Text.isBlank c = true := by
    intro c hc
    rw [List.mem_singleton.mp hc]
    decide
  have hhides : HidesDice "1d 20" :=
    ⟨['1'], [' '], '2', ['0'], by decide, hgap, by decide, by decide⟩
  have hnut : Formula.screen {} "do nut" = .ok "donut" := by decide +kernel
  have hplain : ¬ HidesDice "do nut" := by
    rw [← asksForDice_iff_hidesDice hnut]
    decide +kernel
  have hd : 'd' ∈ "do nut".toList := by decide
  obtain ⟨-, hagain, -⟩ := screening_verdict {} "1d 20"
  obtain ⟨-, hagain', hrolled⟩ := screening_verdict {} "do nut"
  obtain ⟨hfound, hmem⟩ := (hagain _ hdice).2.1 hhides
  obtain ⟨why, hattempt, -⟩ := hrolled hd Fixed ⟨7⟩
  exact ⟨⟨hdice, hhides, hfound, (hagain _ hdice).2.2 hmem 5⟩,
    ⟨hnut, hplain, (hagain' _ hnut).1 hplain⟩, hd, why, hattempt⟩

end CabbageFormula
