import CabbageFormula.Proofs.Screening
import CabbageFormula.Session
import CabbageFormula.Source.Scripted

/-!
# Blanks do not matter

Blanks are removed before a formula is read, so that two formulas that differ in their blanks alone
are read as the same terms.  Only dice are looked for in a formula as it came, and a blank can hide
them: but then there is a `d` in the formula, and it cannot be read anyway.

* `visible`, `AsksForDice` — a formula without its blanks, and a `d` with a digit behind it.
* `attempt_of_asksForDice` — a formula that asks for dice is turned down for that.
* `attempt_of_hidden_dice` — if a `d` has no digit behind it, the formula cannot be read.
* `attempt_blank_insensitive` — formulas that differ in blanks alone.
-/

namespace CabbageFormula

/-- **The characters of a formula that are not blank**, in order. -/
def visible (formula : String) : List Char := formula.toList.filter fun c => !Text.isBlank c

/-- **A formula asks for dice** if it has a `d` with a digit directly behind it. -/
def AsksForDice (formula : String) : Prop :=
  ∃ front digit back, digit.isDigit = true ∧ formula.toList = front ++ 'd' :: digit :: back

lemma mentionsDice_iff_asksForDice {formula : String} :
    Formula.mentionsDice formula.toList = true ↔ AsksForDice formula :=
  Formula.mentionsDice_iff

instance (formula : String) : Decidable (AsksForDice formula) :=
  decidable_of_iff _ mentionsDice_iff_asksForDice

lemma toList_strip_eq_visible (formula : String) :
    (Formula.strip formula).toList = visible formula := Formula.toList_strip formula

lemma strip_eq_of_visible {f g : String} (h : visible f = visible g) :
    Formula.strip f = Formula.strip g := by
  apply String.toList_inj.mp
  rw [toList_strip_eq_visible, toList_strip_eq_visible, h]

lemma AsksForDice.mem_visible {formula : String} (h : AsksForDice formula) :
    'd' ∈ visible formula := by
  obtain ⟨front, digit, back, -, heq⟩ := h
  have hd : 'd' ∈ formula.toList := by simp [heq]
  exact List.mem_filter.mpr ⟨hd, by decide⟩

variable {σ : Type} [RollSource σ] {caps : Caps}

/-! ## Dice, plain and hidden -/

lemma attempt_of_asksForDice {formula : String} (h : AsksForDice formula) (source : σ) :
    attempt caps formula source = { result := .error (.screen .dice), source } := by
  have hne : formula ≠ "" := by
    rintro rfl
    exact absurd h.mem_visible (by decide)
  have hscreen : Formula.screen caps formula = .error .dice := by
    rw [Formula.screen, if_neg hne, if_pos (mentionsDice_iff_asksForDice.mpr h)]
  apply attempt_of_error
  rw [Formula.read, hscreen]

/-- **A text with a `d` is not read**, wherever it stands. -/
lemma exists_readTerms_error_of_mem (max : Nat) {s : String} (h : 'd' ∈ s.toList) :
    ∃ why, readTerms max s = .error why := by
  cases hread : readTerms max s with
  | error why => exact ⟨why, rfl⟩
  | ok terms =>
      obtain ⟨w, hw, -⟩ := exists_wording_of_readTerms hread
      rw [hw] at h
      exact absurd rfl (w.alphabet_chars 'd' h).2

/-- A `d` that has no digit behind it gets a formula no further than to the reader. -/
lemma attempt_of_hidden_dice {formula : String} (hd : 'd' ∈ visible formula)
    (hplain : ¬ AsksForDice formula) (hlength : formula.length ≤ caps.length.toNat) (source : σ) :
    ∃ why, attempt caps formula source = { result := .error (.read why), source } := by
  rw [← toList_strip_eq_visible] at hd
  obtain ⟨why, hread⟩ := exists_readTerms_error_of_mem caps.terms.toNat hd
  have hne : Formula.strip formula ≠ "" := by
    intro hempty
    rw [hempty] at hd
    exact absurd hd (by decide)
  refine ⟨why, attempt_of_error ?_ source⟩
  rw [Formula.read, Formula.screen_of_short hlength,
    if_neg (fun h => hplain (mentionsDice_iff_asksForDice.mp h)), if_neg hne]
  simp only [hread]

/-! ## Formulas that differ in blanks alone -/

/-- Of two formulas, only the first asks for dice, and is told so; the other cannot be read.
Nothing is drawn for either. -/
structure ToldApart (caps : Caps) (source : σ) (dicey plain : String) : Prop where
  dice : attempt caps dicey source = { result := .error (.screen .dice), source }
  unread : ∃ why, attempt caps plain source = { result := .error (.read why), source }

lemma toldApart {f g : String} (hsame : visible f = visible g)
    (hlength : g.length ≤ caps.length.toNat) (source : σ) (hf : AsksForDice f)
    (hg : ¬ AsksForDice g) : ToldApart caps source f g where
  dice := attempt_of_asksForDice hf source
  unread := attempt_of_hidden_dice (hsame ▸ hf.mem_visible) hg hlength source

/-- If both ask for dice or neither does, they are read alike. -/
lemma attempt_eq_of_visible {f g : String} (hsame : visible f = visible g)
    (hf : f.length ≤ caps.length.toNat) (hg : g.length ≤ caps.length.toNat)
    (hdice : AsksForDice f ↔ AsksForDice g) (source : σ) :
    attempt caps f source = attempt caps g source := by
  have hmention : Formula.mentionsDice f.toList = Formula.mentionsDice g.toList := by
    rw [Bool.eq_iff_iff, mentionsDice_iff_asksForDice, mentionsDice_iff_asksForDice, hdice]
  have hread : Formula.read caps f = Formula.read caps g := by
    rw [Formula.read, Formula.read, Formula.screen_of_short hf, Formula.screen_of_short hg,
      hmention, strip_eq_of_visible hsame]
  rw [attempt, attempt, hread]

/-- **Blanks do not matter.**  Two formulas within the cap on length that differ in blanks alone
have the same result, the same draws and events, and leave the source in the same state; unless
just one of them asks for dice, since a blank hides them in the other, and then that one is turned
down for the dice and the other cannot be read.  A formula that is accepted is accepted with the
same outcome however blanks are put in or taken out. -/
theorem attempt_blank_insensitive {f g : String} (hsame : visible f = visible g)
    (hf : f.length ≤ caps.length.toNat) (hg : g.length ≤ caps.length.toNat) (source : σ) :
    ((AsksForDice f ↔ AsksForDice g) → attempt caps f source = attempt caps g source) ∧
    (AsksForDice f → ¬ AsksForDice g → ToldApart caps source f g) ∧
    (AsksForDice g → ¬ AsksForDice f → ToldApart caps source g f) ∧
    ∀ o, (attempt caps f source).result = .ok o →
      attempt caps g source = attempt caps f source := by
  have hapart := toldApart hsame hg source
  have hapart' := toldApart hsame.symm hf source
  refine ⟨fun hdice => attempt_eq_of_visible hsame hf hg hdice source, hapart, hapart', ?_⟩
  intro o ho
  -- neither formula of an accepted pair asks for dice, since both would be turned down
  have hplain : ¬ AsksForDice f := by
    intro h
    rw [attempt_of_asksForDice h] at ho
    cases ho
  have hplain' : ¬ AsksForDice g := by
    intro h
    obtain ⟨why, hunread⟩ := (hapart' h hplain).unread
    rw [hunread] at ho
    cases ho
  exact (attempt_eq_of_visible hsame hf hg (iff_of_false hplain hplain') source).symm

/-- A blank behind the `d` hides the dice. -/
theorem toldApart_of_hidden_dice :
    visible "1d20" = visible "1d 20" ∧ "1d20".length ≤ 5 ∧ "1d 20".length ≤ 5 ∧
      AsksForDice "1d20" ∧ ¬ AsksForDice "1d 20" ∧
        ToldApart ⟨5, 2, 2, 20⟩ (⟨7⟩ : Fixed) "1d20" "1d 20" :=
  have hsame : visible "1d20" = visible "1d 20" := by decide +kernel
  have hshort : "1d20".length ≤ (5 : UInt64).toNat := by decide +kernel
  have hshort' : "1d 20".length ≤ (5 : UInt64).toNat := by decide +kernel
  have hasks : AsksForDice "1d20" := by decide +kernel
  have hplain : ¬ AsksForDice "1d 20" := by decide +kernel
  ⟨hsame, hshort, hshort', hasks, hplain,
    (attempt_blank_insensitive hsame hshort hshort' (⟨7⟩ : Fixed)).2.1 hasks hplain⟩

end CabbageFormula
