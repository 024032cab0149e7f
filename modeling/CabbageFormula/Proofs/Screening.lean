import CabbageFormula.Formula
import CabbageFormula.Proofs.Grammar

/-!
# Formulas that are screened and read

A formula is screened as it came: for dice, for its length, and for what is left of it without
blanks.  What is left is read, and it is read only if it is a wording.

* `Blank` — texts with nothing but blanks.
* `Formula.screen_eq_ok_iff` — which formulas pass the screening, and as what.
* `Formula.screen_of_short` — a formula within the cap on length can only fail for dice, or for
  having nothing but blanks.
* `Wording.alphabet_chars`, `Formula.strip_chars` — a wording has no blanks, and no `d`.
* `Formula.read_cases`, `Formula.read_chars` — a formula that is read is a wording, and conversely.
-/

namespace CabbageFormula

/-! ## Screening -/

/-- **A blank text** has nothing but blanks. -/
def Blank (line : String) : Prop := ∀ c ∈ line.toList, Text.isBlank c = true

lemma Formula.strip_eq_empty_iff {s : String} : Formula.strip s = "" ↔ Blank s := by
  rw [← String.toList_inj, Formula.toList_strip]
  simp [Blank]

/-- **A formula passes** if it does not ask for dice, is short enough, and is not blank; and then it
loses its blanks. -/
lemma Formula.screen_eq_ok_iff {caps : Caps} {formula stripped : String} :
    Formula.screen caps formula = .ok stripped ↔
      Formula.mentionsDice formula.toList = false ∧ formula.length ≤ caps.length.toNat ∧
        Formula.strip formula ≠ "" ∧ stripped = Formula.strip formula := by
  -- the test for the empty formula adds nothing to that for a blank one but the order of the faults
  have hempty : formula = "" → Formula.strip formula = "" := by
    rintro rfl
    rfl
  rw [Formula.screen, ← Nat.not_lt, ← Bool.not_eq_true]
  constructor
  · intro h
    split at h
    case isTrue => cases h
    case isFalse =>
      split at h
      case isTrue => cases h
      case isFalse hdice =>
        split at h
        case isTrue => cases h
        case isFalse hlength =>
          split at h
          case isTrue => cases h
          case isFalse hblank => exact ⟨hdice, hlength, hblank, (Except.ok.inj h).symm⟩
  · rintro ⟨hdice, hlength, hblank, rfl⟩
    rw [if_neg (fun h => hblank (hempty h)), if_neg hdice, if_neg hlength, if_neg hblank]

/-- **Within the cap on length**, only dice and blanks matter. -/
lemma Formula.screen_of_short {caps : Caps} {formula : String}
    (h : formula.length ≤ caps.length.toNat) :
    Formula.screen caps formula =
      if Formula.mentionsDice formula.toList then .error .dice
      else if Formula.strip formula = "" then .error .empty
      else .ok (Formula.strip formula) := by
  rw [Formula.screen]
  by_cases hempty : formula = ""
  · subst hempty
    rfl
  · rw [if_neg hempty, if_neg (Nat.not_lt.mpr h)]

/-! ## Formulas and wordings -/

lemma Wording.alphabet_chars (w : Wording) :
    ∀ c ∈ w.chars, Text.isBlank c = false ∧ c ≠ 'd' := by
  intro c hc
  rcases w.tidy_chars.alphabet c hc with h | rfl | rfl | rfl
  · refine ⟨Text.isBlank_eq_false_of_isDigit h, ?_⟩
    rintro rfl
    cases h
  · exact ⟨by decide, by decide⟩
  · exact ⟨by decide, by decide⟩
  · exact ⟨by decide, by decide⟩

lemma Wording.mentionsDice_chars (w : Wording) : Formula.mentionsDice w.chars = false := by
  rw [← Bool.not_eq_true, Formula.mentionsDice_iff]
  rintro ⟨front, c, back, -, heq⟩
  exact (w.alphabet_chars 'd' (by rw [heq]; simp)).2 rfl

lemma Formula.strip_chars (w : Wording) :
    Formula.strip (String.ofList w.chars) = String.ofList w.chars := by
  apply String.toList_inj.mp
  rw [Formula.toList_strip, String.toList_ofList, List.filter_eq_self]
  intro c hc
  rw [(w.alphabet_chars c hc).1, Bool.not_false]

/-- **A formula that is read is a wording**; any other is turned down before it is rolled. -/
lemma Formula.read_cases (caps : Caps) (formula : String) :
    (∃ why, Formula.read caps formula = .error (.screen why)) ∨
      (∃ why, Formula.read caps formula = .error (.read why)) ∨
        ∃ w : Wording, (Formula.strip formula).toList = w.chars ∧ w.Fits ∧
          Formula.read caps formula = .ok w.terms := by
  rw [Formula.read]
  cases hscreen : Formula.screen caps formula with
  | error why => exact Or.inl ⟨why, rfl⟩
  | ok stripped =>
      obtain ⟨-, -, -, rfl⟩ := Formula.screen_eq_ok_iff.mp hscreen
      simp only
      cases hread : readTerms caps.terms.toNat (Formula.strip formula) with
      | error why => exact Or.inr (Or.inl ⟨why, rfl⟩)
      | ok terms =>
          obtain ⟨w, hw, hfits, -, rfl⟩ := exists_wording_of_readTerms hread
          exact Or.inr (Or.inr ⟨w, hw, hfits, rfl⟩)

/-- **A wording that the caps have room for is read as its terms.** -/
lemma Formula.read_chars {caps : Caps} {w : Wording} (hfits : w.Fits)
    (hlength : w.chars.length ≤ caps.length.toNat) (hterms : w.summands.length ≤ caps.terms.toNat) :
    Formula.read caps (String.ofList w.chars) = .ok w.terms := by
  have hlist : (String.ofList w.chars).toList = w.chars := String.toList_ofList
  have hne : String.ofList w.chars ≠ "" := by
    intro h
    obtain ⟨c, hc, -⟩ := w.tidy_chars.ends_in_digit
    rw [← hlist, h] at hc
    cases hc
  have hscreen : Formula.screen caps (String.ofList w.chars) = .ok (String.ofList w.chars) := by
    rw [Formula.screen_eq_ok_iff, hlist, String.length_ofList, Formula.strip_chars]
    exact ⟨w.mentionsDice_chars, hlength, hne, rfl⟩
  rw [Formula.read, hscreen]
  simp only [readTerms_chars hlist hfits hterms]

end CabbageFormula
