import CabbageFormula.Caps
import CabbageFormula.Reading
import CabbageFormula.Text.Blank

/-!
# Formulas

A formula arrives as a text of any kind.  It is screened first, by rules that need no
understanding of it, and then read.

* `Formula.mentionsDice` — whether a text asks for dice.
* `Formula.strip` — a text without its blanks.
* `Formula.screen` — the stripped text of a formula that passes.
* `Formula.read` — the terms of a formula.
-/

namespace CabbageFormula.Formula

/-! ## Screening -/

/-- **Whether a text asks for dice**: somewhere a `d` is directly followed by a digit. -/
def mentionsDice : List Char → Bool
  | [] => false
  | c :: cs => (c = 'd' && cs.head?.any Char.isDigit) || mentionsDice cs

@[simp] theorem mentionsDice_nil : mentionsDice [] = false := rfl

/-- A text asks for dice exactly if it has a `d` and a digit side by side. -/
theorem mentionsDice_iff {cs : List Char} :
    mentionsDice cs = true ↔
      ∃ front c back, c.isDigit = true ∧ cs = front ++ 'd' :: c :: back := by
  induction cs with
  | nil => simp
  | cons a cs ih =>
    rw [mentionsDice, Bool.or_eq_true, ih]
    constructor
    · rintro (h | ⟨front, c, back, hc, rfl⟩)
      · cases cs with
        | nil => simp at h
        | cons c back =>
          simp only [List.head?_cons, Option.any_some, Bool.and_eq_true, decide_eq_true_eq] at h
          exact ⟨[], c, back, h.2, by rw [h.1]; rfl⟩
      · exact ⟨a :: front, c, back, hc, rfl⟩
    · rintro ⟨front, c, back, hc, e⟩
      cases front with
      | nil =>
        obtain ⟨rfl, rfl⟩ := List.cons.inj e
        left
        simp [hc]
      | cons b front =>
        obtain ⟨rfl, rfl⟩ := List.cons.inj e
        exact Or.inr ⟨front, c, back, hc, rfl⟩

/-- A text without its blanks. -/
def strip (s : String) : String := String.ofList (s.toList.filter (!Text.isBlank ·))

@[simp] theorem toList_strip (s : String) :
    (strip s).toList = s.toList.filter (!Text.isBlank ·) := String.toList_ofList

/-- **Screens a formula** and strips it of blanks.  Dice are looked for in the text as it came,
however long it is, and its length counts the blanks. -/
def screen (caps : Caps) (s : String) : Except ScreenFault String :=
  if s = "" then .error .empty
  else if mentionsDice s.toList then .error .dice
  else if caps.length.toNat < s.length then .error (.lengthCap s.length caps.length)
  else if strip s = "" then .error .empty
  else .ok (strip s)

/-! ## Reading -/

/-- **The terms of a formula**: screened, stripped and read. -/
def read (caps : Caps) (s : String) : Except Rejection (List Term) :=
  match screen caps s with
  | .error why => .error (.screen why)
  | .ok stripped =>
    match readTerms caps.terms.toNat stripped with
    | .error why => .error (.read why)
    | .ok terms => .ok terms

end CabbageFormula.Formula
