/-!
# Character classes given by ranges

A class of characters is written as the list of the ranges of code points that it holds, each by
its first and its last member.

* `Ranges.holds` — membership of a character.
* `Ranges.holds_iff` — a character is in the class exactly if some range has it.
-/

namespace CabbageFormula.Text

/-- Ranges of code points, each given by its first and its last member. -/
abbrev Ranges := List (Nat × Nat)

/-- **Membership**: whether some range has the character. -/
def Ranges.holds (ranges : Ranges) (c : Char) : Bool :=
  ranges.any fun (first, last) => first ≤ c.toNat && c.toNat ≤ last

theorem Ranges.holds_iff {ranges : Ranges} {c : Char} :
    ranges.holds c = true ↔ ∃ r ∈ ranges, r.1 ≤ c.toNat ∧ c.toNat ≤ r.2 := by
  simp [Ranges.holds]

end CabbageFormula.Text
