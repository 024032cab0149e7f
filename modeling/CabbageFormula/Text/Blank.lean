import CabbageFormula.Text.Ranges

/-!
# Blank characters

The characters with the Unicode property `White_Space`: 25 of them, among them the line
separators and the wide spaces.

* `isBlank` — the test.
* `isBlank_eq_false_of_isDigit` — no digit is blank.
-/

namespace CabbageFormula.Text

/-- The ranges of the property `White_Space`. -/
def blankRanges : Ranges :=
  [(0x9, 0xD), (0x20, 0x20), (0x85, 0x85), (0xA0, 0xA0), (0x1680, 0x1680), (0x2000, 0x200A),
    (0x2028, 0x2029), (0x202F, 0x202F), (0x205F, 0x205F), (0x3000, 0x3000)]

/-- **Whether a character is blank.** -/
def isBlank (c : Char) : Bool := blankRanges.holds c

theorem isBlank_eq_false_of_isDigit {c : Char} (h : c.isDigit = true) : isBlank c = false := by
  rw [Char.isDigit_iff_toNat] at h
  rw [← Bool.not_eq_true, isBlank, Ranges.holds_iff]
  rintro ⟨r, hr, lo, hi⟩
  simp only [blankRanges, List.mem_cons, List.not_mem_nil, or_false] at hr
  rcases hr with rfl | rfl | rfl | rfl | rfl | rfl | rfl | rfl | rfl | rfl <;> simp_all <;> omega

end CabbageFormula.Text
