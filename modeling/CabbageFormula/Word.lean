/-!
# Machine words

Counts, sides and the values of constants are words: natural numbers below `2 ^ 64`, held as
`UInt64`.  Two rules on them are needed beyond comparison.

* `Word.top` — the greatest word.  It stands in for a numeral that is too wide to be a word.
* `Word.addCapped` — addition that stops at `top`.  `Word.toNat_addCapped` says so in `Nat`.
-/

namespace CabbageFormula.Word

/-- **The greatest word**, `2 ^ 64 - 1`. -/
def top : UInt64 := 18446744073709551615

@[simp] theorem toNat_top : top.toNat = 18446744073709551615 := rfl

theorem le_top (a : UInt64) : a ≤ top := by
  have := a.toNat_lt
  rw [UInt64.le_iff_toNat_le, toNat_top]
  omega

theorem toNat_lt_top_iff {a : UInt64} : a.toNat < top.toNat ↔ a ≠ top := by
  have := a.toNat_lt
  rw [Ne, ← UInt64.toNat_inj, toNat_top]
  omega

theorem one_le_of_ne_zero {a : UInt64} (h : a ≠ 0) : 1 ≤ a := by
  rw [UInt64.le_iff_toNat_le, UInt64.toNat_one]
  exact Nat.pos_of_ne_zero fun e => h (UInt64.toNat_inj.mp e)

/-- **Addition that stops at `top`**: a sum that is too wide to be a word is cut to the greatest
one, never wrapped around. -/
def addCapped (a b : UInt64) : UInt64 :=
  if a.toNat + b.toNat ≤ top.toNat then a + b else top

theorem toNat_addCapped (a b : UInt64) :
    (addCapped a b).toNat = min top.toNat (a.toNat + b.toNat) := by
  rw [addCapped]
  split
  case isTrue h =>
    have hlt : a.toNat + b.toNat < 2 ^ 64 := by
      rw [toNat_top] at h
      omega
    rw [UInt64.toNat_add, Nat.mod_eq_of_lt hlt]
    omega
  case isFalse h => omega

theorem le_addCapped (a b : UInt64) : a ≤ addCapped a b := by
  have := a.toNat_lt
  rw [UInt64.le_iff_toNat_le, toNat_addCapped, toNat_top]
  omega

@[simp] theorem addCapped_zero (a : UInt64) : addCapped a 0 = a := by
  have := a.toNat_lt
  apply UInt64.toNat_inj.mp
  rw [toNat_addCapped, toNat_top, UInt64.toNat_zero]
  omega

end CabbageFormula.Word
