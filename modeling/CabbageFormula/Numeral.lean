import CabbageFormula.Word

/-!
# Numerals

A numeral is a run of the digits `0` to `9`, read in base ten.  Leading zeros are allowed and the
run may be of any length, so its value is a natural number first and a word only if it fits.

* `Numeral.value` — the decimal value of a run of digits.
* `Numeral.word?` — the same value as a word, or `none` if it is too wide.
* `Numeral.digits` — the digits of a number, without leading zeros.
* `Numeral.word?_digits` — a word that is written out reads back as itself.
-/

namespace CabbageFormula.Numeral

/-! ## Reading -/

/-- The decimal value of a run of digits. -/
def value (ds : List Char) : Nat := Nat.ofDigitChars 10 ds 0

/-- **The word that a run of digits writes**, or `none` if the value is above the greatest. -/
def word? (ds : List Char) : Option UInt64 :=
  if value ds ≤ Word.top.toNat then some (UInt64.ofNat (value ds)) else none

theorem word?_eq_some_iff {ds : List Char} {n : UInt64} :
    word? ds = some n ↔ value ds = n.toNat := by
  unfold word?
  split
  case isTrue h =>
    have hlt : value ds < UInt64.size := Nat.lt_succ_of_le h
    rw [Option.some.injEq, ← UInt64.toNat_inj, UInt64.toNat_ofNat_of_lt' hlt]
  case isFalse h =>
    have := UInt64.le_iff_toNat_le.mp (Word.le_top n)
    constructor
    · intro e; cases e
    · intro e; omega

theorem word?_eq_none_iff {ds : List Char} : word? ds = none ↔ Word.top.toNat < value ds := by
  rw [word?, ← Nat.not_le]
  split
  case isTrue h => exact iff_of_false (Option.some_ne_none _) (fun wide => wide h)
  case isFalse h => exact iff_of_true rfl h

/-! ## Writing -/

/-- The digits of a number in base ten, without leading zeros. -/
def digits (n : Nat) : List Char := Nat.toDigits 10 n

@[simp] theorem value_digits (n : Nat) : value (digits n) = n :=
  Nat.ofDigitChars_ten_toDigits

/-- **A word that is written out reads back as itself.** -/
@[simp] theorem word?_digits (n : UInt64) : word? (digits n.toNat) = some n :=
  word?_eq_some_iff.mpr (value_digits n.toNat)

theorem isDigit_of_mem_digits {n : Nat} {c : Char} (h : c ∈ digits n) : c.isDigit = true :=
  Nat.isDigit_of_mem_toDigits (by decide) (by decide) h

theorem digits_ne_nil (n : Nat) : digits n ≠ [] := Nat.toDigits_ne_nil

theorem toList_toString_nat (n : Nat) : (toString n).toList = digits n := Nat.toList_repr

@[simp] theorem toList_toString_word (n : UInt64) : (toString n).toList = digits n.toNat :=
  Nat.toList_repr

end CabbageFormula.Numeral
