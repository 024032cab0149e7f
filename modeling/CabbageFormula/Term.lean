import CabbageFormula.Numeral
import CabbageFormula.Sign

/-!
# Terms

A formula is a sum of signed terms: constants, and rolls of a number of cabbages.

* `Term` — a term.  Neither the count nor the sides of a roll are bounded here.
* `Term.text` — a term with its sign and, for a roll, its count written out.
-/

namespace CabbageFormula

/-- **A signed term of a formula.** -/
inductive Term where
  /-- A fixed value. -/
  | constant (sign : Sign) (value : UInt64)
  /-- A roll of `count` cabbages with `sides` sides each. -/
  | roll (sign : Sign) (count sides : UInt64)
deriving DecidableEq

namespace Term

/-- **A term as text**, with its sign and its count always written. -/
def text : Term → String
  | constant s value => s.text ++ toString value
  | roll s count sides => s.text ++ toString count ++ "c" ++ toString sides

@[simp] theorem toList_text_constant (s : Sign) (value : UInt64) :
    (constant s value).text.toList = s.char :: Numeral.digits value.toNat := by
  simp [text]

@[simp] theorem toList_text_roll (s : Sign) (count sides : UInt64) :
    (roll s count sides).text.toList =
      s.char :: (Numeral.digits count.toNat ++ 'c' :: Numeral.digits sides.toNat) := by
  simp [text]

end Term

end CabbageFormula
