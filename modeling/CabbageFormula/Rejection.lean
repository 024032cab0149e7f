import CabbageFormula.Token

/-!
# Rejections

A formula passes three stages — it is screened, read into terms, and rolled — and each stage has
faults of its own, so that the type of a stage says how it can fail.

* `ScreenFault`, `ReadFault`, `RollFault` — the faults of the stages.
* `Rejection` — why a formula was turned down, by the stage that did.
* `Rejection.message` — the reply to whoever sent the formula.  It never shows their text.
* `Rejection.detail` — the same fault with all its figures, for the journal.
-/

namespace CabbageFormula

/-! ## Screening -/

/-- **Faults of a text that has not been looked into.** -/
inductive ScreenFault where
  /-- There is nothing but blanks. -/
  | empty
  /-- It asks for dice. -/
  | dice
  /-- It has too many characters. -/
  | lengthCap (length : Nat) (max : UInt64)
deriving DecidableEq

namespace ScreenFault

/-- The reply to a fault. -/
def message : ScreenFault → String
  | empty => "NO CABBAGE ROLL SPECIFIED. TRY HARDER!"
  | dice =>
    "PATHETIC HUMAN, YOU SEEM TO BE ATTEMPTING TO ROLL DICE INSTEAD OF CABBAGES. " ++
      "TRY ROLLING CABBAGES!\n(instead of rolling 1d20, try 1c20)"
  | lengthCap .. => "CABBAGE FORMULA TOO LONG. DOES NOT COMPUTE!"

/-- A fault as the journal has it. -/
def detail : ScreenFault → String
  | empty => "EmptyInput"
  | dice => "DicePattern"
  | lengthCap length max =>
    "FormulaTooLong \x7b len: " ++ toString length ++ ", max: " ++ toString max ++ " \x7d"

end ScreenFault

/-! ## Reading -/

/-- **Faults of a text that is not a sum of terms.** -/
inductive ReadFault where
  /-- A token that cannot stand where it was found. -/
  | unexpected (found : Token) (place : Place)
  /-- One term more than the cap allows. -/
  | termCap (max : Nat)
deriving DecidableEq

namespace ReadFault

/-- The reply to a fault. -/
def message : ReadFault → String
  | unexpected .. => "PATHETIC HUMAN, YOUR CABBAGE FORMULA INVALID. TRY HARDER!"
  | termCap _ => "TOO MANY TERMS IN CABBAGE FORMULA. DOES NOT COMPUTE!"

/-- Where reading stopped, if that is the matter. -/
def place? : ReadFault → Option Place
  | unexpected _ place => some place
  | termCap _ => none

/-- A fault as the journal has it. -/
def detail : ReadFault → String
  | unexpected found place =>
    "InvalidFormula \x7b pos: " ++ place.detail ++ ", found: " ++ found.detail ++ " \x7d"
  | termCap max => "TooManyTerms \x7b max: " ++ toString max ++ " \x7d"

end ReadFault

/-! ## Rolling -/

/-- **Faults of a roll term.** -/
inductive RollFault where
  /-- More cabbages than the cap allows for one formula. -/
  | rollCap (max : UInt64)
  /-- A cabbage without sides. -/
  | noSides
  /-- More sides than the cap allows. -/
  | sideCap (sides max : UInt64)
  /-- No cabbage at all. -/
  | noRolls
deriving DecidableEq

namespace RollFault

/-- The reply to a fault. -/
def message : RollFault → String
  | rollCap _ => "I DON'T HAVE THAT MANY CABBAGES. SORRY!"
  | noSides => "I DON'T EVEN KNOW WHAT A 0-SIDED CABBAGE IS!"
  | sideCap .. => "NO CABBAGE HAS THAT MANY SIDES. SORRY!"
  | noRolls => "HOW TO ROLL NO CABBAGES? DOES NOT COMPUTE!"

/-- A fault as the journal has it. -/
def detail : RollFault → String
  | rollCap max => "TooManyRolls \x7b max: " ++ toString max ++ " \x7d"
  | noSides => "ZeroSidedDie"
  | sideCap sides max =>
    "TooManySides \x7b sides: " ++ toString sides ++ ", max: " ++ toString max ++ " \x7d"
  | noRolls => "NonPositiveCount"

end RollFault

/-! ## All stages -/

/-- **Why a formula was turned down**, by the stage that did. -/
inductive Rejection where
  | screen (why : ScreenFault)
  | read (why : ReadFault)
  | roll (why : RollFault)
deriving DecidableEq

namespace Rejection

/-- **The reply to a rejected formula.** -/
def message : Rejection → String
  | screen why => why.message
  | read why => why.message
  | roll why => why.message

/-- Where reading stopped, if that is the matter. -/
def place? : Rejection → Option Place
  | read why => why.place?
  | _ => none

/-- **A rejection as the journal has it.**  A fault of rolling is marked as such. -/
def detail : Rejection → String
  | screen why => why.detail
  | read why => why.detail
  | roll why => "Roll(" ++ why.detail ++ ")"

end Rejection

end CabbageFormula
