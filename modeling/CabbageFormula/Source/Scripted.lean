import CabbageFormula.Source

/-!
# Scripted sources

Sources whose values are laid down beforehand, for replaying a roll and for trying out a formula.

* `Fixed` — always the same value, whatever the sides.
* `Replay` — the values of a list in turn, over and over, brought into the range of the sides.
* `Script` — one list of values for each draw, whatever was asked for.
-/

namespace CabbageFormula

/-! ## One value -/

/-- **A source that knows one value only.** -/
structure Fixed where
  value : UInt64
deriving DecidableEq

instance : RollSource Fixed where
  draw d s := (List.replicate d.count.toNat s.value, s)

theorem Fixed.draw_eq (d : Draw) (s : Fixed) :
    RollSource.draw d s = (List.replicate d.count.toNat s.value, s) := rfl

/-! ## A list of values in turn -/

/-- **A source that goes through a list of values**, and starts over at its end.  An empty list
stands for a list of ones. -/
structure Replay where
  values : Array UInt64
  /-- How many values have been used. -/
  position : Nat := 0
deriving DecidableEq

namespace Replay

/-- A value brought into the range from one to the number of sides: counted around as often as
needed, with zero before one. -/
def face (sides value : UInt64) : UInt64 := (value - 1) % sides + 1

/-- The value at a position, counted on from the start of the list again behind its end. -/
def valueAt (s : Replay) (n : Nat) : UInt64 := s.values[n % s.values.size]?.getD 1

instance : RollSource Replay where
  draw d s :=
    ((List.range d.count.toNat).map fun i => face d.sides (s.valueAt (s.position + i)),
      { s with position := s.position + d.count.toNat })

end Replay

/-! ## A list for each draw -/

/-- **A source that plays back whole draws**, and returns nothing when it has run out of them. -/
structure Script where
  draws : List (List UInt64)
deriving DecidableEq

namespace Script

instance : RollSource Script where
  draw _ s := (s.draws.headD [], ⟨s.draws.tail⟩)

end Script

end CabbageFormula
