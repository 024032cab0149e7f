import CabbageFormula.Caps
import CabbageFormula.Rejection

/-!
# Draws

A roll that is within the caps becomes a draw: a request for a number of values, each the face
of a cabbage with a number of sides.

* `Draw` — a request.  A cabbage without sides cannot be asked for.
* `Draw.request` — the draw for a count and a number of sides, or the fault that forbids it.
* `Draw.request_eq_ok_iff` — when a roll is granted.
-/

namespace CabbageFormula

/-- **A request for values.** -/
structure Draw where
  /-- How many values. -/
  count : UInt64
  /-- The number of sides of each cabbage. -/
  sides : UInt64
  /-- There is a face to show. -/
  sides_ne_zero : sides ≠ 0
deriving DecidableEq

namespace Draw

/-- **Judges a roll.**  `rolls` is the number of cabbages asked for so far, these included.  The
number of cabbages is judged first, then the sides, and only then whether there is any cabbage at
all. -/
def request (caps : Caps) (rolls count sides : UInt64) : Except RollFault Draw :=
  if caps.rolls < rolls then .error (.rollCap caps.rolls)
  else if h : sides = 0 then .error .noSides
  else if caps.sides < sides then .error (.sideCap sides caps.sides)
  else if count = 0 then .error .noRolls
  else .ok ⟨count, sides, h⟩

/-- **A roll is granted** exactly if it is within the caps, has sides, and is of some cabbage; and
then the draw asks for what the roll did. -/
theorem request_eq_ok_iff {caps : Caps} {rolls count sides : UInt64} {d : Draw} :
    request caps rolls count sides = .ok d ↔
      rolls ≤ caps.rolls ∧ sides ≤ caps.sides ∧ count ≠ 0 ∧
        d.count = count ∧ d.sides = sides := by
  unfold request
  constructor
  · intro h
    split at h
    · cases h
    split at h
    · cases h
    split at h
    · cases h
    split at h
    · cases h
    cases h
    simp_all [UInt64.not_lt]
  · rintro ⟨hr, hs, hc, rfl, rfl⟩
    rw [if_neg (UInt64.not_lt.mpr hr), dif_neg d.sides_ne_zero, if_neg (UInt64.not_lt.mpr hs),
      if_neg hc]

end Draw

end CabbageFormula
