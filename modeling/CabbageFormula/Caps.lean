/-!
# Caps

Caps keep a formula, and the work it asks for, small.  Each is the greatest value that is still
accepted.

* `Caps` — the four caps, with the usual values as defaults.
-/

namespace CabbageFormula

/-- **The caps on a formula.** -/
structure Caps where
  /-- Most characters, counted before blanks are removed. -/
  length : UInt64 := 1000
  /-- Most terms. -/
  terms : UInt64 := 5
  /-- Most cabbages rolled over all terms. -/
  rolls : UInt64 := 100
  /-- Most sides of one cabbage. -/
  sides : UInt64 := 1000000000
deriving DecidableEq

end CabbageFormula
