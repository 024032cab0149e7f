import CabbageFormula.Text.Quoted

/-!
# Places

A place is a stretch of a text: where it starts, counted in bytes of UTF-8, and what it says.
Where it stops follows from these two.  A place that says nothing is the end of the text.

* `Place.stop`, `Place.ending` — the end of a place, and the end of a text as a place.
* `Place.text` — a place as a reader sees it.
* `Place.detail` — a place with its byte range, as the journal has it.
-/

namespace CabbageFormula

/-- **A stretch of a text.** -/
structure Place where
  /-- How many bytes stand before it. -/
  start : Nat
  /-- What it says. -/
  slice : String
deriving DecidableEq

namespace Place

/-- How many bytes stand before what follows it. -/
def stop (p : Place) : Nat := p.start + p.slice.utf8ByteSize

/-- **The end of a text**, behind all its bytes. -/
def ending (s : String) : Place := ⟨s.utf8ByteSize, ""⟩

@[simp] theorem start_ending (s : String) : (ending s).start = s.utf8ByteSize := rfl

@[simp] theorem slice_ending (s : String) : (ending s).slice = "" := rfl

@[simp] theorem stop_ending (s : String) : (ending s).stop = s.utf8ByteSize := rfl

/-- **A place for a reader**: what it says, quoted, and where it starts. -/
def text (p : Place) : String :=
  if p.slice = "" then "end of formula (position " ++ toString p.start ++ ")"
  else Text.quote p.slice ++ " at position " ++ toString p.start

/-- **A place in full**: its byte range and what it says. -/
def detail (p : Place) : String :=
  "SourcePosition \x7b span: " ++ toString p.start ++ ".." ++ toString p.stop ++ ", slice: " ++
    Text.quote p.slice ++ " \x7d"

end Place

end CabbageFormula
