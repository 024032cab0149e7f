import CabbageFormula.Outcome
import CabbageFormula.Rejection
import CabbageFormula.Term

/-!
# The journal

While a formula is rolled, what happens is noted as a list of events.  An event is a value; only
its record, one line of text, depends on how the journal is kept.

* `Event` — something that happened.
* `Event.level`, `Event.target`, `Event.message` — the parts of its record.
* `Event.record` — the record, on one line.
* `Level`, `Threshold` — how detailed a record is, and which records are kept.
* `records` — the records of events that a threshold lets pass, in order.
-/

namespace CabbageFormula

/-! ## Levels -/

/-- **How detailed a record is**, from the gravest to the finest. -/
inductive Level where
  | error
  | warn
  | info
  | debug
  | trace
deriving DecidableEq

namespace Level

/-- All levels, from the gravest to the finest. -/
def all : List Level := [error, warn, info, debug, trace]

/-- The place of a level in that order. -/
def rank : Level → Nat
  | error => 1
  | warn => 2
  | info => 3
  | debug => 4
  | trace => 5

/-- The name of a level, in capitals. -/
def name : Level → String
  | error => "ERROR"
  | warn => "WARN"
  | info => "INFO"
  | debug => "DEBUG"
  | trace => "TRACE"

end Level

/-- **The finest level that is kept**, or `none` to keep nothing. -/
abbrev Threshold := Option Level

namespace Threshold

/-- Whether records of a level are kept. -/
def keeps (t : Threshold) (l : Level) : Bool := t.any (l.rank ≤ ·.rank)

/-- The threshold that a name stands for, in letters of any case. -/
def ofName? (name : String) : Option Threshold :=
  let name := name.map Char.toUpper
  if name = "OFF" then some none
  else (Level.all.find? fun l => decide (l.name = name)).map some

end Threshold

/-! ## Events -/

/-- **Something that happened while a formula was rolled.** -/
inductive Event where
  /-- A term is about to be rolled. -/
  | attempting (term : Term)
  /-- A cabbage showed a value, which counts with a sign. -/
  | rolled (sign : Sign) (value : UInt64)
  /-- A formula was rolled. -/
  | accepted (formula : String) (outcome : Outcome)
  /-- A formula was turned down. -/
  | rejected (formula : String) (why : Rejection)
deriving DecidableEq

namespace Event

/-- The event that ends the rolling of a formula. -/
def verdict (formula : String) : Except Rejection Outcome → Event
  | .ok outcome => accepted formula outcome
  | .error why => rejected formula why

/-- The event of an entry.  A constant is none: its term says all. -/
def ofEntry? : Entry → Option Event
  | .constant .. => none
  | .rolled sign value => some (rolled sign value)

@[simp] theorem ofEntry?_constant (s : Sign) (v : UInt64) : ofEntry? (.constant s v) = none := rfl

@[simp] theorem ofEntry?_rolled (s : Sign) (v : UInt64) :
    ofEntry? (.rolled s v) = some (.rolled s v) := rfl

/-- How detailed an event is. -/
def level : Event → Level
  | attempting _ => .trace
  | rolled .. => .trace
  | accepted .. => .debug
  | rejected .. => .debug

/-- Which part of the program an event is of. -/
def target : Event → String
  | attempting _ => "cabbage_roll::roll::ctx"
  | rolled .. => "cabbage_roll::roll::ctx"
  | accepted .. => "cabbage_roll::evaluator"
  | rejected .. => "cabbage_roll::evaluator"

/-- **What an event says.**  Text that came from outside is quoted. -/
def message : Event → String
  | attempting term => "evaluating term " ++ term.text
  | rolled sign value => "rolled " ++ (Entry.rolled sign value).text
  | accepted formula outcome => "rolled " ++ Text.quote formula ++ ": " ++ outcome.text
  | rejected formula why =>
    match why.place? with
    | some place =>
      "rejected " ++ Text.quote formula ++ " at " ++ place.text ++ ": " ++ why.detail
    | none => "rejected " ++ Text.quote formula ++ ": " ++ why.detail

/-- **The record of an event**, on one line. -/
def record (e : Event) : String :=
  "[" ++ e.level.name ++ "] " ++ e.target ++ ": " ++ e.message

end Event

/-- **The records of events** that a threshold lets pass, in order. -/
def records (t : Threshold) (events : List Event) : List String :=
  (events.filter (t.keeps ·.level)).map Event.record

@[simp] theorem records_none (events : List Event) : records none events = [] := by
  rw [records, List.filter_eq_nil_iff.mpr (by simp [Threshold.keeps]), List.map_nil]

theorem records_append (t : Threshold) (front back : List Event) :
    records t (front ++ back) = records t front ++ records t back := by
  simp [records]

end CabbageFormula
