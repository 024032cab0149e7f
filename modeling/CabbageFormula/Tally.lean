import CabbageFormula.Journal
import CabbageFormula.Source
import CabbageFormula.Word

/-!
# Tallies

A tally is the running state while terms are rolled.  It can be worked on by hand, one operation
at a time, going on after a fault; running through a list of terms stops at the first.

* `Tally` — the state: the source, the cabbages asked for, total, trace, draws and events.
* `Tally.enter`, `Tally.cast`, `Tally.settle` — the operations: entries, cabbages, a term.
* `Operation`, `Tally.perform`, `Tally.performAll` — the operations as data.
* `Tally.run`, `Tally.finish`, `evaluate` — a list of terms.
-/

namespace CabbageFormula

variable {σ : Type}

/-! ## The state -/

/-- **The running state of an evaluation.** -/
structure Tally (σ : Type) where
  source : σ
  /-- The cabbages asked for so far, also by casts that failed; at most `Word.top`. -/
  asked : UInt64 := 0
  total : Int := 0
  trace : List Entry := []
  /-- The draws made so far. -/
  draws : List Draw := []
  /-- What happened so far. -/
  events : List Event := []

namespace Tally

/-- Total and trace so far. -/
def outcome (t : Tally σ) : Outcome := ⟨t.total, t.trace⟩

/-- Notes an event. -/
def note (e : Event) (t : Tally σ) : Tally σ := { t with events := t.events ++ [e] }

/-! ## Entries -/

/-- **Enters amounts** into total and trace, in order, and notes what cabbages showed. -/
def enter (entries : List Entry) (t : Tally σ) : Tally σ :=
  { t with
    total := entries.foldl (fun total entry => total + entry.amount) t.total
    trace := t.trace ++ entries
    events := t.events ++ entries.filterMap Event.ofEntry? }

@[simp] theorem enter_nil (t : Tally σ) : t.enter [] = t := by
  simp [enter]

/-- Entries made in two groups are entries made in one. -/
theorem enter_append (front back : List Entry) (t : Tally σ) :
    t.enter (front ++ back) = (t.enter front).enter back := by
  simp [enter]

/-! ## Cabbages -/

section Rolling

variable [RollSource σ]

/-- **Casts cabbages**, if that is granted, and returns what they showed.  They count as asked for
in any case; total and trace stay as they are. -/
def cast (caps : Caps) (count sides : UInt64) (t : Tally σ) :
    Except RollFault (List UInt64) × Tally σ :=
  let t := { t with asked := Word.addCapped t.asked count }
  match Draw.request caps t.asked count sides with
  | .error why => (.error why, t)
  | .ok d =>
    let (values, source) := RollSource.draw d t.source
    (.ok values, { t with source, draws := t.draws ++ [d] })

/-- **Settles a term**: a constant is entered at once, a roll once its cabbages have been cast. -/
def settle (caps : Caps) (term : Term) (t : Tally σ) : Except RollFault Unit × Tally σ :=
  match term with
  | .constant s value => (.ok (), t.enter [.constant s value])
  | .roll s count sides =>
    match t.cast caps count sides with
    | (.error why, t) => (.error why, t)
    | (.ok values, t) => (.ok (), t.enter (values.map (.rolled s)))

@[simp] theorem settle_constant (caps : Caps) (s : Sign) (value : UInt64) (t : Tally σ) :
    t.settle caps (.constant s value) = (.ok (), t.enter [.constant s value]) := rfl

/-! ## Lists of terms -/

/-- **Settles terms in order**, each noted beforehand, up to the first that fails. -/
def run (caps : Caps) : List Term → Tally σ → Except RollFault Unit × Tally σ
  | [], t => (.ok (), t)
  | term :: rest, t =>
    match (t.note (.attempting term)).settle caps term with
    | (.error why, t) => (.error why, t)
    | (.ok (), t) => run caps rest t

@[simp] theorem run_nil (caps : Caps) (t : Tally σ) : t.run caps [] = (.ok (), t) := rfl

theorem run_cons_of_ok {caps : Caps} {term : Term} {t next : Tally σ}
    (h : (t.note (.attempting term)).settle caps term = (.ok (), next)) (rest : List Term) :
    t.run caps (term :: rest) = next.run caps rest := by
  rw [run, h]

theorem run_cons_of_error {caps : Caps} {term : Term} {t last : Tally σ} {why : RollFault}
    (h : (t.note (.attempting term)).settle caps term = (.error why, last)) (rest : List Term) :
    t.run caps (term :: rest) = (.error why, last) := by
  rw [run, h]

/-- **Settles terms and concludes** with the outcome, if none fails. -/
def finish (caps : Caps) (terms : List Term) (t : Tally σ) :
    Except RollFault Outcome × Tally σ :=
  match t.run caps terms with
  | (.error why, t) => (.error why, t)
  | (.ok (), t) => (.ok t.outcome, t)

end Rolling

end Tally

/-- **Rolls terms** from nothing: the outcome or the first fault, and the tally that is left. -/
def evaluate [RollSource σ] (caps : Caps) (terms : List Term) (source : σ) :
    Except RollFault Outcome × Tally σ :=
  Tally.finish caps terms { source }

/-! ## Operations as data -/

/-- **Something that can be done to a tally.** -/
inductive Operation where
  /-- Casts cabbages, for what they show alone. -/
  | cast (count sides : UInt64)
  /-- Makes one entry. -/
  | enter (entry : Entry)
  /-- Settles a term. -/
  | settle (term : Term)
deriving DecidableEq

namespace Tally

variable [RollSource σ]

/-- **Performs an operation.**  The answer to a bare cast is what the cabbages showed; all other
operations have nothing to tell but whether they failed. -/
def perform (caps : Caps) (op : Operation) (t : Tally σ) :
    Except RollFault (List UInt64) × Tally σ :=
  match op with
  | .cast count sides => t.cast caps count sides
  | .enter entry => (.ok [], t.enter [entry])
  | .settle term =>
    match t.settle caps term with
    | (.error why, t) => (.error why, t)
    | (.ok (), t) => (.ok [], t)

/-- **The tally that operations leave**, performed one after the other, whether they fail or
not. -/
def performAll (caps : Caps) : List Operation → Tally σ → Tally σ
  | [], t => t
  | op :: rest, t => performAll caps rest (t.perform caps op).2

@[simp] theorem performAll_nil (caps : Caps) (t : Tally σ) : t.performAll caps [] = t := rfl

@[simp] theorem performAll_cons (caps : Caps) (op : Operation) (rest : List Operation)
    (t : Tally σ) :
    t.performAll caps (op :: rest) = (t.perform caps op).2.performAll caps rest := rfl

theorem performAll_append (caps : Caps) (front back : List Operation) (t : Tally σ) :
    t.performAll caps (front ++ back) = (t.performAll caps front).performAll caps back := by
  induction front generalizing t with
  | nil => rfl
  | cons op rest ih => simp [ih]

end Tally

end CabbageFormula
