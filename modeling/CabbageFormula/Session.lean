import CabbageFormula.Formula
import CabbageFormula.Tally

/-!
# Sessions

A session answers one formula after the other.  All that lasts from one to the next is the state
of the source and the caps in force; every formula starts with a tally of its own.

* `Attempt`, `attempt` — a formula rolled from a state of the source, and all there is to know.
* `Attempt.reply`, `Attempt.journal` — the reply to it, and its events with the verdict.
* `Session`, `Step`, `Session.serve` — steps that share a source.
* `Session.serveAll` — a list of steps, with the answer to each.
-/

namespace CabbageFormula

variable {σ : Type}

/-! ## One formula -/

/-- **What came of a formula.** -/
structure Attempt (σ : Type) where
  result : Except Rejection Outcome
  /-- The state that the source was left in. -/
  source : σ
  /-- The draws made for it. -/
  draws : List Draw := []
  /-- What happened while its terms were rolled. -/
  events : List Event := []

/-- **Rolls a formula** within caps: the first stage that turns it down has the word, and the
source is not touched before its terms are rolled. -/
def attempt [RollSource σ] (caps : Caps) (formula : String) (source : σ) : Attempt σ :=
  match Formula.read caps formula with
  | .error why => { result := .error why, source }
  | .ok terms =>
    let (result, t) := evaluate caps terms source
    { result := result.mapError .roll, source := t.source, draws := t.draws, events := t.events }

theorem attempt_of_error [RollSource σ] {caps : Caps} {formula : String} {why : Rejection}
    (h : Formula.read caps formula = .error why) (source : σ) :
    attempt caps formula source = { result := .error why, source } := by
  rw [attempt, h]

/-- A formula that can be read is as good as its terms. -/
theorem attempt_of_ok [RollSource σ] {caps : Caps} {formula : String} {terms : List Term}
    (h : Formula.read caps formula = .ok terms) (source : σ) :
    attempt caps formula source =
      { result := (evaluate caps terms source).1.mapError .roll
        source := (evaluate caps terms source).2.source
        draws := (evaluate caps terms source).2.draws
        events := (evaluate caps terms source).2.events } := by
  rw [attempt, h]

/-- The reply to a formula: its outcome, or why it was turned down. -/
def replyTo : Except Rejection Outcome → String
  | .ok outcome => outcome.text
  | .error why => why.message

namespace Attempt

/-- **The reply to a formula.** -/
def reply (a : Attempt σ) : String := replyTo a.result

/-- **The events of a formula that is replied to**: those of its terms, and the verdict. -/
def journal (formula : String) (a : Attempt σ) : List Event :=
  a.events ++ [.verdict formula a.result]

end Attempt

/-! ## Sessions -/

/-- **A source in use, and the caps in force.** -/
structure Session (σ : Type) where
  source : σ
  caps : Caps := {}

/-- **What can be asked of a session.** -/
inductive Step where
  /-- Rolls a formula and replies to it. -/
  | roll (formula : String)
  /-- Rolls a formula for its result alone; there is no verdict in the journal. -/
  | probe (formula : String)
  /-- Puts other caps in force. -/
  | adopt (caps : Caps)
deriving DecidableEq

/-- **The answer to a step.** -/
structure Answer where
  /-- What came of the formula, if the step has one. -/
  result? : Option (Except Rejection Outcome)
  draws : List Draw
  events : List Event

namespace Session

variable [RollSource σ]

/-- Rolls a formula in a session. -/
def attempt (formula : String) (s : Session σ) : Attempt σ :=
  CabbageFormula.attempt s.caps formula s.source

/-- **Takes one step.** -/
def serve (step : Step) (s : Session σ) : Answer × Session σ :=
  match step with
  | .roll formula =>
    let a := s.attempt formula
    (⟨some a.result, a.draws, a.journal formula⟩, { s with source := a.source })
  | .probe formula =>
    let a := s.attempt formula
    (⟨some a.result, a.draws, a.events⟩, { s with source := a.source })
  | .adopt caps => (⟨none, [], []⟩, { s with caps })

/-- **Takes steps in order**, and returns the answer to each. -/
def serveAll : List Step → Session σ → List Answer × Session σ
  | [], s => ([], s)
  | step :: rest, s =>
    let (answer, next) := s.serve step
    let (answers, last) := serveAll rest next
    (answer :: answers, last)

@[simp] theorem serveAll_nil (s : Session σ) : s.serveAll [] = ([], s) := rfl

@[simp] theorem serveAll_cons (step : Step) (rest : List Step) (s : Session σ) :
    s.serveAll (step :: rest) =
      ((s.serve step).1 :: ((s.serve step).2.serveAll rest).1,
        ((s.serve step).2.serveAll rest).2) := rfl

end Session

end CabbageFormula
