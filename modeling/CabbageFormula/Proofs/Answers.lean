import CabbageFormula.Proofs.Sessions
import CabbageFormula.Proofs.Weaving

/-!
# What a source answers, and what is made of it

A run through terms asks the source for one draw after the other.  Its answers to these draws are
all that the run takes from it: what is entered in the trace, and what is noted in the journal, can
be told from the terms and the answers.

* `RollSource.answers` — the answers to a list of draws.
* `recount` — the events of terms whose rolls show given values.
* `Tally.Follows`, `Tally.exists_follows_of_run` — **what a run leaves behind**.
* `evaluate_follows_of_granted`, `evaluate_follows_of_firstFault` — the same for evaluations.
-/

namespace CabbageFormula

variable {σ : Type} [RollSource σ]

/-! ## Answers -/

namespace RollSource

/-- **The answers to draws**, made one after the other. -/
def answers : List Draw → σ → List (List UInt64)
  | [], _ => []
  | d :: rest, source => (draw d source).1 :: answers rest (draw d source).2

@[simp] lemma answers_nil (source : σ) : answers [] source = [] := rfl

@[simp] lemma answers_cons (d : Draw) (rest : List Draw) (source : σ) :
    answers (d :: rest) source = (draw d source).1 :: answers rest (draw d source).2 := rfl

lemma answers_append (front back : List Draw) (source : σ) :
    answers (front ++ back) source =
      answers front source ++ answers back (after front source) := by
  induction front generalizing source with
  | nil => rfl
  | cons d rest ih => rw [List.cons_append, answers_cons, ih, answers_cons, after_cons,
      List.cons_append]

lemma length_answers (draws : List Draw) (source : σ) :
    (answers draws source).length = draws.length := by
  induction draws generalizing source with
  | nil => rfl
  | cons d rest ih => rw [answers_cons, List.length_cons, List.length_cons, ih]

end RollSource

/-! ## Events -/

/-- **The events of terms** whose rolls show given values, one group for each roll. -/
def recount : List Term → List (List UInt64) → List Event
  | [], _ => []
  | .constant s v :: terms, groups => .attempting (.constant s v) :: recount terms groups
  | .roll s count sides :: terms, groups =>
    .attempting (.roll s count sides) ::
      ((groups.headD []).map (.rolled s) ++ recount terms groups.tail)

@[simp] lemma recount_constant (s : Sign) (v : UInt64) (terms : List Term)
    (groups : List (List UInt64)) :
    recount (.constant s v :: terms) groups =
      .attempting (.constant s v) :: recount terms groups := rfl

lemma recount_roll_groups (s : Sign) (count sides : UInt64) (terms : List Term)
    (groups : List (List UInt64)) :
    recount (.roll s count sides :: terms) groups =
      .attempting (.roll s count sides) ::
        ((groups.headD []).map (.rolled s) ++ recount terms groups.tail) := rfl

@[simp] lemma recount_roll (s : Sign) (count sides : UInt64) (terms : List Term)
    (values : List UInt64) (groups : List (List UInt64)) :
    recount (.roll s count sides :: terms) (values :: groups) =
      .attempting (.roll s count sides) :: (values.map (.rolled s) ++ recount terms groups) := rfl

/-! ## Runs -/

namespace Tally

/-- **What a run through terms leaves behind** if none of them fails: some draws, and what is made
of the answers to them. -/
structure Follows (after before : Tally σ) (terms : List Term) (draws : List Draw) : Prop where
  draws_eq : after.draws = before.draws ++ draws
  trace_eq : after.trace = before.trace ++ weave terms (RollSource.answers draws before.source)
  events_eq : after.events = before.events ++ recount terms (RollSource.answers draws before.source)

lemma Follows.constant {next last : Tally σ} {terms : List Term} {draws : List Draw} {s : Sign}
    {v : UInt64} {t : Tally σ} (h : last.Follows next terms draws)
    (hnext : next = (t.note (.attempting (.constant s v))).enter [.constant s v]) :
    last.Follows t (.constant s v :: terms) draws := by
  subst hnext
  refine ⟨h.draws_eq, ?_, ?_⟩
  · rw [h.trace_eq, weave_constant]
    exact List.append_assoc t.trace [.constant s v] _
  · rw [h.events_eq, recount_constant]
    simp [enter, note]

lemma Follows.roll {next last : Tally σ} {terms : List Term} {draws : List Draw} {s : Sign}
    {count sides : UInt64} {d : Draw} {t : Tally σ} (h : last.Follows next terms draws)
    (hnext : next =
      (((t.note (.attempting (.roll s count sides))).ask count).pull d).enter
        ((RollSource.draw d t.source).1.map (.rolled s))) :
    last.Follows t (.roll s count sides :: terms) (d :: draws) := by
  subst hnext
  refine ⟨?_, ?_, ?_⟩
  · rw [h.draws_eq]
    exact List.append_assoc t.draws [d] _
  · rw [h.trace_eq, RollSource.answers_cons, weave_roll]
    exact List.append_assoc t.trace _ _
  · rw [h.events_eq, RollSource.answers_cons, recount_roll]
    simp only [enter, note, ask, pull, List.filterMap_map, List.append_assoc]
    have hnoted : Event.ofEntry? ∘ Entry.rolled s = some ∘ Event.rolled s := rfl
    rw [hnoted, List.filterMap_eq_map]
    rfl

/-- **A run that does not fail** leaves what is made of the answers to its draws. -/
lemma exists_follows_of_run {caps : Caps} (terms : List Term) :
    ∀ {t last : Tally σ}, t.run caps terms = (.ok (), last) →
      ∃ draws, last.Follows t terms draws := by
  induction terms with
  | nil =>
      intro t last h
      obtain rfl : t = last := (Prod.mk.inj h).2
      exact ⟨[], by simp, by simp [weave], by simp [recount]⟩
  | cons term rest ih =>
      intro t last h
      cases term with
      | constant s v =>
          rw [run_cons_of_ok (settle_constant caps s v _)] at h
          obtain ⟨draws, hrest⟩ := ih h
          exact ⟨draws, hrest.constant rfl⟩
      | roll s count sides =>
          let noted := t.note (.attempting (.roll s count sides))
          cases hr : Draw.request caps (noted.ask count).asked count sides with
          | error why =>
              rw [run_cons_of_error (settle_roll_of_error hr)] at h
              cases (Prod.mk.inj h).1
          | ok d =>
              rw [run_cons_of_ok (settle_roll_of_ok hr)] at h
              obtain ⟨draws, hrest⟩ := ih h
              exact ⟨d :: draws, hrest.roll rfl⟩

end Tally

/-! ## Evaluations -/

variable {caps : Caps} {terms : List Term}

/-- **Terms that are granted** come to what is woven of the answers to their draws, and the events
recount them. -/
lemma evaluate_follows_of_granted (source : σ) (h : Granted caps terms) :
    ∃ o, (evaluate caps terms source).1 = .ok o ∧
      o.trace = weave terms (RollSource.answers (evaluate caps terms source).2.draws source) ∧
        (evaluate caps terms source).2.events =
          recount terms (RollSource.answers (evaluate caps terms source).2.draws source) := by
  obtain ⟨last, hrun, -, -⟩ := run_of_granted source h
  obtain ⟨draws, hlast⟩ := Tally.exists_follows_of_run terms hrun
  have hdraws : last.draws = draws := hlast.draws_eq
  rw [evaluate_of_ok hrun, hdraws]
  exact ⟨_, rfl, hlast.trace_eq, hlast.events_eq⟩

/-- **Terms that have a fault** leave what the terms in front of the first would have left, and the
one event that the next was attempted. -/
lemma evaluate_follows_of_firstFault {front : List Term} (source : σ) {why : RollFault}
    (h : FirstFault caps terms front why) :
    ∃ term back, terms = front ++ term :: back ∧ faultBehind caps front term = some why ∧
      (evaluate caps terms source).2.trace =
          weave front (RollSource.answers (evaluate caps terms source).2.draws source) ∧
        (evaluate caps terms source).2.events =
          recount front (RollSource.answers (evaluate caps terms source).2.draws source) ++
            [.attempting term] := by
  obtain ⟨mid, term, count, back, hterms, hfault, hfront, -, hrun⟩ :=
    exists_run_of_firstFault source h
  obtain ⟨draws, hmid⟩ := Tally.exists_follows_of_run front hfront
  have hdraws : mid.draws = draws := hmid.draws_eq
  have hevents : mid.events = recount front (RollSource.answers draws source) := hmid.events_eq
  rw [evaluate_of_error hrun, Tally.draws_ask, Tally.draws_note, hdraws]
  refine ⟨term, back, hterms, hfault, hmid.trace_eq, ?_⟩
  rw [← hevents]
  rfl

end CabbageFormula
