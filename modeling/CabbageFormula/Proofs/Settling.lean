import CabbageFormula.Tally
import Mathlib.Algebra.Order.Ring.Int
import Mathlib.Tactic.Lemma

/-!
# What can happen to a tally

Every operation on a tally comes down to four changes: an event is noted, entries are made, a
request for cabbages is refused, or it is granted and the values are drawn.

* `Tally.ask`, `Tally.pull` — cabbages counted as asked for, and a draw made.
* `Tally.settle_roll_of_error`, `Tally.settle_roll_of_ok` — what becomes of a roll.
* `Tally.Kept` — a property that survives the four changes.
* `Tally.Kept.run`, `Tally.Kept.performAll` — such a property survives every list of terms and
  every sequence of operations, whether they fail or not.
* `evaluate_source` — the state of a source changes by the draws that are kept, and only so.
-/

namespace CabbageFormula

variable {σ : Type}

namespace Tally

def ask (count : UInt64) (t : Tally σ) : Tally σ :=
  { t with asked := Word.addCapped t.asked count }

def pull [RollSource σ] (d : Draw) (t : Tally σ) : Tally σ :=
  { t with source := (RollSource.draw d t.source).2, draws := t.draws ++ [d] }

@[simp] lemma asked_ask (count : UInt64) (t : Tally σ) :
    (t.ask count).asked = Word.addCapped t.asked count := rfl

@[simp] lemma draws_ask (count : UInt64) (t : Tally σ) : (t.ask count).draws = t.draws := rfl

@[simp] lemma trace_ask (count : UInt64) (t : Tally σ) : (t.ask count).trace = t.trace := rfl

@[simp] lemma asked_note (e : Event) (t : Tally σ) : (t.note e).asked = t.asked := rfl

@[simp] lemma draws_note (e : Event) (t : Tally σ) : (t.note e).draws = t.draws := rfl

@[simp] lemma trace_note (e : Event) (t : Tally σ) : (t.note e).trace = t.trace := rfl

@[simp] lemma asked_enter (entries : List Entry) (t : Tally σ) :
    (t.enter entries).asked = t.asked := rfl

@[simp] lemma draws_enter (entries : List Entry) (t : Tally σ) :
    (t.enter entries).draws = t.draws := rfl

@[simp] lemma trace_enter (entries : List Entry) (t : Tally σ) :
    (t.enter entries).trace = t.trace ++ entries := rfl

section Rolling

variable [RollSource σ]

@[simp] lemma asked_pull (d : Draw) (t : Tally σ) : (t.pull d).asked = t.asked := rfl

@[simp] lemma draws_pull (d : Draw) (t : Tally σ) : (t.pull d).draws = t.draws ++ [d] := rfl

@[simp] lemma trace_pull (d : Draw) (t : Tally σ) : (t.pull d).trace = t.trace := rfl

/-! ## A cast -/

lemma cast_of_error {caps : Caps} {count sides : UInt64} {t : Tally σ} {why : RollFault}
    (h : Draw.request caps (t.ask count).asked count sides = .error why) :
    t.cast caps count sides = (.error why, t.ask count) := by
  rw [asked_ask] at h
  rw [cast]
  simp only [h, ask]

lemma cast_of_ok {caps : Caps} {count sides : UInt64} {t : Tally σ} {d : Draw}
    (h : Draw.request caps (t.ask count).asked count sides = .ok d) :
    t.cast caps count sides = (.ok (RollSource.draw d t.source).1, (t.ask count).pull d) := by
  rw [asked_ask] at h
  rw [cast]
  simp only [h, ask, pull]

lemma perform_cast (caps : Caps) (count sides : UInt64) (t : Tally σ) :
    t.perform caps (.cast count sides) = t.cast caps count sides := rfl

/-! ## A roll -/

/-- **A roll that is refused** is counted, and nothing else happens. -/
lemma settle_roll_of_error {caps : Caps} {s : Sign} {count sides : UInt64} {t : Tally σ}
    {why : RollFault} (h : Draw.request caps (t.ask count).asked count sides = .error why) :
    t.settle caps (.roll s count sides) = (.error why, t.ask count) := by
  rw [settle, cast_of_error h]

/-- **A roll that is granted** is counted and drawn, and what was drawn is entered. -/
lemma settle_roll_of_ok {caps : Caps} {s : Sign} {count sides : UInt64} {t : Tally σ} {d : Draw}
    (h : Draw.request caps (t.ask count).asked count sides = .ok d) :
    t.settle caps (.roll s count sides) =
      (.ok (), ((t.ask count).pull d).enter ((RollSource.draw d t.source).1.map (.rolled s))) := by
  rw [settle, cast_of_ok h]

/-! ## Lists of terms -/

lemma run_append_of_ok {caps : Caps} {front : List Term} {t next : Tally σ}
    (h : t.run caps front = (.ok (), next)) (back : List Term) :
    t.run caps (front ++ back) = next.run caps back := by
  induction front generalizing t with
  | nil =>
      obtain rfl : t = next := (Prod.mk.inj h).2
      rfl
  | cons term rest ih =>
      rw [List.cons_append]
      cases hsettle : (t.note (.attempting term)).settle caps term with
      | mk verdict mid =>
          cases verdict with
          | error why => rw [run_cons_of_error hsettle] at h; cases (Prod.mk.inj h).1
          | ok =>
              rw [run_cons_of_ok hsettle] at h
              rw [run_cons_of_ok hsettle, ih h]

/-! ## Properties that survive -/

/-- **A property that survives every change to a tally.** -/
structure Kept (caps : Caps) (I : Tally σ → Prop) : Prop where
  note : ∀ (t : Tally σ) (e : Event), I t → I (t.note e)
  enter : ∀ (t : Tally σ) (entries : List Entry), I t → I (t.enter entries)
  refused : ∀ (t : Tally σ) (count sides : UInt64) (why : RollFault),
    Draw.request caps (t.ask count).asked count sides = .error why → I t → I (t.ask count)
  granted : ∀ (t : Tally σ) (count sides : UInt64) (d : Draw),
    Draw.request caps (t.ask count).asked count sides = .ok d → I t → I ((t.ask count).pull d)

namespace Kept

variable {caps : Caps} {I : Tally σ → Prop}

lemma cast (k : Kept caps I) (count sides : UInt64) {t : Tally σ} (h : I t) :
    I (t.cast caps count sides).2 := by
  cases hr : Draw.request caps (t.ask count).asked count sides with
  | error why =>
      rw [cast_of_error hr]
      exact k.refused t count sides why hr h
  | ok d =>
      rw [cast_of_ok hr]
      exact k.granted t count sides d hr h

lemma settle (k : Kept caps I) (term : Term) {t : Tally σ} (h : I t) :
    I (t.settle caps term).2 := by
  cases term with
  | constant s value => exact k.enter t _ h
  | roll s count sides =>
      cases hr : Draw.request caps (t.ask count).asked count sides with
      | error why =>
          rw [settle_roll_of_error hr]
          exact k.refused t count sides why hr h
      | ok d =>
          rw [settle_roll_of_ok hr]
          exact k.enter _ _ (k.granted t count sides d hr h)

lemma perform (k : Kept caps I) (op : Operation) {t : Tally σ} (h : I t) :
    I (t.perform caps op).2 := by
  cases op with
  | cast count sides => exact k.cast count sides h
  | enter entry => exact k.enter t _ h
  | settle term =>
      have hs : I (t.settle caps term).2 := k.settle term h
      rw [Tally.perform]
      split
      case h_1 heq => rw [heq] at hs; exact hs
      case h_2 heq => rw [heq] at hs; exact hs

/-- **What survives every change survives every sequence of operations.** -/
theorem performAll (k : Kept caps I) (ops : List Operation) {t : Tally σ} (h : I t) :
    I (t.performAll caps ops) := by
  induction ops generalizing t with
  | nil => exact h
  | cons op rest ih => exact ih (k.perform op h)

/-- **What survives every change survives every list of terms.** -/
theorem run (k : Kept caps I) (terms : List Term) {t : Tally σ} (h : I t) :
    I (t.run caps terms).2 := by
  induction terms generalizing t with
  | nil => exact h
  | cons term rest ih =>
      have hs : I ((t.note (.attempting term)).settle caps term).2 := k.settle term (k.note t _ h)
      rw [Tally.run]
      split
      case h_1 heq => rw [heq] at hs; exact hs
      case h_2 heq => rw [heq] at hs; exact ih hs

end Kept

end Rolling

end Tally

/-! ## Whole evaluations -/

/-- An evaluation leaves the tally that the run through its terms leaves. -/
lemma evaluate_tally [RollSource σ] (caps : Caps) (terms : List Term) (source : σ) :
    (evaluate caps terms source).2 = (Tally.run caps terms { source := source }).2 := by
  rw [evaluate, Tally.finish]
  split
  case h_1 heq => rw [heq]
  case h_2 heq => rw [heq]

/-- **An evaluation leaves the source as its draws do.** -/
lemma evaluate_source [RollSource σ] (caps : Caps) (terms : List Term) (source : σ) :
    (evaluate caps terms source).2.source =
      RollSource.after (evaluate caps terms source).2.draws source := by
  have hkept : Tally.Kept caps fun t : Tally σ => t.source = RollSource.after t.draws source :=
    { note := fun _ _ h => h
      enter := fun _ _ h => h
      refused := fun _ _ _ _ _ h => h
      granted := by
        intro t count sides d _ h
        show (RollSource.draw d t.source).2 = RollSource.after (t.draws ++ [d]) source
        rw [RollSource.after_concat, ← h] }
  have hrun := hkept.run terms (t := { source := source }) rfl
  rw [evaluate_tally]
  exact hrun

lemma evaluate_of_error [RollSource σ] {caps : Caps} {terms : List Term} {source : σ}
    {t : Tally σ} {why : RollFault}
    (h : Tally.run caps terms { source := source } = (.error why, t)) :
    evaluate caps terms source = (.error why, t) := by
  rw [evaluate, Tally.finish, h]

lemma evaluate_of_ok [RollSource σ] {caps : Caps} {terms : List Term} {source : σ} {t : Tally σ}
    (h : Tally.run caps terms { source := source } = (.ok (), t)) :
    evaluate caps terms source = (.ok t.outcome, t) := by
  rw [evaluate, Tally.finish, h]

end CabbageFormula
