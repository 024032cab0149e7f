import CabbageFormula.Proofs.Screening
import CabbageFormula.Proofs.Verdict
import CabbageFormula.Session
import CabbageFormula.Source.Scripted

/-!
# The course of a session

What a step gets is settled by its formula, the caps in force and the state of the source, and of
all steps before it only two things last: the draws that were made and the caps that were adopted.
A formula that is turned down before it is rolled leaves neither, so that such steps can be deleted
and nothing changes for the others.

* `attempt_source` — the state of a source changes by the draws, and only so.
* `Session.Gets`, `Session.gets_iff` — **what a step gets**: every rule for an answer, and that
  there is always just one.
* `Session.behind` — the session behind steps and their answers.
* `TurnedAway`, `Thinned` — formulas that are not rolled, and lists from which some were deleted.
* `Session.Course`, `Session.course_transcript` — the course of every session.
-/

namespace CabbageFormula

variable {σ : Type} [RollSource σ]

/-! ## The state of a source -/

lemma attempt_source (caps : Caps) (formula : String) (source : σ) :
    (attempt caps formula source).source =
      RollSource.after (attempt caps formula source).draws source := by
  cases hread : Formula.read caps formula with
  | error why =>
      rw [attempt_of_error hread]
      rfl
  | ok terms =>
      rw [attempt_of_ok hread]
      exact evaluate_source caps terms source

/-! ## Steps -/

namespace Step

/-- The formula of a step, if it has one. -/
def formula? : Step → Option String
  | roll formula => some formula
  | probe formula => some formula
  | adopt _ => none

/-- The caps in force behind a step. -/
def capsBehind (caps : Caps) : Step → Caps
  | adopt adopted => adopted
  | _ => caps

lemma capsBehind_of_formula {step : Step} {formula : String} (h : step.formula? = some formula)
    (caps : Caps) : step.capsBehind caps = caps := by
  cases step with
  | roll f => rfl
  | probe f => rfl
  | adopt adopted => cases h

/-- What a step has in the journal when its formula has been dealt with. -/
def closing (result : Except Rejection Outcome) : Step → List Event
  | roll formula => [.verdict formula result]
  | _ => []

end Step

namespace Session

/-- **What a step gets** in a session.  Caps are adopted without a word.  A formula that cannot be
read is turned away without a draw.  Any other is rolled from a tally in which nothing has been
asked for, added up or entered yet; it fails at its first fault, with the draws for the rolls in
front of it, or all of its rolls are drawn. -/
inductive Gets (now : Session σ) : Step → Answer → Prop where
  | adopted (caps : Caps) : Gets now (.adopt caps) ⟨none, [], []⟩
  | turnedAway {step : Step} {formula : String} {why : Rejection}
      (hformula : step.formula? = some formula)
      (hread : Formula.read now.caps formula = .error why) :
      Gets now step ⟨some (.error why), [], step.closing (.error why)⟩
  | failed {step : Step} {formula : String} {terms front : List Term} {why : RollFault}
      {t : Tally σ} (hformula : step.formula? = some formula)
      (hread : Formula.read now.caps formula = .ok terms)
      (hfault : FirstFault now.caps terms front why)
      (hfresh : Tally.finish now.caps terms ⟨now.source, 0, 0, [], [], []⟩ = (.error why, t))
      (hdraws : t.draws.map Draw.asks = rolls front) :
      Gets now step
        ⟨some (.error (.roll why)), t.draws, t.events ++ step.closing (.error (.roll why))⟩
  | rolled {step : Step} {formula : String} {terms : List Term} {o : Outcome} {t : Tally σ}
      (hformula : step.formula? = some formula)
      (hread : Formula.read now.caps formula = .ok terms)
      (hgranted : Granted now.caps terms)
      (hfresh : Tally.finish now.caps terms ⟨now.source, 0, 0, [], [], []⟩ = (.ok o, t))
      (hdraws : t.draws.map Draw.asks = rolls terms) :
      Gets now step ⟨some (.ok o), t.draws, t.events ++ step.closing (.ok o)⟩

/-- A step with a formula, whether it is replied to or not. -/
lemma serve_of_formula {step : Step} {formula : String} (h : step.formula? = some formula)
    (now : Session σ) :
    now.serve step =
      (⟨some (now.attempt formula).result, (now.attempt formula).draws,
          (now.attempt formula).events ++ step.closing (now.attempt formula).result⟩,
        ⟨(now.attempt formula).source, now.caps⟩) := by
  cases step with
  | roll f =>
      obtain rfl : f = formula := Option.some.inj h
      rfl
  | probe f =>
      obtain rfl : f = formula := Option.some.inj h
      simp [serve, Step.closing]
  | adopt caps => cases h

lemma gets_serve_of_formula {step : Step} {formula : String} (h : step.formula? = some formula)
    (now : Session σ) : now.Gets step (now.serve step).1 := by
  rw [serve_of_formula h, attempt]
  cases hread : Formula.read now.caps formula with
  | error why =>
      rw [attempt_of_error hread]
      exact .turnedAway h hread
  | ok terms =>
      rw [attempt_of_ok hread]
      rcases granted_or_firstFault now.caps terms with hgranted | ⟨front, why, hfault⟩
      · obtain ⟨⟨o, ho⟩, hdraws⟩ := evaluate_of_granted now.source hgranted
        rw [ho]
        exact .rolled h hread hgranted (Prod.ext ho rfl) hdraws
      · obtain ⟨hwhy, hdraws⟩ := evaluate_of_firstFault now.source hfault
        rw [hwhy]
        exact .failed h hread hfault (Prod.ext hwhy rfl) hdraws

lemma serve_eq_of_gets {now : Session σ} {step : Step} {answer : Answer}
    (h : now.Gets step answer) : (now.serve step).1 = answer := by
  cases h with
  | adopted caps => rfl
  | turnedAway hformula hread =>
      rw [serve_of_formula hformula, attempt, attempt_of_error hread]
      rfl
  | failed hformula hread _ hfresh _ =>
      rw [serve_of_formula hformula, attempt, attempt_of_ok hread]
      have heval : evaluate now.caps _ now.source = _ := hfresh
      rw [heval]
      rfl
  | rolled hformula hread _ hfresh _ =>
      rw [serve_of_formula hformula, attempt, attempt_of_ok hread]
      have heval : evaluate now.caps _ now.source = _ := hfresh
      rw [heval]
      rfl

/-- **A step gets just one answer**, the one that it is served. -/
theorem gets_iff {now : Session σ} {step : Step} {answer : Answer} :
    now.Gets step answer ↔ (now.serve step).1 = answer := by
  refine ⟨serve_eq_of_gets, ?_⟩
  rintro rfl
  cases step with
  | roll formula => exact gets_serve_of_formula rfl now
  | probe formula => exact gets_serve_of_formula rfl now
  | adopt caps => exact .adopted caps

/-- What a step leaves: the source behind the draws for it, and the caps in force. -/
lemma serve_snd (step : Step) (now : Session σ) :
    (now.serve step).2 =
      ⟨RollSource.after (now.serve step).1.draws now.source, step.capsBehind now.caps⟩ := by
  cases step with
  | roll formula => exact congrArg (Session.mk · now.caps) (attempt_source _ _ _)
  | probe formula => exact congrArg (Session.mk · now.caps) (attempt_source _ _ _)
  | adopt caps => rfl

/-! ## Transcripts -/

/-- **Steps with their answers**, in order. -/
def transcript (s : Session σ) (steps : List Step) : List (Step × Answer) :=
  steps.zip (s.serveAll steps).1

lemma transcript_cons (s : Session σ) (step : Step) (rest : List Step) :
    s.transcript (step :: rest) =
      (step, (s.serve step).1) :: (s.serve step).2.transcript rest := rfl

/-- **The session behind steps and their answers**: the source as all draws have left it, and the
caps that were adopted last. -/
def behind (s : Session σ) (front : List (Step × Answer)) : Session σ where
  source := RollSource.after (front.flatMap fun p => p.2.draws) s.source
  caps := front.foldl (fun caps p => p.1.capsBehind caps) s.caps

lemma behind_cons (s : Session σ) (step : Step) (rest : List (Step × Answer)) :
    s.behind ((step, (s.serve step).1) :: rest) = (s.serve step).2.behind rest := by
  rw [serve_snd, behind, behind, List.flatMap_cons, RollSource.after_append]
  rfl

/-- One step more, and what it leaves. -/
lemma behind_concat (s : Session σ) (front : List (Step × Answer)) (step : Step)
    (answer : Answer) :
    s.behind (front ++ [(step, answer)]) =
      ⟨RollSource.after answer.draws (s.behind front).source,
        step.capsBehind (s.behind front).caps⟩ := by
  simp [behind, RollSource.after_append]

/-- **What every step of a session gets** is settled by the session behind the steps before. -/
lemma gets_of_transcript {front back : List (Step × Answer)} {step : Step} {answer : Answer} :
    ∀ {s : Session σ} {steps : List Step},
      s.transcript steps = front ++ (step, answer) :: back → (s.behind front).Gets step answer := by
  induction front with
  | nil =>
      intro s steps h
      cases steps with
      | nil => cases h
      | cons first rest =>
          rw [transcript_cons] at h
          obtain ⟨heq, -⟩ := List.cons.inj h
          obtain ⟨rfl, rfl⟩ := Prod.mk.inj heq
          exact gets_iff.mpr rfl
  | cons p front ih =>
      intro s steps h
      cases steps with
      | nil => cases h
      | cons first rest =>
          rw [transcript_cons, List.cons_append] at h
          obtain ⟨rfl, hrest⟩ := List.cons.inj h
          rw [behind_cons]
          exact ih hrest

lemma length_serveAll (s : Session σ) (steps : List Step) :
    (s.serveAll steps).1.length = steps.length := by
  induction steps generalizing s with
  | nil => rfl
  | cons step rest ih => rw [serveAll_cons, List.length_cons, ih, List.length_cons]

lemma serveAll_snd (s : Session σ) (steps : List Step) :
    (s.serveAll steps).2 = s.behind (s.transcript steps) := by
  induction steps generalizing s with
  | nil => rfl
  | cons step rest ih => rw [serveAll_cons, transcript_cons, behind_cons, ih]

end Session

/-! ## Steps that leave nothing -/

/-- **A step whose formula is not rolled**: it is turned down when it is screened or read. -/
def TurnedAway (p : Step × Answer) : Prop :=
  (∃ why, p.2.result? = some (.error (.screen why))) ∨
    ∃ why, p.2.result? = some (.error (.read why))

/-- **A list from which idle members have been deleted**, any number of them. -/
inductive Thinned {α : Type} (idle : α → Prop) : List α → List α → Prop where
  | nil : Thinned idle [] []
  | keep (x : α) {xs ys : List α} (h : Thinned idle xs ys) : Thinned idle (x :: xs) (x :: ys)
  | delete {x : α} {xs ys : List α} (hx : idle x) (h : Thinned idle xs ys) :
      Thinned idle (x :: xs) ys

namespace Session

/-- **A formula that is not rolled leaves nothing**: no draw, and the session as it was. -/
lemma idle_of_gets {now : Session σ} {step : Step} {answer : Answer}
    (h : now.Gets step answer) (haway : TurnedAway (step, answer)) :
    answer.draws = [] ∧ step.capsBehind now.caps = now.caps := by
  cases h with
  | adopted caps => rcases haway with ⟨_, h⟩ | ⟨_, h⟩ <;> cases h
  | turnedAway hformula _ => exact ⟨rfl, Step.capsBehind_of_formula hformula now.caps⟩
  | failed => rcases haway with ⟨_, h⟩ | ⟨_, h⟩ <;> cases h
  | rolled => rcases haway with ⟨_, h⟩ | ⟨_, h⟩ <;> cases h

lemma serve_snd_of_turnedAway {now : Session σ} {step : Step}
    (h : TurnedAway (step, (now.serve step).1)) : (now.serve step).2 = now := by
  obtain ⟨hdraws, hcaps⟩ := idle_of_gets (gets_iff.mpr rfl) h
  rw [serve_snd, hdraws, hcaps]
  rfl

/-- **Steps that leave nothing can be deleted**: the steps that are kept get the same answers, and
leave the same session. -/
lemma transcript_of_thinned {steps : List Step} :
    ∀ {s : Session σ} {kept : List (Step × Answer)}, Thinned TurnedAway (s.transcript steps) kept →
      s.transcript (kept.map Prod.fst) = kept ∧
        (s.serveAll (kept.map Prod.fst)).2 = (s.serveAll steps).2 := by
  induction steps with
  | nil =>
      intro s kept h
      cases h
      exact ⟨rfl, rfl⟩
  | cons step rest ih =>
      intro s kept h
      rw [transcript_cons] at h
      cases h with
      | keep _ hrest =>
          obtain ⟨htranscript, hlast⟩ := ih hrest
          rw [List.map_cons, transcript_cons, serveAll_cons, serveAll_cons, htranscript]
          exact ⟨rfl, hlast⟩
      | delete haway hrest =>
          rw [serve_snd_of_turnedAway haway] at hrest
          obtain ⟨htranscript, hlast⟩ := ih hrest
          rw [serveAll_cons, serve_snd_of_turnedAway haway]
          exact ⟨htranscript, hlast⟩

/-! ## The course of a session -/

/-- **The course of a session** through steps. -/
structure Course (s : Session σ) (steps : List Step) : Prop where
  /-- Every step gets an answer, and the session that is left is the one behind them all. -/
  served : (s.transcript steps).map Prod.fst = steps ∧
    (s.transcript steps).map Prod.snd = (s.serveAll steps).1 ∧
      s.behind (s.transcript steps) = (s.serveAll steps).2
  /-- An answer is settled by the step, and by the caps and the source behind the steps before. -/
  settled : ∀ front step answer back, s.transcript steps = front ++ (step, answer) :: back →
    (s.behind front).Gets step answer ∧
      ∀ other, (s.behind front).Gets step other → other = answer
  /-- A formula that is not rolled is not drawn for, and leaves the session as it was. -/
  idle : ∀ front step answer back, s.transcript steps = front ++ (step, answer) :: back →
    TurnedAway (step, answer) →
      answer.draws = [] ∧ s.behind (front ++ [(step, answer)]) = s.behind front
  /-- Such steps can be deleted, any number of them. -/
  deletable : ∀ kept, Thinned TurnedAway (s.transcript steps) kept →
    s.transcript (kept.map Prod.fst) = kept ∧
      (s.serveAll (kept.map Prod.fst)).2 = (s.serveAll steps).2
  /-- A formula that fails while it is rolled leaves the draws for the rolls in front of the
  fault. -/
  failing : ∀ front step answer back why,
    s.transcript steps = front ++ (step, answer) :: back →
      answer.result? = some (.error (.roll why)) →
        ∃ formula terms before, step.formula? = some formula ∧
          Formula.read (s.behind front).caps formula = .ok terms ∧
            FirstFault (s.behind front).caps terms before why ∧
              answer.draws.map Draw.asks = rolls before ∧
                s.behind (front ++ [(step, answer)]) =
                  ⟨RollSource.after answer.draws (s.behind front).source, (s.behind front).caps⟩

lemma failing_of_gets {now : Session σ} {step : Step} {answer : Answer} {why : RollFault}
    (h : now.Gets step answer) (hwhy : answer.result? = some (.error (.roll why))) :
    ∃ formula terms front, step.formula? = some formula ∧
      Formula.read now.caps formula = .ok terms ∧ FirstFault now.caps terms front why ∧
        answer.draws.map Draw.asks = rolls front ∧ step.capsBehind now.caps = now.caps := by
  cases h with
  | adopted caps => cases hwhy
  | turnedAway _ hread =>
      cases hwhy
      rcases Formula.read_cases now.caps _ with ⟨_, hr⟩ | ⟨_, hr⟩ | ⟨_, -, -, hr⟩ <;>
        rw [hread] at hr <;> cases hr
  | failed hformula hread hfault _ hdraws =>
      cases hwhy
      exact ⟨_, _, _, hformula, hread, hfault, hdraws, Step.capsBehind_of_formula hformula now.caps⟩
  | rolled => cases hwhy

/-- **Every session takes its course**: from any state of any source, under any caps and through
any steps, whether their formulas are rolled, fail or are turned away, and whatever caps are adopted
in between. -/
theorem course_transcript (s : Session σ) (steps : List Step) : s.Course steps where
  served := by
    have hlength : (s.serveAll steps).1.length = steps.length := length_serveAll s steps
    refine ⟨?_, ?_, (serveAll_snd s steps).symm⟩
    · rw [transcript, List.map_fst_zip (Nat.le_of_eq hlength.symm)]
    · rw [transcript, List.map_snd_zip (Nat.le_of_eq hlength)]
  settled front step answer back h := by
    have hgets := gets_of_transcript h
    refine ⟨hgets, ?_⟩
    intro other hother
    rw [← gets_iff.mp hgets, gets_iff.mp hother]
  idle front step answer back h haway := by
    obtain ⟨hdraws, hcaps⟩ := idle_of_gets (gets_of_transcript h) haway
    rw [behind_concat, hdraws, hcaps]
    exact ⟨rfl, rfl⟩
  deletable _ h := transcript_of_thinned h
  failing front step answer back why h hwhy := by
    obtain ⟨formula, terms, before, hformula, hread, hfault, hdraws, hcaps⟩ :=
      failing_of_gets (gets_of_transcript h) hwhy
    rw [behind_concat, hcaps]
    exact ⟨formula, terms, before, hformula, hread, hfault, hdraws, rfl⟩

/-- A formula that fails, behind a blank one and one for dice that are deleted. -/
theorem course_transcript_thinned :
    let s : Session Script := { source := ⟨[[3, 4]]⟩ }
    let steps : List Step := [.roll " ", .probe "1d20", .roll "2c6-c0"]
    s.transcript [.roll "2c6-c0"] = (s.transcript steps).drop 2 ∧
      (s.serveAll [.roll "2c6-c0"]).2 = (s.serveAll steps).2 := by
  intro s steps
  have hblank : TurnedAway (.roll " ", (s.serve (.roll " ")).1) :=
    Or.inl ⟨.empty, by decide +kernel⟩
  have hdice : TurnedAway (.probe "1d20", ((s.serve (.roll " ")).2.serve (.probe "1d20")).1) :=
    Or.inl ⟨.dice, by decide +kernel⟩
  have hthinned : Thinned TurnedAway (s.transcript steps) ((s.transcript steps).drop 2) :=
    .delete hblank (.delete hdice (.keep _ .nil))
  exact (course_transcript s steps).deletable _ hthinned

end Session

end CabbageFormula
