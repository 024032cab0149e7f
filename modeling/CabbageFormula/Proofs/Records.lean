import CabbageFormula.Proofs.Answers
import CabbageFormula.Proofs.Linearity
import CabbageFormula.Proofs.Traces
import CabbageFormula.Source.Scripted

/-!
# What the records of a formula tell

The records of a formula follow the rolling of it step by step: each term that is attempted has a
record, behind it there is one for each value that its cabbages showed, and the last record of all
is the verdict.  Nothing is lost in them, though they are text: the trace can be put together from
the records alone.

* `behind?`, `told` — what stands behind the lead of a record, and what it adds to the text of a
  trace.
* `flatMap_told_recount` — the records of terms tell the trace in full.
* `levelOf?`, `records_eq_filter` — the level that a record shows, and the records that a threshold
  lets pass.
* `Chronicle`, `records_tell_all` — **all that the records of a formula tell**.
-/

namespace CabbageFormula

/-! ## The texts of records -/

/-- What stands in front of the term in the record of an attempt. -/
def attemptingLead : String := "[TRACE] cabbage_roll::roll::ctx: evaluating term "

/-- What stands in front of the value in the record of a cabbage. -/
def rolledLead : String := "[TRACE] cabbage_roll::roll::ctx: rolled "

/-- What stands in front of the verdict in the last record. -/
def verdictLead : String := "[DEBUG] cabbage_roll::evaluator: "

lemma record_attempting (term : Term) :
    (Event.attempting term).record = attemptingLead ++ term.text := by
  show _ ++ ("evaluating term " ++ term.text) = _
  rw [← String.append_assoc]
  rfl

lemma record_rolled (s : Sign) (v : UInt64) :
    (Event.rolled s v).record = rolledLead ++ (Entry.rolled s v).text := by
  show _ ++ ("rolled " ++ (Entry.rolled s v).text) = _
  rw [← String.append_assoc]
  rfl

lemma record_verdict (formula : String) (result : Except Rejection Outcome) :
    (Event.verdict formula result).record =
      verdictLead ++ (Event.verdict formula result).message := by
  cases result <;> rfl

/-- **What stands behind a lead**, if a record begins with it. -/
def behind? (lead record : String) : Option (List Char) := record.toList.dropPrefix? lead.toList

lemma behind?_append (lead rest : String) : behind? lead (lead ++ rest) = some rest.toList := by
  rw [behind?, List.dropPrefix?_eq_some_iff, String.toList_append]
  exact ⟨lead.toList, rfl, beq_self_eq_true _⟩

lemma behind?_attemptingLead_rolledLead (rest : String) :
    behind? attemptingLead (rolledLead ++ rest) = none := by
  simp [behind?, attemptingLead, rolledLead, List.dropPrefix?]

lemma behind?_verdictLead (rest : String) :
    behind? attemptingLead (verdictLead ++ rest) = none ∧
      behind? rolledLead (verdictLead ++ rest) = none := by
  simp [behind?, attemptingLead, rolledLead, verdictLead, List.dropPrefix?]

/-- **What a record tells of a trace**: a constant that was attempted is told by its term, and what
a cabbage showed by its value.  Only the term of a roll has a cabbage mark. -/
def told (record : String) : List Char :=
  match behind? attemptingLead record with
  | some term => if 'c' ∈ term then [] else term
  | none => (behind? rolledLead record).getD []

lemma told_attempting_constant (s : Sign) (v : UInt64) :
    told (Event.attempting (.constant s v)).record = (Entry.constant s v).text.toList := by
  have hmark : 'c' ∉ (Term.constant s v).text.toList := by
    rw [Term.toList_text_constant, List.mem_cons, not_or]
    refine ⟨?_, fun h => ?_⟩
    · cases s <;> decide
    · exact absurd (Numeral.isDigit_of_mem_digits h) (by decide)
  rw [record_attempting, told, behind?_append]
  show (if 'c' ∈ (Term.constant s v).text.toList then [] else _) = _
  rw [if_neg hmark, Term.toList_text_constant, Entry.toList_text_constant]

lemma told_attempting_roll (s : Sign) (count sides : UInt64) :
    told (Event.attempting (.roll s count sides)).record = [] := by
  have hmark : 'c' ∈ (Term.roll s count sides).text.toList := by
    rw [Term.toList_text_roll]
    simp
  rw [record_attempting, told, behind?_append]
  exact if_pos hmark

lemma told_rolled (s : Sign) (v : UInt64) :
    told (Event.rolled s v).record = (Entry.rolled s v).text.toList := by
  rw [record_rolled, told, behind?_attemptingLead_rolledLead, behind?_append]
  rfl

lemma told_verdict (formula : String) (result : Except Rejection Outcome) :
    told (Event.verdict formula result).record = [] := by
  rw [record_verdict, told, (behind?_verdictLead _).1, (behind?_verdictLead _).2]
  rfl

/-! ## The trace in the records -/

lemma inFull_append (front back : List Entry) :
    inFull (front ++ back) = inFull front ++ inFull back :=
  List.flatMap_append

lemma flatMap_told_rolled (s : Sign) (values : List UInt64) :
    ((values.map (Event.rolled s)).map Event.record).flatMap told =
      inFull (values.map (.rolled s)) := by
  induction values with
  | nil => rfl
  | cons v values ih =>
      rw [List.map_cons, List.map_cons, List.flatMap_cons, ih, told_rolled]
      rfl

/-- **The records of terms tell the trace in full.** -/
lemma flatMap_told_recount (terms : List Term) :
    ∀ groups, ((recount terms groups).map Event.record).flatMap told =
      inFull (weave terms groups) := by
  induction terms with
  | nil => exact fun groups => rfl
  | cons term rest ih =>
      intro groups
      cases term with
      | constant s v =>
          rw [recount_constant, List.map_cons, List.flatMap_cons, ih, told_attempting_constant,
            weave_constant]
          rfl
      | roll s count sides =>
          rw [recount_roll_groups, List.map_cons, List.flatMap_cons, told_attempting_roll,
            List.nil_append, List.map_append, List.flatMap_append, flatMap_told_rolled, ih,
            weave_roll_groups, inFull_append]

/-! ## Levels -/

/-- **The level that a record shows** in brackets, in front of all else. -/
def levelOf? (record : String) : Option Level :=
  Level.all.find? fun l => (behind? ("[" ++ l.name ++ "] ") record).isSome

lemma levelOf?_record (e : Event) : levelOf? e.record = some e.level := by
  have hrecord : e.record = "[" ++ e.level.name ++ "] " ++ (e.target ++ ": " ++ e.message) := by
    simp only [Event.record, String.append_assoc]
  rw [hrecord]
  generalize e.target ++ ": " ++ e.message = rest
  cases e.level <;> simp [levelOf?, Level.all, Level.name, behind?, List.dropPrefix?]

lemma records_trace (events : List Event) :
    records (some .trace) events = events.map Event.record := by
  have hall : events.filter (Threshold.keeps (some .trace) ·.level) = events := by
    rw [List.filter_eq_self]
    intro e _
    cases e.level <;> rfl
  rw [records, hall]

/-- **The records that a threshold lets pass** are those of a level that it keeps. -/
lemma records_eq_filter (t : Threshold) (events : List Event) :
    records t events =
      (records (some .trace) events).filter fun record => (levelOf? record).any t.keeps := by
  rw [records_trace, List.filter_map, records]
  congr 2
  funext e
  rw [Function.comp_apply, levelOf?_record, Option.any_some]

lemma level_of_mem_recount {terms : List Term} {e : Event} :
    ∀ {groups : List (List UInt64)}, e ∈ recount terms groups → e.level = .trace := by
  induction terms with
  | nil =>
      intro groups h
      cases h
  | cons term rest ih =>
      intro groups h
      cases term with
      | constant s v =>
          rcases List.mem_cons.mp h with rfl | h
          · rfl
          · exact ih h
      | roll s count sides =>
          rcases List.mem_cons.mp h with rfl | h
          · rfl
          · rcases List.mem_append.mp h with h | h
            · obtain ⟨v, -, rfl⟩ := List.mem_map.mp h
              rfl
            · exact ih h

/-- A threshold for verdicts lets nothing else pass. -/
lemma records_debug {events : List Event} (h : ∀ e ∈ events, e.level = .trace) (formula : String)
    (result : Except Rejection Outcome) :
    records (some .debug) (events ++ [Event.verdict formula result]) =
      [(Event.verdict formula result).record] := by
  have hnone : events.filter (Threshold.keeps (some .debug) ·.level) = [] := by
    rw [List.filter_eq_nil_iff]
    intro e he
    rw [h e he]
    decide
  rw [records_append, records, hnone, List.map_nil, List.nil_append]
  cases result <;> rfl

/-! ## All records of a formula -/

section Chronicle

variable {σ : Type} [RollSource σ]

/-- **What the records of a formula tell.** -/
structure Chronicle (caps : Caps) (formula : String) (source : σ) (a : Attempt σ) : Prop where
  /-- A formula that is turned down before it is rolled has the verdict as its only record. -/
  turnedDown : ∀ why, Formula.read caps formula = .error why →
    a.result = .error why ∧
      records (some .trace) (a.journal formula) = [(Event.rejected formula why).record]
  /-- If some term has a fault, the records are those of the terms in front of it, with the values
  that they add to the trace, then that it was attempted, and then the verdict. -/
  failed : ∀ terms front why, Formula.read caps formula = .ok terms →
    FirstFault caps terms front why →
      ∃ term back, terms = front ++ term :: back ∧ faultBehind caps front term = some why ∧
        a.result = .error (.roll why) ∧ a.draws.map Draw.asks = rolls front ∧
          (evaluate caps terms source).2.trace =
              weave front (RollSource.answers a.draws source) ∧
            records (some .trace) (a.journal formula) =
              (recount front (RollSource.answers a.draws source) ++
                [Event.attempting term, Event.rejected formula (.roll why)]).map Event.record
  /-- If no term has a fault, the records are those of all terms, with the values that they add to
  the trace, and then the verdict; and they tell the text of the trace. -/
  rolled : ∀ terms, Formula.read caps formula = .ok terms → Granted caps terms →
    ∃ o, a.result = .ok o ∧ a.draws.map Draw.asks = rolls terms ∧
      o.trace = weave terms (RollSource.answers a.draws source) ∧
        records (some .trace) (a.journal formula) =
            (recount terms (RollSource.answers a.draws source) ++
              [Event.accepted formula o]).map Event.record ∧
          dropPlus ((records (some .trace) (a.journal formula)).flatMap told) = o.traceText.toList
  /-- There is no other case. -/
  settled : (∃ why, Formula.read caps formula = .error why) ∨
    ∃ terms, Formula.read caps formula = .ok terms ∧
      (Granted caps terms ∨ ∃ front why, FirstFault caps terms front why)
  /-- The verdict is the only record of its level. -/
  verdict : records (some .debug) (a.journal formula) = [(Event.verdict formula a.result).record]
  /-- A threshold lets those of all records pass that show a level it keeps. -/
  filtered : ∀ threshold, records threshold (a.journal formula) =
    (records (some .trace) (a.journal formula)).filter fun record =>
      (levelOf? record).any threshold.keeps

variable {caps : Caps} {formula : String} {source : σ} {terms : List Term}

lemma journal_of_error {why : Rejection} (h : Formula.read caps formula = .error why) :
    (attempt caps formula source).journal formula = [.rejected formula why] := by
  rw [attempt_of_error h]
  rfl

lemma journal_of_firstFault {front : List Term} {why : RollFault} (source : σ)
    (hread : Formula.read caps formula = .ok terms) (h : FirstFault caps terms front why) :
    ∃ term back, terms = front ++ term :: back ∧ faultBehind caps front term = some why ∧
      (attempt caps formula source).result = .error (.roll why) ∧
        (attempt caps formula source).draws.map Draw.asks = rolls front ∧
          (evaluate caps terms source).2.trace =
              weave front (RollSource.answers (attempt caps formula source).draws source) ∧
            (attempt caps formula source).journal formula =
              recount front (RollSource.answers (attempt caps formula source).draws source) ++
                [.attempting term, .rejected formula (.roll why)] := by
  obtain ⟨hresult, hdraws⟩ := evaluate_of_firstFault source h
  obtain ⟨term, back, hterms, hfault, htrace, hevents⟩ := evaluate_follows_of_firstFault source h
  rw [attempt_of_ok hread, Attempt.journal, hresult, hevents, List.append_assoc]
  exact ⟨term, back, hterms, hfault, rfl, hdraws, htrace, rfl⟩

lemma journal_of_granted (source : σ) (hread : Formula.read caps formula = .ok terms)
    (h : Granted caps terms) :
    ∃ o, (attempt caps formula source).result = .ok o ∧
      (attempt caps formula source).draws.map Draw.asks = rolls terms ∧
        o.trace = weave terms (RollSource.answers (attempt caps formula source).draws source) ∧
          (attempt caps formula source).journal formula =
            recount terms (RollSource.answers (attempt caps formula source).draws source) ++
              [.accepted formula o] := by
  obtain ⟨-, hdraws⟩ := evaluate_of_granted source h
  obtain ⟨o, ho, htrace, hevents⟩ := evaluate_follows_of_granted source h
  rw [attempt_of_ok hread, Attempt.journal, ho, hevents]
  exact ⟨o, rfl, hdraws, htrace, rfl⟩

/-- The events of the terms of a formula are finer than its verdict. -/
lemma level_of_mem_events {e : Event} (h : e ∈ (attempt caps formula source).events) :
    e.level = .trace := by
  cases hread : Formula.read caps formula with
  | error why =>
      rw [attempt_of_error hread] at h
      cases h
  | ok terms =>
      rw [attempt_of_ok hread] at h
      rcases granted_or_firstFault caps terms with hg | ⟨front, why, hf⟩
      · obtain ⟨o, -, -, hevents⟩ := evaluate_follows_of_granted source hg
        rw [hevents] at h
        exact level_of_mem_recount h
      · obtain ⟨term, back, -, -, -, hevents⟩ := evaluate_follows_of_firstFault source hf
        rw [hevents] at h
        rcases List.mem_append.mp h with h | h
        · exact level_of_mem_recount h
        · obtain rfl := List.mem_singleton.mp h
          rfl

/-- **The records of a formula tell all**: under any caps and from any source, whether the formula
is turned down, fails while it is rolled, or comes to an outcome. -/
theorem records_tell_all (caps : Caps) (formula : String) (source : σ) :
    Chronicle caps formula source (attempt caps formula source) where
  turnedDown why h := by
    rw [journal_of_error h, attempt_of_error h, records_trace]
    exact ⟨rfl, rfl⟩
  failed terms front why hread h := by
    obtain ⟨term, back, hterms, hfault, hresult, hdraws, htrace, hjournal⟩ :=
      journal_of_firstFault source hread h
    rw [hjournal, records_trace]
    exact ⟨term, back, hterms, hfault, hresult, hdraws, htrace, rfl⟩
  rolled terms hread h := by
    obtain ⟨o, hresult, hdraws, htrace, hjournal⟩ := journal_of_granted source hread h
    rw [hjournal, records_trace]
    refine ⟨o, hresult, hdraws, htrace, rfl, ?_⟩
    rw [o.toList_traceText_eq_inFull, htrace, List.map_append, List.flatMap_append,
      flatMap_told_recount, List.map_singleton, List.flatMap_singleton]
    have hverdict : told (Event.accepted formula o).record = [] := told_verdict formula (.ok o)
    rw [hverdict, List.append_nil]
  settled := by
    cases hread : Formula.read caps formula with
    | error why => exact .inl ⟨why, rfl⟩
    | ok terms => exact .inr ⟨terms, rfl, granted_or_firstFault caps terms⟩
  verdict := records_debug (fun _ => level_of_mem_events) formula _
  filtered threshold := records_eq_filter threshold _

end Chronicle

/-- A roll that fails behind one that does not. -/
theorem records_tell_all_failing :
    let a := attempt {} "2-2c6+c0" (⟨[[5, 3]]⟩ : Script)
    Formula.read {} "2-2c6+c0" = .ok [.constant .plus 2, .roll .minus 2 6, .roll .plus 1 0] ∧
      FirstFault {} [.constant .plus 2, .roll .minus 2 6, .roll .plus 1 0]
        [.constant .plus 2, .roll .minus 2 6] .noSides ∧
      records (some .trace) (a.journal "2-2c6+c0") =
        [Event.attempting (.constant .plus 2), .attempting (.roll .minus 2 6), .rolled .minus 5,
          .rolled .minus 3, .attempting (.roll .plus 1 0),
          .rejected "2-2c6+c0" (.roll .noSides)].map Event.record := by
  intro a
  have hread : Formula.read {} "2-2c6+c0" =
      .ok [.constant .plus 2, .roll .minus 2 6, .roll .plus 1 0] := by decide +kernel
  have hfault : FirstFault {} [.constant .plus 2, .roll .minus 2 6, .roll .plus 1 0]
      [.constant .plus 2, .roll .minus 2 6] .noSides :=
    ⟨granted_iff.mpr ⟨by decide, by decide⟩, _, [], rfl, by decide⟩
  obtain ⟨term, back, hterms, -, -, -, -, hrecords⟩ :=
    (records_tell_all {} "2-2c6+c0" (⟨[[5, 3]]⟩ : Script)).failed _ _ _ hread hfault
  have hanswers : RollSource.answers a.draws (⟨[[5, 3]]⟩ : Script) = [[5, 3]] := by decide +kernel
  obtain ⟨rfl, -⟩ := List.cons.inj (List.cons.inj (List.cons.inj hterms).2).2
  refine ⟨hread, hfault, ?_⟩
  rw [hrecords, hanswers]
  rfl

end CabbageFormula
