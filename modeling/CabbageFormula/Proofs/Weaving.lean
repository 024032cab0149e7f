import CabbageFormula.Proofs.Ledger
import CabbageFormula.Proofs.Verdict

/-!
# Terms as rolls among constants

All that terms ask of the source is in their rolls, and all that they are refused for.  So an
evaluation can be taken apart: the rolls are cast by themselves, and what they show is woven into
the constants.

* `Tally.bare` — what a cast depends on and changes.
* `Tally.castAll` — rolls cast in order, up to the first that is refused.
* `weave` — the entries of terms whose rolls show given values.
* `Tally.run_of_castAll_error`, `Tally.run_of_castAll_ok` — a run through terms casts their rolls,
  and enters what is woven of them.
* `evaluate_of_castAll_error`, `evaluate_of_castAll_ok` — so does an evaluation.
-/

namespace CabbageFormula

variable {σ : Type}

namespace Tally

/-! ## Casts by themselves -/

/-- **What a cast depends on and changes**: a tally with nothing entered and nothing noted. -/
def bare (t : Tally σ) : Tally σ := { t with total := 0, trace := [], events := [] }

@[simp] lemma bare_note (e : Event) (t : Tally σ) : (t.note e).bare = t.bare := rfl

@[simp] lemma bare_enter (entries : List Entry) (t : Tally σ) :
    (t.enter entries).bare = t.bare := rfl

section Rolling

variable [RollSource σ] {caps : Caps}

/-- **A cast takes no notice of what has been entered.** -/
lemma cast_bare (count sides : UInt64) (t : Tally σ) :
    t.bare.cast caps count sides =
      ((t.cast caps count sides).1, (t.cast caps count sides).2.bare) := by
  cases hr : Draw.request caps (t.ask count).asked count sides with
  | error why =>
      have hbare : Draw.request caps (t.bare.ask count).asked count sides = .error why := hr
      rw [cast_of_error hr, cast_of_error hbare]
      rfl
  | ok d =>
      have hbare : Draw.request caps (t.bare.ask count).asked count sides = .ok d := hr
      rw [cast_of_ok hr, cast_of_ok hbare]
      rfl

lemma trace_cast (count sides : UInt64) (t : Tally σ) :
    (t.cast caps count sides).2.trace = t.trace := by
  cases hr : Draw.request caps (t.ask count).asked count sides with
  | error why => rw [cast_of_error hr, trace_ask]
  | ok d => rw [cast_of_ok hr, trace_pull, trace_ask]

lemma settle_roll_of_cast_error {s : Sign} {count sides : UInt64} {t u : Tally σ} {why : RollFault}
    (h : t.bare.cast caps count sides = (.error why, u)) :
    ∃ last, t.settle caps (.roll s count sides) = (.error why, last) ∧ last.bare = u := by
  rw [cast_bare] at h
  obtain ⟨hresult, rfl⟩ := Prod.mk.inj h
  have hcast : t.cast caps count sides = (.error why, (t.cast caps count sides).2) :=
    Prod.ext hresult rfl
  refine ⟨(t.cast caps count sides).2, ?_, rfl⟩
  rw [settle, hcast]

lemma settle_roll_of_cast_ok {s : Sign} {count sides : UInt64} {t u : Tally σ}
    {values : List UInt64} (h : t.bare.cast caps count sides = (.ok values, u)) :
    ∃ next, t.settle caps (.roll s count sides) = (.ok (), next) ∧ next.bare = u ∧
      next.trace = t.trace ++ values.map (.rolled s) := by
  rw [cast_bare] at h
  obtain ⟨hresult, rfl⟩ := Prod.mk.inj h
  have hcast : t.cast caps count sides = (.ok values, (t.cast caps count sides).2) :=
    Prod.ext hresult rfl
  refine ⟨(t.cast caps count sides).2.enter (values.map (.rolled s)), ?_, rfl, ?_⟩
  · rw [settle, hcast]
  · rw [trace_enter, trace_cast]

/-- **Casts rolls in order**, up to the first that is refused, and returns what each has shown. -/
def castAll (caps : Caps) : List (UInt64 × UInt64) → Tally σ →
    Except RollFault (List (List UInt64)) × Tally σ
  | [], t => (.ok [], t)
  | (count, sides) :: rest, t =>
    match t.cast caps count sides with
    | (.error why, t) => (.error why, t)
    | (.ok values, t) =>
      match castAll caps rest t with
      | (.error why, t) => (.error why, t)
      | (.ok groups, t) => (.ok (values :: groups), t)

lemma castAll_cons_eq_error_iff {count sides : UInt64} {rest : List (UInt64 × UInt64)}
    {t last : Tally σ} {why : RollFault} :
    t.castAll caps ((count, sides) :: rest) = (.error why, last) ↔
      t.cast caps count sides = (.error why, last) ∨
        ∃ values next, t.cast caps count sides = (.ok values, next) ∧
          next.castAll caps rest = (.error why, last) := by
  rw [castAll]
  cases hcast : t.cast caps count sides with
  | mk result next =>
      cases result with
      | error fault => simp
      | ok values =>
          cases hrest : next.castAll caps rest with
          | mk others after =>
              cases others with
              | error fault => simp [hrest]
              | ok groups => simp [hrest]

lemma castAll_cons_eq_ok_iff {count sides : UInt64} {rest : List (UInt64 × UInt64)}
    {t last : Tally σ} {groups : List (List UInt64)} :
    t.castAll caps ((count, sides) :: rest) = (.ok groups, last) ↔
      ∃ values others next, groups = values :: others ∧
        t.cast caps count sides = (.ok values, next) ∧
          next.castAll caps rest = (.ok others, last) := by
  rw [castAll]
  cases hcast : t.cast caps count sides with
  | mk result next =>
      cases result with
      | error fault => simp
      | ok values =>
          cases hrest : next.castAll caps rest with
          | mk result after =>
              cases result with
              | error fault => simp [hrest]
              | ok others => simp [hrest, eq_comm]

/-- **Casts that succeed can be parted** anywhere. -/
lemma exists_castAll_of_append (front : List (UInt64 × UInt64)) {back : List (UInt64 × UInt64)} :
    ∀ {t last : Tally σ} {groups : List (List UInt64)},
      t.castAll caps (front ++ back) = (.ok groups, last) →
        ∃ shown rest mid, groups = shown ++ rest ∧ shown.length = front.length ∧
          t.castAll caps front = (.ok shown, mid) := by
  induction front with
  | nil =>
      intro t last groups _
      exact ⟨[], groups, t, rfl, rfl, rfl⟩
  | cons roll front ih =>
      intro t last groups h
      obtain ⟨values, others, next, rfl, hcast, hothers⟩ := castAll_cons_eq_ok_iff.mp h
      obtain ⟨shown, rest, mid, rfl, hlength, hshown⟩ := ih hothers
      refine ⟨values :: shown, rest, mid, rfl, congrArg (· + 1) hlength, ?_⟩
      exact castAll_cons_eq_ok_iff.mpr ⟨values, shown, next, rfl, hcast, hshown⟩

end Rolling

end Tally

/-! ## What is woven -/

/-- **The entries of terms** whose rolls show given values, one group for each roll. -/
def weave : List Term → List (List UInt64) → List Entry
  | [], _ => []
  | .constant s v :: terms, groups => .constant s v :: weave terms groups
  | .roll s _ _ :: terms, groups => (groups.headD []).map (.rolled s) ++ weave terms groups.tail

@[simp] lemma weave_constant (s : Sign) (v : UInt64) (terms : List Term)
    (groups : List (List UInt64)) :
    weave (.constant s v :: terms) groups = .constant s v :: weave terms groups := rfl

lemma weave_roll_groups (s : Sign) (count sides : UInt64) (terms : List Term)
    (groups : List (List UInt64)) :
    weave (.roll s count sides :: terms) groups =
      (groups.headD []).map (.rolled s) ++ weave terms groups.tail := rfl

@[simp] lemma weave_roll (s : Sign) (count sides : UInt64) (terms : List Term)
    (values : List UInt64) (groups : List (List UInt64)) :
    weave (.roll s count sides :: terms) (values :: groups) =
      values.map (.rolled s) ++ weave terms groups := rfl

@[simp] lemma rolls_constant (s : Sign) (v : UInt64) (terms : List Term) :
    rolls (.constant s v :: terms) = rolls terms := rfl

@[simp] lemma rolls_roll (s : Sign) (count sides : UInt64) (terms : List Term) :
    rolls (.roll s count sides :: terms) = (count, sides) :: rolls terms := rfl

/-- Terms and the groups of their rolls can be parted together. -/
lemma weave_append (front back : List Term) :
    ∀ {shown rest : List (List UInt64)}, shown.length = (rolls front).length →
      weave (front ++ back) (shown ++ rest) = weave front shown ++ weave back rest := by
  induction front with
  | nil =>
      intro shown rest h
      rw [List.eq_nil_of_length_eq_zero h]
      rfl
  | cons term front ih =>
      intro shown rest h
      cases term with
      | constant s v =>
          rw [List.cons_append, weave_constant, weave_constant, ih h]
          rfl
      | roll s count sides =>
          obtain ⟨values, shown, rfl⟩ := List.exists_cons_of_length_eq_add_one h
          rw [List.cons_append, List.cons_append, weave_roll, weave_roll,
            ih (Nat.succ.inj h), List.append_assoc]

/-! ## Evaluations -/

section Rolling

variable [RollSource σ] {caps : Caps}

/-- **Terms are refused as their rolls are.** -/
lemma Tally.run_of_castAll_error {why : RollFault} (terms : List Term) :
    ∀ {t u : Tally σ}, t.bare.castAll caps (rolls terms) = (.error why, u) →
      ∃ last, t.run caps terms = (.error why, last) ∧ last.bare = u := by
  induction terms with
  | nil =>
      intro t u h
      cases (Prod.mk.inj h).1
  | cons term rest ih =>
      intro t u h
      rw [← t.bare_note (.attempting term)] at h
      cases term with
      | constant s v =>
          rw [run_cons_of_ok (settle_constant caps s v _)]
          exact ih h
      | roll s count sides =>
          rcases castAll_cons_eq_error_iff.mp h with hcast | ⟨values, next, hcast, hrest⟩
          · obtain ⟨last, hsettle, hlast⟩ := settle_roll_of_cast_error hcast
            exact ⟨last, run_cons_of_error hsettle rest, hlast⟩
          · obtain ⟨mid, hsettle, rfl, -⟩ := settle_roll_of_cast_ok hcast
            rw [run_cons_of_ok hsettle]
            exact ih hrest

/-- **Terms are rolled as their rolls are**, and what is woven of them is entered. -/
lemma Tally.run_of_castAll_ok (terms : List Term) :
    ∀ {t u : Tally σ} {groups : List (List UInt64)},
      t.bare.castAll caps (rolls terms) = (.ok groups, u) →
        ∃ last, t.run caps terms = (.ok (), last) ∧ last.bare = u ∧
          last.trace = t.trace ++ weave terms groups := by
  induction terms with
  | nil =>
      intro t u groups h
      exact ⟨t, rfl, (Prod.mk.inj h).2, (List.append_nil _).symm⟩
  | cons term rest ih =>
      intro t u groups h
      rw [← t.bare_note (.attempting term)] at h
      cases term with
      | constant s v =>
          rw [← bare_enter [.constant s v]] at h
          rw [run_cons_of_ok (settle_constant caps s v _)]
          obtain ⟨last, hrun, hlast, htrace⟩ := ih h
          refine ⟨last, hrun, hlast, ?_⟩
          rw [htrace, trace_enter, trace_note, List.append_assoc, weave_constant]
          rfl
      | roll s count sides =>
          obtain ⟨values, others, next, rfl, hcast, hothers⟩ := castAll_cons_eq_ok_iff.mp h
          obtain ⟨mid, hsettle, rfl, hentered⟩ := settle_roll_of_cast_ok (s := s) hcast
          obtain ⟨last, hrun, hlast, htrace⟩ := ih hothers
          refine ⟨last, (run_cons_of_ok hsettle rest).trans hrun, hlast, ?_⟩
          rw [htrace, hentered, trace_note, List.append_assoc, weave_roll]

lemma evaluate_of_castAll_error {terms : List Term} {source : σ} {u : Tally σ} {why : RollFault}
    (h : Tally.castAll caps (rolls terms) { source := source } = (.error why, u)) :
    (evaluate caps terms source).1 = .error why ∧ (evaluate caps terms source).2.bare = u := by
  obtain ⟨last, hrun, hlast⟩ := Tally.run_of_castAll_error terms (t := { source := source }) h
  rw [evaluate_of_error hrun]
  exact ⟨rfl, hlast⟩

/-- **The outcome of terms** is what is woven of them and of what their rolls show. -/
lemma evaluate_of_castAll_ok {terms : List Term} {source : σ} {u : Tally σ}
    {groups : List (List UInt64)}
    (h : Tally.castAll caps (rolls terms) { source := source } = (.ok groups, u)) :
    (evaluate caps terms source).1 =
        .ok ⟨exactTotal (weave terms groups), weave terms groups⟩ ∧
      (evaluate caps terms source).2.bare = u := by
  obtain ⟨last, hrun, hlast, htrace⟩ := Tally.run_of_castAll_ok terms (t := { source := source }) h
  have heval := congrArg Prod.fst (evaluate_of_ok hrun)
  have htotal : last.total = exactTotal last.trace := evaluate_balanced heval
  rw [List.nil_append] at htrace
  rw [evaluate_of_ok hrun]
  refine ⟨?_, hlast⟩
  rw [Tally.outcome, htotal, htrace]

end Rolling

end CabbageFormula
