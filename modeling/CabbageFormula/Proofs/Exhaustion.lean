import CabbageFormula.Proofs.Ledger
import CabbageFormula.Source.Scripted

/-!
# Operations that fail

The cabbages of a roll are counted before it is judged, so that an operation that fails is not
without effect; but the count is all that it changes.  And as the count is never taken back, a tally
that has run out of cabbages rolls nothing any more, whatever it is asked for.

* `Operation.entry?` — the entry that an operation makes by itself; only a roll has none.
* `Tally.exists_request` — a roll fails exactly if the request for its cabbages does.
* `Tally.perform_of_error` — what a failed operation leaves.
* `Tally.Exhausted` — more cabbages have been asked for than the cap allows.
* `Tally.perform_of_exhausted`, `Tally.performAll_of_exhausted` — **an exhausted tally** stays so
  and makes entries only.
* `failed_operations` — all of this.
-/

namespace CabbageFormula

/-- **The entry that an operation makes by itself**, without any cabbage.  A roll has none. -/
def Operation.entry? : Operation → Option Entry
  | .cast .. => none
  | .enter e => some e
  | .settle (.constant s v) => some (.constant s v)
  | .settle (.roll ..) => none

@[simp] lemma Operation.cabbages_cast (count sides : UInt64) :
    (Operation.cast count sides).cabbages = count := rfl

@[simp] lemma Operation.cabbages_roll (s : Sign) (count sides : UInt64) :
    (Operation.settle (.roll s count sides)).cabbages = count := rfl

/-- **The cap on cabbages is what a request fails for** exactly if more than that have been asked
for; it is looked at first. -/
lemma Draw.request_eq_rollCap_iff {caps : Caps} {rolls count sides max : UInt64} :
    request caps rolls count sides = .error (.rollCap max) ↔
      caps.rolls < rolls ∧ max = caps.rolls := by
  rw [request]
  by_cases hcap : caps.rolls < rolls
  · rw [if_pos hcap]
    simp [hcap, eq_comm]
  · rw [if_neg hcap]
    refine iff_of_false ?_ fun h => hcap h.1
    by_cases hzero : sides = 0
    · simp [hzero]
    · by_cases hwide : caps.sides < sides
      · simp [hzero, hwide]
      · by_cases hnone : count = 0
        · simp [hzero, hwide, hnone]
        · simp [hzero, hwide, hnone]

namespace Tally

variable {σ : Type} {caps : Caps}

/-! ## One operation -/

section Rolling

variable [RollSource σ]

lemma perform_of_entry {op : Operation} {e : Entry} (h : op.entry? = some e) (t : Tally σ) :
    t.perform caps op = (.ok [], t.enter [e]) := by
  cases op with
  | cast count sides => cases h
  | enter entry => cases h; rfl
  | settle term =>
      cases term with
      | constant s v => cases h; rfl
      | roll s count sides => cases h

/-- **A roll fails exactly if the request for its cabbages does**, for the same fault, and then the
cabbages have been asked for and nothing else has happened. -/
lemma exists_request (caps : Caps) {op : Operation} (h : op.entry? = none) (t : Tally σ) :
    ∃ sides,
      (∀ why, Draw.request caps (t.ask op.cabbages).asked op.cabbages sides = .error why →
        t.perform caps op = (.error why, t.ask op.cabbages)) ∧
      ∀ d, Draw.request caps (t.ask op.cabbages).asked op.cabbages sides = .ok d →
        ∃ values, (t.perform caps op).1 = .ok values := by
  cases op with
  | cast count sides =>
      rw [Operation.cabbages_cast]
      refine ⟨sides, fun why hr => cast_of_error hr, fun d hr => ?_⟩
      rw [perform_cast, cast_of_ok hr]
      exact ⟨_, rfl⟩
  | enter e => cases h
  | settle term =>
      cases term with
      | constant s v => cases h
      | roll s count sides =>
          rw [Operation.cabbages_roll]
          refine ⟨sides, fun why hr => ?_, fun d hr => ⟨[], ?_⟩⟩
          · rw [perform, settle_roll_of_error hr]
          · rw [perform, settle_roll_of_ok hr]

/-- **A failed operation** has asked for its cabbages, and leaves all else as it was. -/
lemma perform_of_error {op : Operation} {t : Tally σ} {why : RollFault}
    (h : (t.perform caps op).1 = .error why) :
    (∃ sides, Draw.request caps (t.ask op.cabbages).asked op.cabbages sides = .error why) ∧
      (t.perform caps op).2 = t.ask op.cabbages := by
  cases hentry : op.entry? with
  | some e =>
      rw [perform_of_entry hentry] at h
      cases h
  | none =>
      obtain ⟨sides, hrefused, hgranted⟩ := exists_request caps hentry t
      cases hr : Draw.request caps (t.ask op.cabbages).asked op.cabbages sides with
      | error fault =>
          rw [hrefused fault hr] at h ⊢
          obtain rfl : fault = why := Except.error.inj h
          exact ⟨⟨sides, hr⟩, rfl⟩
      | ok d =>
          obtain ⟨values, hok⟩ := hgranted d hr
          rw [hok] at h
          cases h

/-- **The count after any operation**, whether it fails or not. -/
lemma toNat_asked_perform (op : Operation) (t : Tally σ) :
    (t.perform caps op).2.asked.toNat =
      min (2 ^ 64 - 1) (t.asked.toNat + op.cabbages.toNat) := by
  obtain ⟨_, _, -, hextends⟩ := perform_posts caps op t
  rw [hextends.asked_eq]
  exact Word.toNat_addCapped t.asked op.cabbages

/-- **The count never falls.** -/
lemma asked_le_performAll (ops : List Operation) (t : Tally σ) :
    t.asked ≤ (t.performAll caps ops).asked := by
  have hlt := t.asked.toNat_lt
  rw [UInt64.le_iff_toNat_le, toNat_asked_performAll]
  omega

end Rolling

/-! ## Out of cabbages -/

/-- **More cabbages have been asked for than the cap allows.** -/
def Exhausted (caps : Caps) (t : Tally σ) : Prop := caps.rolls < t.asked

lemma Exhausted.ask {t : Tally σ} (h : t.Exhausted caps) (count : UInt64) :
    (t.ask count).Exhausted caps :=
  UInt64.lt_of_lt_of_le h (Word.le_addCapped t.asked count)

lemma Exhausted.request {t : Tally σ} (h : t.Exhausted caps) (count sides : UInt64) :
    Draw.request caps (t.ask count).asked count sides = .error (.rollCap caps.rolls) :=
  Draw.request_eq_rollCap_iff.mpr ⟨h.ask count, rfl⟩

section Rolling

variable [RollSource σ]

/-- **The cap on cabbages is hit** only by an operation that leaves the tally exhausted. -/
lemma exhausted_of_rollCap {op : Operation} {t : Tally σ} {max : UInt64}
    (h : (t.perform caps op).1 = .error (.rollCap max)) :
    (t.ask op.cabbages).Exhausted caps ∧ max = caps.rolls := by
  obtain ⟨⟨sides, hr⟩, -⟩ := perform_of_error h
  exact Draw.request_eq_rollCap_iff.mp hr

/-- **An exhausted tally refuses every roll**, whatever its count and its sides. -/
lemma perform_of_exhausted {op : Operation} {t : Tally σ} (ht : t.Exhausted caps)
    (h : op.entry? = none) :
    t.perform caps op = (.error (.rollCap caps.rolls), t.ask op.cabbages) := by
  obtain ⟨sides, hrefused, -⟩ := exists_request caps h t
  exact hrefused _ (ht.request _ sides)

/-- **An exhausted tally makes entries only**, and stays exhausted. -/
lemma performAll_of_exhausted (ops : List Operation) :
    ∀ {t : Tally σ}, t.Exhausted caps →
      ∃ asked, caps.rolls < asked ∧
        t.performAll caps ops = { t.enter (ops.filterMap Operation.entry?) with asked } := by
  induction ops with
  | nil =>
      intro t ht
      exact ⟨t.asked, ht, t.enter_nil.symm⟩
  | cons op rest ih =>
      intro t ht
      rw [performAll_cons]
      cases hentry : op.entry? with
      | some e =>
          have hkept : (t.enter [e]).Exhausted caps := ht
          obtain ⟨asked, hlt, hrest⟩ := ih hkept
          refine ⟨asked, hlt, ?_⟩
          rw [perform_of_entry hentry, hrest, List.filterMap_cons_some hentry, ← enter_append]
          rfl
      | none =>
          obtain ⟨asked, hlt, hrest⟩ := ih (ht.ask op.cabbages)
          refine ⟨asked, hlt, ?_⟩
          rw [perform_of_exhausted ht hentry, hrest, List.filterMap_cons_none hentry]
          rfl

end Rolling

end Tally

/-! ## All operations -/

/-- **Operations that fail.**  An operation on a tally that fails, for whatever fault, makes no draw
and leaves the source, the total, the trace and all else as they were, but for the count, which has
grown by its cabbages as far as a word can count them.  The count never falls.  And once the cap on
cabbages has been hit, every later roll fails for the same cap, whatever its count and its sides:
however the tally is used, nothing becomes of it but that constants and single entries are made. -/
theorem failed_operations {σ : Type} [RollSource σ] (caps : Caps) (t : Tally σ) :
    (∀ (op : Operation) (why : RollFault), (t.perform caps op).1 = .error why →
      (t.perform caps op).2 = { t with asked := Word.addCapped t.asked op.cabbages }) ∧
    (∀ op : Operation, (t.perform caps op).2.asked.toNat =
      min (2 ^ 64 - 1) (t.asked.toNat + op.cabbages.toNat)) ∧
    (∀ ops : List Operation, t.asked ≤ (t.performAll caps ops).asked) ∧
    ∀ (op : Operation) (max : UInt64), (t.perform caps op).1 = .error (.rollCap max) →
      ∀ later : List Operation, ∃ u : Tally σ, t.performAll caps (op :: later) = u ∧
        (∃ asked, u = { t.enter (later.filterMap Operation.entry?) with asked }) ∧
        (∀ count sides, (u.cast caps count sides).1 = .error (.rollCap max)) ∧
        (∀ s count sides, (u.settle caps (.roll s count sides)).1 = .error (.rollCap max)) ∧
        ∀ s value, u.settle caps (.constant s value) = (.ok (), u.enter [.constant s value]) := by
  refine ⟨fun op why h => (Tally.perform_of_error h).2, fun op => Tally.toNat_asked_perform op t,
    fun ops => Tally.asked_le_performAll ops t, ?_⟩
  intro op max h later
  obtain ⟨hexhausted, rfl⟩ := Tally.exhausted_of_rollCap h
  obtain ⟨asked, hlt, hlater⟩ := Tally.performAll_of_exhausted later hexhausted
  rw [← (Tally.perform_of_error h).2, ← Tally.performAll_cons] at hlater
  have hspent : (t.performAll caps (op :: later)).Exhausted caps := by
    rw [hlater]
    exact hlt
  refine ⟨_, rfl, ⟨asked, ?_⟩, ?_, ?_, fun s value => rfl⟩
  · rw [hlater, (Tally.perform_of_error h).2]
    rfl
  · intro count sides
    rw [Tally.cast_of_error (hspent.request count sides)]
  · intro s count sides
    rw [Tally.settle_roll_of_error (hspent.request count sides)]

/-- A roll above the cap, one without cabbages and sides behind it, and a constant. -/
theorem failed_operations_above_three :
    ((Tally.mk ⟨[[2], [5]]⟩ 2 0 [] [] [] : Tally Script).perform { rolls := 3 } (.cast 2 6)).1 =
        .error (.rollCap 3) ∧
      ∃ u : Tally Script,
        (Tally.mk ⟨[[2], [5]]⟩ 2 0 [] [] []).performAll { rolls := 3 }
          [.cast 2 6, .settle (.roll .plus 0 0), .settle (.constant .minus 7)] = u ∧
        u.trace = [.constant .minus 7] ∧ u.total = -7 ∧ u.draws = [] ∧
          (u.cast { rolls := 3 } 0 0).1 = .error (.rollCap 3) := by
  have hcap : ((Tally.mk ⟨[[2], [5]]⟩ 2 0 [] [] [] : Tally Script).perform { rolls := 3 }
      (.cast 2 6)).1 = .error (.rollCap 3) := by decide
  obtain ⟨u, hu, ⟨asked, rfl⟩, hcast, -⟩ := (failed_operations { rolls := 3 } _).2.2.2 _ _ hcap
    [.settle (.roll .plus 0 0), .settle (.constant .minus 7)]
  exact ⟨hcap, _, hu, rfl, rfl, rfl, hcast 0 0⟩

end CabbageFormula
