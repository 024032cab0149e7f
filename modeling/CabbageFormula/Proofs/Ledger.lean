import CabbageFormula.Proofs.Settling
import Mathlib.Data.List.Induction

/-!
# The books of a tally

A tally keeps three accounts beside its draws: the total, the cabbages asked for, and the trace.
Whatever is done to it, and whatever the source returns, they agree with one another and with what
was done.

* `registerTotal?` — the total of a trace, added up in a register of 128 bits.
* `exactTotal_of_registerTotal?` — what comes out of the register is exact.
* `registerTotal?_eq_some`, `registerTotal?_eq_none` — no addition leaves the register for as many
  entries as `2 ^ 63`, and this is the most.
* `Tally.kept_balanced`, `evaluate_balanced` — the total is the sum of the trace, after every change
  to a tally and in every outcome.
* `Tally.Posts`, `Tally.perform_posts` — what an operation appends, and that it does nothing else.
* `Tally.toNat_asked_performAll` — the count of all that was asked for.
* `performAll_ledger` — the three accounts after any sequence of operations.
-/

namespace CabbageFormula

/-! ## Totals -/

/-- **The exact total of entries.** -/
def exactTotal (entries : List Entry) : Int := (entries.map Entry.amount).sum

@[simp] lemma exactTotal_nil : exactTotal [] = 0 := rfl

@[simp] lemma exactTotal_cons (e : Entry) (entries : List Entry) :
    exactTotal (e :: entries) = e.amount + exactTotal entries := List.sum_cons

lemma exactTotal_append (front back : List Entry) :
    exactTotal (front ++ back) = exactTotal front + exactTotal back := by
  simp [exactTotal]

lemma exactTotal_concat (entries : List Entry) (e : Entry) :
    exactTotal (entries ++ [e]) = exactTotal entries + e.amount := by
  rw [exactTotal_append, exactTotal_cons, exactTotal_nil, Int.add_zero]

/-- **Addition in a register of 128 bits**, one of them for the sign: `none` if the sum has no
room there. -/
def addInRegister? (a b : Int) : Option Int :=
  if -2 ^ 127 ≤ a + b ∧ a + b < 2 ^ 127 then some (a + b) else none

/-- **The total of entries, added one by one** in a register that is empty at first. -/
def registerTotal? (entries : List Entry) : Option Int :=
  entries.foldlM (fun total entry => addInRegister? total entry.amount) 0

lemma Entry.amount_bounds (e : Entry) : -(2 ^ 64 - 1) ≤ e.amount ∧ e.amount ≤ 2 ^ 64 - 1 := by
  have hword : ∀ (s : Sign) (v : UInt64), -(2 ^ 64 - 1) ≤ s.signed v ∧ s.signed v ≤ 2 ^ 64 - 1 := by
    intro s v
    have hlt := v.toNat_lt
    cases s with
    | plus =>
        rw [Sign.signed_plus]
        omega
    | minus =>
        rw [Sign.signed_minus]
        omega
  cases e with
  | constant s v => exact hword s v
  | rolled s v => exact hword s v

lemma exactTotal_bounds (entries : List Entry) :
    -(entries.length * (2 ^ 64 - 1)) ≤ exactTotal entries ∧
      exactTotal entries ≤ entries.length * (2 ^ 64 - 1) := by
  induction entries with
  | nil => exact ⟨Int.le_refl 0, Int.le_refl 0⟩
  | cons e entries ih =>
      obtain ⟨hmin, hmax⟩ := e.amount_bounds
      rw [exactTotal_cons, List.length_cons]
      push_cast
      omega

lemma addInRegister?_eq_some_iff {a b n : Int} :
    addInRegister? a b = some n ↔ a + b = n ∧ -2 ^ 127 ≤ n ∧ n < 2 ^ 127 := by
  rw [addInRegister?]
  by_cases hfits : -2 ^ 127 ≤ a + b ∧ a + b < 2 ^ 127
  · rw [if_pos hfits, Option.some_inj]
    constructor
    · rintro rfl
      exact ⟨rfl, hfits⟩
    · exact fun h => h.1
  · rw [if_neg hfits]
    refine iff_of_false (Option.some_ne_none n).symm ?_
    rintro ⟨rfl, hn⟩
    exact hfits hn

lemma registerTotal?_concat (entries : List Entry) (e : Entry) :
    registerTotal? (entries ++ [e]) =
      (registerTotal? entries).bind fun total => addInRegister? total e.amount := by
  simp [registerTotal?]

/-- **A total in the register is exact**, and there is room for it. -/
lemma exactTotal_of_registerTotal? {entries : List Entry} :
    ∀ {n : Int}, registerTotal? entries = some n →
      exactTotal entries = n ∧ -2 ^ 127 ≤ n ∧ n < 2 ^ 127 := by
  -- by the entry that was added last
  induction entries using List.reverseRecOn with
  | nil =>
      intro n h
      obtain rfl : 0 = n := Option.some.inj h
      decide
  | append_singleton entries e ih =>
      intro n h
      rw [registerTotal?_concat] at h
      obtain ⟨total, htotal, hadd⟩ := Option.bind_eq_some_iff.mp h
      obtain ⟨hsum, hroom⟩ := addInRegister?_eq_some_iff.mp hadd
      refine ⟨?_, hroom⟩
      rw [exactTotal_concat, (ih htotal).1, hsum]

/-- **No addition leaves the register** for as many entries as `2 ^ 63`, and the total in it is
exact. -/
lemma registerTotal?_eq_some {entries : List Entry} :
    entries.length ≤ 2 ^ 63 → registerTotal? entries = some (exactTotal entries) := by
  induction entries using List.reverseRecOn with
  | nil => exact fun _ => rfl
  | append_singleton entries e ih =>
      intro h
      have hbounds := exactTotal_bounds (entries ++ [e])
      have hlength : ((entries ++ [e]).length : Int) ≤ 2 ^ 63 := by exact_mod_cast h
      rw [List.length_append, List.length_singleton] at h
      rw [registerTotal?_concat, ih (by omega), Option.bind_some]
      exact addInRegister?_eq_some_iff.mpr ⟨(exactTotal_concat entries e).symm, by omega, by omega⟩

lemma exactTotal_replicate (n : Nat) (e : Entry) :
    exactTotal (List.replicate n e) = n * e.amount := by
  simp [exactTotal]

/-- **No register holds a total that it has no room for.** -/
lemma registerTotal?_eq_none_of_le {entries : List Entry} (h : 2 ^ 127 ≤ exactTotal entries) :
    registerTotal? entries = none := by
  refine Option.eq_none_iff_forall_ne_some.mpr ?_
  intro n hn
  obtain ⟨hexact, -, hroom⟩ := exactTotal_of_registerTotal? hn
  omega

/-- **One entry more may be one too many**: of the greatest amounts the register has room for just
`2 ^ 63`. -/
lemma registerTotal?_eq_none :
    registerTotal? (List.replicate (2 ^ 63 + 1) (.constant .plus Word.top)) = none := by
  have hamount : (Entry.constant .plus Word.top).amount = 2 ^ 64 - 1 := rfl
  have htotal := exactTotal_replicate (2 ^ 63 + 1) (.constant .plus Word.top)
  rw [hamount] at htotal
  refine registerTotal?_eq_none_of_le ?_
  rw [htotal]
  decide

/-! ## The total of a tally -/

variable {σ : Type}

namespace Tally

/-- **The total is the sum of the trace.** -/
def Balanced (t : Tally σ) : Prop := t.total = exactTotal t.trace

lemma balanced_start (source : σ) : Balanced { source := source } := rfl

lemma total_enter (entries : List Entry) (t : Tally σ) :
    (t.enter entries).total = t.total + exactTotal entries := by
  have hfold : ∀ total : Int,
      entries.foldl (fun total entry => total + entry.amount) total =
        total + exactTotal entries := by
    induction entries with
    | nil => simp
    | cons e entries ih =>
        intro total
        rw [List.foldl_cons, ih, exactTotal_cons, Int.add_assoc]
  exact hfold t.total

variable [RollSource σ] {caps : Caps}

/-- **A tally stays balanced** through every change. -/
lemma kept_balanced : Kept caps (fun t : Tally σ => t.Balanced) where
  note _ _ h := h
  enter t entries h := by
    show (t.enter entries).total = exactTotal (t.enter entries).trace
    rw [total_enter, trace_enter, exactTotal_append, h]
  refused _ _ _ _ _ h := h
  granted _ _ _ _ _ h := h

lemma balanced_performAll (ops : List Operation) (source : σ) :
    (performAll caps ops { source := source }).Balanced :=
  kept_balanced.performAll ops (balanced_start source)

/-- **A trace only grows at its end.** -/
lemma trace_prefix_performAll (ops : List Operation) (t : Tally σ) :
    t.trace <+: (t.performAll caps ops).trace := by
  have hgrows : Kept caps (fun u : Tally σ => t.trace <+: u.trace) :=
    { note := fun _ _ h => h
      enter := fun u entries h => h.trans (List.prefix_append u.trace entries)
      refused := fun _ _ _ _ _ h => h
      granted := fun _ _ _ _ _ h => h }
  exact hgrows.performAll ops (List.prefix_refl _)

lemma trace_performAll_enter (entries : List Entry) (t : Tally σ) :
    (t.performAll caps (entries.map .enter)).trace = t.trace ++ entries := by
  induction entries generalizing t with
  | nil => simp
  | cons e entries ih =>
      rw [List.map_cons, performAll_cons, ih]
      simp [perform]

/-! ## What an operation appends -/

/-- **What an operation appends** to a tally, with the verdict on it and the draws that it makes.
What is rolled for a term is appended under the sign of the term, as the one draw for it returned
it; a bare cast appends nothing, and neither does a roll that fails. -/
inductive Posts (t : Tally σ) :
    Operation → Except RollFault (List UInt64) → List Draw → List Entry → Prop where
  | entry (e : Entry) : Posts t (.enter e) (.ok []) [] [e]
  | constant (s : Sign) (value : UInt64) :
      Posts t (.settle (.constant s value)) (.ok []) [] [.constant s value]
  | roll (s : Sign) (d : Draw) :
      Posts t (.settle (.roll s d.count d.sides)) (.ok []) [d]
        ((RollSource.draw d t.source).1.map (.rolled s))
  | failedRoll (s : Sign) (count sides : UInt64) (why : RollFault) :
      Posts t (.settle (.roll s count sides)) (.error why) [] []
  | cast (d : Draw) :
      Posts t (.cast d.count d.sides) (.ok (RollSource.draw d t.source).1) [d] []
  | failedCast (count sides : UInt64) (why : RollFault) :
      Posts t (.cast count sides) (.error why) [] []

end Tally

/-- The cabbages that an operation asks for. -/
def Operation.cabbages : Operation → UInt64
  | .cast count _ => count
  | .enter _ => 0
  | .settle (.constant ..) => 0
  | .settle (.roll _ count _) => count

/-- **The cabbages that operations ask for**, all together. -/
def cabbagesAsked (ops : List Operation) : Nat := (ops.map fun op => op.cabbages.toNat).sum

namespace Tally

/-- **What is new in a tally**: draws, entries, the state of the source behind the draws, and the
cabbages asked for. -/
structure Extends [RollSource σ] (after before : Tally σ) (count : UInt64) (draws : List Draw)
    (entries : List Entry) : Prop where
  draws_eq : after.draws = before.draws ++ draws
  trace_eq : after.trace = before.trace ++ entries
  source_eq : after.source = RollSource.after draws before.source
  asked_eq : after.asked = Word.addCapped before.asked count

variable [RollSource σ]

/-- **An operation does what it posts**, and nothing else. -/
theorem perform_posts (caps : Caps) (op : Operation) (t : Tally σ) :
    ∃ draws entries, t.Posts op (t.perform caps op).1 draws entries ∧
      (t.perform caps op).2.Extends t op.cabbages draws entries := by
  cases op with
  | enter e =>
      exact ⟨[], [e], .entry e, by simp [perform], rfl, rfl, by simp [perform, Operation.cabbages]⟩
  | cast count sides =>
      rw [perform_cast]
      cases hr : Draw.request caps (t.ask count).asked count sides with
      | error why =>
          rw [cast_of_error hr]
          exact ⟨[], [], .failedCast count sides why, by simp, by simp, rfl, rfl⟩
      | ok d =>
          obtain ⟨-, -, -, rfl, rfl⟩ := Draw.request_eq_ok_iff.mp hr
          rw [cast_of_ok hr]
          exact ⟨[d], [], .cast d, by simp, by simp, rfl, rfl⟩
  | settle term =>
      cases term with
      | constant s value =>
          exact ⟨[], [.constant s value], .constant s value, by simp [perform], rfl, rfl,
            by simp [perform, Operation.cabbages]⟩
      | roll s count sides =>
          rw [perform]
          cases hr : Draw.request caps (t.ask count).asked count sides with
          | error why =>
              rw [settle_roll_of_error hr]
              exact ⟨[], [], .failedRoll s count sides why, by simp, by simp, rfl, rfl⟩
          | ok d =>
              obtain ⟨-, -, -, rfl, rfl⟩ := Draw.request_eq_ok_iff.mp hr
              rw [settle_roll_of_ok hr]
              exact ⟨[d], _, .roll s d, by simp, by simp, rfl, rfl⟩

/-- **The count of all that was asked for**, exact up to the greatest word. -/
lemma toNat_asked_performAll (caps : Caps) (ops : List Operation) (t : Tally σ) :
    (t.performAll caps ops).asked.toNat = min (2 ^ 64 - 1) (t.asked.toNat + cabbagesAsked ops) := by
  induction ops generalizing t with
  | nil =>
      have hlt := t.asked.toNat_lt
      show t.asked.toNat = min (2 ^ 64 - 1) (t.asked.toNat + 0)
      omega
  | cons op ops ih =>
      obtain ⟨_, _, -, hstep⟩ := perform_posts caps op t
      have hsum : cabbagesAsked (op :: ops) = op.cabbages.toNat + cabbagesAsked ops :=
        List.sum_cons
      rw [performAll_cons, ih, hstep.asked_eq, Word.toNat_addCapped, Word.toNat_top, hsum]
      omega

/-- **The outcome of a tally is balanced** if it was balanced before the terms were rolled. -/
lemma balanced_of_finish {caps : Caps} {terms : List Term} {t : Tally σ} (ht : t.Balanced)
    {o : Outcome} (h : (t.finish caps terms).1 = .ok o) : o.total = exactTotal o.trace := by
  have hrun : (t.run caps terms).2.Balanced := kept_balanced.run terms ht
  rw [finish] at h
  split at h
  case h_1 => cases h
  case h_2 heq =>
    obtain rfl := Except.ok.inj h
    rw [heq] at hrun
    exact hrun

end Tally

lemma evaluate_balanced [RollSource σ] {caps : Caps} {terms : List Term} {source : σ} {o : Outcome}
    (h : (evaluate caps terms source).1 = .ok o) : o.total = exactTotal o.trace :=
  Tally.balanced_of_finish (Tally.balanced_start source) h

/-! ## All accounts -/

/-- **The books of a tally** that operations have left, done in order from nothing. -/
structure Ledger [RollSource σ] (caps : Caps) (source : σ) (ops : List Operation)
    (t : Tally σ) : Prop where
  /-- The total is the sum of the trace. -/
  total_eq : t.total = exactTotal t.trace
  /-- As long as no more than `2 ^ 63` entries have been made, the total was exact in a register of
  128 bits, too. -/
  total_in_register : ∀ entries, entries <+: t.trace → entries.length ≤ 2 ^ 63 →
    registerTotal? entries = some (exactTotal entries)
  /-- For as many entries the register ends up with the total of the tally. -/
  total_eq_register : t.trace.length ≤ 2 ^ 63 → registerTotal? t.trace = some t.total
  /-- The count is that of all cabbages asked for, as far as a word can count them. -/
  asked_eq : t.asked.toNat = min (2 ^ 64 - 1) (cabbagesAsked ops)
  /-- Each operation has appended to the trace what it posts, and nothing was ever taken back. -/
  grown : ∀ front op back, ops = front ++ op :: back →
    ∃ before after draws entries,
      before = Tally.performAll caps front { source := source } ∧
        after = Tally.performAll caps (front ++ [op]) { source := source } ∧
          before.Posts op (before.perform caps op).1 draws entries ∧
            after.Extends before op.cabbages draws entries ∧ after.trace <+: t.trace
  /-- If the tally is finished with some terms, the outcome has the total of its trace. -/
  finished : ∀ terms o, (t.finish caps terms).1 = .ok o → o.total = exactTotal o.trace

section Operations

variable [RollSource σ] (caps : Caps) (source : σ)

lemma ledger_performAll (ops : List Operation) :
    Ledger caps source ops (Tally.performAll caps ops { source := source }) where
  total_eq := Tally.balanced_performAll ops source
  total_in_register _ _ h := registerTotal?_eq_some h
  total_eq_register h := by
    rw [registerTotal?_eq_some h]
    exact congrArg some (Tally.balanced_performAll ops source).symm
  asked_eq := by
    rw [Tally.toNat_asked_performAll]
    show min (2 ^ 64 - 1) (0 + cabbagesAsked ops) = min (2 ^ 64 - 1) (cabbagesAsked ops)
    rw [Nat.zero_add]
  grown := by
    rintro front op back rfl
    obtain ⟨draws, entries, hposts, hextends⟩ :=
      Tally.perform_posts caps op (Tally.performAll caps front { source := source })
    have hafter : Tally.performAll caps (front ++ [op]) { source := source } =
        ((Tally.performAll caps front { source := source }).perform caps op).2 := by
      rw [Tally.performAll_append, Tally.performAll_cons, Tally.performAll_nil]
    refine ⟨_, _, draws, entries, rfl, rfl, hposts, ?_, ?_⟩
    · rw [hafter]
      exact hextends
    · have hsplit : front ++ op :: back = (front ++ [op]) ++ back := by simp
      rw [hsplit, Tally.performAll_append caps (front ++ [op]) back]
      exact Tally.trace_prefix_performAll back _
  finished _ _ h := Tally.balanced_of_finish (Tally.balanced_performAll ops source) h

/-- Operations that make one entry more than the register has room for. -/
lemma exists_registerTotal?_eq_none :
    ∃ ops : List Operation, ops.length = 2 ^ 63 + 1 ∧
      registerTotal? (Tally.performAll caps ops { source := source }).trace = none := by
  refine ⟨(List.replicate (2 ^ 63 + 1) (.constant .plus Word.top)).map .enter, ?_, ?_⟩
  · rw [List.length_map, List.length_replicate]
  · rw [Tally.trace_performAll_enter]
    exact registerTotal?_eq_none

/-- **The books are always in order**: after any sequence of operations, some of which may have
failed, with any source, and so in every outcome of an evaluation.  The register has room for as
many entries as it is said to have, and not for one more. -/
theorem performAll_ledger :
    (∀ ops : List Operation,
      Ledger caps source ops (Tally.performAll caps ops { source := source })) ∧
    (∀ (terms : List Term) (o : Outcome), (evaluate caps terms source).1 = .ok o →
      o.total = exactTotal o.trace) ∧
    ∃ ops : List Operation, ops.length = 2 ^ 63 + 1 ∧
      registerTotal? (Tally.performAll caps ops { source := source }).trace = none :=
  ⟨ledger_performAll caps source,
    fun _ _ => evaluate_balanced,
    exists_registerTotal?_eq_none caps source⟩

end Operations

end CabbageFormula
