import CabbageFormula.Proofs.Verdict
import CabbageFormula.Source.Scripted

/-!
# The budget of cabbages

The cap on cabbages is a budget for all draws together, as long as it is below the greatest word.
The count of what has been asked for stops there, so that a cap of that size is never exceeded by
the count, however much is drawn.

* `Tally.drawn` — the cabbages of all draws, as a number of any size.
* `Tally.InBudget` — the invariant: what is drawn has been asked for and is within the cap.
* `kept_inBudget` — it survives every operation below the greatest word, and also where no cabbage
  may have sides, since nothing is drawn then.
* `length_trace_of_run` — the length of a trace, if the source returns as many values as asked for.
* `drawn_le_cap_iff` — when the cap on cabbages is a budget.
-/

namespace CabbageFormula

variable {σ : Type}

/-- **The cabbages of all draws.** -/
def Tally.drawn (t : Tally σ) : Nat := (t.draws.map fun d => d.count.toNat).sum

/-- A source that returns as many values as it is asked for. -/
def RollSource.Counted (σ : Type) [RollSource σ] : Prop :=
  ∀ (d : Draw) (source : σ), (RollSource.draw d source).1.length = d.count.toNat

@[simp] lemma Tally.drawn_ask (count : UInt64) (t : Tally σ) : (t.ask count).drawn = t.drawn := rfl

/-! ## The invariant -/

/-- **What is drawn has been asked for, and is within the cap.** -/
structure Tally.InBudget (caps : Caps) (t : Tally σ) : Prop where
  drawn_le_asked : t.drawn ≤ t.asked.toNat
  drawn_le_cap : t.drawn ≤ caps.rolls.toNat

lemma Tally.inBudget_start (caps : Caps) (source : σ) : Tally.InBudget caps { source := source } :=
  ⟨Nat.zero_le _, Nat.zero_le _⟩

section Invariant

variable [RollSource σ] {caps : Caps}

lemma Tally.drawn_pull (d : Draw) (t : Tally σ) : (t.pull d).drawn = t.drawn + d.count.toNat := by
  simp [Tally.drawn]

/-- **A granted roll stays in budget**: below the greatest word, the count behind it is exact. -/
lemma inBudget_granted (hcap : caps.rolls ≠ Word.top ∨ caps.sides = 0) {t : Tally σ}
    {count sides : UInt64} {d : Draw}
    (h : Draw.request caps (t.ask count).asked count sides = .ok d) (ht : t.InBudget caps) :
    ((t.ask count).pull d).InBudget caps := by
  obtain ⟨hasked, hsides, -, hcount, hd⟩ := Draw.request_eq_ok_iff.mp h
  rcases hcap with hrolls | hnone
  · -- a count that stopped short would be the greatest word, and that is above the cap
    have hle : (t.ask count).asked.toNat ≤ caps.rolls.toNat := UInt64.le_iff_toNat_le.mp hasked
    have hlt : caps.rolls.toNat < Word.top.toNat := Word.toNat_lt_top_iff.mpr hrolls
    have hexact : (t.ask count).asked.toNat = t.asked.toNat + count.toNat := by
      rw [Tally.asked_ask, Word.toNat_addCapped] at hle ⊢
      omega
    have hdrawn : ((t.ask count).pull d).drawn = t.drawn + count.toNat := by
      rw [Tally.drawn_pull, hcount]
      rfl
    have hold := ht.drawn_le_asked
    refine ⟨?_, ?_⟩
    · rw [hdrawn, Tally.asked_pull, hexact]
      omega
    · rw [hdrawn]
      omega
  · rw [hnone, ← hd] at hsides
    exact absurd (UInt64.le_zero_iff.mp hsides) d.sides_ne_zero

/-- **The budget is kept**, below the greatest word or where no cabbage may have sides. -/
lemma kept_inBudget (hcap : caps.rolls ≠ Word.top ∨ caps.sides = 0) :
    Tally.Kept caps (fun t : Tally σ => t.InBudget caps) where
  note _ _ ht := ⟨ht.drawn_le_asked, ht.drawn_le_cap⟩
  enter _ _ ht := ⟨ht.drawn_le_asked, ht.drawn_le_cap⟩
  refused t count _ _ _ ht := by
    have hgrow := UInt64.le_iff_toNat_le.mp (Word.le_addCapped t.asked count)
    exact ⟨Nat.le_trans ht.drawn_le_asked hgrow, ht.drawn_le_cap⟩
  granted _ _ _ _ h ht := inBudget_granted hcap h ht

lemma drawn_performAll_le (hcap : caps.rolls ≠ Word.top ∨ caps.sides = 0) (source : σ)
    (ops : List Operation) :
    (Tally.performAll caps ops { source := source }).drawn ≤ caps.rolls.toNat :=
  ((kept_inBudget hcap).performAll ops (Tally.inBudget_start caps source)).drawn_le_cap

lemma drawn_evaluate_le (hcap : caps.rolls ≠ Word.top ∨ caps.sides = 0) (source : σ)
    (terms : List Term) : (evaluate caps terms source).2.drawn ≤ caps.rolls.toNat := by
  rw [evaluate_tally]
  exact ((kept_inBudget hcap).run terms (Tally.inBudget_start caps source)).drawn_le_cap

end Invariant

/-! ## The length of a trace -/

/-- The entries that a term makes, if the source returns as many values as it is asked for. -/
def Term.entries : Term → Nat
  | .constant .. => 1
  | .roll _ count _ => count.toNat

/-- **A run makes one entry for each constant, and one for each cabbage.** -/
lemma length_trace_of_run [RollSource σ] (hσ : RollSource.Counted σ) {caps : Caps}
    {terms : List Term} {t last : Tally σ} (h : t.run caps terms = (.ok (), last)) :
    last.trace.length = t.trace.length + (terms.map Term.entries).sum := by
  induction terms generalizing t with
  | nil =>
      obtain rfl : t = last := (Prod.mk.inj h).2
      rfl
  | cons term rest ih =>
      cases term with
      | constant s value =>
          rw [Tally.run_cons_of_ok (Tally.settle_constant caps s value _)] at h
          rw [ih h]
          simp [Term.entries, Nat.add_assoc]
      | roll s count sides =>
          cases hr : Draw.request caps ((t.note (.attempting (.roll s count sides))).ask count).asked
              count sides with
          | error why =>
              rw [Tally.run_cons_of_error (Tally.settle_roll_of_error hr)] at h
              cases (Prod.mk.inj h).1
          | ok d =>
              rw [Tally.run_cons_of_ok (Tally.settle_roll_of_ok hr)] at h
              have hcount : d.count = count := (Draw.request_eq_ok_iff.mp hr).2.2.2.1
              rw [ih h]
              simp [Term.entries, hσ d, hcount, Nat.add_assoc]

lemma sum_entries_le (terms : List Term) :
    (terms.map Term.entries).sum ≤ terms.length + cabbages terms := by
  induction terms with
  | nil => exact Nat.zero_le _
  | cons term rest ih =>
      have hterm : term.entries ≤ 1 + term.cabbages := by
        cases term with
        | constant s value => exact Nat.le_refl _
        | roll s count sides => exact Nat.le_add_left _ _
      have hsum : cabbages (term :: rest) = term.cabbages + cabbages rest := by simp [cabbages]
      rw [List.map_cons, List.sum_cons, List.length_cons, hsum]
      omega

lemma sum_counts_rolls (terms : List Term) :
    ((rolls terms).map fun p => p.1.toNat).sum = cabbages terms := by
  induction terms with
  | nil => rfl
  | cons term rest ih =>
      have hsum : cabbages (term :: rest) = term.cabbages + cabbages rest := by simp [cabbages]
      have happend := rolls_append [term] rest
      rw [List.singleton_append] at happend
      rw [happend, List.map_append, List.sum_append, ih, hsum]
      cases term with
      | constant s value => rfl
      | roll s count sides => simp [rolls, Term.roll?, Term.cabbages]

lemma drawn_of_granted [RollSource σ] {caps : Caps} {terms : List Term} (source : σ)
    (h : Granted caps terms) : (evaluate caps terms source).2.drawn = cabbages terms := by
  have hdraws := (evaluate_of_granted source h).2
  rw [← sum_counts_rolls, ← hdraws, Tally.drawn, List.map_map]
  rfl

/-- **The length of a trace**, if the source returns as many values as it is asked for. -/
lemma length_trace_of_ok [RollSource σ] (hσ : RollSource.Counted σ) {caps : Caps}
    {terms : List Term} {source : σ} {o : Outcome} (h : (evaluate caps terms source).1 = .ok o) :
    o.trace.length = (terms.map Term.entries).sum := by
  obtain ⟨last, hrun, -⟩ := run_of_granted source (granted_of_ok h)
  rw [evaluate_of_ok hrun] at h
  obtain rfl : last.outcome = o := Except.ok.inj h
  have hlen := length_trace_of_run hσ hrun
  rw [List.length_nil, Nat.zero_add] at hlen
  exact hlen

/-! ## At the greatest word -/

section Overspending

variable {caps : Caps}

lemma granted_top (hrolls : caps.rolls = Word.top) (hsides : caps.sides ≠ 0) :
    Granted caps [.roll .plus Word.top 1, .roll .plus Word.top 1] := by
  refine grantedBehind_cons.mpr ⟨faultBehind_top hrolls hsides _, ?_⟩
  exact grantedBehind_cons.mpr ⟨faultBehind_top hrolls hsides _, grantedBehind_nil _ _⟩

lemma cast_top [RollSource σ] (hrolls : caps.rolls = Word.top) (hsides : caps.sides ≠ 0)
    (t : Tally σ) : (t.cast caps Word.top 1).2.drawn = t.drawn + Word.top.toNat := by
  have hone : 1 ≤ caps.sides := Word.one_le_of_ne_zero hsides
  have hcap : (t.ask Word.top).asked ≤ caps.rolls := by
    rw [hrolls]
    exact Word.le_top _
  have hgranted : Draw.request caps (t.ask Word.top).asked Word.top 1 =
      .ok ⟨Word.top, 1, by decide⟩ :=
    Draw.request_eq_ok_iff.mpr ⟨hcap, hone, by decide, rfl, rfl⟩
  rw [Tally.cast_of_ok hgranted, Tally.drawn_pull, Tally.drawn_ask]

/-- Two casts of the greatest word are granted, and together they are more than any cap. -/
lemma exists_overspent (hrolls : caps.rolls = Word.top) (hsides : caps.sides ≠ 0) (source : Fixed) :
    ∃ ops, caps.rolls.toNat < (Tally.performAll caps ops { source := source }).drawn := by
  refine ⟨[.cast Word.top 1, .cast Word.top 1], ?_⟩
  have hstart : Tally.drawn { source := source } = 0 := rfl
  rw [Tally.performAll_cons, Tally.performAll_cons, Tally.performAll_nil, Tally.perform_cast,
    Tally.perform_cast, cast_top hrolls hsides, cast_top hrolls hsides, hstart, hrolls,
    Word.toNat_top]
  omega

lemma counted_fixed : RollSource.Counted Fixed := by
  intro d source
  rw [Fixed.draw_eq, List.length_replicate]

/-- Two such rolls also make a longer trace than the cap has room for. -/
lemma exists_overlong (hrolls : caps.rolls = Word.top) (hsides : caps.sides ≠ 0)
    (source : Fixed) :
    ∃ terms o, (evaluate caps terms source).1 = .ok o ∧
      terms.length + caps.rolls.toNat < o.trace.length := by
  obtain ⟨⟨o, ho⟩, -⟩ := evaluate_of_granted source (granted_top hrolls hsides)
  refine ⟨_, o, ho, ?_⟩
  have hlen : o.trace.length = Word.top.toNat + Word.top.toNat := by
    rw [length_trace_of_ok counted_fixed ho]
    simp only [List.map_cons, List.map_nil, List.sum_cons, List.sum_nil, Term.entries, Nat.add_zero]
  rw [hlen, hrolls, Word.toNat_top, List.length_cons, List.length_cons, List.length_nil]
  omega

end Overspending

/-- **When the cap on cabbages is a budget.**  All draws made on one tally, over any sequence of
operations and whether these fail or not, ask for no more cabbages than the cap; and an outcome,
if the source returns as many values as it is asked for, has no more entries than there are terms
and cabbages allowed.  Both hold of every source exactly if the cap is below the greatest word, or
if no cabbage may have sides. -/
theorem drawn_le_cap_iff (caps : Caps) :
    ((∀ (σ : Type) [RollSource σ] (source : σ) (ops : List Operation),
      (Tally.performAll caps ops { source := source }).drawn ≤ caps.rolls.toNat) ↔
        caps.rolls ≠ Word.top ∨ caps.sides = 0) ∧
    ((∀ (σ : Type) [RollSource σ], RollSource.Counted σ →
      ∀ (source : σ) (terms : List Term) (o : Outcome), (evaluate caps terms source).1 = .ok o →
        o.trace.length ≤ terms.length + caps.rolls.toNat) ↔
          caps.rolls ≠ Word.top ∨ caps.sides = 0) := by
  refine ⟨⟨?_, ?_⟩, ⟨?_, ?_⟩⟩
  · intro h
    by_contra hcap
    obtain ⟨hrolls, hsides⟩ := not_or.mp hcap
    obtain ⟨ops, hover⟩ := exists_overspent (not_not.mp hrolls) hsides ⟨1⟩
    exact absurd (h Fixed ⟨1⟩ ops) (Nat.not_le.mpr hover)
  · intro hcap σ _ source ops
    exact drawn_performAll_le hcap source ops
  · intro h
    by_contra hcap
    obtain ⟨hrolls, hsides⟩ := not_or.mp hcap
    obtain ⟨terms, o, ho, hover⟩ := exists_overlong (not_not.mp hrolls) hsides ⟨1⟩
    exact absurd (h Fixed counted_fixed ⟨1⟩ terms o ho) (Nat.not_le.mpr hover)
  · intro hcap σ _ hσ source terms o ho
    have hlen := length_trace_of_ok hσ ho
    have hentries := sum_entries_le terms
    have hbudget := drawn_evaluate_le hcap source terms
    rw [drawn_of_granted source (granted_of_ok ho)] at hbudget
    omega

/-- The count stops at the greatest word: behind a cast of that many cabbages, one more is granted
and the cap is exceeded. -/
theorem drawn_above_top :
    ¬ (Tally.performAll { rolls := Word.top } [.cast Word.top 6, .cast 1 6]
      { source := (⟨[[1], [2]]⟩ : Script) }).drawn ≤ Word.top.toNat := by
  decide

end CabbageFormula
