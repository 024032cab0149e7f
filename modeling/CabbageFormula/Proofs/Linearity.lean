import CabbageFormula.Proofs.Totals
import CabbageFormula.Proofs.Weaving
import Mathlib.Algebra.BigOperators.Group.List.Basic

/-!
# Terms that are changed, and what becomes of the total

The total is linear in the terms, as if they were not rolled one after the other: a constant adds
its value wherever it stands, other signs make the negative of the total, and the order of terms
does not matter as long as that of the rolls stays.  Nothing of this is noticed by the source.

* `Agree` — evaluations that agree in all but their outcomes, and how these are related.
* `agree_of_rolls_eq` — **terms with the same rolls agree**.
* `weave_flip`, `exactTotal_weave` — what other signs and another order make of the entries.
* `granted_iff` — which terms are granted, without regard to their order.
* `evaluate_linear` — the four laws.
-/

namespace CabbageFormula

/-! ## Other signs -/

/-- The other sign. -/
def Sign.flip : Sign → Sign
  | plus => minus
  | minus => plus

/-- A term under the other sign. -/
def Term.flip : Term → Term
  | .constant s value => .constant s.flip value
  | .roll s count sides => .roll s.flip count sides

/-- An entry under the other sign. -/
def Entry.flip : Entry → Entry
  | .constant s v => .constant s.flip v
  | .rolled s v => .rolled s.flip v

lemma Sign.signed_flip (s : Sign) (v : UInt64) : s.flip.signed v = -s.signed v := by
  cases s with
  | plus => rfl
  | minus => exact (Int.neg_neg _).symm

lemma Entry.amount_flip (e : Entry) : e.flip.amount = -e.amount := by
  cases e with
  | constant s v => exact s.signed_flip v
  | rolled s v => exact s.signed_flip v

lemma exactTotal_map_flip (entries : List Entry) :
    exactTotal (entries.map Entry.flip) = -exactTotal entries := by
  induction entries with
  | nil => rfl
  | cons e entries ih => rw [List.map_cons, exactTotal_cons, exactTotal_cons, ih, e.amount_flip,
      Int.neg_add]

lemma rolls_map_flip (terms : List Term) : rolls (terms.map Term.flip) = rolls terms := by
  induction terms with
  | nil => rfl
  | cons term rest ih =>
      cases term with
      | constant s v => rw [List.map_cons, Term.flip, rolls_constant, rolls_constant, ih]
      | roll s count sides => rw [List.map_cons, Term.flip, rolls_roll, rolls_roll, ih]

/-- **Terms under the other signs** have their entries under the other signs. -/
lemma weave_flip (terms : List Term) :
    ∀ groups, weave (terms.map Term.flip) groups = (weave terms groups).map Entry.flip := by
  induction terms with
  | nil => exact fun groups => rfl
  | cons term rest ih =>
      intro groups
      cases term with
      | constant s v => exact congrArg (Entry.constant s.flip v :: ·) (ih groups)
      | roll s count sides =>
          rw [List.map_cons, Term.flip, weave_roll_groups, weave_roll_groups, ih, List.map_append,
            List.map_map]
          rfl

/-! ## Another order -/

/-- What a term adds to the total whatever the source returns. -/
def Term.fixed : Term → Int
  | .constant s v => s.signed v
  | .roll .. => 0

/-- **The rolls of terms, with their signs**, in order. -/
def rollTerms (terms : List Term) : List Term := terms.filter fun t => !t.isConstant

lemma rolls_rollTerms (terms : List Term) : rolls (rollTerms terms) = rolls terms := by
  induction terms with
  | nil => rfl
  | cons term rest ih =>
      cases term with
      | constant s v => exact ih
      | roll s count sides => exact congrArg ((count, sides) :: ·) ih

/-- **Constants add their values wherever they stand.** -/
lemma exactTotal_weave (terms : List Term) :
    ∀ groups, exactTotal (weave terms groups) =
      (terms.map Term.fixed).sum + exactTotal (weave (rollTerms terms) groups) := by
  induction terms with
  | nil => exact fun groups => rfl
  | cons term rest ih =>
      intro groups
      rw [List.map_cons, List.sum_cons]
      cases term with
      | constant s v =>
          rw [weave_constant, exactTotal_cons, ih groups, Int.add_assoc]
          rfl
      | roll s count sides =>
          have hrolls : rollTerms (.roll s count sides :: rest) =
              .roll s count sides :: rollTerms rest := rfl
          rw [hrolls, weave_roll_groups, weave_roll_groups, exactTotal_append, exactTotal_append,
            ih groups.tail, Term.fixed]
          omega

/-! ## Evaluations that agree -/

section Rolling

variable {σ : Type}

/-- **Evaluations that agree in all but their outcomes**: they make the same draws, leave the source
in the same state, and fail for the same fault, or else both have an outcome, and these are
related. -/
structure Agree (R : Outcome → Outcome → Prop) (a b : Except RollFault Outcome × Tally σ) :
    Prop where
  draws_eq : b.2.draws = a.2.draws
  source_eq : b.2.source = a.2.source
  results : (∃ why, a.1 = .error why ∧ b.1 = .error why) ∨
    ∃ o o', a.1 = .ok o ∧ b.1 = .ok o' ∧ R o o'

lemma Agree.of_bare {R : Outcome → Outcome → Prop} {a b : Except RollFault Outcome × Tally σ}
    (h : b.2.bare = a.2.bare)
    (results : (∃ why, a.1 = .error why ∧ b.1 = .error why) ∨
      ∃ o o', a.1 = .ok o ∧ b.1 = .ok o' ∧ R o o') : Agree R a b := by
  have hdraws : b.2.bare.draws = a.2.bare.draws := congrArg Tally.draws h
  have hsource : b.2.bare.source = a.2.bare.source := congrArg Tally.source h
  exact ⟨hdraws, hsource, results⟩

variable [RollSource σ] {caps : Caps} {source : σ}

/-- **Terms with the same rolls agree**, and what their rolls show is woven into both. -/
lemma agree_of_rolls_eq {terms other : List Term} (h : rolls other = rolls terms)
    {R : Outcome → Outcome → Prop}
    (hR : ∀ groups u, Tally.castAll caps (rolls terms) { source := source } = (.ok groups, u) →
      R ⟨exactTotal (weave terms groups), weave terms groups⟩
        ⟨exactTotal (weave other groups), weave other groups⟩) :
    Agree R (evaluate caps terms source) (evaluate caps other source) := by
  rcases hcast : Tally.castAll caps (rolls terms) { source := source } with ⟨result, u⟩
  have hother := hcast
  rw [← h] at hother
  cases result with
  | error why =>
      obtain ⟨hwhy, hbare⟩ := evaluate_of_castAll_error hcast
      obtain ⟨hwhy', hbare'⟩ := evaluate_of_castAll_error hother
      exact .of_bare (hbare'.trans hbare.symm) (.inl ⟨why, hwhy, hwhy'⟩)
  | ok groups =>
      obtain ⟨ho, hbare⟩ := evaluate_of_castAll_ok hcast
      obtain ⟨ho', hbare'⟩ := evaluate_of_castAll_ok hother
      exact .of_bare (hbare'.trans hbare.symm) (.inr ⟨_, _, ho, ho', hR groups u hcast⟩)

/-- **A constant that is put in** adds its value, and its entry stands behind those of the terms in
front of it. -/
lemma agree_insert (front back : List Term) (s : Sign) (v : UInt64) :
    Agree (fun o o' => ∃ p : Outcome, (evaluate caps front source).1 = .ok p ∧
        ∃ tail, o.trace = p.trace ++ tail ∧ o'.trace = p.trace ++ .constant s v :: tail ∧
          o'.total = o.total + s.signed v)
      (evaluate caps (front ++ back) source)
      (evaluate caps (front ++ .constant s v :: back) source) := by
  apply agree_of_rolls_eq
  · rw [rolls_append, rolls_append, rolls_constant]
  · intro groups u hcast
    rw [rolls_append] at hcast
    obtain ⟨shown, rest, mid, rfl, hlength, hfront⟩ := Tally.exists_castAll_of_append _ hcast
    refine ⟨_, (evaluate_of_castAll_ok hfront).1, weave back rest, weave_append _ _ hlength, ?_, ?_⟩
    · exact weave_append _ _ hlength
    · show exactTotal (weave _ _) = exactTotal (weave _ _) + _
      rw [weave_append _ _ hlength, weave_append _ _ hlength, weave_constant, exactTotal_append,
        exactTotal_append, exactTotal_cons, Entry.amount_constant]
      omega

lemma agree_flip (terms : List Term) :
    Agree (fun o o' => o'.total = -o.total ∧ o'.trace = o.trace.map Entry.flip)
      (evaluate caps terms source) (evaluate caps (terms.map Term.flip) source) := by
  apply agree_of_rolls_eq (rolls_map_flip terms)
  intro groups u _
  rw [weave_flip, exactTotal_map_flip]
  exact ⟨rfl, rfl⟩

lemma agree_perm {terms other : List Term} (h : terms.Perm other)
    (hrolls : rollTerms other = rollTerms terms) :
    Agree (fun o o' => o'.total = o.total) (evaluate caps terms source)
      (evaluate caps other source) := by
  apply agree_of_rolls_eq
  · rw [← rolls_rollTerms, hrolls, rolls_rollTerms]
  · intro groups u _
    show exactTotal _ = exactTotal _
    rw [exactTotal_weave, exactTotal_weave terms, hrolls, (h.map Term.fixed).sum_eq]

end Rolling

/-! ## Terms that are granted -/

/-- **A term that has no fault by itself**: a roll has sides, no more than the cap allows, and it is
of some cabbage. -/
def Term.Sound (caps : Caps) : Term → Prop
  | .constant .. => True
  | .roll _ count sides => sides ≠ 0 ∧ sides ≤ caps.sides ∧ count ≠ 0

instance (caps : Caps) : DecidablePred (Term.Sound caps)
  | .constant .. => inferInstanceAs (Decidable True)
  | .roll _ count sides =>
    inferInstanceAs (Decidable (sides ≠ 0 ∧ sides ≤ caps.sides ∧ count ≠ 0))

lemma grantedBehind_iff {caps : Caps} {terms : List Term} :
    ∀ {front : List Term}, min (2 ^ 64 - 1) (cabbages front) ≤ caps.rolls.toNat →
      (GrantedBehind caps front terms ↔
        (∀ t ∈ terms, t.Sound caps) ∧
          min (2 ^ 64 - 1) (cabbages (front ++ terms)) ≤ caps.rolls.toNat) := by
  induction terms with
  | nil =>
      intro front hfront
      rw [List.append_nil]
      exact iff_of_true (grantedBehind_nil caps front) ⟨by simp, hfront⟩
  | cons term rest ih =>
      intro front hfront
      have hsplit : front ++ term :: rest = (front ++ [term]) ++ rest := by simp
      have hsum : cabbages (front ++ [term]) = cabbages front + term.cabbages := by
        simp [cabbages]
      rw [grantedBehind_cons, List.forall_mem_cons, hsplit]
      cases term with
      | constant s v =>
          have hnext : min (2 ^ 64 - 1) (cabbages (front ++ [.constant s v])) ≤
              caps.rolls.toNat := by
            rw [hsum]
            exact hfront
          rw [ih hnext]
          exact ⟨fun h => ⟨⟨trivial, h.2.1⟩, h.2.2⟩, fun h => ⟨rfl, h.1.2, h.2⟩⟩
      | roll s count sides =>
          rw [faultBehind_roll_eq_none_iff]
          constructor
          · rintro ⟨⟨hcap, hsound⟩, hrest⟩
            have hnext : min (2 ^ 64 - 1) (cabbages (front ++ [.roll s count sides])) ≤
                caps.rolls.toNat := by
              rw [hsum]
              exact hcap
            obtain ⟨hothers, hall⟩ := (ih hnext).mp hrest
            exact ⟨⟨hsound, hothers⟩, hall⟩
          · rintro ⟨⟨hsound, hothers⟩, hall⟩
            -- as many cabbages as are within the cap all together are so in front of the others
            have hnext : min (2 ^ 64 - 1) (cabbages (front ++ [.roll s count sides])) ≤
                caps.rolls.toNat := by
              rw [cabbages_append] at hall
              omega
            have hcap := hnext
            rw [hsum] at hcap
            exact ⟨⟨hcap, hsound⟩, (ih hnext).mpr ⟨hothers, hall⟩⟩

/-- **Terms are granted** exactly if each is sound by itself and all together ask for no more
cabbages than the cap allows, as far as a word can count them. -/
lemma granted_iff {caps : Caps} {terms : List Term} :
    Granted caps terms ↔
      (∀ t ∈ terms, t.Sound caps) ∧ min (2 ^ 64 - 1) (cabbages terms) ≤ caps.rolls.toNat :=
  grantedBehind_iff (Nat.zero_le _)

lemma granted_perm {caps : Caps} {terms other : List Term} (h : terms.Perm other) :
    Granted caps terms ↔ Granted caps other := by
  have hsum : cabbages terms = cabbages other := (h.map Term.cabbages).sum_eq
  rw [granted_iff, granted_iff, hsum]
  simp only [h.mem_iff]

/-! ## The laws -/

/-- **Evaluation is linear.**  With any caps and any source, a constant that is put in anywhere
changes nothing but the outcome, if there is one: it adds its value to the total, and its entry to
the trace at its place.  Neither do other signs change anything else: they make the negative of the
total, and turn the sign of every entry.  In another order, in which the rolls follow one another as
before, terms come to the same total, and all else is the same, too.  And in any order at all they
are rolled if they were before. -/
theorem evaluate_linear {σ : Type} [RollSource σ] (caps : Caps) (source : σ) :
    (∀ (front back : List Term) (s : Sign) (v : UInt64),
      Agree (fun o o' => ∃ p : Outcome, (evaluate caps front source).1 = .ok p ∧
          ∃ tail, o.trace = p.trace ++ tail ∧ o'.trace = p.trace ++ .constant s v :: tail ∧
            o'.total = o.total + s.signed v)
        (evaluate caps (front ++ back) source)
        (evaluate caps (front ++ .constant s v :: back) source)) ∧
    (∀ terms : List Term,
      Agree (fun o o' => o'.total = -o.total ∧ o'.trace = o.trace.map Entry.flip)
        (evaluate caps terms source) (evaluate caps (terms.map Term.flip) source)) ∧
    (∀ terms other : List Term, terms.Perm other → rollTerms other = rollTerms terms →
      Agree (fun o o' => o'.total = o.total)
        (evaluate caps terms source) (evaluate caps other source)) ∧
    ∀ terms other : List Term, terms.Perm other →
      ((∃ o, (evaluate caps terms source).1 = .ok o) ↔
        ∃ o, (evaluate caps other source).1 = .ok o) := by
  refine ⟨agree_insert, agree_flip, fun terms other => agree_perm, ?_⟩
  intro terms other h
  constructor
  · rintro ⟨o, ho⟩
    exact (evaluate_of_granted source ((granted_perm h).mp (granted_of_ok ho))).1
  · rintro ⟨o, ho⟩
    exact (evaluate_of_granted source ((granted_perm h).mpr (granted_of_ok ho))).1

/-- A constant that is rolled behind the cabbage that it stood in front of. -/
theorem evaluate_linear_reordered :
    [Term.constant .plus 7, .roll .minus 1 6].Perm [.roll .minus 1 6, .constant .plus 7] ∧
      Agree (fun o o' => o'.total = o.total)
        (evaluate {} [.constant .plus 7, .roll .minus 1 6] (⟨5⟩ : Fixed))
        (evaluate {} [.roll .minus 1 6, .constant .plus 7] (⟨5⟩ : Fixed)) := by
  have hperm : [Term.constant .plus 7, .roll .minus 1 6].Perm
      [.roll .minus 1 6, .constant .plus 7] := .swap _ _ _
  exact ⟨hperm, (evaluate_linear {} _).2.2.1 _ _ hperm rfl⟩

end CabbageFormula
