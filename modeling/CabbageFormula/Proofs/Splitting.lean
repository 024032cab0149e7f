import CabbageFormula.Proofs.Answers
import CabbageFormula.Proofs.Linearity
import CabbageFormula.Proofs.UniformDraws

/-!
# Rolls that are split

Between two faces a random source keeps nothing but its place in the stream of words.  So a draw
can be made in two parts, one behind the other: the faces are the same, and the words that were
used, too.  A roll of many cabbages can then be written as two rolls, and nothing is noticed of it
but in the draws.

* `Draw.SplitsInto`, `RollSource.Divisible` — a draw in two parts, and sources that do not notice.
* `WordStream.take_add`, `WordSource.divisible` — a random source does not.
* `WordSource.sum_spent` — the words that draws use, rejected ones included.
* `granted_split`, `evaluate_split_of_ok` — two rolls instead of one are granted if the one was,
  and come to the same.
* `rolls_split` — all of this.
-/

namespace CabbageFormula

/-! ## Draws in two parts -/

/-- **A draw in two parts**: for cabbages with as many sides, and for as many in all. -/
structure Draw.SplitsInto (whole first second : Draw) : Prop where
  sides_first : first.sides = whole.sides
  sides_second : second.sides = whole.sides
  count_eq : whole.count.toNat = first.count.toNat + second.count.toNat

/-- **A source that does not notice** whether a draw is made in two parts. -/
def RollSource.Divisible (σ : Type) [RollSource σ] : Prop :=
  ∀ whole first second : Draw, whole.SplitsInto first second → ∀ source : σ,
    draw whole source =
      ((draw first source).1 ++ (draw second (draw first source).2).1,
        (draw second (draw first source).2).2)

namespace WordStream

variable (w : WordStream) {sides : UInt64}

/-- **Faces taken in two parts** are the faces taken at once, and the place behind them is the
same. -/
lemma take_add (h : sides ≠ 0) (m n start : ℕ) :
    w.take sides h (m + n) start =
      ((w.take sides h m start).1 ++ (w.take sides h n (w.take sides h m start).2).1,
        (w.take sides h n (w.take sides h m start).2).2) := by
  induction m generalizing start with
  | zero => rw [Nat.zero_add, take_zero, List.nil_append]
  | succ m ih => rw [Nat.succ_add, take_succ, ih, take_succ, List.cons_append]

lemma le_take (h : sides ≠ 0) (count start : ℕ) : start ≤ (w.take sides h count start).2 := by
  induction count generalizing start with
  | zero => exact Nat.le_refl start
  | succ count ih =>
      obtain ⟨wait, face, hfirst⟩ := w.exists_firstShown h start
      rw [take_succ, w.sample_eq h hfirst]
      exact Nat.le_trans (Nat.le_add_right start (wait + 1)) (ih _)

end WordStream

namespace WordSource

lemma draw_of_take {d : Draw} {source : WordSource} {faces : List UInt64} {stop : ℕ}
    (h : source.stream.take d.sides d.sides_ne_zero d.count.toNat source.position = (faces, stop)) :
    RollSource.draw d source = (faces, ⟨source.stream, stop⟩) := by
  rw [draw_eq, h]

/-- **A random source does not notice** whether a draw is made in two parts. -/
lemma divisible : RollSource.Divisible WordSource := by
  rintro ⟨total, sides, h⟩ ⟨a, _, _⟩ ⟨b, _, _⟩ ⟨rfl, rfl, hcount⟩ source
  have hcount : total.toNat = a.toNat + b.toNat := hcount
  simp only [draw_eq, hcount, source.stream.take_add h]

/-- **The words that draws use**, rejected ones included, lie between the place of the source in
front of them and the one behind. -/
lemma sum_spent (draws : List Draw) (source : WordSource) :
    (spent draws source).sum + source.position = (RollSource.after draws source).position := by
  induction draws generalizing source with
  | nil => exact Nat.zero_add _
  | cons d rest ih =>
      have hle : source.position ≤ (RollSource.draw d source).2.position :=
        source.stream.le_take d.sides_ne_zero _ _
      rw [RollSource.after_cons, ← ih, spent, List.sum_cons]
      omega

lemma sum_spent_eq {draws other : List Draw} {source : WordSource}
    (h : RollSource.after other source = RollSource.after draws source) :
    (spent other source).sum = (spent draws source).sum := by
  have hother := sum_spent other source
  rw [h, ← sum_spent draws source] at hother
  exact Nat.add_right_cancel hother

end WordSource

/-! ## Two rolls instead of one -/

section Split

variable {front back : List Term} {s : Sign} {a b sides : UInt64}

lemma toNat_add_of_lt (h : a.toNat + b.toNat < 2 ^ 64) : (a + b).toNat = a.toNat + b.toNat := by
  rw [UInt64.toNat_add, Nat.mod_eq_of_lt h]

lemma cabbages_split (h : a.toNat + b.toNat < 2 ^ 64) :
    cabbages (front ++ .roll s a sides :: .roll s b sides :: back) =
      cabbages (front ++ .roll s (a + b) sides :: back) := by
  simp only [cabbages, List.map_append, List.map_cons, List.sum_append, List.sum_cons,
    Term.cabbages, toNat_add_of_lt h]
  omega

/-- **Two rolls are granted** if the one for all of their cabbages is: what a word can count of them
is the same. -/
lemma granted_split {caps : Caps} (ha : a ≠ 0) (hb : b ≠ 0) (h : a.toNat + b.toNat < 2 ^ 64) :
    Granted caps (front ++ .roll s a sides :: .roll s b sides :: back) ↔
      Granted caps (front ++ .roll s (a + b) sides :: back) := by
  have hpos : 0 < a.toNat := Nat.pos_of_ne_zero fun e => ha (UInt64.toNat_inj.mp e)
  have hab : a + b ≠ 0 := by
    intro e
    have hzero := congrArg UInt64.toNat e
    rw [toNat_add_of_lt h, UInt64.toNat_zero] at hzero
    omega
  have hsound : Term.Sound caps (.roll s a sides) ∧ Term.Sound caps (.roll s b sides) ↔
      Term.Sound caps (.roll s (a + b) sides) :=
    ⟨fun hs => ⟨hs.1.1, hs.1.2.1, hab⟩,
      fun hs => ⟨⟨hs.1, hs.2.1, ha⟩, hs.1, hs.2.1, hb⟩⟩
  rw [granted_iff, granted_iff, cabbages_split h, List.forall_mem_append, List.forall_mem_append,
    List.forall_mem_cons, List.forall_mem_cons, List.forall_mem_cons, ← hsound]
  simp only [and_assoc]

lemma weave_split {shown rest : List (List UInt64)} {xs ys : List UInt64}
    (h : shown.length = (rolls front).length) :
    weave (front ++ .roll s a sides :: .roll s b sides :: back) (shown ++ xs :: ys :: rest) =
      weave (front ++ .roll s (a + b) sides :: back) (shown ++ (xs ++ ys) :: rest) := by
  rw [weave_append _ _ h, weave_append _ _ h, weave_roll, weave_roll, weave_roll, List.map_append,
    List.append_assoc]

end Split

/-- **The draws for two rolls instead of one** are the same but for the two parts of one draw. -/
lemma exists_splitsInto {draws other : List Draw} {front back : List (UInt64 × UInt64)}
    {a b sides : UInt64} (h : a.toNat + b.toNat < 2 ^ 64)
    (hwhole : draws.map Draw.asks = front ++ (a + b, sides) :: back)
    (hsplit : other.map Draw.asks = front ++ (a, sides) :: (b, sides) :: back) :
    ∃ before whole first second after, draws = before ++ whole :: after ∧
      other = before ++ first :: second :: after ∧ before.map Draw.asks = front ∧
        whole.SplitsInto first second := by
  have hinj : Function.Injective (List.map Draw.asks) :=
    List.map_injective_iff.mpr Draw.asks_injective
  obtain ⟨before, _, rfl, hbefore, hrest⟩ := List.map_eq_append_iff.mp hwhole
  obtain ⟨whole, after, rfl, hasks, hafter⟩ := List.map_eq_cons_iff.mp hrest
  obtain ⟨before', _, rfl, hbefore', hrest'⟩ := List.map_eq_append_iff.mp hsplit
  obtain ⟨first, _, rfl, hfirst, hrest'⟩ := List.map_eq_cons_iff.mp hrest'
  obtain ⟨second, after', rfl, hsecond, hafter'⟩ := List.map_eq_cons_iff.mp hrest'
  obtain rfl : before' = before := hinj (hbefore'.trans hbefore.symm)
  obtain rfl : after' = after := hinj (hafter'.trans hafter.symm)
  obtain ⟨hcount, hsides⟩ := Prod.mk.inj hasks
  obtain ⟨rfl, hsides₁⟩ := Prod.mk.inj hfirst
  obtain ⟨rfl, hsides₂⟩ := Prod.mk.inj hsecond
  refine ⟨before', whole, first, second, after', rfl, rfl, hbefore, ?_⟩
  exact ⟨hsides₁.trans hsides.symm, hsides₂.trans hsides.symm, by rw [hcount, toNat_add_of_lt h]⟩

/-! ## The law -/

/-- **Two rolls come to what the one comes to**, if the source does not notice that the draw is made
in two parts. -/
lemma evaluate_split_of_ok {σ : Type} [RollSource σ] (hsource : RollSource.Divisible σ)
    {caps : Caps} {front back : List Term} {s : Sign} {a b sides : UInt64} {source : σ}
    (ha : a ≠ 0) (hb : b ≠ 0) (h : a.toNat + b.toNat < 2 ^ 64) {o : Outcome}
    (ho : (evaluate caps (front ++ .roll s (a + b) sides :: back) source).1 = .ok o) :
    (evaluate caps (front ++ .roll s a sides :: .roll s b sides :: back) source).1 = .ok o ∧
      RollSource.after
          (evaluate caps (front ++ .roll s a sides :: .roll s b sides :: back) source).2.draws
          source =
        RollSource.after
          (evaluate caps (front ++ .roll s (a + b) sides :: back) source).2.draws source := by
  have hwhole := granted_of_ok ho
  have hsplit := (granted_split ha hb h).mpr hwhole
  obtain ⟨o', ho', htrace', -⟩ := evaluate_follows_of_granted source hsplit
  obtain ⟨o₀, ho₀, htrace, -⟩ := evaluate_follows_of_granted source hwhole
  obtain rfl : o₀ = o := Except.ok.inj (ho₀.symm.trans ho)
  have hdraws := (evaluate_of_granted source hwhole).2
  have hdraws' := (evaluate_of_granted source hsplit).2
  rw [rolls_append, rolls_roll] at hdraws hdraws'
  rw [rolls_roll] at hdraws'
  obtain ⟨before, whole, first, second, after, hdraws, hdraws', hbefore, hparts⟩ :=
    exists_splitsInto h hdraws hdraws'
  -- the two parts are drawn where the whole would have been, and leave the same source
  have hdraw := hsource whole first second hparts (RollSource.after before source)
  have hlength : (RollSource.answers before source).length = (rolls front).length := by
    rw [RollSource.length_answers, ← hbefore, List.length_map]
  have htraces : o'.trace = o₀.trace := by
    rw [htrace', htrace, hdraws, hdraws', RollSource.answers_append, RollSource.answers_append,
      RollSource.answers_cons, RollSource.answers_cons, RollSource.answers_cons, hdraw]
    exact weave_split hlength
  have htotals : o'.total = o₀.total := by
    rw [evaluate_balanced ho', evaluate_balanced ho₀, htraces]
  obtain rfl : o' = o₀ := by
    cases o'
    cases o₀
    cases htraces
    cases htotals
    rfl
  refine ⟨ho', ?_⟩
  rw [hdraws, hdraws', RollSource.after_append, RollSource.after_append, RollSource.after_cons,
    RollSource.after_cons, RollSource.after_cons, hdraw]

/-- **Evaluations that come to the same**, though not by the same draws: one of them succeeds if the
other does, and then they have the same outcome, leave the source at the same place, and have used
as many words. -/
structure ComeToSame (source : WordSource)
    (whole split : Except RollFault Outcome × Tally WordSource) : Prop where
  succeeds : (∃ o, whole.1 = .ok o) ↔ ∃ o, split.1 = .ok o
  outcome_eq : ∀ o, whole.1 = .ok o → split.1 = .ok o
  source_eq : ∀ o, whole.1 = .ok o → split.2.source = whole.2.source
  spent_eq : ∀ o, whole.1 = .ok o →
    (WordSource.spent split.2.draws source).sum = (WordSource.spent whole.2.draws source).sum

lemma comeToSame_split {caps : Caps} {front back : List Term} {s : Sign} {a b sides : UInt64}
    {source : WordSource} (ha : a ≠ 0) (hb : b ≠ 0) (h : a.toNat + b.toNat < 2 ^ 64) :
    ComeToSame source (evaluate caps (front ++ .roll s (a + b) sides :: back) source)
      (evaluate caps (front ++ .roll s a sides :: .roll s b sides :: back) source) where
  succeeds := by
    constructor
    · rintro ⟨o, ho⟩
      exact ⟨o, (evaluate_split_of_ok WordSource.divisible ha hb h ho).1⟩
    · rintro ⟨o, ho⟩
      exact (evaluate_of_granted source ((granted_split ha hb h).mp (granted_of_ok ho))).1
  outcome_eq _ ho := (evaluate_split_of_ok WordSource.divisible ha hb h ho).1
  source_eq _ ho := by
    rw [evaluate_source, evaluate_source, (evaluate_split_of_ok WordSource.divisible ha hb h ho).2]
  spent_eq _ ho :=
    WordSource.sum_spent_eq (evaluate_split_of_ok WordSource.divisible ha hb h ho).2

/-- **Rolls can be split.**  A draw from a random source that is made in two parts has the faces of
the draw made at once, in the same order; it leaves the source at the same place, and has used as
many words.  It is answered with as many faces as it asks for, each of them one of the cabbage's.
So a roll of some terms can be written as two, of one cabbage or more each: whether the terms are
rolled does not depend on it, nor what they come to, nor how many words are used. -/
theorem rolls_split :
    (∀ (whole first second : Draw) (source : WordSource), whole.SplitsInto first second →
      RollSource.draw whole source =
          ((RollSource.draw first source).1 ++
              (RollSource.draw second (RollSource.draw first source).2).1,
            (RollSource.draw second (RollSource.draw first source).2).2) ∧
        (WordSource.spent [first, second] source).sum = (WordSource.spent [whole] source).sum) ∧
    (∀ (d : Draw) (source : WordSource),
      (RollSource.draw d source).1.length = d.count.toNat ∧
        AreFaces d.sides (RollSource.draw d source).1) ∧
    ∀ (caps : Caps) (front back : List Term) (s : Sign) (a b sides : UInt64) (source : WordSource),
      a ≠ 0 → b ≠ 0 → a.toNat + b.toNat < 2 ^ 64 →
        ComeToSame source (evaluate caps (front ++ .roll s (a + b) sides :: back) source)
          (evaluate caps (front ++ .roll s a sides :: .roll s b sides :: back) source) := by
  refine ⟨?_, fun d => WordSource.honest d, ?_⟩
  · intro whole first second source hparts
    have hdraw := WordSource.divisible whole first second hparts source
    refine ⟨hdraw, WordSource.sum_spent_eq ?_⟩
    rw [RollSource.after_cons, RollSource.after_cons, RollSource.after_cons, hdraw]
  · exact fun caps front back s a b sides source ha hb h => comeToSame_split ha hb h

/-- A stream whose second word is rejected for six sides. -/
def stumbling : WordStream :=
  .prepend #[0x8000000000000000, 0x2AAAAAAAAAAAAAAA, Word.top, 0, 0] .additive

lemma draw_stumbling :
    RollSource.draw (⟨1, 6, by decide⟩ : Draw) (WordSource.mk stumbling 0) =
        ([4], ⟨stumbling, 1⟩) ∧
      RollSource.draw (⟨2, 6, by decide⟩ : Draw) (WordSource.mk stumbling 1) =
        ([6, 1], ⟨stumbling, 4⟩) ∧
      RollSource.draw (⟨1, 20, by decide⟩ : Draw) (WordSource.mk stumbling 4) =
        ([1], ⟨stumbling, 5⟩) := by
  have hfour : stumbling.sample 6 (by decide) 0 = (4, 1) :=
    WordStream.sample_of_some _ (by decide)
  -- the word behind is rejected, and the next one is the greatest
  have hsix : stumbling.sample 6 (by decide) 1 = (6, 3) := by
    rw [WordStream.sample_of_none _ (by decide)]
    exact WordStream.sample_of_some _ (by decide)
  have hone : stumbling.sample 6 (by decide) 3 = (1, 4) :=
    WordStream.sample_of_some _ (by decide)
  have htwenty : stumbling.sample 20 (by decide) 4 = (1, 5) :=
    WordStream.sample_of_some _ (by decide)
  refine ⟨WordSource.draw_of_take ?_, WordSource.draw_of_take ?_, WordSource.draw_of_take ?_⟩
  · show stumbling.take 6 _ 1 0 = _
    rw [WordStream.take_succ, hfour, WordStream.take_zero]
  · show stumbling.take 6 _ 2 1 = _
    rw [WordStream.take_succ, hsix, WordStream.take_succ, hone, WordStream.take_zero]
  · show stumbling.take 20 _ 1 4 = _
    rw [WordStream.take_succ, htwenty, WordStream.take_zero]

/-- Once it is known what three cabbages show, so is what they come to among other terms. -/
lemma evaluate_stumbling
    (h : RollSource.draw (⟨3, 6, by decide⟩ : Draw) (WordSource.mk stumbling 0) =
      ([4, 6, 1], ⟨stumbling, 4⟩)) :
    (evaluate { rolls := 4 } [.constant .minus 7, .roll .plus 3 6, .roll .minus 1 20]
        (WordSource.mk stumbling 0)).1 =
      .ok ⟨3, [.constant .minus 7, .rolled .plus 4, .rolled .plus 6, .rolled .plus 1,
        .rolled .minus 1]⟩ ∧
    (evaluate { rolls := 4 } [.constant .minus 7, .roll .plus 3 6, .roll .minus 1 20]
        (WordSource.mk stumbling 0)).2.draws = [⟨3, 6, by decide⟩, ⟨1, 20, by decide⟩] := by
  have hgranted : Granted { rolls := 4 }
      [.constant .minus 7, .roll .plus 3 6, .roll .minus 1 20] :=
    granted_iff.mpr ⟨by decide, by decide⟩
  have hasks : _ = [⟨3, 6, by decide⟩, ⟨1, 20, by decide⟩].map Draw.asks :=
    (evaluate_of_granted (WordSource.mk stumbling 0) hgranted).2
  have hdraws := List.map_injective_iff.mpr Draw.asks_injective hasks
  obtain ⟨o, ho, htrace, -⟩ := evaluate_follows_of_granted (WordSource.mk stumbling 0) hgranted
  rw [hdraws, RollSource.answers_cons, h, RollSource.answers_cons, draw_stumbling.2.2] at htrace
  have htotal := evaluate_balanced ho
  rw [htrace] at htotal
  refine ⟨?_, hdraws⟩
  rw [ho]
  cases o
  cases htrace
  cases htotal
  rfl

/-- Three cabbages as one and two, among other terms that together just reach the cap.  One word is
rejected, so that four are used for the three faces, and one more for the face behind them. -/
theorem rolls_split_three :
    (⟨3, 6, by decide⟩ : Draw).SplitsInto ⟨1, 6, by decide⟩ ⟨2, 6, by decide⟩ ∧
      face? 6 (stumbling.word 1) = none ∧
      RollSource.draw (⟨3, 6, by decide⟩ : Draw) (WordSource.mk stumbling 0) =
        ([4, 6, 1], ⟨stumbling, 4⟩) ∧
      (WordSource.spent [⟨3, 6, by decide⟩] ⟨stumbling, 0⟩).sum = 4 ∧
      (WordSource.spent [⟨1, 6, by decide⟩, ⟨2, 6, by decide⟩] ⟨stumbling, 0⟩).sum = 4 ∧
      (evaluate { rolls := 4 }
          [.constant .minus 7, .roll .plus 1 6, .roll .plus 2 6, .roll .minus 1 20]
          (WordSource.mk stumbling 0)).1 =
        .ok ⟨3, [.constant .minus 7, .rolled .plus 4, .rolled .plus 6, .rolled .plus 1,
          .rolled .minus 1]⟩ ∧
      (WordSource.spent (evaluate { rolls := 4 }
          [.constant .minus 7, .roll .plus 1 6, .roll .plus 2 6, .roll .minus 1 20]
          (WordSource.mk stumbling 0)).2.draws ⟨stumbling, 0⟩).sum = 5 := by
  have hparts : (⟨3, 6, by decide⟩ : Draw).SplitsInto ⟨1, 6, by decide⟩ ⟨2, 6, by decide⟩ :=
    ⟨rfl, rfl, rfl⟩
  -- the draws by the law for draws
  obtain ⟨hfirst, hsecond, hlast⟩ := draw_stumbling
  obtain ⟨hdraw, hspent⟩ := rolls_split.1 _ _ _ ⟨stumbling, 0⟩ hparts
  rw [hfirst, hsecond] at hdraw
  have hfour : (WordSource.spent [⟨3, 6, by decide⟩] ⟨stumbling, 0⟩).sum = 4 := by
    rw [WordSource.spent, hdraw]
    rfl
  -- the terms by the law for terms
  obtain ⟨ho, hdraws⟩ := evaluate_stumbling hdraw
  have hsame : ComeToSame ⟨stumbling, 0⟩
      (evaluate { rolls := 4 } [.constant .minus 7, .roll .plus 3 6, .roll .minus 1 20] _)
      (evaluate { rolls := 4 }
        [.constant .minus 7, .roll .plus 1 6, .roll .plus 2 6, .roll .minus 1 20] _) :=
    rolls_split.2.2 { rolls := 4 } [.constant .minus 7] [.roll .minus 1 20] .plus 1 2 6
      ⟨stumbling, 0⟩ (by decide) (by decide) (by decide)
  refine ⟨hparts, by decide, hdraw, hfour, hspent.trans hfour, hsame.outcome_eq _ ho, ?_⟩
  rw [hsame.spent_eq _ ho, hdraws, WordSource.spent, hdraw, WordSource.spent, hlast]
  rfl

end CabbageFormula
