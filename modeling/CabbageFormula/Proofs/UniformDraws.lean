import CabbageFormula.Proofs.RandomWords

/-!
# Uniform draws

A random source answers a draw with the faces that its words show, one behind the other, and the
words that are rejected take no part.  From uniform words all answers to a draw are equally likely,
and each of its faces has the same chance, whatever the others are and wherever the draw starts.

* `FirstShown` — the first face that words show, and how many are rejected before it.
* `Yields` — the faces that words show one after the other.
* `yields_cons_ahead` — **one word further**, a face has been shown or a word rejected.
* `real_yields` — the chance of faces.
* `ae_exists_stream` — almost all words are a stream, on which no wait lasts for ever.
* `WordStream.take_eq_iff` — the faces taken from a stream are those that its words yield.
* `WordSource.honest` — a random source is honest.
* `draws_uniform` — **draws are uniform**.
-/

namespace CabbageFormula

open MeasureTheory ProbabilityTheory

variable {sides : UInt64}

/-! ## Waiting for faces -/

/-- **The first face that words show**, behind a number of rejected words. -/
def FirstShown (sides : UInt64) (words : ℕ → UInt64) (wait : ℕ) (face : UInt64) : Prop :=
  (∀ n < wait, face? sides (words n) = none) ∧ face? sides (words wait) = some face

lemma FirstShown.unique {words : ℕ → UInt64} {wait wait' : ℕ} {face face' : UInt64}
    (h : FirstShown sides words wait face) (h' : FirstShown sides words wait' face') :
    wait = wait' ∧ face = face' := by
  obtain hlt | rfl | hgt := Nat.lt_trichotomy wait wait'
  · cases h.2.symm.trans (h'.1 wait hlt)
  · exact ⟨rfl, Option.some.inj (h.2.symm.trans h'.2)⟩
  · cases h'.2.symm.trans (h.1 wait' hgt)

/-- **Words yield faces** if they show them one after the other, with rejected words in between. -/
def Yields (sides : UInt64) : List UInt64 → (ℕ → UInt64) → Prop
  | [], _ => True
  | face :: faces, words =>
      ∃ wait, FirstShown sides words wait face ∧ Yields sides faces (onward (wait + 1) words)

@[simp] lemma yields_nil (words : ℕ → UInt64) : Yields sides [] words := trivial

lemma yields_cons (face : UInt64) (faces : List UInt64) (words : ℕ → UInt64) :
    Yields sides (face :: faces) words ↔
      ∃ wait, FirstShown sides words wait face ∧ Yields sides faces (onward (wait + 1) words) :=
  Iff.rfl

lemma firstShown_zero_ahead {word face : UInt64} {words : ℕ → UInt64} :
    FirstShown sides (ahead word words) 0 face ↔ face? sides word = some face :=
  ⟨fun h => h.2, fun h => ⟨fun n hn => absurd hn n.not_lt_zero, h⟩⟩

lemma firstShown_succ_ahead {word face : UInt64} {words : ℕ → UInt64} {wait : ℕ} :
    FirstShown sides (ahead word words) (wait + 1) face ↔
      face? sides word = none ∧ FirstShown sides words wait face := by
  constructor
  · rintro ⟨hnone, hsome⟩
    exact ⟨hnone 0 wait.succ_pos, fun n hn => hnone (n + 1) (Nat.succ_lt_succ hn), hsome⟩
  · rintro ⟨hword, hnone, hsome⟩
    refine ⟨fun n hn => ?_, hsome⟩
    cases n with
    | zero => exact hword
    | succ n => exact hnone n (Nat.lt_of_succ_lt_succ hn)

/-- **One word further**: the first word shows the first face, or it is rejected. -/
lemma yields_cons_ahead (face : UInt64) (faces : List UInt64) (word : UInt64)
    (words : ℕ → UInt64) :
    Yields sides (face :: faces) (ahead word words) ↔
      face? sides word = some face ∧ Yields sides faces words ∨
        face? sides word = none ∧ Yields sides (face :: faces) words := by
  rw [yields_cons, yields_cons]
  constructor
  · rintro ⟨wait, hfirst, hrest⟩
    rw [onward_succ_ahead] at hrest
    cases wait with
    | zero =>
        rw [onward_zero] at hrest
        exact .inl ⟨firstShown_zero_ahead.mp hfirst, hrest⟩
    | succ wait =>
        obtain ⟨hword, hfirst⟩ := firstShown_succ_ahead.mp hfirst
        exact .inr ⟨hword, wait, hfirst, hrest⟩
  · rintro (⟨hword, hrest⟩ | ⟨hword, wait, hfirst, hrest⟩)
    · refine ⟨0, firstShown_zero_ahead.mpr hword, ?_⟩
      rwa [onward_succ_ahead, onward_zero]
    · refine ⟨wait + 1, firstShown_succ_ahead.mpr ⟨hword, hfirst⟩, ?_⟩
      rwa [onward_succ_ahead]

/-! ## The chance of faces -/

lemma measurableSet_word (sides : UInt64) (n : ℕ) (shown : Option UInt64) :
    MeasurableSet {words : ℕ → UInt64 | face? sides (words n) = shown} := by
  have heq : {words : ℕ → UInt64 | face? sides (words n) = shown} =
      Set.preimage (Function.eval n) {word | face? sides word = shown} := rfl
  rw [heq]
  exact measurable_pi_apply n .of_discrete

lemma measurableSet_firstShown (sides : UInt64) (wait : ℕ) (face : UInt64) :
    MeasurableSet {words | FirstShown sides words wait face} := by
  have heq : {words | FirstShown sides words wait face} =
      (⋂ n, ⋂ _ : n < wait, {words | face? sides (words n) = none}) ∩
        {words | face? sides (words wait) = some face} := by
    ext words
    simp [FirstShown]
  rw [heq]
  exact (MeasurableSet.iInter fun n => .iInter fun _ => measurableSet_word sides n none).inter
    (measurableSet_word sides wait (some face))

lemma measurableSet_yields (sides : UInt64) (faces : List UInt64) :
    MeasurableSet {words | Yields sides faces words} := by
  induction faces with
  | nil => simp
  | cons face faces ih =>
      have heq : {words | Yields sides (face :: faces) words} =
          ⋃ wait, {words | FirstShown sides words wait face} ∩
            Set.preimage (onward (wait + 1)) {words | Yields sides faces words} := by
        ext words
        simp [yields_cons]
      rw [heq]
      exact .iUnion fun wait =>
        (measurableSet_firstShown sides wait face).inter (measurable_onward (wait + 1) ih)

lemma measurableSet_never (sides : UInt64) :
    MeasurableSet {words : ℕ → UInt64 | ∀ n, face? sides (words n) = none} := by
  have heq : {words : ℕ → UInt64 | ∀ n, face? sides (words n) = none} =
      ⋂ n, {words | face? sides (words n) = none} := by
    ext words
    simp
  rw [heq]
  exact .iInter fun n => measurableSet_word sides n none

/-- **The chance of another face** is the same for all faces, and does not depend on the rest. -/
lemma real_yields_cons (h : sides ≠ 0) {face : UInt64} (hone : 1 ≤ face) (hsides : face ≤ sides)
    (faces : List UInt64) :
    uniformWords.real {words | Yields sides (face :: faces) words} =
      1 / sides.toNat * uniformWords.real {words | Yields sides faces words} := by
  have hstep : {p : UInt64 × (ℕ → UInt64) | ahead p.1 p.2 ∈
        {words | Yields sides (face :: faces) words}} =
      {word | face? sides word = some face} ×ˢ {words | Yields sides faces words} ∪
        {word | face? sides word = none} ×ˢ {words | Yields sides (face :: faces) words} := by
    ext ⟨word, words⟩
    simp [yields_cons_ahead]
  have hdisjoint : Disjoint
      ({word | face? sides word = some face} ×ˢ {words | Yields sides faces words})
      ({word | face? sides word = none} ×ˢ {words | Yields sides (face :: faces) words}) := by
    refine Set.disjoint_left.mpr ?_
    rintro ⟨word, words⟩ ⟨hsome, -⟩ ⟨hnone, -⟩
    cases hsome.symm.trans hnone
  have hrec := real_eq_prod_real (measurableSet_yields sides (face :: faces))
  rw [hstep, measureReal_union hdisjoint
      (MeasurableSet.of_discrete.prod (measurableSet_yields sides (face :: faces))),
    measureReal_prod_prod, measureReal_prod_prod, uniformWord_real_showing h hone hsides,
    uniformWord_real_rejected h] at hrec
  exact eq_of_retry h hrec

/-- **All faces that words may yield are equally likely.** -/
lemma real_yields (h : sides ≠ 0) {faces : List UInt64} (hfaces : AreFaces sides faces) :
    uniformWords.real {words | Yields sides faces words} =
      (1 / sides.toNat : ℝ) ^ faces.length := by
  induction faces with
  | nil => simp
  | cons face faces ih =>
      obtain ⟨hone, hsides⟩ := hfaces face List.mem_cons_self
      rw [real_yields_cons h hone hsides, ih fun f hf => hfaces f (List.mem_cons_of_mem face hf),
        List.length_cons, pow_succ']

/-! ## Streams -/

/-- **Words that are all rejected** have no chance. -/
lemma uniformWords_never (h : sides ≠ 0) :
    uniformWords {words | ∀ n, face? sides (words n) = none} = 0 := by
  have hstep : {p : UInt64 × (ℕ → UInt64) | ahead p.1 p.2 ∈
        {words | ∀ n, face? sides (words n) = none}} =
      {word | face? sides word = none} ×ˢ {words | ∀ n, face? sides (words n) = none} := by
    ext ⟨word, words⟩
    refine ⟨fun hall => ⟨hall 0, fun n => hall (n + 1)⟩, ?_⟩
    rintro ⟨hword, hwords⟩ n
    cases n with
    | zero => exact hword
    | succ n => exact hwords n
  have hrec := real_eq_prod_real (measurableSet_never sides)
  rw [hstep, measureReal_prod_prod, uniformWord_real_rejected h, ← zero_add (_ * _),
    ← mul_zero (chance sides)] at hrec
  have hnever := eq_of_retry h hrec
  rwa [mul_zero, measureReal_eq_zero_iff] at hnever

/-- **Almost all words are a stream**: no wait lasts for ever. -/
lemma ae_exists_stream : ∀ᵐ words ∂uniformWords, ∃ w : WordStream, w.word = words := by
  have hwait : ∀ (sides : UInt64) (start : ℕ), ∀ᵐ words ∂uniformWords, sides ≠ 0 →
      ∃ wait, (face? sides (words (start + wait))).isSome := by
    intro sides start
    by_cases h : sides = 0
    · exact .of_forall fun words hne => absurd h hne
    · have hnever := (measurePreserving_onward start).measure_preimage
        (measurableSet_never sides).nullMeasurableSet
      rw [uniformWords_never h] at hnever
      filter_upwards [compl_mem_ae_iff.mpr hnever] with words hwords _
      simpa [onward, Option.isSome_iff_ne_none] using hwords
  filter_upwards [ae_all_iff.mpr fun sides => ae_all_iff.mpr (hwait sides)] with words hwords
  exact ⟨⟨words, fun sides h start => hwords sides start h⟩, rfl⟩

/-! ## Faces from a stream -/

namespace WordStream

variable (w : WordStream)

lemma sample_eq (h : sides ≠ 0) {start wait : ℕ} {face : UInt64}
    (hfirst : FirstShown sides (onward start w.word) wait face) :
    w.sample sides h start = (face, start + (wait + 1)) := by
  induction wait generalizing start with
  | zero =>
      rw [onward_eq_ahead, firstShown_zero_ahead] at hfirst
      exact sample_of_some h hfirst
  | succ wait ih =>
      rw [onward_eq_ahead, firstShown_succ_ahead] at hfirst
      rw [sample_of_none h hfirst.1, ih hfirst.2, Nat.add_right_comm, Nat.add_assoc]

lemma length_take (h : sides ≠ 0) (count start : ℕ) :
    (w.take sides h count start).1.length = count := by
  induction count generalizing start with
  | zero => rfl
  | succ count ih => rw [take_succ, List.length_cons, ih]

lemma exists_firstShown (h : sides ≠ 0) (start : ℕ) :
    ∃ wait face, FirstShown sides (onward start w.word) wait face := by
  obtain ⟨wait, hsome, hnone⟩ := w.exists_first_face h start
  obtain ⟨face, hface⟩ := Option.isSome_iff_exists.mp hsome
  exact ⟨wait, face, hnone, hface⟩

/-- **The faces taken from a stream** are those that its words yield. -/
lemma take_eq_iff (h : sides ≠ 0) (faces : List UInt64) (start : ℕ) :
    (w.take sides h faces.length start).1 = faces ↔ Yields sides faces (onward start w.word) := by
  induction faces generalizing start with
  | nil => simp
  | cons face faces ih =>
      obtain ⟨wait, shown, hfirst⟩ := w.exists_firstShown h start
      rw [List.length_cons, take_succ, w.sample_eq h hfirst, List.cons.injEq, ih, yields_cons,
        ← onward_onward]
      constructor
      · rintro ⟨rfl, hrest⟩
        exact ⟨wait, hfirst, hrest⟩
      · rintro ⟨wait', hfirst', hrest⟩
        obtain ⟨rfl, rfl⟩ := hfirst.unique hfirst'
        exact ⟨rfl, hrest⟩

end WordStream

/-! ## Draws -/

lemma Yields.areFaces (h : sides ≠ 0) {faces : List UInt64} {words : ℕ → UInt64}
    (hyields : Yields sides faces words) : AreFaces sides faces := by
  induction faces generalizing words with
  | nil => exact fun v hv => absurd hv List.not_mem_nil
  | cons face faces ih =>
      obtain ⟨wait, hfirst, hrest⟩ := hyields
      intro v hv
      obtain rfl | hv := List.mem_cons.mp hv
      · exact face?_bounds h hfirst.2
      · exact ih hrest v hv

/-- **A random source is honest.** -/
lemma WordSource.honest : RollSource.Honest WordSource := by
  intro d source
  rw [WordSource.draw_eq]
  have hlength := source.stream.length_take d.sides_ne_zero d.count.toNat source.position
  refine ⟨hlength, ?_⟩
  have hyields := (source.stream.take_eq_iff d.sides_ne_zero _ source.position).mp (by rw [hlength])
  exact hyields.areFaces d.sides_ne_zero

/-- **The words of a draw**: those of a stream from which the draw, begun at a position, is answered
with given faces. -/
def drawing (d : Draw) (start : ℕ) (faces : List UInt64) : Set (ℕ → UInt64) :=
  {words | ∃ w : WordStream, w.word = words ∧
    (RollSource.draw d (⟨w, start⟩ : WordSource)).1 = faces}

lemma drawing_ae_eq {d : Draw} {faces : List UInt64} (hlength : faces.length = d.count.toNat)
    (start : ℕ) :
    drawing d start faces =ᵐ[uniformWords]
      Set.preimage (onward start) {words | Yields d.sides faces words} := by
  refine Filter.eventuallyEq_set.mpr ?_
  filter_upwards [ae_exists_stream] with words hstream
  obtain ⟨w, rfl⟩ := hstream
  have htake := w.take_eq_iff d.sides_ne_zero faces start
  rw [hlength] at htake
  refine ⟨?_, fun hyields => ⟨w, rfl, htake.mpr hyields⟩⟩
  rintro ⟨w', hword, hdraw⟩
  obtain rfl : w' = w := by
    cases w
    cases w'
    cases hword
    rfl
  exact htake.mp hdraw

/-- **Draws are uniform.**  A word shows a face by the upper half of its product with the number of
sides, unless the lower half is one of the last `2 ^ 64 % sides`.  A face that it shows is one of
the cabbage's, and each of these is shown by the same number of words; zero always shows the first.
A draw from a random source is answered with as many faces as it asks for.  And if the words are
uniform, then almost surely they are a stream, and wherever a draw starts on it, all answers that
the draw may have are equally likely. -/
theorem draws_uniform (d : Draw) :
    (∀ word face, face? d.sides word = some face ↔
      word.toNat * d.sides.toNat % 2 ^ 64 ≤ 2 ^ 64 - 1 - 2 ^ 64 % d.sides.toNat ∧
        face.toNat = 1 + word.toNat * d.sides.toNat / 2 ^ 64) ∧
    (∀ word face, face? d.sides word = some face → 1 ≤ face ∧ face ≤ d.sides) ∧
    (∀ face, 1 ≤ face → face ≤ d.sides →
      {word | face? d.sides word = some face}.ncard = 2 ^ 64 / d.sides.toNat) ∧
    face? d.sides 0 = some 1 ∧
    (∀ source : WordSource, (RollSource.draw d source).1.length = d.count.toNat ∧
      AreFaces d.sides (RollSource.draw d source).1) ∧
    (∀ᵐ words ∂uniformWords, ∃ w : WordStream, w.word = words) ∧
    ∀ (start : ℕ) (faces : List UInt64), faces.length = d.count.toNat → AreFaces d.sides faces →
      uniformWords.real (drawing d start faces) = (1 / d.sides.toNat : ℝ) ^ d.count.toNat := by
  have h := d.sides_ne_zero
  refine ⟨fun word face => face?_eq_some_iff h, fun word face => face?_bounds h,
    fun face => ncard_showing h, face?_zero h, WordSource.honest d, ae_exists_stream, ?_⟩
  intro start faces hlength hfaces
  calc uniformWords.real (drawing d start faces)
      = uniformWords.real (Set.preimage (onward start) {words | Yields d.sides faces words}) :=
        measureReal_congr (drawing_ae_eq hlength start)
    _ = uniformWords.real {words | Yields d.sides faces words} :=
        (measurePreserving_onward start).measureReal_preimage
          (measurableSet_yields d.sides faces).nullMeasurableSet
    _ = (1 / d.sides.toNat : ℝ) ^ d.count.toNat := by rw [real_yields h hfaces, hlength]

/-- The three of a die, and two dice that show a four and a one. -/
theorem draws_uniform_six :
    {word | face? 6 word = some 3}.ncard = 3074457345618258602 ∧
      uniformWords.real (drawing ⟨2, 6, by decide⟩ 5 [4, 1]) = 1 / 36 := by
  have huniform := draws_uniform ⟨2, 6, by decide⟩
  refine ⟨huniform.2.2.1 3 (by decide) (by decide), ?_⟩
  calc uniformWords.real (drawing ⟨2, 6, by decide⟩ 5 [4, 1])
      = (1 / (6 : ℕ) : ℝ) ^ 2 := huniform.2.2.2.2.2.2 5 [4, 1] rfl (by simp [AreFaces])
    _ = 1 / 36 := by norm_num

end CabbageFormula
