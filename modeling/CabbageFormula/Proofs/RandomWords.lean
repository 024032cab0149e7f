import CabbageFormula.Proofs.Fairness
import Mathlib.Data.FinEnum
import Mathlib.Order.CompletePartialOrder
import Mathlib.Probability.Independence.InfinitePi
import Mathlib.Probability.UniformOn

/-!
# Uniform words

Words that are uniform and independent of one another, endlessly many.  One uniform word ahead of
such a sequence is such a sequence again, and so is what lies behind a position; thus the chance of
an event may be found by looking at the first word only.

* `uniformWord`, `uniformWords` — a uniform word, and independent ones.
* `map_ahead` — **the first word is independent of the rest**, which are uniform words again.
* `measurePreserving_onward` — so are the words from a position on.
* `chance`, `uniformWord_real_showing`, `uniformWord_real_rejected` — the chance that a word shows a
  face, and that it is rejected.
* `eq_of_retry` — the chance of what is tried until it is not rejected.
-/

namespace CabbageFormula

open MeasureTheory ProbabilityTheory

/-! ## Sequences of words -/

/-- A word ahead of a sequence of words. -/
def ahead (word : UInt64) (words : ℕ → UInt64) : ℕ → UInt64
  | 0 => word
  | n + 1 => words n

/-- The words from a position on. -/
def onward (start : ℕ) (words : ℕ → UInt64) : ℕ → UInt64 := fun n => words (start + n)

lemma onward_zero (words : ℕ → UInt64) : onward 0 words = words := by
  funext n
  rw [onward, Nat.zero_add]

lemma onward_onward (start next : ℕ) (words : ℕ → UInt64) :
    onward next (onward start words) = onward (start + next) words := by
  funext n
  simp only [onward, Nat.add_assoc]

lemma onward_succ_ahead (start : ℕ) (word : UInt64) (words : ℕ → UInt64) :
    onward (start + 1) (ahead word words) = onward start words := by
  funext n
  rw [onward, Nat.add_right_comm]
  rfl

lemma onward_eq_ahead (start : ℕ) (words : ℕ → UInt64) :
    onward start words = ahead (words start) (onward (start + 1) words) := by
  funext n
  cases n with
  | zero => rfl
  | succ n => exact congrArg words (Nat.add_right_comm start n 1)

/-! ## Uniform words -/

/-- Every set of words is measurable. -/
instance measurableSpaceWord : MeasurableSpace UInt64 := ⊤

instance discreteMeasurableSpaceWord : DiscreteMeasurableSpace UInt64 := ⟨fun _ => trivial⟩

/-- **A uniform word.** -/
noncomputable def uniformWord : Measure UInt64 := uniformOn Set.univ

instance isProbabilityMeasure_uniformWord : IsProbabilityMeasure uniformWord := by
  unfold uniformWord
  infer_instance

/-- **Uniform words**, independent of one another and endlessly many. -/
noncomputable def uniformWords : Measure (ℕ → UInt64) := Measure.infinitePi fun _ => uniformWord

instance isProbabilityMeasure_uniformWords : IsProbabilityMeasure uniformWords := by
  unfold uniformWords
  infer_instance

/-- The chance of a uniform word is a matter of counting. -/
lemma uniformWord_real_apply (A : Set UInt64) : uniformWord.real A = A.ncard / 2 ^ 64 := by
  have hcard : Fintype.card UInt64 = 2 ^ 64 :=
    FinEnum.card_eq_fintypeCard.symm.trans FinEnum.card_UInt64
  have hcount : Measure.count A = A.ncard := by
    rw [Measure.count_apply .of_discrete, ← A.toFinite.cast_ncard_eq]
    rfl
  rw [Measure.real, uniformWord, uniformOn_univ, hcount, hcard, ENNReal.toReal_div,
    ENNReal.toReal_natCast, ENNReal.toReal_natCast, Nat.cast_pow, Nat.cast_ofNat]

lemma measurable_onward (start : ℕ) : Measurable (onward start) := by
  unfold onward
  fun_prop

/-- **Words from a position on** are uniform words. -/
lemma measurePreserving_onward (start : ℕ) :
    MeasurePreserving (onward start) uniformWords uniformWords :=
  ⟨measurable_onward start, Measure.map_infinitePi_infinitePi_of_inj (add_right_injective start)⟩

lemma measurable_ahead : Measurable fun p : UInt64 × (ℕ → UInt64) => ahead p.1 p.2 := by
  refine measurable_pi_lambda _ fun n => ?_
  cases n with
  | zero => exact measurable_fst
  | succ n => exact (measurable_pi_apply n).comp measurable_snd

/-- A box of sequences is a set for the first word and a box for the others. -/
lemma preimage_ahead_pi (n : ℕ) (u : ℕ → Set UInt64) :
    Set.preimage (fun p : UInt64 × (ℕ → UInt64) => ahead p.1 p.2)
        ((Finset.range (n + 1) : Set ℕ).pi u) =
      u 0 ×ˢ (Finset.range n : Set ℕ).pi fun i => u (i + 1) := by
  ext ⟨word, words⟩
  simp only [Set.mem_preimage, Set.mem_pi, Set.mem_prod, Finset.mem_coe, Finset.mem_range]
  refine ⟨fun h => ⟨h 0 n.succ_pos, fun i hi => h (i + 1) (Nat.succ_lt_succ hi)⟩, ?_⟩
  rintro ⟨hhead, htail⟩ i hi
  cases i with
  | zero => exact hhead
  | succ i => exact htail i (Nat.lt_of_succ_lt_succ hi)

/-- **One more uniform word** ahead of uniform words makes uniform words.  It is enough to compare
boxes, and every box may be taken to be one on all positions up to some last. -/
lemma map_ahead :
    (uniformWord.prod uniformWords).map (fun p => ahead p.1 p.2) = uniformWords := by
  refine Measure.eq_infinitePi _ ?_
  intro s t ht
  classical
  obtain ⟨n, hn⟩ : ∃ n, s ⊆ Finset.range (n + 1) := by
    obtain ⟨n, hn⟩ := s.exists_nat_subset_range
    exact ⟨n, hn.trans (Finset.range_subset_range.mpr (Nat.le_succ n))⟩
  let u : ℕ → Set UInt64 := fun i => if i ∈ s then t i else Set.univ
  have hbox : (s : Set ℕ).pi t = (Finset.range (n + 1) : Set ℕ).pi u := by
    ext words
    simp only [Set.mem_pi, Finset.mem_coe, u]
    refine ⟨fun h i _ => ?_, fun h i hi => by simpa [hi] using h i (hn hi)⟩
    by_cases hi : i ∈ s
    · simpa [hi] using h i hi
    · simp [hi]
  have hprod : ∏ i ∈ Finset.range (n + 1), uniformWord (u i) = ∏ i ∈ s, uniformWord (t i) := by
    rw [← Finset.prod_subset hn fun i _ hi => by simp [u, hi]]
    exact Finset.prod_congr rfl fun i hi => by simp [u, hi]
  rw [Measure.map_apply measurable_ahead (MeasurableSet.pi s.countable_toSet fun i _ => ht i),
    hbox, preimage_ahead_pi, Measure.prod_prod, ← hprod, Finset.prod_range_succ', mul_comm,
    uniformWords, Measure.infinitePi_pi _ fun i _ => .of_discrete]

/-- The chance of an event, by the first word and the others. -/
lemma real_eq_prod_real {E : Set (ℕ → UInt64)} (hE : MeasurableSet E) :
    uniformWords.real E = (uniformWord.prod uniformWords).real {p | ahead p.1 p.2 ∈ E} := by
  conv_lhs => rw [← map_ahead]
  exact map_measureReal_apply measurable_ahead hE

/-! ## The chance of a face -/

section Chances

variable {sides : UInt64}

/-- **The chance that a word shows a face**, the same for all of them. -/
noncomputable def chance (sides : UInt64) : ℝ := ((2 ^ 64 / sides.toNat : ℕ) : ℝ) / 2 ^ 64

lemma chance_ne_zero (h : sides ≠ 0) : chance sides ≠ 0 := by
  have hpos := Nat.div_pos sides.toNat_lt.le (toNat_pos_of_ne_zero h)
  exact div_ne_zero (Nat.cast_ne_zero.mpr hpos.ne') (by norm_num)

lemma uniformWord_real_showing (h : sides ≠ 0) {face : UInt64} (hone : 1 ≤ face)
    (hsides : face ≤ sides) :
    uniformWord.real {word | face? sides word = some face} = chance sides := by
  rw [uniformWord_real_apply, ncard_showing h hone hsides, chance]

/-- No word shows two faces. -/
lemma pairwiseDisjoint_showing (sides : UInt64) :
    (Finset.range sides.toNat : Set ℕ).PairwiseDisjoint
      fun k => {word | face? sides word = some (nthFace k)} := by
  intro k hk l hl hkl
  refine Set.disjoint_left.mpr fun word hwk hwl => hkl ?_
  have heq : nthFace k = nthFace l := Option.some.inj (hwk.symm.trans hwl)
  exact nthFace_inj (Finset.mem_range.mp hk) (Finset.mem_range.mp hl) heq

/-- **The chance that a word is rejected** is what the faces leave. -/
lemma uniformWord_real_rejected (h : sides ≠ 0) :
    uniformWord.real {word | face? sides word = none} = 1 - sides.toNat * chance sides := by
  have hshowing : ∀ k ∈ Finset.range sides.toNat,
      uniformWord.real {word | face? sides word = some (nthFace k)} = chance sides := by
    intro k hk
    obtain ⟨hone, hsides⟩ := nthFace_bounds (Finset.mem_range.mp hk)
    exact uniformWord_real_showing h hone hsides
  rw [rejected_eq_compl h, probReal_compl_eq_one_sub .of_discrete,
    measureReal_biUnion_finset (pairwiseDisjoint_showing sides) fun _ _ => .of_discrete,
    Finset.sum_congr rfl hshowing, Finset.sum_const, Finset.card_range, nsmul_eq_mul]

/-- **Trying again.**  If a word that shows a face leaves the chance `y`, and one that is rejected
leaves everything as it was, then the chance is `y` divided by the number of sides. -/
lemma eq_of_retry (h : sides ≠ 0) {x y : ℝ}
    (hx : x = chance sides * y + (1 - sides.toNat * chance sides) * x) :
    x = 1 / sides.toNat * y := by
  have hsides : (sides.toNat : ℝ) ≠ 0 := Nat.cast_ne_zero.mpr (toNat_pos_of_ne_zero h).ne'
  have hcancel : chance sides * (sides.toNat * x) = chance sides * y := by linear_combination hx
  rw [← mul_left_cancel₀ (chance_ne_zero h) hcancel, one_div, inv_mul_cancel_left₀ hsides]

end Chances

end CabbageFormula
