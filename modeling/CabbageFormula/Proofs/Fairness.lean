import CabbageFormula.Proofs.Totals
import CabbageFormula.Source.Words
import Mathlib.Algebra.Order.Floor.Div
import Mathlib.Data.Set.Card
import Mathlib.Order.Interval.Finset.Nat

/-!
# Fair words

A word of a random stream shows a face or is rejected, and which it does is a matter of one
product.  The words that show a face are those with a product in the face's interval, and all these
intervals have the same length, a multiple of the number of sides.  So each face is shown by the
same number of words.

* `face?_eq_some_iff` — which face a word shows, by the two halves of the product.
* `face?_bounds` — a face that a word shows is a face of the cabbage.
* `face?_eq_some_iff_mem_Ico` — the words that show a face follow one another.
* `ncard_showing` — **each face is shown by the same number of words**.
* `rejected_eq_compl` — a word shows one of the faces, or is rejected.
-/

namespace CabbageFormula

variable {sides word face : UInt64}

lemma toNat_pos_of_ne_zero (h : sides ≠ 0) : 0 < sides.toNat :=
  UInt64.le_iff_toNat_le.mp (Word.one_le_of_ne_zero h)

/-! ## The face of a word -/

/-- The upper half of the product is less than the number of sides. -/
lemma upper_lt (h : sides ≠ 0) (word : UInt64) :
    word.toNat * sides.toNat / 2 ^ 64 < sides.toNat := by
  have hlt : word.toNat * sides.toNat < 2 ^ 64 * sides.toNat :=
    Nat.mul_lt_mul_of_pos_right word.toNat_lt (toNat_pos_of_ne_zero h)
  exact Nat.div_lt_of_lt_mul hlt

/-- **Which face a word shows.**  The lower half of the product tells whether there is one, and the
upper half which. -/
lemma face?_eq_some_iff (h : sides ≠ 0) :
    face? sides word = some face ↔
      word.toNat * sides.toNat % 2 ^ 64 ≤ 2 ^ 64 - 1 - 2 ^ 64 % sides.toNat ∧
        face.toNat = 1 + word.toNat * sides.toNat / 2 ^ 64 := by
  have hsides : sides.toNat < 2 ^ 64 := sides.toNat_lt
  have hrest : 2 ^ 64 % sides.toNat < sides.toNat := Nat.mod_lt _ (toNat_pos_of_ne_zero h)
  have hupper := upper_lt h word
  have hface : face.toNat = 1 + word.toNat * sides.toNat / 2 ^ 64 ↔
      UInt64.ofNat (1 + word.toNat * sides.toNat / 2 ^ 64) = face := by
    rw [← UInt64.toNat_inj, UInt64.toNat_ofNat_of_lt' (by rw [UInt64.size]; omega), eq_comm]
  have hzone : word.toNat * sides.toNat % 2 ^ 64 < 2 ^ 64 - 2 ^ 64 % sides.toNat ↔
      word.toNat * sides.toNat % 2 ^ 64 ≤ 2 ^ 64 - 1 - 2 ^ 64 % sides.toNat := by omega
  rw [hface, ← hzone, face?, UInt64.size]
  split <;> simp_all

/-- **A face that a word shows is a face of the cabbage.** -/
lemma face?_bounds (h : sides ≠ 0) (hshown : face? sides word = some face) :
    1 ≤ face ∧ face ≤ sides := by
  obtain ⟨-, hface⟩ := (face?_eq_some_iff h).mp hshown
  have hupper := upper_lt h word
  rw [UInt64.le_iff_toNat_le, UInt64.le_iff_toNat_le, UInt64.toNat_one]
  omega

/-! ## The words of a face -/

/-- **The first word that shows a face**: the least with a product in the face's interval. -/
def firstShowing (sides face : UInt64) : ℕ := ((face.toNat - 1) * 2 ^ 64) ⌈/⌉ sides.toNat

/-- Words behind the first are compared by their products. -/
lemma firstShowing_add_le_iff (h : sides ≠ 0) (face : UInt64) (n m : ℕ) :
    firstShowing sides face + n ≤ m ↔
      (face.toNat - 1) * 2 ^ 64 + sides.toNat * n ≤ sides.toNat * m := by
  have hpos := toNat_pos_of_ne_zero h
  have hshift : firstShowing sides face + n =
      ((face.toNat - 1) * 2 ^ 64 + sides.toNat * n) ⌈/⌉ sides.toNat := by
    rw [firstShowing, Nat.ceilDiv_eq_add_pred_div, Nat.ceilDiv_eq_add_pred_div,
      ← Nat.add_mul_div_left _ _ hpos]
    congr 1
    omega
  rw [hshift, ceilDiv_le_iff_le_mul hpos]

/-- A product has a given upper half, and a lower half that is accepted, exactly if it lies in an
interval. -/
lemma halves_iff {product upper kept rest : ℕ} (hfit : kept + rest = 2 ^ 64)
    (hrest : rest < 2 ^ 64) :
    product % 2 ^ 64 ≤ 2 ^ 64 - 1 - rest ∧ upper = product / 2 ^ 64 ↔
      upper * 2 ^ 64 ≤ product ∧ product < upper * 2 ^ 64 + kept := by
  omega

/-- **The words that show a face follow one another**, as many as the number of sides goes into
`2 ^ 64`. -/
lemma face?_eq_some_iff_mem_Ico (h : sides ≠ 0) (hone : 1 ≤ face) :
    face? sides word = some face ↔
      word.toNat ∈ Finset.Ico (firstShowing sides face)
        (firstShowing sides face + 2 ^ 64 / sides.toNat) := by
  have hone' : 1 ≤ face.toNat := UInt64.le_iff_toNat_le.mp hone
  have hrest : 2 ^ 64 % sides.toNat < 2 ^ 64 :=
    (Nat.mod_lt _ (toNat_pos_of_ne_zero h)).trans sides.toNat_lt
  have hupper : face.toNat = 1 + sides.toNat * word.toNat / 2 ^ 64 ↔
      face.toNat - 1 = sides.toNat * word.toNat / 2 ^ 64 := by omega
  have hlow := firstShowing_add_le_iff h face 0 word.toNat
  rw [Nat.add_zero, Nat.mul_zero, Nat.add_zero] at hlow
  rw [face?_eq_some_iff h, mul_comm word.toNat, hupper, halves_iff (Nat.div_add_mod _ _) hrest,
    Finset.mem_Ico, hlow, ← not_le, ← not_le, firstShowing_add_le_iff h]

/-- **Each face is shown by the same number of words.** -/
lemma ncard_showing (h : sides ≠ 0) (hone : 1 ≤ face) (hsides : face ≤ sides) :
    {word | face? sides word = some face}.ncard = 2 ^ 64 / sides.toNat := by
  have hone' : 1 ≤ face.toNat := UInt64.le_iff_toNat_le.mp hone
  have hsides' : face.toNat ≤ sides.toNat := UInt64.le_iff_toNat_le.mp hsides
  have hfits : firstShowing sides face + 2 ^ 64 / sides.toNat ≤ 2 ^ 64 := by
    have hfit := Nat.mul_div_le (2 ^ 64) sides.toNat
    rw [firstShowing_add_le_iff h]
    calc (face.toNat - 1) * 2 ^ 64 + sides.toNat * (2 ^ 64 / sides.toNat)
        ≤ (face.toNat - 1) * 2 ^ 64 + 2 ^ 64 := Nat.add_le_add_left hfit _
      _ = face.toNat * 2 ^ 64 := by omega
      _ ≤ sides.toNat * 2 ^ 64 := Nat.mul_le_mul_right _ hsides'
  have himage : UInt64.toNat '' {word | face? sides word = some face} =
      Finset.Ico (firstShowing sides face) (firstShowing sides face + 2 ^ 64 / sides.toNat) := by
    ext n
    simp only [Set.mem_image, Set.mem_ofPred_eq, face?_eq_some_iff_mem_Ico h hone]
    constructor
    · rintro ⟨word, hword, rfl⟩
      exact hword
    · intro hn
      have hlt : n < 2 ^ 64 := (Finset.mem_Ico.mp hn).2.trans_le hfits
      refine ⟨UInt64.ofNat n, ?_, UInt64.toNat_ofNat_of_lt' hlt⟩
      rwa [UInt64.toNat_ofNat_of_lt' hlt]
  rw [← Set.ncard_image_of_injective _ fun _ _ => UInt64.toNat_inj.mp, himage,
    Set.ncard_coe_finset, Nat.card_Ico, Nat.add_sub_cancel_left]

/-! ## Words of no face -/

/-- The faces of a cabbage, counted from zero. -/
def nthFace (k : ℕ) : UInt64 := UInt64.ofNat (k + 1)

lemma toNat_nthFace {k : ℕ} (hk : k < sides.toNat) : (nthFace k).toNat = k + 1 := by
  have hlt := sides.toNat_lt
  exact UInt64.toNat_ofNat_of_lt' (by rw [UInt64.size]; omega)

lemma nthFace_bounds {k : ℕ} (hk : k < sides.toNat) : 1 ≤ nthFace k ∧ nthFace k ≤ sides := by
  rw [UInt64.le_iff_toNat_le, UInt64.le_iff_toNat_le, toNat_nthFace hk, UInt64.toNat_one]
  omega

lemma nthFace_inj {k l : ℕ} (hk : k < sides.toNat) (hl : l < sides.toNat)
    (h : nthFace k = nthFace l) : k = l := by
  have htoNat := congrArg UInt64.toNat h
  rw [toNat_nthFace hk, toNat_nthFace hl] at htoNat
  exact Nat.succ.inj htoNat

lemma exists_nthFace (hone : 1 ≤ face) (hsides : face ≤ sides) :
    ∃ k < sides.toNat, nthFace k = face := by
  rw [UInt64.le_iff_toNat_le] at hone hsides
  rw [UInt64.toNat_one] at hone
  refine ⟨face.toNat - 1, by omega, ?_⟩
  rw [nthFace, Nat.sub_add_cancel hone, UInt64.ofNat_toNat]

/-- **A word that shows none of the faces is rejected**, and no other. -/
lemma rejected_eq_compl (h : sides ≠ 0) :
    {word | face? sides word = none} =
      (⋃ k ∈ Finset.range sides.toNat, {word | face? sides word = some (nthFace k)})ᶜ := by
  ext word
  simp only [Set.mem_ofPred_eq, Set.mem_compl_iff, Set.mem_iUnion, not_exists, Finset.mem_range]
  constructor
  · intro hnone k _ hsome
    rw [hnone] at hsome
    cases hsome
  · intro hall
    cases hshown : face? sides word with
    | none => rfl
    | some face =>
        obtain ⟨hone, hsides⟩ := face?_bounds h hshown
        obtain ⟨k, hk, rfl⟩ := exists_nthFace hone hsides
        exact absurd hshown (hall k hk)

end CabbageFormula
