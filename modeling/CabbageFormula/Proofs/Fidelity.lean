import CabbageFormula.Proofs.Screening
import CabbageFormula.Proofs.Verdict
import CabbageFormula.Session
import CabbageFormula.Source.Scripted

/-!
# Numbers are drawn as they are written

A count or a number of sides that is too wide for a word is read as the greatest word, and it is
left to the caps to refuse it.  They do as long as they are below the greatest word themselves.

* `written`, `Operand.Wide` — the rolls of a text in its own numbers, and whether one is too wide.
* `not_wide_of_none`, `own_fault_of_wide` — a wide roll has a fault behind any terms, and which.
* `firstFault_of_wide` — terms with a wide roll are refused there, or before.
* `Unaltered`, `RefusesWide` — what the caps are trusted with, as two properties of caps.
* `unaltered`, `refusesWide` — that they have them, and under which condition.
* `draws_written_iff` — that nothing less will do.
-/

namespace CabbageFormula

/-! ## Rolls in their own numbers -/

/-- The count and the sides that a roll is written with. -/
def Operand.written? : Operand → Option (Nat × Nat)
  | .constant _ => none
  | .roll count? sides => some (count?.elim 1 Literal.value, sides.value)

/-- **The rolls of a text**, in the numbers that it has them in. -/
def written (xs : List Summand) : List (Nat × Nat) := xs.filterMap fun x => x.operand.written?

/-- **A roll is wide** if its count or its sides do not fit. -/
def Operand.Wide : Operand → Prop
  | .constant _ => False
  | .roll count? sides => (∃ l, count? = some l ∧ ¬ l.Fits) ∨ ¬ sides.Fits

def Draw.numbers (d : Draw) : Nat × Nat := (d.count.toNat, d.sides.toNat)

lemma written_append (xs ys : List Summand) : written (xs ++ ys) = written xs ++ written ys :=
  List.filterMap_append

lemma map_numbers (draws : List Draw) :
    draws.map Draw.numbers = (draws.map Draw.asks).map (Prod.map UInt64.toNat UInt64.toNat) := by
  rw [List.map_map]
  rfl

lemma Operand.roll?_term {o : Operand} (h : ¬ o.Wide) (s : Sign) :
    (o.term s).roll?.map (Prod.map UInt64.toNat UInt64.toNat) = o.written? := by
  rcases o with value | ⟨count?, sides⟩
  · rfl
  · have hsides : sides.Fits := by
      by_contra hwide
      exact h (Or.inr hwide)
    have hcount : (count?.elim 1 Literal.capped).toNat = count?.elim 1 Literal.value := by
      cases count? with
      | none => rfl
      | some l =>
          have hl : l.Fits := by
            by_contra hwide
            exact h (Or.inl ⟨l, rfl, hwide⟩)
          exact Literal.toNat_capped_of_fits hl
    simp only [Operand.term, Term.roll?, Operand.written?, Option.map_some, Prod.map_apply, hcount,
      Literal.toNat_capped_of_fits hsides]

lemma map_rolls_terms {xs : List Summand} (h : ∀ x ∈ xs, ¬ x.operand.Wide) :
    (rolls (xs.map Summand.term)).map (Prod.map UInt64.toNat UInt64.toNat) = written xs := by
  rw [rolls, List.map_filterMap, List.filterMap_map, written]
  apply List.filterMap_congr
  intro x hx
  exact x.operand.roll?_term (h x hx) x.sign

lemma Operand.Wide.fits {o : Operand} (h : o.Wide) : o.Fits := by
  cases o with
  | constant value => exact h.elim
  | roll count? sides => trivial

lemma Operand.fits_of_mem_literals {o : Operand} (hfits : o.Fits) (h : ¬ o.Wide) :
    ∀ l ∈ o.literals, l.Fits := by
  intro l hl
  rcases o with value | ⟨count?, sides⟩
  · rw [List.mem_singleton.mp hl]
    exact hfits
  · by_contra hwide
    rcases List.mem_append.mp hl with hl | hl
    · exact h (Or.inl ⟨l, Option.mem_toList.mp hl, hwide⟩)
    · exact h (Or.inr (List.mem_singleton.mp hl ▸ hwide))

/-! ## The fault of a wide roll -/

section Wide

variable {caps : Caps}

/-- Only the greatest word has room for a count of that size. -/
lemma rolls_eq_top {front : List Term}
    (h : min (2 ^ 64 - 1) (cabbages front + Word.top.toNat) ≤ caps.rolls.toNat) :
    caps.rolls = Word.top := by
  by_contra hne
  have hlt := Word.toNat_lt_top_iff.mpr hne
  rw [Word.toNat_top] at h hlt
  omega

/-- **A wide roll has a fault**, unless the cap it should run into is the greatest word. -/
lemma not_wide_of_none (hrolls : caps.rolls ≠ Word.top ∨ caps.sides = 0)
    (hsides : caps.sides ≠ Word.top ∨ caps.rolls = 0) {front : List Term} {o : Operand} {s : Sign}
    (h : faultBehind caps front (o.term s) = none) : ¬ o.Wide := by
  rcases o with value | ⟨count?, sides⟩
  · exact id
  · obtain ⟨hcap, hzero, hle, hnone⟩ := faultBehind_roll_eq_none_iff.mp h
    rintro (⟨l, rfl, hwide⟩ | hwide)
    · -- the count is read as the greatest word, so the cap is no less
      rw [Option.elim_some, Literal.capped_of_not_fits hwide] at hcap
      rcases hrolls with hne | hno
      · exact hne (rolls_eq_top hcap)
      · rw [hno] at hle
        exact hzero (UInt64.le_zero_iff.mp hle)
    · rw [Literal.capped_of_not_fits hwide] at hle
      have htop : caps.sides = Word.top := UInt64.le_antisymm (Word.le_top _) hle
      rcases hsides with hne | hno
      · exact hne htop
      · -- even one cabbage is too many
        rw [hno, UInt64.toNat_zero] at hcap
        exact hnone (UInt64.toNat_inj.mp (by rw [UInt64.toNat_zero]; omega))

/-- Below the greatest word, the fault of a wide roll is that of one of its numbers. -/
lemma own_fault_of_wide (hrolls : caps.rolls ≠ Word.top) (hsides : caps.sides ≠ Word.top)
    {front : List Term} {o : Operand} {s : Sign} {why : RollFault} (hwide : o.Wide)
    (h : faultBehind caps front (o.term s) = some why) :
    why = .rollCap caps.rolls ∨ why = .sideCap Word.top caps.sides := by
  rcases o with value | ⟨count?, sides⟩
  · exact hwide.elim
  · rw [Operand.term, faultBehind] at h
    split at h
    case isTrue => exact Or.inl (Option.some.inj h).symm
    case isFalse hcap =>
      have hnot : ¬ sides.Fits := by
        rcases hwide with ⟨l, rfl, hl⟩ | hl
        · rw [Option.elim_some, Literal.capped_of_not_fits hl] at hcap
          exact absurd (rolls_eq_top (Nat.not_lt.mp hcap)) hrolls
        · exact hl
      have hlt : caps.sides < Word.top :=
        UInt64.lt_of_le_of_ne (Word.le_top _) hsides
      rw [Literal.capped_of_not_fits hnot, if_neg (by decide), if_pos hlt] at h
      exact Or.inr (Option.some.inj h).symm

lemma not_wide_of_granted (hrolls : caps.rolls ≠ Word.top ∨ caps.sides = 0)
    (hsides : caps.sides ≠ Word.top ∨ caps.rolls = 0) {xs : List Summand}
    (h : Granted caps (xs.map Summand.term)) : ∀ x ∈ xs, ¬ x.operand.Wide := by
  intro x hx
  obtain ⟨front, back, rfl⟩ := List.append_of_mem hx
  exact not_wide_of_none hrolls hsides (h (front.map Summand.term) x.term
    (back.map Summand.term) (by rw [List.map_append, List.map_cons]))

/-- **Terms with a wide roll are refused there, or before.** -/
lemma firstFault_of_wide (hrolls : caps.rolls ≠ Word.top ∨ caps.sides = 0)
    (hsides : caps.sides ≠ Word.top ∨ caps.rolls = 0) {x : Summand} (hwide : x.operand.Wide)
    (front back : List Summand) :
    ∃ ys why, FirstFault caps ((front ++ x :: back).map Summand.term) (ys.map Summand.term) why ∧
      ys <+: front ∧ (∀ y ∈ ys, ¬ y.operand.Wide) ∧
        (ys = front → faultBehind caps (ys.map Summand.term) x.term = some why) := by
  rcases granted_or_firstFault caps ((front ++ x :: back).map Summand.term) with h | ⟨f, why, h⟩
  · exact absurd hwide (not_wide_of_granted hrolls hsides h x (by simp))
  · obtain ⟨hgranted, term, rest, heq, hfault⟩ := h
    obtain ⟨ys, zs, hsplit, rfl, hzs⟩ := List.map_eq_append_iff.mp heq
    obtain ⟨z, zs, rfl, rfl, -⟩ := List.map_eq_cons_iff.mp hzs
    have hnarrow := not_wide_of_granted hrolls hsides hgranted
    refine ⟨ys, why, ⟨hgranted, _, _, heq, hfault⟩, ?_, hnarrow, ?_⟩
    · -- were the fault behind the wide roll, the wide roll would be granted
      rcases List.append_eq_append_iff.mp hsplit with ⟨as, rfl, hrest⟩ | ⟨bs, rfl, -⟩
      · cases as with
        | nil => simp
        | cons a as =>
            obtain ⟨rfl, -⟩ := List.cons.inj hrest
            exact absurd hwide (hnarrow _ (by simp))
      · exact List.prefix_append _ _
    · rintro rfl
      obtain ⟨rfl, -⟩ := List.cons.inj (List.append_cancel_left hsplit)
      exact hfault

end Wide

/-! ## What becomes of a formula -/

/-- **A formula with a wide roll**, behind the summands in front of it. -/
structure WideRoll (formula : String) (w : Wording) (front : List Summand) : Prop where
  chars : (Formula.strip formula).toList = w.chars
  split : ∃ x back, w.summands = front ++ x :: back ∧ x.operand.Wide

/-- **Accepted numbers are those of the text**: the literals of an accepted formula all fit, the
draws are made in the numbers of its rolls, and no wide roll is drawn, nor any behind it. -/
structure Unaltered (caps : Caps) : Prop where
  accepted : ∀ (σ : Type) [RollSource σ] (source : σ) (formula : String) (o : Outcome),
    (attempt caps formula source).result = .ok o →
      ∃ w : Wording, (Formula.strip formula).toList = w.chars ∧ (∀ l ∈ w.literals, l.Fits) ∧
        (attempt caps formula source).draws.map Draw.numbers = written w.summands
  wide : ∀ (σ : Type) [RollSource σ] (source : σ) (formula : String) (w : Wording)
    (front : List Summand), WideRoll formula w front →
      (attempt caps formula source).draws.map Draw.numbers <+: written front

/-- **How a formula with a wide roll should be turned down**: before its terms are rolled, for a
term in front of that roll, or for the roll itself by one of the two caps. -/
inductive TurnsDown (caps : Caps) (w : Wording) (front : List Summand) : Rejection → Prop where
  | screen (why : ScreenFault) : TurnsDown caps w front (.screen why)
  | read (why : ReadFault) : TurnsDown caps w front (.read why)
  | before {ts : List Term} {why : RollFault} (h : FirstFault caps w.terms ts why)
      (hlt : ts.length < front.length) : TurnsDown caps w front (.roll why)
  | rollCap (h : FirstFault caps w.terms (front.map Summand.term) (.rollCap caps.rolls)) :
      TurnsDown caps w front (.roll (.rollCap caps.rolls))
  | sideCap (h : FirstFault caps w.terms (front.map Summand.term) (.sideCap Word.top caps.sides)) :
      TurnsDown caps w front (.roll (.sideCap Word.top caps.sides))

/-- **Every wide roll is turned down as it should be.** -/
def RefusesWide (caps : Caps) : Prop :=
  ∀ (σ : Type) [RollSource σ] (source : σ) (formula : String) (w : Wording)
    (front : List Summand), WideRoll formula w front →
      ∃ why, (attempt caps formula source).result = .error why ∧ TurnsDown caps w front why

section Attempts

variable {caps : Caps} {σ : Type} [RollSource σ]

/-- What becomes of a formula with a wording: it is turned down before it is rolled, or rolled. -/
lemma attempt_cases (caps : Caps) (source : σ) {formula : String} {w : Wording}
    (hw : (Formula.strip formula).toList = w.chars) :
    ((∃ why, (attempt caps formula source).result = .error why ∧
        ∀ front, TurnsDown caps w front why) ∧ (attempt caps formula source).draws = []) ∨
      ((attempt caps formula source).result = (evaluate caps w.terms source).1.mapError .roll ∧
        (attempt caps formula source).draws = (evaluate caps w.terms source).2.draws) := by
  rcases Formula.read_cases caps formula with ⟨why, h⟩ | ⟨why, h⟩ | ⟨v, hv, -, h⟩
  · rw [attempt_of_error h]
    exact Or.inl ⟨⟨_, rfl, fun _ => .screen why⟩, rfl⟩
  · rw [attempt_of_error h]
    exact Or.inl ⟨⟨_, rfl, fun _ => .read why⟩, rfl⟩
  · obtain rfl : v = w := Wording.chars_injective (hv.symm.trans hw)
    rw [attempt_of_ok h]
    exact Or.inr ⟨rfl, rfl⟩

lemma unaltered (hrolls : caps.rolls ≠ Word.top ∨ caps.sides = 0)
    (hsides : caps.sides ≠ Word.top ∨ caps.rolls = 0) : Unaltered caps where
  accepted σ _ source formula o h := by
    rcases Formula.read_cases caps formula with ⟨why, hr⟩ | ⟨why, hr⟩ | ⟨w, hw, hfits, hr⟩
    · rw [attempt_of_error hr] at h
      cases h
    · rw [attempt_of_error hr] at h
      cases h
    · have hresult : ∃ o, (evaluate caps w.terms source).1 = .ok o := by
        rw [attempt_of_ok hr] at h
        cases he : (evaluate caps w.terms source).1 with
        | error why => rw [he] at h; cases h
        | ok o => exact ⟨o, rfl⟩
      have hgranted : Granted caps w.terms := granted_of_ok hresult.choose_spec
      have hnarrow := not_wide_of_granted hrolls hsides hgranted
      refine ⟨w, hw, ?_, ?_⟩
      · intro l hl
        obtain ⟨x, hx, hl⟩ := List.mem_flatMap.mp hl
        exact Operand.fits_of_mem_literals (hfits x hx) (hnarrow x hx) l hl
      · rw [attempt_of_ok hr, map_numbers, (evaluate_of_granted source hgranted).2]
        exact map_rolls_terms hnarrow
  wide σ _ source formula w front h := by
    obtain ⟨hw, x, back, hsplit, hwide⟩ := h
    rcases attempt_cases caps source hw with ⟨-, hdraws⟩ | ⟨-, hdraws⟩
    · rw [hdraws]
      exact List.nil_prefix
    · obtain ⟨ys, why, hfault, ⟨zs, rfl⟩, hnarrow, -⟩ :=
        firstFault_of_wide hrolls hsides hwide front back
      rw [← hsplit, ← Wording.terms] at hfault
      rw [hdraws, map_numbers, (evaluate_of_firstFault source hfault).2, map_rolls_terms hnarrow,
        written_append]
      exact List.prefix_append _ _

lemma refusesWide (hrolls : caps.rolls ≠ Word.top) (hsides : caps.sides ≠ Word.top) :
    RefusesWide caps := by
  intro σ _ source formula w front h
  obtain ⟨hw, x, back, hsplit, hwide⟩ := h
  rcases attempt_cases caps source hw with ⟨⟨why, hresult, hdown⟩, -⟩ | ⟨hresult, -⟩
  · exact ⟨why, hresult, hdown front⟩
  · obtain ⟨ys, why, hfault, hinit, -, hown⟩ :=
      firstFault_of_wide (Or.inl hrolls) (Or.inl hsides) hwide front back
    rw [← hsplit, ← Wording.terms] at hfault
    refine ⟨.roll why, ?_, ?_⟩
    · rw [hresult, (evaluate_of_firstFault source hfault).1]
      rfl
    · by_cases hys : ys = front
      · have hx := hown hys
        subst hys
        rcases own_fault_of_wide hrolls hsides hwide hx with rfl | rfl
        · exact .rollCap hfault
        · exact .sideCap hfault
      · refine .before hfault ?_
        have hle := hinit.length_le
        have hne : ys.length ≠ front.length := fun h => hys (hinit.eq_of_length h)
        rw [List.length_map]
        omega

end Attempts

/-! ## Caps at the greatest word -/

/-- The first number that does not fit. -/
def Literal.tooWide : Literal := .ofNat (2 ^ 64)

lemma Literal.not_fits_tooWide : ¬ Literal.tooWide.Fits := by
  intro h
  rw [Literal.Fits, Literal.tooWide, Literal.value_ofNat] at h
  exact Nat.lt_irrefl _ h

lemma Literal.capped_tooWide : Literal.tooWide.capped = Word.top :=
  Literal.capped_of_not_fits Literal.not_fits_tooWide

def Wording.single (o : Operand) : Wording := ⟨⟨.plus, o⟩, []⟩

section Overlooked

variable {caps : Caps} {o : Operand}

lemma attempt_single (hlength : caps.length = Word.top) (hterms : caps.terms = Word.top)
    (hfits : o.Fits) (hshort : (Wording.single o).chars.length ≤ 100) (source : Fixed) :
    (attempt caps (String.ofList (Wording.single o).chars) source).result =
        (evaluate caps [o.term .plus] source).1.mapError .roll ∧
      (attempt caps (String.ofList (Wording.single o).chars) source).draws =
        (evaluate caps [o.term .plus] source).2.draws := by
  have hread : Formula.read caps (String.ofList (Wording.single o).chars) =
      .ok (Wording.single o).terms := by
    apply Formula.read_chars
    · intro x hx
      rw [List.mem_singleton.mp hx]
      exact hfits
    · rw [hlength, Word.toNat_top]
      omega
    · have hone : (Wording.single o).summands.length = 1 := rfl
      rw [hterms, Word.toNat_top, hone]
      omega
  rw [attempt_of_ok hread]
  exact ⟨rfl, rfl⟩

lemma wideRoll_single (hwide : o.Wide) :
    WideRoll (String.ofList (Wording.single o).chars) (.single o) [] where
  chars := by rw [Formula.strip_chars, String.toList_ofList]
  split := ⟨⟨.plus, o⟩, [], rfl, hwide⟩

/-- A wide roll that is granted is drawn, in another number. -/
lemma not_unaltered_of_none (hlength : caps.length = Word.top) (hterms : caps.terms = Word.top)
    (hshort : (Wording.single o).chars.length ≤ 100) (hwide : o.Wide)
    (hnone : faultBehind caps [] (o.term .plus) = none) : ¬ Unaltered caps := by
  intro h
  have hinit := h.wide Fixed ⟨1⟩ _ _ _ (wideRoll_single hwide)
  have hgranted : Granted caps [o.term .plus] :=
    grantedBehind_cons.mpr ⟨hnone, grantedBehind_nil _ _⟩
  rw [(attempt_single hlength hterms hwide.fits hshort ⟨1⟩).2, map_numbers,
    (evaluate_of_granted _ hgranted).2] at hinit
  cases o with
  | constant value => exact hwide.elim
  | roll count? sides => exact absurd (List.prefix_nil.mp hinit) (List.cons_ne_nil _ _)

/-- A wide roll may be turned down for something else. -/
lemma not_refusesWide_of_some (hlength : caps.length = Word.top) (hterms : caps.terms = Word.top)
    (hshort : (Wording.single o).chars.length ≤ 100) (hwide : o.Wide) (why : RollFault)
    (hfault : faultBehind caps [] (o.term .plus) = some why) (hrolls : why ≠ .rollCap caps.rolls)
    (hsides : why ≠ .sideCap Word.top caps.sides) : ¬ RefusesWide caps := by
  intro h
  obtain ⟨other, hresult, hdown⟩ :=
    h Fixed ⟨1⟩ _ _ _ (wideRoll_single hwide)
  have hfirst : FirstFault caps [o.term .plus] [] why :=
    ⟨grantedBehind_nil _ _, o.term .plus, [], rfl, hfault⟩
  rw [(attempt_single hlength hterms hwide.fits hshort ⟨1⟩).1, (evaluate_of_firstFault _ hfirst).1]
    at hresult
  obtain rfl : Rejection.roll why = other := Except.error.inj hresult
  cases hdown with
  | before _ hlt => exact absurd hlt (Nat.not_lt_zero _)
  | rollCap => exact hrolls rfl
  | sideCap => exact hsides rfl

end Overlooked

/-- A wide count is granted if the cap on cabbages is the greatest word. -/
lemma not_unaltered_of_rolls {caps : Caps} (hlength : caps.length = Word.top)
    (hterms : caps.terms = Word.top) (hrolls : caps.rolls = Word.top) (hsides : caps.sides ≠ 0) :
    ¬ Unaltered caps := by
  refine not_unaltered_of_none (o := .roll (some .tooWide) (.ofNat 1)) hlength hterms (by decide)
    (Or.inl ⟨_, rfl, Literal.not_fits_tooWide⟩) ?_
  rw [Operand.term, Option.elim_some, Literal.capped_tooWide]
  exact faultBehind_top hrolls hsides []

/-- Wide sides are granted if the cap on sides is the greatest word. -/
lemma not_unaltered_of_sides {caps : Caps} (hlength : caps.length = Word.top)
    (hterms : caps.terms = Word.top) (hsides : caps.sides = Word.top) (hrolls : caps.rolls ≠ 0) :
    ¬ Unaltered caps := by
  refine not_unaltered_of_none (o := .roll none .tooWide) hlength hterms (by decide)
    (Or.inr Literal.not_fits_tooWide) ?_
  have hpos : 1 ≤ caps.rolls.toNat := UInt64.le_iff_toNat_le.mp (Word.one_le_of_ne_zero hrolls)
  rw [Operand.term, Option.elim_none, Literal.capped_tooWide]
  refine faultBehind_roll_eq_none_iff.mpr ⟨?_, by decide, ?_, by decide⟩
  · exact Nat.le_trans (Nat.min_le_right _ _) hpos
  · rw [hsides]
    exact Word.le_top _

/-- At the greatest word, a wide count is not what a cabbage without sides is refused for. -/
lemma not_refusesWide_of_rolls {caps : Caps} (hlength : caps.length = Word.top)
    (hterms : caps.terms = Word.top) (hrolls : caps.rolls = Word.top) : ¬ RefusesWide caps := by
  refine not_refusesWide_of_some (o := .roll (some .tooWide) (.ofNat 0)) hlength hterms (by decide)
    (Or.inl ⟨_, rfl, Literal.not_fits_tooWide⟩) .noSides ?_ (by simp) (by simp)
  have hzero : (Literal.ofNat 0).capped = 0 := rfl
  have hroom : ¬ caps.rolls.toNat < min (2 ^ 64 - 1) (cabbages [] + Word.top.toNat) := by
    rw [hrolls, Word.toNat_top]
    omega
  rw [Operand.term, Option.elim_some, Literal.capped_tooWide, hzero, faultBehind, if_neg hroom,
    if_pos rfl]

/-- At the greatest word, wide sides are not what a roll of no cabbage is refused for. -/
lemma not_refusesWide_of_sides {caps : Caps} (hlength : caps.length = Word.top)
    (hterms : caps.terms = Word.top) (hsides : caps.sides = Word.top) : ¬ RefusesWide caps := by
  refine not_refusesWide_of_some (o := .roll (some (.ofNat 0)) .tooWide) hlength hterms (by decide)
    (Or.inr Literal.not_fits_tooWide) .noRolls ?_ (by simp) (by simp)
  have hzero : (Literal.ofNat 0).capped = 0 := rfl
  have hroom : ¬ caps.rolls.toNat < min (2 ^ 64 - 1) (cabbages [] + (0 : UInt64).toNat) := by
    have hempty : cabbages [] + (0 : UInt64).toNat = 0 := rfl
    rw [hempty]
    omega
  rw [Operand.term, Option.elim_some, Literal.capped_tooWide, hzero, faultBehind, if_neg hroom,
    if_neg (by decide), hsides, if_neg (UInt64.lt_irrefl _), if_pos rfl]

/-- **When the caps can be trusted with wide numbers.**  Accepted formulas are drawn in their own
numbers, and no wide roll is drawn, exactly if neither of the two caps is the greatest word, or if
the other one lets no roll through.  A wide roll is turned down for its own numbers, if for nothing
before it, exactly if neither cap is the greatest word. -/
theorem draws_written_iff (rolls sides : UInt64) :
    ((∀ length terms : UInt64, Unaltered ⟨length, terms, rolls, sides⟩) ↔
      (rolls ≠ Word.top ∨ sides = 0) ∧ (sides ≠ Word.top ∨ rolls = 0)) ∧
    ((∀ length terms : UInt64, RefusesWide ⟨length, terms, rolls, sides⟩) ↔
      rolls ≠ Word.top ∧ sides ≠ Word.top) := by
  refine ⟨⟨?_, ?_⟩, ⟨?_, ?_⟩⟩
  · intro h
    refine ⟨?_, ?_⟩
    · by_contra hor
      obtain ⟨hrolls, hsides⟩ := not_or.mp hor
      exact not_unaltered_of_rolls rfl rfl (not_not.mp hrolls) hsides (h Word.top Word.top)
    · by_contra hor
      obtain ⟨hsides, hrolls⟩ := not_or.mp hor
      exact not_unaltered_of_sides rfl rfl (not_not.mp hsides) hrolls (h Word.top Word.top)
  · rintro ⟨hrolls, hsides⟩ length terms
    exact unaltered hrolls hsides
  · intro h
    refine ⟨?_, ?_⟩
    · intro hrolls
      exact not_refusesWide_of_rolls rfl rfl hrolls (h Word.top Word.top)
    · intro hsides
      exact not_refusesWide_of_sides rfl rfl hsides (h Word.top Word.top)
  · rintro ⟨hrolls, hsides⟩ length terms
    exact refusesWide hrolls hsides

/-- With the cap on sides at the greatest word, sides that are one too many for a word pass, and
the cabbage that is drawn is a smaller one. -/
theorem drawn_narrower_than_written :
    (attempt { sides := Word.top } "c18446744073709551616" (⟨[[7]]⟩ : Script)).result.isOk = true ∧
      (attempt { sides := Word.top } "c18446744073709551616" (⟨[[7]]⟩ : Script)).draws.map
        Draw.numbers ≠ [(1, 18446744073709551616)] := by
  decide +kernel

end CabbageFormula
