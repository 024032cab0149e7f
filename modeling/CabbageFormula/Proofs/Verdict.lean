import CabbageFormula.Proofs.Settling
import Mathlib.Data.List.Basic

/-!
# The verdict on a list of terms

Whether terms are rolled or refused, why, and which draws are made for them: all of this is
decided by the terms and the caps alone, whatever the source returns.

* `cabbages`, `faultBehind` — how many cabbages terms ask for, and the fault of a term behind
  others, in the order in which the faults are looked for.
* `Granted`, `FirstFault` — no term has a fault; some term is the first that has one.
* `rolls` — the count and the sides of every roll, in order.
* `run_of_granted`, `run_of_firstFault` — the run through terms in either case.
* `evaluate_verdict` — the verdict on terms, the draws that are made for them and what they leave
  of the source, and that no source has a say in it.
-/

namespace CabbageFormula

/-! ## Faults without a source -/

def Term.cabbages : Term → Nat
  | .constant .. => 0
  | .roll _ count _ => count.toNat

/-- **The cabbages that terms ask for**, all together. -/
def cabbages (terms : List Term) : Nat := (terms.map Term.cabbages).sum

@[simp] lemma cabbages_append (front back : List Term) :
    cabbages (front ++ back) = cabbages front + cabbages back := by
  simp [cabbages]

/-- **The fault of a term behind others.**  A roll is bad if, with it, more cabbages have been
asked for than the cap allows, as far as a word can count them; or else if it has no sides, or
more than the cap allows, or is of no cabbage. -/
def faultBehind (caps : Caps) (front : List Term) : Term → Option RollFault
  | .constant .. => none
  | .roll _ count sides =>
    if caps.rolls.toNat < min (2 ^ 64 - 1) (cabbages front + count.toNat) then
      some (.rollCap caps.rolls)
    else if sides = 0 then some .noSides
    else if caps.sides < sides then some (.sideCap sides caps.sides)
    else if count = 0 then some .noRolls
    else none

/-- **A roll without a fault** stays within both caps, and has cabbages and sides. -/
lemma faultBehind_roll_eq_none_iff {caps : Caps} {front : List Term} {s : Sign}
    {count sides : UInt64} :
    faultBehind caps front (.roll s count sides) = none ↔
      min (2 ^ 64 - 1) (cabbages front + count.toNat) ≤ caps.rolls.toNat ∧ sides ≠ 0 ∧
        sides ≤ caps.sides ∧ count ≠ 0 := by
  rw [faultBehind, ← Nat.not_lt, ← UInt64.not_lt]
  by_cases hcap : caps.rolls.toNat < min (2 ^ 64 - 1) (cabbages front + count.toNat)
  · rw [if_pos hcap]
    exact iff_of_false (Option.some_ne_none _) fun h => absurd hcap h.1
  · rw [if_neg hcap]
    by_cases hzero : sides = 0
    · rw [if_pos hzero]
      exact iff_of_false (Option.some_ne_none _) fun h => absurd hzero h.2.1
    · rw [if_neg hzero]
      by_cases hwide : caps.sides < sides
      · rw [if_pos hwide]
        exact iff_of_false (Option.some_ne_none _) fun h => absurd hwide h.2.2.1
      · rw [if_neg hwide]
        by_cases hnone : count = 0
        · rw [if_pos hnone]
          exact iff_of_false (Option.some_ne_none _) fun h => absurd hnone h.2.2.2
        · rw [if_neg hnone]
          exact iff_of_true rfl ⟨hcap, hzero, hwide, hnone⟩

/-- If the cap is the greatest word, no count is above it. -/
lemma faultBehind_top {caps : Caps} (hrolls : caps.rolls = Word.top) (hsides : caps.sides ≠ 0)
    (front : List Term) : faultBehind caps front (.roll .plus Word.top 1) = none := by
  have hone : 1 ≤ caps.sides := Word.one_le_of_ne_zero hsides
  refine faultBehind_roll_eq_none_iff.mpr ⟨?_, by decide, hone, by decide⟩
  rw [hrolls, Word.toNat_top]
  exact Nat.min_le_left _ _

/-- No term has a fault, each behind those before it. -/
def GrantedBehind (caps : Caps) (front terms : List Term) : Prop :=
  ∀ mid term back, terms = mid ++ term :: back → faultBehind caps (front ++ mid) term = none

/-- **Terms that are granted**: none has a fault. -/
def Granted (caps : Caps) (terms : List Term) : Prop := GrantedBehind caps [] terms

/-- **The first fault of terms**: the terms in front are granted, the next is not. -/
def FirstFault (caps : Caps) (terms front : List Term) (why : RollFault) : Prop :=
  Granted caps front ∧
    ∃ term back, terms = front ++ term :: back ∧ faultBehind caps front term = some why

def Term.roll? : Term → Option (UInt64 × UInt64)
  | .constant .. => none
  | .roll _ count sides => some (count, sides)

/-- **The rolls of terms**, in order. -/
def rolls (terms : List Term) : List (UInt64 × UInt64) := terms.filterMap Term.roll?

lemma rolls_append (front back : List Term) : rolls (front ++ back) = rolls front ++ rolls back :=
  List.filterMap_append

def Draw.asks (d : Draw) : UInt64 × UInt64 := (d.count, d.sides)

lemma Draw.asks_injective : Function.Injective Draw.asks := by
  rintro ⟨count, sides, _⟩ ⟨count', sides', _⟩ h
  obtain ⟨rfl, rfl⟩ := Prod.mk.inj h
  rfl

lemma grantedBehind_nil (caps : Caps) (front : List Term) : GrantedBehind caps front [] := by
  intro mid term back h
  simp at h

lemma grantedBehind_cons {caps : Caps} {front rest : List Term} {term : Term} :
    GrantedBehind caps front (term :: rest) ↔
      faultBehind caps front term = none ∧ GrantedBehind caps (front ++ [term]) rest := by
  constructor
  · intro h
    refine ⟨by simpa using h [] term rest rfl, ?_⟩
    intro mid t back hrest
    simpa using h (term :: mid) t back (by rw [hrest]; rfl)
  · rintro ⟨hterm, hrest⟩ mid t back h
    cases mid with
    | nil =>
        obtain ⟨rfl, -⟩ := List.cons.inj h
        simpa using hterm
    | cons a mid =>
        obtain ⟨rfl, htail⟩ := List.cons.inj h
        simpa using hrest mid t back htail

/-- Terms are granted, or there is a first that is not. -/
lemma grantedBehind_or_fault (caps : Caps) (terms : List Term) :
    ∀ front, GrantedBehind caps front terms ∨
      ∃ mid term back why, terms = mid ++ term :: back ∧ GrantedBehind caps front mid ∧
        faultBehind caps (front ++ mid) term = some why := by
  induction terms with
  | nil => exact fun front => Or.inl (grantedBehind_nil caps front)
  | cons term rest ih =>
      intro front
      cases hfault : faultBehind caps front term with
      | some why =>
          refine Or.inr ⟨[], term, rest, why, rfl, grantedBehind_nil caps front, ?_⟩
          rw [List.append_nil, hfault]
      | none =>
          rcases ih (front ++ [term]) with hrest | ⟨mid, t, back, why, rfl, hmid, ht⟩
          · exact Or.inl (grantedBehind_cons.mpr ⟨hfault, hrest⟩)
          · refine Or.inr ⟨term :: mid, t, back, why, rfl, grantedBehind_cons.mpr ⟨hfault, hmid⟩, ?_⟩
            simpa using ht

/-! ## Requests -/

section Requests

variable {σ : Type} {caps : Caps} {front : List Term} {s : Sign} {count sides : UInt64}
  {t : Tally σ}

/-- A tally that has counted the terms in front counts one more roll. -/
lemma toNat_asked_ask (ht : t.asked.toNat = min (2 ^ 64 - 1) (cabbages front)) :
    (t.ask count).asked.toNat = min (2 ^ 64 - 1) (cabbages front + count.toNat) := by
  rw [Tally.asked_ask, Word.toNat_addCapped, Word.toNat_top, ht]
  omega

lemma request_of_fault {why : RollFault}
    (ht : t.asked.toNat = min (2 ^ 64 - 1) (cabbages front))
    (h : faultBehind caps front (.roll s count sides) = some why) :
    Draw.request caps (t.ask count).asked count sides = .error why := by
  rw [faultBehind, ← toNat_asked_ask ht] at h
  rw [Draw.request]
  -- the two chains of tests agree test by test
  split at h
  case isTrue hcap => rw [if_pos (UInt64.lt_iff_toNat_lt.mpr hcap), Option.some.inj h]
  case isFalse hcap =>
    rw [if_neg (fun hlt => hcap (UInt64.lt_iff_toNat_lt.mp hlt))]
    split at h
    case isTrue hzero => rw [dif_pos hzero, Option.some.inj h]
    case isFalse hzero =>
      rw [dif_neg hzero]
      split at h
      case isTrue hwide => rw [if_pos hwide, Option.some.inj h]
      case isFalse hwide =>
        rw [if_neg hwide]
        split at h
        case isTrue hnone => rw [if_pos hnone, Option.some.inj h]
        case isFalse => cases h

lemma request_of_none (ht : t.asked.toNat = min (2 ^ 64 - 1) (cabbages front))
    (h : faultBehind caps front (.roll s count sides) = none) :
    ∃ d, Draw.request caps (t.ask count).asked count sides = .ok d ∧ d.asks = (count, sides) := by
  obtain ⟨hcap, hzero, hwide, hnone⟩ := faultBehind_roll_eq_none_iff.mp h
  rw [← toNat_asked_ask ht] at hcap
  refine ⟨⟨count, sides, hzero⟩, ?_, rfl⟩
  exact Draw.request_eq_ok_iff.mpr ⟨UInt64.le_iff_toNat_le.mpr hcap, hwide, hnone, rfl, rfl⟩

end Requests

/-! ## Runs -/

section Runs

variable {σ : Type} [RollSource σ] {caps : Caps} {front : List Term}

/-- **A run through terms that are granted** draws for every roll, and counts what they ask for. -/
lemma run_of_grantedBehind {terms : List Term} :
    ∀ {front : List Term} {t : Tally σ}, t.asked.toNat = min (2 ^ 64 - 1) (cabbages front) →
      GrantedBehind caps front terms →
        ∃ last, t.run caps terms = (.ok (), last) ∧
          last.asked.toNat = min (2 ^ 64 - 1) (cabbages (front ++ terms)) ∧
          last.draws.map Draw.asks = t.draws.map Draw.asks ++ rolls terms := by
  induction terms with
  | nil =>
      intro front t ht _
      exact ⟨t, rfl, by rw [List.append_nil, ht], by simp [rolls]⟩
  | cons term rest ih =>
      intro front t ht hgranted
      obtain ⟨hterm, hrest⟩ := grantedBehind_cons.mp hgranted
      -- what settling the term leaves, and that it has counted the term
      have hsettle : ∃ next, (t.note (.attempting term)).settle caps term = (.ok (), next) ∧
          next.asked.toNat = min (2 ^ 64 - 1) (cabbages (front ++ [term])) ∧
          next.draws.map Draw.asks = t.draws.map Draw.asks ++ rolls [term] := by
        cases term with
        | constant s value =>
            refine ⟨_, Tally.settle_constant caps s value _, ?_, ?_⟩
            · rw [Tally.asked_enter, Tally.asked_note, ht, cabbages_append]
              rfl
            · simp [rolls, Term.roll?]
        | roll s count sides =>
            have hnote : (t.note (.attempting (.roll s count sides))).asked.toNat =
                min (2 ^ 64 - 1) (cabbages front) := ht
            obtain ⟨d, hrequest, hasks⟩ := request_of_none hnote hterm
            refine ⟨_, Tally.settle_roll_of_ok hrequest, ?_, ?_⟩
            · rw [Tally.asked_enter, Tally.asked_pull, toNat_asked_ask hnote, cabbages_append]
              rfl
            · simp [rolls, Term.roll?, hasks]
      obtain ⟨next, hnext, hasked, hdraws⟩ := hsettle
      obtain ⟨last, hrun, hlast, hall⟩ := ih hasked hrest
      refine ⟨last, ?_, ?_, ?_⟩
      · rw [Tally.run_cons_of_ok hnext, hrun]
      · simpa using hlast
      · rw [hall, hdraws, List.append_assoc, ← rolls_append]
        rfl

variable {terms : List Term}

lemma run_of_granted (source : σ) (h : Granted caps terms) :
    ∃ last : Tally σ, Tally.run caps terms { source := source } = (.ok (), last) ∧
      last.asked.toNat = min (2 ^ 64 - 1) (cabbages terms) ∧
      last.draws.map Draw.asks = rolls terms := by
  have hstart : ({ source := source } : Tally σ).asked.toNat =
      min (2 ^ 64 - 1) (cabbages []) := rfl
  obtain ⟨last, hrun, hasked, hdraws⟩ := run_of_grantedBehind hstart h
  exact ⟨last, hrun, hasked, hdraws⟩

/-- **A run stops at the first fault**: behind the terms in front of it the next one is attempted,
its cabbages are counted, and that is all. -/
lemma exists_run_of_firstFault (source : σ) {why : RollFault}
    (h : FirstFault caps terms front why) :
    ∃ (mid : Tally σ) (term : Term) (count : UInt64) (back : List Term),
      terms = front ++ term :: back ∧ faultBehind caps front term = some why ∧
        Tally.run caps front { source := source } = (.ok (), mid) ∧
          mid.draws.map Draw.asks = rolls front ∧
            Tally.run caps terms { source := source } =
              (.error why, (mid.note (.attempting term)).ask count) := by
  obtain ⟨hgranted, term, back, rfl, hfault⟩ := h
  obtain ⟨mid, hrun, hasked, hdraws⟩ := run_of_granted source hgranted
  cases term with
  | constant s value => cases hfault
  | roll s count sides =>
      have hnote : (mid.note (.attempting (.roll s count sides))).asked.toNat =
          min (2 ^ 64 - 1) (cabbages front) := hasked
      have hsettle := Tally.settle_roll_of_error (s := s) (request_of_fault hnote hfault)
      refine ⟨mid, .roll s count sides, count, back, rfl, hfault, hrun, hdraws, ?_⟩
      rw [Tally.run_append_of_ok hrun, Tally.run_cons_of_error hsettle]

/-- The draws that a run has made when it stops are those for the terms in front of the fault. -/
lemma run_of_firstFault (source : σ) {why : RollFault} (h : FirstFault caps terms front why) :
    ∃ last : Tally σ, Tally.run caps terms { source := source } = (.error why, last) ∧
      last.draws.map Draw.asks = rolls front := by
  obtain ⟨mid, term, count, back, -, -, -, hdraws, hrun⟩ := exists_run_of_firstFault source h
  refine ⟨_, hrun, ?_⟩
  rw [Tally.draws_ask, Tally.draws_note, hdraws]

lemma granted_or_firstFault (caps : Caps) (terms : List Term) :
    Granted caps terms ∨ ∃ front why, FirstFault caps terms front why := by
  rcases grantedBehind_or_fault caps terms [] with h | ⟨front, term, back, why, heq, hfront, hfault⟩
  · exact Or.inl h
  · exact Or.inr ⟨front, why, hfront, term, back, heq, hfault⟩

lemma evaluate_of_granted (source : σ) (h : Granted caps terms) :
    (∃ o, (evaluate caps terms source).1 = .ok o) ∧
      (evaluate caps terms source).2.draws.map Draw.asks = rolls terms := by
  obtain ⟨last, hrun, -, hdraws⟩ := run_of_granted source h
  rw [evaluate_of_ok hrun]
  exact ⟨⟨_, rfl⟩, hdraws⟩

lemma evaluate_of_firstFault (source : σ) {why : RollFault} (h : FirstFault caps terms front why) :
    (evaluate caps terms source).1 = .error why ∧
      (evaluate caps terms source).2.draws.map Draw.asks = rolls front := by
  obtain ⟨last, hrun, hdraws⟩ := run_of_firstFault source h
  rw [evaluate_of_error hrun]
  exact ⟨rfl, hdraws⟩

lemma granted_of_ok {source : σ} {o : Outcome} (h : (evaluate caps terms source).1 = .ok o) :
    Granted caps terms := by
  rcases granted_or_firstFault caps terms with hg | ⟨front, why, hf⟩
  · exact hg
  · rw [(evaluate_of_firstFault source hf).1] at h
    cases h

/-- **The verdict on a list of terms.**  If no term has a fault the terms are rolled, with one draw
for each roll; otherwise they are refused for the first fault, and the draws are those for the
rolls in front of it.  One of the two is the case.  The source is left as just these draws leave
it, made in order and each once; and any other source is asked for the same draws and comes to the
same verdict. -/
theorem evaluate_verdict (caps : Caps) (terms : List Term) (source : σ) :
    (Granted caps terms →
      (∃ o, (evaluate caps terms source).1 = .ok o) ∧
        (evaluate caps terms source).2.draws.map Draw.asks = rolls terms) ∧
    (∀ front why, FirstFault caps terms front why →
      (evaluate caps terms source).1 = .error why ∧
        (evaluate caps terms source).2.draws.map Draw.asks = rolls front) ∧
    (Granted caps terms ∨ ∃ front why, FirstFault caps terms front why) ∧
    (evaluate caps terms source).2.source =
      RollSource.after (evaluate caps terms source).2.draws source ∧
    (∀ (τ : Type) [RollSource τ] (other : τ),
      (evaluate caps terms other).2.draws = (evaluate caps terms source).2.draws ∧
        ((∃ o o', (evaluate caps terms source).1 = .ok o ∧ (evaluate caps terms other).1 = .ok o') ∨
          ∃ why, (evaluate caps terms source).1 = .error why ∧
            (evaluate caps terms other).1 = .error why)) := by
  refine ⟨evaluate_of_granted source, fun front why => evaluate_of_firstFault source,
    granted_or_firstFault caps terms, evaluate_source caps terms source, ?_⟩
  intro τ _ other
  rcases granted_or_firstFault caps terms with h | ⟨front, why, h⟩
  · obtain ⟨⟨o, hresult⟩, hdraws⟩ := evaluate_of_granted source h
    obtain ⟨⟨o', hresult'⟩, hdraws'⟩ := evaluate_of_granted other h
    refine ⟨?_, Or.inl ⟨o, o', hresult, hresult'⟩⟩
    exact List.map_injective_iff.mpr Draw.asks_injective (hdraws'.trans hdraws.symm)
  · obtain ⟨hresult, hdraws⟩ := evaluate_of_firstFault source h
    obtain ⟨hresult', hdraws'⟩ := evaluate_of_firstFault other h
    refine ⟨?_, Or.inr ⟨why, hresult, hresult'⟩⟩
    exact List.map_injective_iff.mpr Draw.asks_injective (hdraws'.trans hdraws.symm)

end Runs

end CabbageFormula
