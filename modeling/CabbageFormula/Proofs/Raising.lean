import CabbageFormula.Proofs.Settling
import CabbageFormula.Session
import CabbageFormula.Source.Scripted

/-!
# Raising the caps

All that a cap can do is turn a formula down, and then the fault is its own.  So what becomes of a
formula, unless a cap turns it down, becomes of it under higher caps, too.  This is said of one
step and then of a run through all of them, in each of the three stages.

* `Caps.Within` — caps that are at least as high.
* `Rejection.ofCap`, `hitsCap` — the faults of caps, and the results that are such a fault.
* `Formula.screen_eq_of_le` — screening.
* `Reading.step_cases` — what a step of reading does depends on the cap only if it completes a term.
* `Reading.feed_eq_of_le`, `readTerms_eq_of_le` — reading.
* `Tally.run_eq_of_within`, `evaluate_eq_of_within` — rolling.
* `attempt_eq_of_within` — a formula, through all stages.
-/

namespace CabbageFormula

/-! ## Caps and their faults -/

/-- **Caps that are at least as high**, each of the four. -/
structure Caps.Within (low high : Caps) : Prop where
  length : low.length ≤ high.length
  terms : low.terms ≤ high.terms
  rolls : low.rolls ≤ high.rolls
  sides : low.sides ≤ high.sides

def ScreenFault.ofCap : ScreenFault → Bool
  | lengthCap .. => true
  | _ => false

def ReadFault.ofCap : ReadFault → Bool
  | termCap _ => true
  | _ => false

def RollFault.ofCap : RollFault → Bool
  | rollCap _ => true
  | sideCap .. => true
  | _ => false

/-- **Whether a rejection is for a cap**: for the length, the terms, the cabbages or the sides. -/
def Rejection.ofCap : Rejection → Bool
  | screen why => why.ofCap
  | read why => why.ofCap
  | roll why => why.ofCap

/-- **Whether a formula was turned down by a cap.** -/
def hitsCap : Except Rejection Outcome → Bool
  | .ok _ => false
  | .error why => why.ofCap

variable {low high : Caps}

/-! ## Screening -/

lemma Formula.screen_eq_of_le (hle : low.length ≤ high.length) {s : String}
    (h : ∀ why, Formula.screen low s = .error why → why.ofCap = false) :
    Formula.screen high s = Formula.screen low s := by
  rw [Formula.screen] at h
  rw [Formula.screen, Formula.screen]
  by_cases hempty : s = ""
  · rw [if_pos hempty, if_pos hempty]
  · rw [if_neg hempty] at h
    rw [if_neg hempty, if_neg hempty]
    by_cases hdice : Formula.mentionsDice s.toList = true
    · rw [if_pos hdice, if_pos hdice]
    · rw [if_neg hdice] at h
      rw [if_neg hdice, if_neg hdice]
      by_cases hlong : low.length.toNat < s.length
      · rw [if_pos hlong] at h
        cases h _ rfl
      · have hshort : ¬ high.length.toNat < s.length := by
          have hnat := UInt64.le_iff_toNat_le.mp hle
          omega
        rw [if_neg hlong, if_neg hshort]

/-! ## Reading -/

namespace Reading

/-- **A step depends on the cap only if it completes a term.** -/
lemma step_cases (r : Reading) (l : Lexeme) :
    (∃ term next, ∀ max, r.step max l = complete max r.terms term next) ∨
      ∃ result, ∀ max, r.step max l = result := by
  obtain ⟨awaiting, terms⟩ := r
  obtain ⟨token, place⟩ := l
  cases awaiting with
  | sign => exact Or.inr ⟨step 0 ⟨.sign, terms⟩ ⟨token, place⟩, fun _ => by cases token <;> rfl⟩
  | operand s =>
      exact Or.inr ⟨step 0 ⟨.operand s, terms⟩ ⟨token, place⟩, fun _ => by cases token <;> rfl⟩
  | mark s number =>
      cases number with
      | none =>
          exact Or.inr ⟨step 0 ⟨.mark s none, terms⟩ ⟨token, place⟩, fun _ => by
            cases token <;> rfl⟩
      | some n =>
          cases token with
          | sign next => exact Or.inl ⟨.constant s n, .operand next, fun _ => rfl⟩
          | number _ => exact Or.inr ⟨_, fun _ => rfl⟩
          | cabbage => exact Or.inr ⟨_, fun _ => rfl⟩
          | stray => exact Or.inr ⟨_, fun _ => rfl⟩
  | sides s count =>
      cases token with
      | number n =>
          exact Or.inl ⟨.roll s (count.getD Word.top) (n.getD Word.top), .sign, fun _ => rfl⟩
      | sign _ => exact Or.inr ⟨_, fun _ => rfl⟩
      | cabbage => exact Or.inr ⟨_, fun _ => rfl⟩
      | stray => exact Or.inr ⟨_, fun _ => rfl⟩

variable {max max' : Nat}

lemma complete_eq_of_le (hle : max ≤ max') {terms : List Term} {term : Term} {next : Awaiting}
    (h : ∀ why, complete max terms term next = .error why → why.ofCap = false) :
    complete max' terms term next = complete max terms term next := by
  rw [complete] at h
  rw [complete, complete]
  by_cases hroom : terms.length < max
  · rw [if_pos hroom, if_pos (Nat.lt_of_lt_of_le hroom hle)]
  · rw [if_neg hroom] at h
    cases h _ rfl

lemma step_eq_of_le (hle : max ≤ max') {r : Reading} {l : Lexeme}
    (h : ∀ why, r.step max l = .error why → why.ofCap = false) :
    r.step max' l = r.step max l := by
  rcases r.step_cases l with ⟨term, next, hstep⟩ | ⟨result, hstep⟩
  · rw [hstep max] at h
    rw [hstep, hstep]
    exact complete_eq_of_le hle h
  · rw [hstep, hstep]

/-- **A run through lexemes that no cap stops** is the same under a higher cap. -/
lemma feed_eq_of_le (hle : max ≤ max') {ls : List Lexeme} :
    ∀ {r : Reading}, (∀ why, r.feed max ls = .error why → why.ofCap = false) →
      r.feed max' ls = r.feed max ls := by
  induction ls with
  | nil =>
      intro r _
      rfl
  | cons l rest ih =>
      intro r h
      -- whether the step fails or not, its fault is not that of the cap, so it does the same under both
      cases hstep : r.step max l with
      | error why =>
          have hwhy : why.ofCap = false := h why (feed_cons_of_error hstep rest)
          have hstep' : r.step max' l = .error why := by
            rw [step_eq_of_le hle, hstep]
            intro other hother
            rw [hstep] at hother
            rw [← Except.error.inj hother]
            exact hwhy
          rw [feed_cons_of_error hstep, feed_cons_of_error hstep']
      | ok mid =>
          have hstep' : r.step max' l = .ok mid := by
            rw [step_eq_of_le hle, hstep]
            intro other hother
            rw [hstep] at hother
            cases hother
          rw [feed_cons_of_ok hstep] at h
          rw [feed_cons_of_ok hstep, feed_cons_of_ok hstep']
          exact ih h

end Reading

lemma readTerms_eq_of_le {max max' : Nat} (hle : max ≤ max') {s : String}
    (h : ∀ why, readTerms max s = .error why → why.ofCap = false) :
    readTerms max' s = readTerms max s := by
  rw [readTerms] at h
  rw [readTerms, readTerms]
  cases hforeign : foreign? s with
  | some place => rfl
  | none =>
      simp only [hforeign] at h ⊢
      rw [Reading.feed_eq_of_le hle]
      intro why hfeed
      exact h why (by rw [hfeed])

lemma Formula.read_eq_of_within (hcaps : low.Within high) {s : String}
    (h : ∀ why, Formula.read low s = .error why → why.ofCap = false) :
    Formula.read high s = Formula.read low s := by
  rw [Formula.read] at h
  rw [Formula.read, Formula.read, Formula.screen_eq_of_le hcaps.length]
  · cases hscreen : Formula.screen low s with
    | error why => rfl
    | ok stripped =>
        simp only [hscreen] at h ⊢
        rw [readTerms_eq_of_le (UInt64.le_iff_toNat_le.mp hcaps.terms)]
        intro why hread
        exact h (.read why) (by rw [hread])
  · intro why hscreen
    exact h (.screen why) (by rw [hscreen])

/-! ## Rolling -/

lemma Draw.request_eq_of_within (hcaps : low.Within high) {rolls count sides : UInt64}
    (h : ∀ why, Draw.request low rolls count sides = .error why → why.ofCap = false) :
    Draw.request high rolls count sides = Draw.request low rolls count sides := by
  rw [Draw.request] at h
  rw [Draw.request, Draw.request]
  by_cases hrolls : low.rolls < rolls
  · rw [if_pos hrolls] at h
    cases h _ rfl
  · have hrolls' : ¬ high.rolls < rolls :=
      UInt64.not_lt.mpr (UInt64.le_trans (UInt64.not_lt.mp hrolls) hcaps.rolls)
    rw [if_neg hrolls] at h
    rw [if_neg hrolls, if_neg hrolls']
    by_cases hzero : sides = 0
    · rw [dif_pos hzero, dif_pos hzero]
    · rw [dif_neg hzero] at h
      rw [dif_neg hzero, dif_neg hzero]
      by_cases hsides : low.sides < sides
      · rw [if_pos hsides] at h
        cases h _ rfl
      · have hsides' : ¬ high.sides < sides :=
          UInt64.not_lt.mpr (UInt64.le_trans (UInt64.not_lt.mp hsides) hcaps.sides)
        rw [if_neg hsides, if_neg hsides']

variable {σ : Type} [RollSource σ]

namespace Tally

lemma settle_eq_of_within (hcaps : low.Within high) {term : Term} {t : Tally σ}
    (h : ∀ why, (t.settle low term).1 = .error why → why.ofCap = false) :
    t.settle high term = t.settle low term := by
  cases term with
  | constant s value => rfl
  | roll s count sides =>
      have hrequest : Draw.request high (t.ask count).asked count sides =
          Draw.request low (t.ask count).asked count sides := by
        apply Draw.request_eq_of_within hcaps
        intro why hlow
        exact h why (by rw [settle_roll_of_error hlow])
      cases hlow : Draw.request low (t.ask count).asked count sides with
      | error why =>
          rw [settle_roll_of_error hlow, settle_roll_of_error (hrequest.trans hlow)]
      | ok d => rw [settle_roll_of_ok hlow, settle_roll_of_ok (hrequest.trans hlow)]

/-- **A run through terms that no cap stops** is the same under higher caps. -/
lemma run_eq_of_within (hcaps : low.Within high) {terms : List Term} :
    ∀ {t : Tally σ}, (∀ why, (t.run low terms).1 = .error why → why.ofCap = false) →
      t.run high terms = t.run low terms := by
  induction terms with
  | nil =>
      intro t _
      rfl
  | cons term rest ih =>
      intro t h
      have hsettle : (t.note (.attempting term)).settle high term =
          (t.note (.attempting term)).settle low term := by
        apply settle_eq_of_within hcaps
        intro why hlow
        exact h why (by rw [run_cons_of_error (Prod.ext hlow rfl)])
      cases hlow : (t.note (.attempting term)).settle low term with
      | mk verdict next =>
          rw [hlow] at hsettle
          cases verdict with
          | error why => rw [run_cons_of_error hlow, run_cons_of_error hsettle]
          | ok =>
              rw [run_cons_of_ok hlow] at h
              rw [run_cons_of_ok hlow, run_cons_of_ok hsettle]
              exact ih h

end Tally

lemma evaluate_eq_of_within (hcaps : low.Within high) {terms : List Term} {source : σ}
    (h : ∀ why, (evaluate low terms source).1 = .error why → why.ofCap = false) :
    evaluate high terms source = evaluate low terms source := by
  have hrun : Tally.run high terms { source := source } =
      Tally.run low terms { source := source } := by
    apply Tally.run_eq_of_within hcaps
    intro why hlow
    exact h why (by rw [evaluate_of_error (Prod.ext hlow rfl)])
  rw [evaluate, evaluate, Tally.finish, Tally.finish, hrun]

/-! ## Formulas -/

/-- **Raising the caps changes nothing** for a formula that none of them turns down: it has the same
outcome or is turned down for the same fault, at the same place, and with the same draws, the same
events and the same state of the source behind it. -/
theorem attempt_eq_of_within (hcaps : low.Within high) {formula : String} {source : σ}
    (h : hitsCap (attempt low formula source).result = false) :
    attempt high formula source = attempt low formula source := by
  have hread : Formula.read high formula = Formula.read low formula := by
    apply Formula.read_eq_of_within hcaps
    intro why hlow
    rw [attempt_of_error hlow] at h
    exact h
  cases hlow : Formula.read low formula with
  | error why => rw [attempt_of_error hlow, attempt_of_error (hread.trans hlow)]
  | ok terms =>
      rw [attempt_of_ok hlow] at h
      rw [attempt_of_ok hlow, attempt_of_ok (hread.trans hlow), evaluate_eq_of_within hcaps]
      intro why hwhy
      rw [hwhy] at h
      exact h

/-- A formula that is just within the caps, and fails for having no cabbage to roll, behind a roll
that is drawn. -/
theorem attempt_eq_of_within_tight :
    Caps.Within ⟨7, 2, 2, 6⟩ ⟨8, 3, 100, 20⟩ ∧
      hitsCap (attempt ⟨7, 2, 2, 6⟩ "2c6-0c4" (⟨[[3, 5], [1]]⟩ : Script)).result = false ∧
        attempt ⟨8, 3, 100, 20⟩ "2c6-0c4" (⟨[[3, 5], [1]]⟩ : Script) =
          attempt ⟨7, 2, 2, 6⟩ "2c6-0c4" (⟨[[3, 5], [1]]⟩ : Script) :=
  have hcaps : Caps.Within ⟨7, 2, 2, 6⟩ ⟨8, 3, 100, 20⟩ :=
    ⟨by decide, by decide, by decide, by decide⟩
  ⟨hcaps, by decide +kernel, attempt_eq_of_within hcaps (by decide +kernel)⟩

end CabbageFormula
