import CabbageFormula.Proofs.Budget
import CabbageFormula.Proofs.Ledger

/-!
# The totals that terms can come to

From an honest source every cabbage shows one of its faces, so that the total of terms lies between
two bounds that can be told from the terms alone.  The cabbages are independent, and so every whole
number in between is the total for some honest source.

* `Term.least`, `Term.greatest`, `least`, `greatest` — the bounds of a term, and of terms.
* `Term.Shows`, `Shown` — the entries that a term, and terms, may have from an honest source.
* `Shown.bounds` — their total is within the bounds.
* `exists_shown` — **every total within the bounds is that of some such entries**.
* `Tally.shown_of_run`, `Replay.trace_of_run` — an honest source makes such entries, and all of them
  are made by one that plays them back.
* `FairlyRolled` — what terms come to from an honest source.
* `honest_totals` — the totals from honest sources are those within the bounds, as long as a
  register of 128 bits has room for them; `two_pow_127_out_of_reach` — it need not have.
-/

namespace CabbageFormula

/-! ## Bounds -/

namespace Term

/-- **The least that a term can come to**: ones behind a plus, and the greatest faces behind a
minus. -/
def least : Term → Int
  | constant s v => s.signed v
  | roll .plus count _ => count.toNat
  | roll .minus count sides => -((count.toNat * sides.toNat : Nat) : Int)

/-- **The greatest that a term can come to.** -/
def greatest : Term → Int
  | constant s v => s.signed v
  | roll .plus count sides => ((count.toNat * sides.toNat : Nat) : Int)
  | roll .minus count _ => -(count.toNat : Int)

/-- A term whose cabbages have sides, if it has any. -/
def HasSides : Term → Prop
  | constant .. => True
  | roll _ _ sides => sides ≠ 0

def isConstant : Term → Bool
  | constant .. => true
  | roll .. => false

end Term

/-- **The least total of terms.** -/
def least (terms : List Term) : Int := (terms.map Term.least).sum

/-- **The greatest total of terms.** -/
def greatest (terms : List Term) : Int := (terms.map Term.greatest).sum

@[simp] lemma least_cons (t : Term) (terms : List Term) :
    least (t :: terms) = t.least + least terms := List.sum_cons

@[simp] lemma greatest_cons (t : Term) (terms : List Term) :
    greatest (t :: terms) = t.greatest + greatest terms := List.sum_cons

/-! ## Faces -/

/-- **Faces of cabbages** with a number of sides. -/
def AreFaces (sides : UInt64) (values : List UInt64) : Prop :=
  ∀ v ∈ values, 1 ≤ v ∧ v ≤ sides

lemma AreFaces.sum_bounds {sides : UInt64} {values : List UInt64} (h : AreFaces sides values) :
    values.length ≤ (values.map UInt64.toNat).sum ∧
      (values.map UInt64.toNat).sum ≤ values.length * sides.toNat := by
  induction values with
  | nil => simp
  | cons v values ih =>
      obtain ⟨hone, hsides⟩ := h v List.mem_cons_self
      obtain ⟨hlo, hhi⟩ := ih fun w hw => h w (List.mem_cons_of_mem v hw)
      have hone' : 1 ≤ v.toNat := UInt64.le_iff_toNat_le.mp hone
      have hsides' : v.toNat ≤ sides.toNat := UInt64.le_iff_toNat_le.mp hsides
      rw [List.map_cons, List.sum_cons, List.length_cons, Nat.succ_mul]
      omega

/-- **Any sum between all ones and all greatest faces** is that of some faces. -/
lemma exists_faces (sides : UInt64) (count : Nat) :
    ∀ n : Nat, count ≤ n → n ≤ count * sides.toNat →
      ∃ values, values.length = count ∧ AreFaces sides values ∧
        (values.map UInt64.toNat).sum = n := by
  induction count with
  | zero =>
      intro n _ hhi
      have hzero : n = 0 := by omega
      exact ⟨[], rfl, by simp [AreFaces], hzero.symm⟩
  | succ count ih =>
      intro n hlo hhi
      rw [Nat.succ_mul] at hhi
      -- the first cabbage shows as much as leaves a one for each of the others
      obtain ⟨face, hface⟩ : ∃ face : UInt64, face.toNat = min sides.toNat (n - count) := by
        refine ⟨.ofNat (min sides.toNat (n - count)), UInt64.toNat_ofNat_of_lt' ?_⟩
        exact Nat.lt_of_le_of_lt (Nat.min_le_left _ _) sides.toNat_lt
      have hpos : sides.toNat ≠ 0 := by
        intro hzero
        rw [hzero, Nat.mul_zero] at hhi
        omega
      have hcount : count ≤ count * sides.toNat :=
        Nat.le_mul_of_pos_right count (Nat.pos_of_ne_zero hpos)
      obtain ⟨values, hlength, hfaces, hsum⟩ := ih (n - face.toNat) (by omega) (by omega)
      refine ⟨face :: values, by rw [List.length_cons, hlength], ?_, ?_⟩
      · intro v hv
        rcases List.mem_cons.mp hv with rfl | hv
        · rw [UInt64.le_iff_toNat_le, UInt64.le_iff_toNat_le, hface]
          show 1 ≤ _ ∧ _
          omega
        · exact hfaces v hv
      · rw [List.map_cons, List.sum_cons, hsum]
        omega

/-! ## Entries from an honest source -/

/-- **The entries that a term may have** from an honest source: a constant has its own, and a roll
has a face for each cabbage, with the sign of the term. -/
inductive Term.Shows : Term → List Entry → Prop where
  | constant (s : Sign) (v : UInt64) : Shows (.constant s v) [.constant s v]
  | roll (s : Sign) {count sides : UInt64} {values : List UInt64}
      (hlength : values.length = count.toNat) (hfaces : AreFaces sides values) :
      Shows (.roll s count sides) (values.map (.rolled s))

/-- **The entries that terms may have**, term by term. -/
inductive Shown : List Term → List Entry → Prop where
  | nil : Shown [] []
  | cons {term : Term} {group : List Entry} {rest : List Term} {entries : List Entry}
      (hterm : term.Shows group) (hrest : Shown rest entries) :
      Shown (term :: rest) (group ++ entries)

lemma exactTotal_map_rolled (s : Sign) (values : List UInt64) :
    exactTotal (values.map (.rolled s)) =
      match s with
      | .plus => (values.map UInt64.toNat).sum
      | .minus => -(values.map UInt64.toNat).sum := by
  induction values with
  | nil => cases s <;> rfl
  | cons v values ih =>
      rw [List.map_cons, exactTotal_cons, ih]
      cases s with
      | plus => simp
      | minus =>
          simp
          omega

namespace Term

lemma Shows.bounds {term : Term} {group : List Entry} (h : term.Shows group) :
    term.least ≤ exactTotal group ∧ exactTotal group ≤ term.greatest := by
  cases h with
  | constant s v => simp [least, greatest]
  | @roll s count sides values hlength hfaces =>
      obtain ⟨hlo, hhi⟩ := hfaces.sum_bounds
      rw [hlength] at hlo hhi
      rw [exactTotal_map_rolled]
      cases s with
      | plus =>
          simp only [least, greatest]
          omega
      | minus =>
          simp only [least, greatest]
          omega

lemma Shows.length {term : Term} {group : List Entry} (h : term.Shows group) :
    group.length = (if term.isConstant then 1 else 0) + term.cabbages := by
  cases h with
  | constant s v => rfl
  | roll s hlength hfaces => simp [hlength, isConstant, cabbages]

/-- **Every total within the bounds of a term** is that of entries that it may have. -/
lemma exists_shows {term : Term} {n : Int} (hlo : term.least ≤ n) (hhi : n ≤ term.greatest) :
    ∃ group, term.Shows group ∧ exactTotal group = n := by
  cases term with
  | constant s v =>
      have heq : s.signed v = n := Int.le_antisymm hlo hhi
      exact ⟨_, .constant s v, by simp [heq]⟩
  | roll s count sides =>
      cases s with
      | plus =>
          simp only [least, greatest] at hlo hhi
          obtain ⟨values, hlength, hfaces, hsum⟩ :=
            exists_faces sides count.toNat n.toNat (by omega) (by omega)
          refine ⟨_, .roll .plus hlength hfaces, ?_⟩
          rw [exactTotal_map_rolled, hsum]
          show (n.toNat : Int) = n
          omega
      | minus =>
          simp only [least, greatest] at hlo hhi
          obtain ⟨values, hlength, hfaces, hsum⟩ :=
            exists_faces sides count.toNat (-n).toNat (by omega) (by omega)
          refine ⟨_, .roll .minus hlength hfaces, ?_⟩
          rw [exactTotal_map_rolled, hsum]
          show -((-n).toNat : Int) = n
          omega

lemma least_le_greatest {term : Term} (h : term.HasSides) : term.least ≤ term.greatest := by
  cases term with
  | constant s v => exact Int.le_refl _
  | roll s count sides =>
      have hpos : 0 < sides.toNat := UInt64.le_iff_toNat_le.mp (Word.one_le_of_ne_zero h)
      have hcount := Nat.le_mul_of_pos_right count.toNat hpos
      cases s with
      | plus =>
          simp only [least, greatest]
          omega
      | minus =>
          simp only [least, greatest]
          omega

end Term

lemma Shown.bounds {terms : List Term} {entries : List Entry} (h : Shown terms entries) :
    least terms ≤ exactTotal entries ∧ exactTotal entries ≤ greatest terms := by
  induction h with
  | nil => exact ⟨Int.le_refl 0, Int.le_refl 0⟩
  | cons hterm _ ih =>
      have hbounds := hterm.bounds
      rw [exactTotal_append, least_cons, greatest_cons]
      omega

lemma Shown.length {terms : List Term} {entries : List Entry} (h : Shown terms entries) :
    entries.length = terms.countP Term.isConstant + cabbages terms := by
  induction h with
  | nil => rfl
  | @cons term _ rest _ hterm _ ih =>
      have hsum : cabbages (term :: rest) = term.cabbages + cabbages rest := by simp [cabbages]
      rw [List.length_append, hterm.length, ih, List.countP_cons, hsum]
      omega

lemma least_le_greatest {terms : List Term} (h : ∀ t ∈ terms, t.HasSides) :
    least terms ≤ greatest terms := by
  induction terms with
  | nil => exact Int.le_refl 0
  | cons term rest ih =>
      have hterm := Term.least_le_greatest (h term List.mem_cons_self)
      have hrest := ih fun t ht => h t (List.mem_cons_of_mem term ht)
      rw [least_cons, greatest_cons]
      omega

/-- **Every total within the bounds** is that of entries that the terms may have. -/
theorem exists_shown {terms : List Term} (h : ∀ t ∈ terms, t.HasSides) :
    ∀ n : Int, least terms ≤ n → n ≤ greatest terms →
      ∃ entries, Shown terms entries ∧ exactTotal entries = n := by
  induction terms with
  | nil =>
      intro n hlo hhi
      exact ⟨[], .nil, Int.le_antisymm hlo hhi⟩
  | cons term rest ih =>
      intro n hlo hhi
      rw [least_cons] at hlo
      rw [greatest_cons] at hhi
      have hterm := Term.least_le_greatest (h term List.mem_cons_self)
      have hsides : ∀ t ∈ rest, t.HasSides := fun t ht => h t (List.mem_cons_of_mem term ht)
      have hrest := least_le_greatest hsides
      -- the first term takes its least, or what is above the greatest of the others
      obtain ⟨group, hgroup, hfirst⟩ : ∃ group, term.Shows group ∧
          exactTotal group = max term.least (n - greatest rest) :=
        Term.exists_shows (by omega) (by omega)
      obtain ⟨entries, hentries, hothers⟩ := ih hsides (n - exactTotal group) (by omega) (by omega)
      refine ⟨group ++ entries, .cons hgroup hentries, ?_⟩
      rw [exactTotal_append, hothers]
      omega

/-! ## Honest sources -/

section Honest

variable {σ : Type} [RollSource σ] {caps : Caps}

/-- A run that begins with a roll and does not fail has drawn for it. -/
lemma Tally.exists_draw_of_run {s : Sign} {count sides : UInt64} {rest : List Term}
    {t last : Tally σ} (h : t.run caps (.roll s count sides :: rest) = (.ok (), last)) :
    ∃ d : Draw, d.count = count ∧ d.sides = sides ∧
      ∃ next : Tally σ, next.run caps rest = (.ok (), last) ∧
        next.source = (RollSource.draw d t.source).2 ∧
          next.trace = t.trace ++ (RollSource.draw d t.source).1.map (.rolled s) := by
  cases hr : Draw.request caps ((t.note (.attempting (.roll s count sides))).ask count).asked
      count sides with
  | error why =>
      rw [run_cons_of_error (settle_roll_of_error hr)] at h
      cases (Prod.mk.inj h).1
  | ok d =>
      rw [run_cons_of_ok (settle_roll_of_ok hr)] at h
      obtain ⟨-, -, -, hcount, hsides⟩ := Draw.request_eq_ok_iff.mp hr
      exact ⟨d, hcount, hsides, _, h, rfl, rfl⟩

/-- **From an honest source come the entries that the terms may have.** -/
lemma Tally.shown_of_run (hσ : RollSource.Honest σ) {terms : List Term} :
    ∀ {t last : Tally σ}, t.run caps terms = (.ok (), last) →
      ∃ entries, Shown terms entries ∧ last.trace = t.trace ++ entries := by
  induction terms with
  | nil =>
      intro t last h
      obtain rfl : t = last := (Prod.mk.inj h).2
      exact ⟨[], .nil, by simp⟩
  | cons term rest ih =>
      intro t last h
      cases term with
      | constant s v =>
          rw [run_cons_of_ok (settle_constant caps s v _)] at h
          obtain ⟨entries, hshown, htrace⟩ := ih h
          refine ⟨_, .cons (.constant s v) hshown, ?_⟩
          rw [htrace, trace_enter, trace_note, List.append_assoc]
      | roll s count sides =>
          obtain ⟨d, rfl, rfl, next, hnext, -, hentered⟩ := exists_draw_of_run h
          obtain ⟨hlength, hfaces⟩ := hσ d t.source
          obtain ⟨entries, hshown, htrace⟩ := ih hnext
          refine ⟨_, .cons (.roll s hlength hfaces) hshown, ?_⟩
          rw [htrace, hentered, List.append_assoc]

/-- **What terms come to from an honest source.** -/
structure FairlyRolled (terms : List Term) (o : Outcome) : Prop where
  /-- Each constant is entered as it is, and each roll as faces of its cabbages, with its sign. -/
  shown : Shown terms o.trace
  length_eq : o.trace.length = terms.countP Term.isConstant + cabbages terms
  /-- If no addition leaves a register of 128 bits, what it holds in the end is the total, which
  lies within the bounds. -/
  bounds : ∀ n, registerTotal? o.trace = some n →
    o.total = n ∧ least terms ≤ n ∧ n ≤ greatest terms
  /-- No addition leaves the register for as many entries as `2 ^ 63`. -/
  in_register : o.trace.length ≤ 2 ^ 63 → registerTotal? o.trace = some o.total

lemma fairlyRolled_of_ok (hσ : RollSource.Honest σ) {terms : List Term} {source : σ} {o : Outcome}
    (h : (evaluate caps terms source).1 = .ok o) : FairlyRolled terms o := by
  have htotal := evaluate_balanced h
  obtain ⟨last, hrun, -⟩ := run_of_granted source (granted_of_ok h)
  rw [evaluate_of_ok hrun] at h
  obtain rfl : last.outcome = o := Except.ok.inj h
  obtain ⟨entries, hshown, htrace⟩ := Tally.shown_of_run hσ hrun
  have hentries : last.outcome.trace = entries := htrace.trans (List.nil_append entries)
  rw [← hentries] at hshown
  refine ⟨hshown, hshown.length, ?_, ?_⟩
  · intro n hn
    obtain ⟨rfl, -⟩ := exactTotal_of_registerTotal? hn
    exact ⟨htotal, hshown.bounds⟩
  · intro hlength
    rw [htotal]
    exact registerTotal?_eq_some hlength

end Honest

/-! ## Playing entries back -/

namespace Replay

lemma toNat_face {sides : UInt64} (h : sides ≠ 0) (value : UInt64) :
    (face sides value).toNat = (value - 1).toNat % sides.toNat + 1 := by
  have hpos : 0 < sides.toNat := UInt64.le_iff_toNat_le.mp (Word.one_le_of_ne_zero h)
  have hlt := Nat.mod_lt (value - 1).toNat hpos
  have hmax := sides.toNat_lt
  rw [face, UInt64.toNat_add, UInt64.toNat_mod]
  exact Nat.mod_eq_of_lt (by show _ + 1 < _; omega)

lemma face_bounds {sides : UInt64} (h : sides ≠ 0) (value : UInt64) :
    1 ≤ face sides value ∧ face sides value ≤ sides := by
  have hpos : 0 < sides.toNat := UInt64.le_iff_toNat_le.mp (Word.one_le_of_ne_zero h)
  have hlt := Nat.mod_lt (value - 1).toNat hpos
  rw [UInt64.le_iff_toNat_le, UInt64.le_iff_toNat_le, toNat_face h]
  show 1 ≤ _ ∧ _
  omega

/-- A face is left as it is. -/
lemma face_eq_self {sides value : UInt64} (hone : 1 ≤ value) (hsides : value ≤ sides) :
    face sides value = value := by
  have hone' : 1 ≤ value.toNat := UInt64.le_iff_toNat_le.mp hone
  have hsides' : value.toNat ≤ sides.toNat := UInt64.le_iff_toNat_le.mp hsides
  have hne : sides ≠ 0 := by
    rintro rfl
    exact absurd (hone'.trans hsides') (by decide)
  have hpred : (value - 1).toNat = value.toNat - 1 := UInt64.toNat_sub_of_le _ _ hone
  apply UInt64.toNat_inj.mp
  rw [toNat_face hne, hpred, Nat.mod_eq_of_lt (by omega)]
  omega

/-- **A source that goes through a list is honest**, whatever is in the list. -/
lemma honest : RollSource.Honest Replay := by
  intro d source
  refine ⟨by simp [RollSource.draw], ?_⟩
  intro value hvalue
  obtain ⟨i, -, rfl⟩ := List.mem_map.mp hvalue
  exact face_bounds d.sides_ne_zero _

/-- **Faces that lie ahead are played back.** -/
lemma draw_eq {d : Draw} {before values after : List UInt64}
    (hlength : values.length = d.count.toNat) (hfaces : AreFaces d.sides values) :
    RollSource.draw d (⟨(before ++ (values ++ after)).toArray, before.length⟩ : Replay) =
      (values, ⟨((before ++ values) ++ after).toArray, (before ++ values).length⟩) := by
  have hvalues : (List.range d.count.toNat).map (fun i => face d.sides
      (valueAt ⟨(before ++ (values ++ after)).toArray, before.length⟩ (before.length + i))) =
        values := by
    refine List.ext_getElem (by simp [hlength]) ?_
    intro i hi hi'
    have hmod : (before.length + i) % (before ++ (values ++ after)).length = before.length + i :=
      Nat.mod_eq_of_lt (by simp; omega)
    obtain ⟨hone, hsides⟩ := hfaces values[i] (List.getElem_mem hi')
    simp only [List.getElem_map, List.getElem_range, valueAt, List.size_toArray, hmod,
      List.getElem?_toArray]
    rw [List.getElem?_append_right (Nat.le_add_right _ _), Nat.add_sub_cancel_left,
      List.getElem?_append_left hi', List.getElem?_eq_getElem hi', Option.getD_some,
      face_eq_self hone hsides]
  refine Prod.ext hvalues ?_
  show Replay.mk _ _ = Replay.mk _ _
  rw [List.append_assoc, List.length_append, hlength]

end Replay

/-- What a cabbage showed. -/
def Entry.face? : Entry → Option UInt64
  | .constant .. => none
  | .rolled _ v => some v

/-- **What the cabbages of entries showed**, in order. -/
def faces (entries : List Entry) : List UInt64 := entries.filterMap Entry.face?

lemma faces_map_rolled (s : Sign) (values : List UInt64) :
    faces (values.map (.rolled s)) = values := by
  induction values with
  | nil => rfl
  | cons v values ih => exact congrArg (v :: ·) ih

/-- **A source that plays entries back makes these entries.** -/
lemma Replay.trace_of_run {caps : Caps} {terms : List Term} {entries : List Entry}
    (h : Shown terms entries) :
    ∀ {before : List UInt64} {t last : Tally Replay},
      t.source = ⟨(before ++ faces entries).toArray, before.length⟩ →
        t.run caps terms = (.ok (), last) → last.trace = t.trace ++ entries := by
  induction h with
  | nil =>
      intro before t last _ hrun
      obtain rfl : t = last := (Prod.mk.inj hrun).2
      simp
  | @cons term group rest entries hterm _ ih =>
      intro before t last hsource hrun
      rw [faces, List.filterMap_append] at hsource
      cases hterm with
      | constant s v =>
          rw [Tally.run_cons_of_ok (Tally.settle_constant caps s v _)] at hrun
          rw [ih (by exact hsource) hrun, Tally.trace_enter, Tally.trace_note, List.append_assoc]
      | roll s hlength hfaces =>
          obtain ⟨d, rfl, rfl, next, hnext, hafter, hentered⟩ := Tally.exists_draw_of_run hrun
          -- what the group shows lies right ahead, and is drawn next
          rw [← faces, ← faces, faces_map_rolled] at hsource
          rw [hsource, Replay.draw_eq hlength hfaces] at hafter hentered
          rw [ih hafter hnext, hentered, List.append_assoc]

/-- **All entries that granted terms may have** come from a source that plays them back. -/
lemma evaluate_replay {caps : Caps} {terms : List Term} (hgranted : Granted caps terms)
    {entries : List Entry} (h : Shown terms entries) :
    (evaluate caps terms (⟨(faces entries).toArray, 0⟩ : Replay)).1 =
      .ok ⟨exactTotal entries, entries⟩ := by
  obtain ⟨last, hrun, -⟩ := run_of_granted (⟨(faces entries).toArray, 0⟩ : Replay) hgranted
  have heval := congrArg Prod.fst (evaluate_of_ok hrun)
  have htrace : last.trace = entries := by
    have hplayed := @Replay.trace_of_run caps terms entries h [] _ _ rfl hrun
    simpa using hplayed
  have htotal := evaluate_balanced heval
  rw [heval]
  show Except.ok (Outcome.mk last.total last.trace) = _
  have hlast : last.total = exactTotal last.trace := htotal
  rw [hlast, htrace]

/-! ## The totals -/

lemma hasSides_of_granted {caps : Caps} {terms : List Term} (h : Granted caps terms) :
    ∀ t ∈ terms, t.HasSides := by
  intro t ht
  obtain ⟨front, back, hsplit⟩ := List.append_of_mem ht
  have hnone := h front t back hsplit
  cases t with
  | constant s v => trivial
  | roll s count sides => exact (faultBehind_roll_eq_none_iff.mp hnone).2.1

/-- **Every total within the bounds** is that of granted terms for some honest source. -/
lemma exists_honest {caps : Caps} {terms : List Term} (hgranted : Granted caps terms) {n : Int}
    (hlo : least terms ≤ n) (hhi : n ≤ greatest terms) :
    ∃ (σ : Type) (_ : RollSource σ) (_ : RollSource.Honest σ) (source : σ) (o : Outcome),
      (evaluate caps terms source).1 = .ok o ∧ exactTotal o.trace = n := by
  obtain ⟨entries, hshown, htotal⟩ := exists_shown (hasSides_of_granted hgranted) n hlo hhi
  exact ⟨Replay, inferInstance, Replay.honest, _, _, evaluate_replay hgranted hshown, htotal⟩

/-- **The totals from honest sources.**  If terms are rolled from any source, they are rolled from
every honest one, with an entry for each constant and for each cabbage that shows one of its faces,
and to a total within the bounds as long as a register of 128 bits has room for it.  For terms that
make no more than `2 ^ 63` entries it always has, and then the totals that they come to from honest
sources are all the whole numbers within the bounds, and no others. -/
theorem honest_totals {σ₀ : Type} [RollSource σ₀] {caps : Caps} {terms : List Term} {source₀ : σ₀}
    {o₀ : Outcome} (h : (evaluate caps terms source₀).1 = .ok o₀) :
    (∀ (σ : Type) [RollSource σ], RollSource.Honest σ → ∀ source : σ,
      ∃ o, (evaluate caps terms source).1 = .ok o ∧ FairlyRolled terms o) ∧
    (terms.countP Term.isConstant + cabbages terms ≤ 2 ^ 63 →
      ∀ n : Int, least terms ≤ n ∧ n ≤ greatest terms ↔
        ∃ (σ : Type) (_ : RollSource σ) (_ : RollSource.Honest σ) (source : σ) (o : Outcome),
          (evaluate caps terms source).1 = .ok o ∧ o.total = n ∧
            registerTotal? o.trace = some n) := by
  have hgranted := granted_of_ok h
  refine ⟨?_, ?_⟩
  · intro σ _ hσ source
    obtain ⟨⟨o, ho⟩, -⟩ := evaluate_of_granted source hgranted
    exact ⟨o, ho, fairlyRolled_of_ok hσ ho⟩
  · intro hroom n
    constructor
    · rintro ⟨hlo, hhi⟩
      obtain ⟨σ, _, hσ, source, o, ho, htotal⟩ := exists_honest hgranted hlo hhi
      have hfair := fairlyRolled_of_ok hσ ho
      have hlength : o.trace.length ≤ 2 ^ 63 := hfair.length_eq.trans_le hroom
      have hregister := registerTotal?_eq_some hlength
      rw [htotal] at hregister
      exact ⟨σ, _, hσ, source, o, ho, (hfair.bounds n hregister).1, hregister⟩
    · rintro ⟨σ, _, hσ, source, o, ho, -, hregister⟩
      exact ((fairlyRolled_of_ok hσ ho).bounds n hregister).2

/-- Two cabbages below a constant come to as little as their greatest faces leave of it. -/
theorem honest_totals_minus_nine :
    (evaluate {} [.roll .minus 2 6, .constant .plus 3] (⟨1⟩ : Fixed)).1 =
        .ok ⟨1, [.rolled .minus 1, .rolled .minus 1, .constant .plus 3]⟩ ∧
      ∃ (σ : Type) (_ : RollSource σ) (_ : RollSource.Honest σ) (source : σ) (o : Outcome),
        (evaluate {} [.roll .minus 2 6, .constant .plus 3] source).1 = .ok o ∧ o.total = -9 ∧
          registerTotal? o.trace = some (-9) := by
  have hrolled : (evaluate {} [.roll .minus 2 6, .constant .plus 3] (⟨1⟩ : Fixed)).1 =
      .ok ⟨1, [.rolled .minus 1, .rolled .minus 1, .constant .plus 3]⟩ := by decide
  exact ⟨hrolled, ((honest_totals hrolled).2 (by decide) (-9)).mp (by decide)⟩

/-- **With more entries the bounds may be out of reach.**  If the caps allow it, as many cabbages
as a word can count are rolled, each with as many sides.  Then `2 ^ 127` lies within the bounds,
but no register ends up with it, whatever the source; and from some honest source the register
runs out of room. -/
theorem two_pow_127_out_of_reach :
    (evaluate { rolls := Word.top, sides := Word.top } [.roll .plus Word.top Word.top]
        (⟨[[1]]⟩ : Script)).1 = .ok ⟨1, [.rolled .plus 1]⟩ ∧
      (least [.roll .plus Word.top Word.top] ≤ 2 ^ 127 ∧
        2 ^ 127 ≤ greatest [.roll .plus Word.top Word.top]) ∧
      (¬ ∃ (σ : Type) (_ : RollSource σ) (_ : RollSource.Honest σ) (source : σ) (o : Outcome),
        (evaluate { rolls := Word.top, sides := Word.top } [.roll .plus Word.top Word.top]
            source).1 = .ok o ∧ registerTotal? o.trace = some (2 ^ 127)) ∧
      ∃ (σ : Type) (_ : RollSource σ) (_ : RollSource.Honest σ) (source : σ) (o : Outcome),
        (evaluate { rolls := Word.top, sides := Word.top } [.roll .plus Word.top Word.top]
            source).1 = .ok o ∧ registerTotal? o.trace = none := by
  have hrolled : (evaluate { rolls := Word.top, sides := Word.top }
      [.roll .plus Word.top Word.top] (⟨[[1]]⟩ : Script)).1 = .ok ⟨1, [.rolled .plus 1]⟩ := by
    decide
  have hlo : least [.roll .plus Word.top Word.top] ≤ 2 ^ 127 := by decide
  have hhi : 2 ^ 127 ≤ greatest [.roll .plus Word.top Word.top] := by decide
  refine ⟨hrolled, ⟨hlo, hhi⟩, ?_, ?_⟩
  · rintro ⟨σ, _, hσ, source, o, -, hregister⟩
    obtain ⟨-, -, hroom⟩ := exactTotal_of_registerTotal? hregister
    exact absurd hroom (Int.lt_irrefl _)
  · obtain ⟨σ, _, hσ, source, o, ho, htotal⟩ := exists_honest (granted_of_ok hrolled) hlo hhi
    exact ⟨σ, _, hσ, source, o, ho, registerTotal?_eq_none_of_le htotal.ge⟩

end CabbageFormula
