import CabbageFormula.Caps.Config
import Mathlib.Algebra.Order.Ring.Int
import Mathlib.Data.List.Nodup
import Mathlib.Data.List.Perm.Basic
import Mathlib.Tactic.Lemma

/-!
# What a value configures

The caps that a value of a data format stands for, without the look-ups that find them: for each cap
there is a name and a default, and a value has to give words for the names that it gives, by
members of an object or by the items of an array.

* `CapKind`, `Caps.get` — the four caps in their order, each with its name and its default.
* `Settles`, `Configures` — **which caps members and values configure**.
* `ofMembers?_eq_some_iff`, `exists_ofMembers?_iff` — members are read like that, or not at all.
* `ofMembers?_congr` — only the members with the name of a cap matter, in whatever order.
* `configuration_laws` — for objects and arrays.
-/

namespace CabbageFormula

/-! ## The caps -/

/-- **The four caps**, in their order. -/
inductive CapKind where
  | length
  | terms
  | rolls
  | sides
deriving DecidableEq

namespace CapKind

def all : List CapKind := [length, terms, rolls, sides]

/-- The name of a cap in a configuration. -/
def name : CapKind → String
  | length => "max_formula_len"
  | terms => "max_terms"
  | rolls => "max_rolls"
  | sides => "max_sides"

/-- **What a cap is if it is not given.** -/
def default : CapKind → UInt64
  | length => 1000
  | terms => 5
  | rolls => 100
  | sides => 1000000000

/-- The names of the caps, in their order. -/
def names : List String := all.map name

end CapKind

/-- One of the caps. -/
def Caps.get (c : Caps) : CapKind → UInt64
  | .length => c.length
  | .terms => c.terms
  | .rolls => c.rolls
  | .sides => c.sides

/-! ## What is configured -/

/-- **A value holds a word** if it is a whole number from zero to `2 ^ 64 - 1`. -/
def Value.IsWord (v : Value) : Prop := ∃ n : Int, v = .integer n ∧ 0 ≤ n ∧ n < 2 ^ 64

/-- No two members have the same name. -/
def DistinctNames (members : List (String × Value)) : Prop := (members.map Prod.fst).Nodup

/-- **Members settle caps**: each cap is the word that is given under its name, or its default if
nothing is. -/
def Settles (members : List (String × Value)) (c : Caps) : Prop :=
  ∀ k : CapKind, (∀ v, (k.name, v) ∈ members → v = .ofWord (c.get k)) ∧
    ((∀ v, (k.name, v) ∉ members) → c.get k = k.default)

/-- **What a value configures.**  An object does it by its members, and an array of at most four
items by taking these for the first caps in order. -/
inductive Configures : Value → Caps → Prop where
  | object {members : List (String × Value)} {c : Caps} (h : Settles members c) :
      Configures (.object members) c
  | array {items : List Value} {c : Caps} (few : items.length ≤ 4)
      (h : Settles (CapKind.names.zip items) c) : Configures (.array items) c

/-- **A value that configures anything at all**: an object that has words for all the caps that it
gives, or an array of at most four words. -/
inductive IsConfiguration : Value → Prop where
  | object {members : List (String × Value)}
      (h : ∀ (k : CapKind) (v : Value), (k.name, v) ∈ members → v.IsWord) :
      IsConfiguration (.object members)
  | array {items : List Value} (few : items.length ≤ 4) (h : ∀ v ∈ items, v.IsWord) :
      IsConfiguration (.array items)

variable {members members' : List (String × Value)} {c : Caps}

lemma Value.isWord_iff {v : Value} : v.IsWord ↔ ∃ n, v = .ofWord n := by
  constructor
  · rintro ⟨n, rfl, hpos, hlt⟩
    have hsize : n.toNat < UInt64.size := by
      have hsize : UInt64.size = 2 ^ 64 := rfl
      omega
    refine ⟨UInt64.ofNat n.toNat, ?_⟩
    rw [Value.ofWord, UInt64.toNat_ofNat_of_lt' hsize, Int.toNat_of_nonneg hpos]
  · rintro ⟨n, rfl⟩
    have hlt := n.toNat_lt
    exact ⟨n.toNat, rfl, Int.natCast_nonneg _, by omega⟩

/-! ## Members -/

lemma lookup_eq_some_iff_mem (hdistinct : DistinctNames members) {name : String} {v : Value} :
    members.lookup name = some v ↔ (name, v) ∈ members := by
  rw [List.lookup_eq_some_iff]
  constructor
  · rintro ⟨front, back, rfl, -⟩
    simp
  · intro hmem
    obtain ⟨front, back, rfl⟩ := List.append_of_mem hmem
    refine ⟨front, back, rfl, ?_⟩
    -- another member of that name in front would be the second
    intro p hp
    rw [DistinctNames, List.map_append, List.map_cons, List.nodup_append] at hdistinct
    have hne := hdistinct.2.2 p.1 (List.mem_map_of_mem hp) name (by simp)
    simpa using hne.symm

lemma lookup_eq_none_iff_notMem {name : String} :
    members.lookup name = none ↔ ∀ v, (name, v) ∉ members := by
  rw [List.lookup_eq_none_iff]
  constructor
  · intro h v hmem
    simpa using h _ hmem
  · rintro h ⟨other, v⟩ hmem
    rw [bne_iff_ne]
    rintro rfl
    exact h v hmem

/-- **A cap among members** is what is given under its name, or its default. -/
lemma cap?_eq_some_iff (hdistinct : DistinctNames members) {name : String} {default n : UInt64} :
    Caps.cap? members name default = some n ↔
      (∀ v, (name, v) ∈ members → v = .ofWord n) ∧
        ((∀ v, (name, v) ∉ members) → n = default) := by
  rw [Caps.cap?]
  split
  case h_1 hnone =>
    rw [lookup_eq_none_iff_notMem] at hnone
    rw [Option.some.injEq, eq_comm]
    constructor
    · intro h
      exact ⟨fun v hv => absurd hv (hnone v), fun _ => h⟩
    · intro h
      exact h.2 hnone
  case h_2 v hsome =>
    rw [lookup_eq_some_iff_mem hdistinct] at hsome
    rw [Value.word?_eq_some_iff]
    constructor
    · rintro rfl
      refine ⟨fun w hw => ?_, fun hno => absurd hsome (hno _)⟩
      rw [← lookup_eq_some_iff_mem hdistinct] at hw hsome
      exact Option.some.inj (hw.symm.trans hsome)
    · intro h
      exact h.1 v hsome

lemma ofMembers?_eq_some_iff_cap? :
    Caps.ofMembers? members = some c ↔
      ∀ k : CapKind, Caps.cap? members k.name k.default = some (c.get k) := by
  constructor
  · intro h
    rw [Caps.ofMembers?] at h
    split at h
    case h_1 length terms rolls sides hlength hterms hrolls hsides =>
      obtain rfl := Option.some.inj h
      intro k
      cases k with
      | length => exact hlength
      | terms => exact hterms
      | rolls => exact hrolls
      | sides => exact hsides
    case h_2 => cases h
  · intro h
    have hlength : Caps.cap? members "max_formula_len" ({} : Caps).length = some c.length :=
      h .length
    have hterms : Caps.cap? members "max_terms" ({} : Caps).terms = some c.terms := h .terms
    have hrolls : Caps.cap? members "max_rolls" ({} : Caps).rolls = some c.rolls := h .rolls
    have hsides : Caps.cap? members "max_sides" ({} : Caps).sides = some c.sides := h .sides
    simp only [Caps.ofMembers?, hlength, hterms, hrolls, hsides]

/-- **Members are read as the caps that they settle.** -/
theorem ofMembers?_eq_some_iff (hdistinct : DistinctNames members) :
    Caps.ofMembers? members = some c ↔ Settles members c := by
  rw [ofMembers?_eq_some_iff_cap?, Settles]
  exact forall_congr' fun k => cap?_eq_some_iff hdistinct

/-- **Members are read** exactly if each that has the name of a cap is a word. -/
theorem exists_ofMembers?_iff (hdistinct : DistinctNames members) :
    (∃ c, Caps.ofMembers? members = some c) ↔
      ∀ (k : CapKind) (v : Value), (k.name, v) ∈ members → v.IsWord := by
  constructor
  · rintro ⟨c, hc⟩ k v hv
    rw [ofMembers?_eq_some_iff hdistinct] at hc
    exact Value.isWord_iff.mpr ⟨_, (hc k).1 v hv⟩
  · intro h
    have hcap : ∀ k : CapKind, ∃ n, Caps.cap? members k.name k.default = some n := by
      intro k
      rw [Caps.cap?]
      split
      case h_1 => exact ⟨_, rfl⟩
      case h_2 v hsome =>
        rw [lookup_eq_some_iff_mem hdistinct] at hsome
        obtain ⟨n, rfl⟩ := Value.isWord_iff.mp (h k v hsome)
        exact ⟨n, Value.word?_ofWord n⟩
    choose cap hread using hcap
    refine ⟨⟨cap .length, cap .terms, cap .rolls, cap .sides⟩, ?_⟩
    rw [ofMembers?_eq_some_iff_cap?]
    intro k
    rw [hread k]
    cases k <;> rfl

/-- **Only members with the name of a cap matter**, and their order does not. -/
theorem ofMembers?_congr (hdistinct : DistinctNames members) (hdistinct' : DistinctNames members')
    (hsame : ∀ (k : CapKind) (v : Value), (k.name, v) ∈ members ↔ (k.name, v) ∈ members') :
    Caps.ofMembers? members = Caps.ofMembers? members' := by
  apply Option.ext
  intro c
  rw [ofMembers?_eq_some_iff hdistinct, ofMembers?_eq_some_iff hdistinct']
  simp only [Settles, hsame]

/-! ## Arrays -/

lemma map_fst_zip_sublist (names : List String) (items : List Value) :
    ((names.zip items).map Prod.fst).Sublist names := by
  induction names generalizing items with
  | nil => exact List.Sublist.refl []
  | cons name names ih =>
      cases items with
      | nil => exact List.nil_sublist _
      | cons v items => exact (ih items).cons_cons name

lemma distinctNames_zip (items : List Value) : DistinctNames (CapKind.names.zip items) := by
  have hnames : CapKind.names.Nodup := by decide
  exact hnames.sublist (map_fst_zip_sublist _ items)

/-- The items of an array that is not too long are what is given under the names. -/
lemma exists_mem_zip_iff {items : List Value} (few : items.length ≤ 4) {v : Value} :
    (∃ k : CapKind, (k.name, v) ∈ CapKind.names.zip items) ↔ v ∈ items := by
  have hall : (CapKind.names.zip items).map Prod.snd = items := List.map_snd_zip few
  constructor
  · rintro ⟨k, hk⟩
    exact (List.of_mem_zip hk).2
  · intro hv
    rw [← hall] at hv
    obtain ⟨⟨name, _⟩, hp, rfl⟩ := List.mem_map.mp hv
    obtain ⟨k, -, rfl⟩ := List.mem_map.mp (List.of_mem_zip hp).1
    exact ⟨k, hp⟩

/-- **An array is read as the object** that gives its items the names of the first caps. -/
lemma ofValue?_array {items : List Value} (few : items.length ≤ 4) :
    Caps.ofValue? (.array items) = Caps.ofValue? (.object (CapKind.names.zip items)) := by
  have hread : Caps.ofValue? (.array items) = Caps.ofMembers? (CapKind.names.zip items) :=
    if_pos few
  exact hread

lemma ofValue?_long_array {items : List Value} (many : 4 < items.length) :
    Caps.ofValue? (.array items) = none := by
  have hmany : ¬ items.length ≤ Caps.names.length := Nat.not_le.mpr many
  exact if_neg hmany

/-! ## Values -/

/-- The members of a value, if it is an object, all have different names. -/
def Value.DistinctMembers (v : Value) : Prop :=
  ∀ members, v = .object members → DistinctNames members

/-- **A value is read as the caps that it configures.** -/
theorem ofValue?_eq_some_iff {v : Value} (hdistinct : v.DistinctMembers) :
    Caps.ofValue? v = some c ↔ Configures v c := by
  constructor
  · intro h
    cases v with
    | object members =>
        exact .object ((ofMembers?_eq_some_iff (hdistinct members rfl)).mp h)
    | array items =>
        by_cases few : items.length ≤ 4
        · rw [ofValue?_array few] at h
          exact .array few ((ofMembers?_eq_some_iff (distinctNames_zip items)).mp h)
        · rw [ofValue?_long_array (Nat.lt_of_not_le few)] at h
          cases h
    | _ => cases h
  · intro h
    cases h with
    | object h => exact (ofMembers?_eq_some_iff (hdistinct _ rfl)).mpr h
    | array few h =>
        rw [ofValue?_array few]
        exact (ofMembers?_eq_some_iff (distinctNames_zip _)).mpr h

/-- **Which values are read at all.** -/
theorem exists_ofValue?_iff {v : Value} (hdistinct : v.DistinctMembers) :
    (∃ c, Caps.ofValue? v = some c) ↔ IsConfiguration v := by
  have harray : ∀ {items : List Value}, items.length ≤ 4 →
      ((∃ c, Caps.ofValue? (.array items) = some c) ↔ ∀ v ∈ items, v.IsWord) := by
    intro items few
    rw [ofValue?_array few]
    refine (exists_ofMembers?_iff (distinctNames_zip items)).trans ?_
    simp only [← exists_mem_zip_iff few, forall_exists_index]
    exact forall_comm
  constructor
  · rintro ⟨c, hc⟩
    cases v with
    | object members =>
        exact .object ((exists_ofMembers?_iff (hdistinct members rfl)).mp ⟨c, hc⟩)
    | array items =>
        by_cases few : items.length ≤ 4
        · exact .array few ((harray few).mp ⟨c, hc⟩)
        · rw [ofValue?_long_array (Nat.lt_of_not_le few)] at hc
          cases hc
    | _ => cases hc
  · intro h
    cases h with
    | object h => exact (exists_ofMembers?_iff (hdistinct _ rfl)).mpr h
    | array few h => exact (harray few).mpr h

/-- **One value that is no word is enough** for members not to be read. -/
lemma ofValue?_object_of_mem (hdistinct : DistinctNames members) {k : CapKind} {v : Value}
    (hv : (k.name, v) ∈ members) (hword : ¬ v.IsWord) :
    Caps.ofValue? (.object members) = none := by
  rw [Option.eq_none_iff_forall_ne_some]
  intro c hc
  exact hword ((exists_ofMembers?_iff hdistinct).mp ⟨c, hc⟩ k v hv)

lemma ofValue?_array_of_mem {items : List Value} {v : Value} (hv : v ∈ items)
    (hword : ¬ v.IsWord) : Caps.ofValue? (.array items) = none := by
  by_cases few : items.length ≤ 4
  · obtain ⟨k, hk⟩ := (exists_mem_zip_iff few).mpr hv
    rw [ofValue?_array few]
    exact ofValue?_object_of_mem (distinctNames_zip items) hk hword
  · exact ofValue?_long_array (Nat.lt_of_not_le few)

/-- **Members of other names may be put in**, anywhere, and members may change places. -/
lemma ofValue?_object_of_perm {extra : List (String × Value)} (hdistinct : DistinctNames members')
    (hextra : ∀ m ∈ extra, ∀ k : CapKind, m.1 ≠ k.name) (hperm : members'.Perm (members ++ extra)) :
    Caps.ofValue? (.object members') = Caps.ofValue? (.object members) := by
  have hall : DistinctNames (members ++ extra) := (hperm.map Prod.fst).nodup_iff.mp hdistinct
  have hfront : DistinctNames members := by
    rw [DistinctNames, List.map_append] at hall
    exact hall.of_append_left
  refine ofMembers?_congr hdistinct hfront fun k v => ?_
  rw [hperm.mem_iff, List.mem_append]
  exact or_iff_left fun hv => hextra _ hv k rfl

/-- Caps that are written out as an object, in their order. -/
lemma toValue_eq (c : Caps) :
    c.toValue = .object (CapKind.all.map fun k => (k.name, .ofWord (c.get k))) := rfl

/-- **Caps as configuration.**  A value whose members have different names is read as caps exactly
if it is an object that has words for all the caps that it gives, or an array of at most four words;
each cap is then what is given for it, or its default, and one value that is no word is enough for
nothing to be read.  Caps that are written out as an object are read as themselves, an array is read
as the object that gives its items the names in order, and neither members of other names nor the
order of members make a difference. -/
theorem configuration_laws :
    (∀ v : Value, v.DistinctMembers →
      ((∃ c, Caps.ofValue? v = some c) ↔ IsConfiguration v) ∧
      ∀ c, Caps.ofValue? v = some c ↔ Configures v c) ∧
    (∀ members, DistinctNames members → ∀ (k : CapKind) (v : Value), (k.name, v) ∈ members →
      ¬ v.IsWord → Caps.ofValue? (.object members) = none) ∧
    (∀ items, ∀ v ∈ items, ¬ v.IsWord → Caps.ofValue? (.array items) = none) ∧
    (∀ c : Caps, c.toValue = .object (CapKind.all.map fun k => (k.name, .ofWord (c.get k))) ∧
      Caps.ofValue? c.toValue = some c) ∧
    (∀ items : List Value, items.length ≤ 4 →
      Caps.ofValue? (.array items) = Caps.ofValue? (.object (CapKind.names.zip items))) ∧
    (∀ members extra members' : List (String × Value), DistinctNames members' →
      (∀ m ∈ extra, ∀ k : CapKind, m.1 ≠ k.name) → members'.Perm (members ++ extra) →
        Caps.ofValue? (.object members') = Caps.ofValue? (.object members)) := by
  refine ⟨?_, ?_, ?_, fun c => ⟨toValue_eq c, Caps.ofValue?_toValue c⟩, ?_, ?_⟩
  · intro v hdistinct
    exact ⟨exists_ofValue?_iff hdistinct, fun c => ofValue?_eq_some_iff hdistinct⟩
  · intro members hdistinct k v hv hword
    exact ofValue?_object_of_mem hdistinct hv hword
  · intro items v hv hword
    exact ofValue?_array_of_mem hv hword
  · intro items few
    exact ofValue?_array few
  · intro members extra members' hdistinct hextra hperm
    exact ofValue?_object_of_perm hdistinct hextra hperm

/-- A member of another name in front of the only cap that is given, an array of two caps, and a cap
that is below zero beside one that is not. -/
theorem configuration_laws_one_cap :
    Caps.ofValue? (.object [("note", .text "x"), ("max_rolls", .integer 7)]) =
        some { rolls := 7 } ∧
      Caps.ofValue? (.array [.integer 250, .integer 3]) =
        Caps.ofValue? (.object [("max_formula_len", .integer 250), ("max_terms", .integer 3)]) ∧
      Caps.ofValue? (.object [("max_terms", .integer 3), ("max_sides", .integer (-1))]) = none ∧
      Caps.ofValue? (.array [.integer 3, .null]) = none := by
  obtain ⟨hread, hmember, hitem, -, harray, hperm⟩ := configuration_laws
  have hnegative : ¬ (Value.integer (-1)).IsWord := by
    rintro ⟨n, ⟨⟩, hpos, -⟩
    exact absurd hpos (by decide)
  have hnull : ¬ Value.null.IsWord := by
    rintro ⟨n, ⟨⟩, -⟩
  have hextra : ∀ m ∈ [("note", Value.text "x")], ∀ k : CapKind, m.1 ≠ k.name := by
    intro m hm k
    obtain rfl := List.mem_singleton.mp hm
    cases k <;> decide
  have hsettles : Settles [("max_rolls", .integer 7)] { rolls := 7 } := by
    intro k
    cases k <;> simp [CapKind.name, CapKind.default, Caps.get, Value.ofWord]
  have hplain : (Value.object [("max_rolls", .integer 7)]).DistinctMembers := by
    rintro _ ⟨⟩
    simp [DistinctNames]
  refine ⟨?_, harray [.integer 250, .integer 3] (by decide),
    hmember _ (by simp [DistinctNames]) .sides _ (by simp [CapKind.name]) hnegative,
    hitem _ .null (by simp) hnull⟩
  rw [hperm [("max_rolls", .integer 7)] [("note", .text "x")] _ (by simp [DistinctNames]) hextra
    (List.Perm.swap _ _ _)]
  exact ((hread _ hplain).2 _).mpr (.object hsettles)

end CabbageFormula
