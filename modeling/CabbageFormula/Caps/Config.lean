import CabbageFormula.Caps
import CabbageFormula.Word

/-!
# Caps as configuration

Caps are configured by a value of the usual data formats: an object with a member for each cap,
or an array of the caps in their order.  Caps that are not given keep their defaults, and members
of other names are passed over; but a cap that is given must be a word, or nothing is accepted.

* `Value` — values of a data format.
* `Caps.ofValue?` — the caps that a value configures.
* `Caps.toValue`, `Caps.text` — caps as an object, and as its text.
* `Caps.ofValue?_toValue` — caps that are written out configure themselves.
-/

namespace CabbageFormula

/-! ## Values -/

/-- **Values of a data format.**  Whole numbers are those written without point and exponent. -/
inductive Value where
  | null
  | bool (b : Bool)
  | integer (n : Int)
  /-- Any other number, as it was written. -/
  | decimal (written : String)
  | text (s : String)
  | array (items : List Value)
  | object (members : List (String × Value))

namespace Value

/-- The value that holds a word. -/
def ofWord (n : UInt64) : Value := .integer n.toNat

/-- **The word that a value holds**, if it is a whole number of the right size. -/
def word? : Value → Option UInt64
  | .integer n => if 0 ≤ n ∧ n.toNat < UInt64.size then some (UInt64.ofNat n.toNat) else none
  | _ => none

@[simp] theorem word?_ofWord (n : UInt64) : (ofWord n).word? = some n := by
  rw [ofWord, word?, if_pos ⟨Int.natCast_nonneg _, n.toNat_lt⟩, Int.toNat_natCast, UInt64.ofNat_toNat]

theorem word?_eq_some_iff {v : Value} {n : UInt64} : v.word? = some n ↔ v = ofWord n := by
  constructor
  · intro h
    unfold word? at h
    split at h
    case h_1 k =>
      split at h
      case isTrue range =>
        have e := Option.some.inj h
        rw [← e, ofWord, UInt64.toNat_ofNat_of_lt' range.2, Int.toNat_of_nonneg range.1]
      case isFalse => cases h
    case h_2 => cases h
  · rintro rfl
    exact word?_ofWord n

end Value

/-! ## Reading caps -/

namespace Caps

/-- The names of the caps, in their order. -/
def names : List String := ["max_formula_len", "max_terms", "max_rolls", "max_sides"]

/-- **One cap among members**: its default if it is not given, and nothing if what is given is not
a word. -/
def cap? (members : List (String × Value)) (name : String) (default : UInt64) : Option UInt64 :=
  match members.lookup name with
  | none => some default
  | some v => v.word?

/-- The caps that members configure. -/
def ofMembers? (members : List (String × Value)) : Option Caps :=
  match cap? members "max_formula_len" ({} : Caps).length,
    cap? members "max_terms" ({} : Caps).terms,
    cap? members "max_rolls" ({} : Caps).rolls,
    cap? members "max_sides" ({} : Caps).sides with
  | some length, some terms, some rolls, some sides =>
    some { length, terms, rolls, sides }
  | _, _, _, _ => none

/-- **The caps that a value configures**, if it is an object or an array of caps.  An array
gives its items the names in order, and must not have more items than there are names. -/
def ofValue? : Value → Option Caps
  | .object members => ofMembers? members
  | .array items => if items.length ≤ names.length then ofMembers? (names.zip items) else none
  | _ => none

/-! ## Writing caps -/

/-- The caps with their names, in order. -/
def members (c : Caps) : List (String × UInt64) :=
  names.zip [c.length, c.terms, c.rolls, c.sides]

/-- **Caps as an object.** -/
def toValue (c : Caps) : Value :=
  .object (c.members.map fun m => (m.1, .ofWord m.2))

/-- **Caps as the text of that object**, without blanks. -/
def text (c : Caps) : String :=
  "\x7b" ++ ",".intercalate (c.members.map fun m => "\"" ++ m.1 ++ "\":" ++ toString m.2)
    ++ "\x7d"

theorem cap?_of_lookup {members : List (String × Value)} {name : String} {cap : UInt64}
    (h : members.lookup name = some (.ofWord cap)) (default : UInt64) :
    cap? members name default = some cap := by
  rw [cap?, h]
  exact Value.word?_ofWord cap

theorem ofMembers?_of_lookup {members : List (String × Value)} {c : Caps}
    (length : members.lookup "max_formula_len" = some (.ofWord c.length))
    (terms : members.lookup "max_terms" = some (.ofWord c.terms))
    (rolls : members.lookup "max_rolls" = some (.ofWord c.rolls))
    (sides : members.lookup "max_sides" = some (.ofWord c.sides)) :
    ofMembers? members = some c := by
  simp only [ofMembers?, cap?_of_lookup length, cap?_of_lookup terms, cap?_of_lookup rolls,
    cap?_of_lookup sides]

/-- **Caps that are written out configure themselves.** -/
theorem ofValue?_toValue (c : Caps) : ofValue? c.toValue = some c := by
  rw [toValue, ofValue?]
  refine ofMembers?_of_lookup ?_ ?_ ?_ ?_ <;> simp [members, names, List.lookup_cons]

end Caps

end CabbageFormula
