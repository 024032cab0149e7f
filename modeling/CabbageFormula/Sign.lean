/-!
# Signs

Every term of a formula carries a sign, written out or understood.

* `Sign.char`, `Sign.text` — how a sign is written.
* `Sign.ofChar?` — the sign that a character writes, if it writes one.
* `Sign.signed` — the signed value of a word, exact for every word.
-/

namespace CabbageFormula

/-- **The sign of a term.** -/
inductive Sign where
  | plus
  | minus
deriving DecidableEq

namespace Sign

/-- The character that writes a sign. -/
def char : Sign → Char
  | plus => '+'
  | minus => '-'

/-- A sign as text. -/
def text (s : Sign) : String := String.singleton s.char

@[simp] theorem toList_text (s : Sign) : s.text.toList = [s.char] := String.toList_singleton s.char

/-- The sign that a character writes, if it writes one. -/
def ofChar? (c : Char) : Option Sign :=
  if c = '+' then some plus else if c = '-' then some minus else none

@[simp] theorem ofChar?_char : ∀ s : Sign, ofChar? s.char = some s
  | plus => rfl
  | minus => rfl

theorem ofChar?_eq_some_iff {c : Char} {s : Sign} : ofChar? c = some s ↔ c = s.char := by
  constructor
  · intro h
    simp only [ofChar?] at h
    split at h
    case isTrue hc => cases h; exact hc
    case isFalse =>
      split at h
      case isTrue hc => cases h; exact hc
      case isFalse => cases h
  · rintro rfl
    exact ofChar?_char s

/-- **The signed value of a word.**  An integer, so it is exact for every word. -/
def signed (s : Sign) (value : UInt64) : Int :=
  match s with
  | plus => value.toNat
  | minus => -value.toNat

@[simp] theorem signed_plus (value : UInt64) : plus.signed value = value.toNat := rfl

@[simp] theorem signed_minus (value : UInt64) : minus.signed value = -value.toNat := rfl

end Sign

end CabbageFormula
