import CabbageFormula.Numeral
import CabbageFormula.Place
import CabbageFormula.Sign

/-!
# Tokens

A text is cut into pieces, everywhere but between two digits: a run of digits stays whole and
every other character stands alone.  A piece is classified as a token, and a token together with
its place in the text is a lexeme.

* `Token` — a number, the cabbage mark, a sign, or a stray character.
* `pieces` — the cut.
* `Token.ofPiece` — the classification.
* `Lexeme.scan` — the lexemes of a text, in order and with their places.
-/

namespace CabbageFormula

/-! ## Tokens -/

/-- **What a piece of a formula is.** -/
inductive Token where
  /-- A run of digits, with the word it writes, or `none` if that is too wide. -/
  | number (value : Option UInt64)
  /-- The mark between a count and a number of sides. -/
  | cabbage
  /-- A sign. -/
  | sign (s : Sign)
  /-- Any other character; no formula has one. -/
  | stray
deriving DecidableEq

namespace Token

/-- A token as a reader sees it. -/
def text : Token → String
  | number _ => "<integer>"
  | cabbage => "'c'"
  | sign s => "'" ++ s.text ++ "'"
  | stray => "<error>"

/-- The sign that a token writes, if it writes one. -/
def sign? : Token → Option Sign
  | sign s => some s
  | _ => none

/-- A token as the journal has it. -/
def detail : Token → String
  | number (some n) => "Integer(Some(" ++ toString n ++ "))"
  | number none => "Integer(None)"
  | cabbage => "Roll"
  | sign .plus => "Plus"
  | sign .minus => "Minus"
  | stray => "Error"

/-- **The token of a piece**, told by its first character. -/
def ofPiece : List Char → Token
  | [] => stray
  | c :: cs =>
    if c.isDigit then number (Numeral.word? (c :: cs))
    else if c = 'c' then cabbage
    else match Sign.ofChar? c with
      | some s => sign s
      | none => stray

@[simp] theorem ofPiece_cabbage : ofPiece ['c'] = cabbage := rfl

@[simp] theorem ofPiece_sign : ∀ s : Sign, ofPiece [s.char] = sign s
  | .plus => rfl
  | .minus => rfl

theorem ofPiece_of_isDigit {c : Char} (h : c.isDigit = true) (cs : List Char) :
    ofPiece (c :: cs) = number (Numeral.word? (c :: cs)) := by
  rw [ofPiece, if_pos h]

end Token

/-! ## Lexemes -/

/-- **The pieces of a text**: it is cut everywhere but between two digits. -/
def pieces (cs : List Char) : List (List Char) :=
  cs.splitBy fun a b => a.isDigit && b.isDigit

/-- **A token and the place it was read at.** -/
structure Lexeme where
  token : Token
  place : Place
deriving DecidableEq

namespace Lexeme

/-- The lexeme of a piece that starts at a byte. -/
def ofPiece (start : Nat) (piece : List Char) : Lexeme :=
  ⟨Token.ofPiece piece, ⟨start, String.ofList piece⟩⟩

@[simp] theorem token_ofPiece (start : Nat) (piece : List Char) :
    (ofPiece start piece).token = Token.ofPiece piece := rfl

@[simp] theorem place_ofPiece (start : Nat) (piece : List Char) :
    (ofPiece start piece).place = ⟨start, String.ofList piece⟩ := rfl

/-- The lexemes of pieces that follow one another from a byte on. -/
def locate (start : Nat) : List (List Char) → List Lexeme
  | [] => []
  | piece :: rest => ofPiece start piece :: locate (ofPiece start piece).place.stop rest

@[simp] theorem locate_nil (start : Nat) : locate start [] = [] := rfl

@[simp] theorem locate_cons (start : Nat) (piece : List Char) (rest : List (List Char)) :
    locate start (piece :: rest) =
      ofPiece start piece :: locate (ofPiece start piece).place.stop rest := rfl

/-- Locating pieces keeps their order and forgets none. -/
theorem map_token_locate (start : Nat) (ps : List (List Char)) :
    (locate start ps).map (·.token) = ps.map Token.ofPiece := by
  induction ps generalizing start with
  | nil => rfl
  | cons piece rest ih => simp [ih]

/-- **The lexemes of a text**, in order. -/
def scan (s : String) : List Lexeme := locate 0 (pieces s.toList)

end Lexeme

end CabbageFormula
