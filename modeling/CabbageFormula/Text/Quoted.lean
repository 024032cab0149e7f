import CabbageFormula.Text.Hidden

/-!
# Quoted text

A text in double quotes, on one line and without anything that does not show.  Four controls have
a short escape, quotation mark and backslash are written after a backslash, and every other
control or hidden character is written by its code point in hexadecimal digits, in braces.

* `isControl` — the control characters: U+0000 to U+001F and U+007F to U+009F.
* `escape` — how one character is written.
* `quote` — a whole text.
-/

namespace CabbageFormula.Text

/-! ## One character -/

/-- **Control characters**: U+0000 to U+001F and U+007F to U+009F. -/
def isControl (c : Char) : Bool :=
  c.toNat < 0x20 || (0x7F ≤ c.toNat && c.toNat < 0xA0)

/-- A character by its code point: lower-case hexadecimal digits in braces, without padding. -/
def escapeCode (c : Char) : List Char :=
  '\\' :: 'u' :: '\x7b' :: (Nat.toDigits 16 c.toNat ++ ['\x7d'])

/-- **How a character is written inside quotes.** -/
def escape (c : Char) : List Char :=
  if c = '"' ∨ c = '\\' then ['\\', c]
  else if c = '\x00' then ['\\', '0']
  else if c = '\t' then ['\\', 't']
  else if c = '\n' then ['\\', 'n']
  else if c = '\r' then ['\\', 'r']
  else if isControl c || isHidden c then escapeCode c
  else [c]

/-! ## A whole text -/

/-- A text between quotation marks, every character escaped. -/
def quoteChars (cs : List Char) : List Char := '"' :: (cs.flatMap escape ++ ['"'])

/-- **A quoted text.** -/
def quote (s : String) : String := String.ofList (quoteChars s.toList)

@[simp] theorem toList_quote (s : String) : (quote s).toList = quoteChars s.toList :=
  String.toList_ofList

end CabbageFormula.Text
