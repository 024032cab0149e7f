import CabbageFormula.Rejection
import CabbageFormula.Term

/-!
# Reading terms

A formula is read from left to right, one lexeme at a time.  What may come next, and what is
already known of the term in progress, are one value: `Awaiting`.  A constant is complete only
when the sign after it has been seen, since a cabbage mark would make it a count; so a closing
sign is understood at the end, and an opening one if the text does not begin with a minus.

* `Reading` — the terms completed so far, and what is awaited.
* `Reading.step`, `Reading.feed` — one lexeme, and a list of them.
* `framed` — the lexemes of a text with the signs that are understood.
* `readTerms` — the terms of a text, or the first fault.
-/

namespace CabbageFormula

/-! ## Steps -/

/-- **What comes next**, with what is known of the term in progress. -/
inductive Awaiting where
  /-- A sign: at the start, and after a roll. -/
  | sign
  /-- A number or a cabbage mark, behind a sign. -/
  | operand (sign : Sign)
  /-- A cabbage mark or the next sign, behind a sign and a number; `none` is a number that is
  too wide to be a word. -/
  | mark (sign : Sign) (number : Option UInt64)
  /-- A number of sides, behind a sign, a count and a cabbage mark. -/
  | sides (sign : Sign) (count : Option UInt64)
deriving DecidableEq

/-- **How far reading has come.** -/
structure Reading where
  awaiting : Awaiting
  /-- The completed terms, in the order of the text. -/
  terms : List Term
deriving DecidableEq

namespace Reading

/-- Before anything has been read. -/
def start : Reading := ⟨.sign, []⟩

/-- Adds a completed term, unless the cap is reached. -/
def complete (max : Nat) (terms : List Term) (term : Term) (next : Awaiting) :
    Except ReadFault Reading :=
  if terms.length < max then .ok ⟨next, terms ++ [term]⟩ else .error (.termCap max)

/-- **Reads one lexeme.**  A count or a number of sides that is too wide becomes the greatest
word, to be judged when it is rolled; a constant that is too wide is refused here, at the sign
that completes it. -/
def step (max : Nat) (r : Reading) (l : Lexeme) : Except ReadFault Reading :=
  match r.awaiting, l.token with
  | .sign, .sign s => .ok ⟨.operand s, r.terms⟩
  | .operand s, .cabbage => .ok ⟨.sides s (some 1), r.terms⟩
  | .operand s, .number n => .ok ⟨.mark s n, r.terms⟩
  | .mark s n, .cabbage => .ok ⟨.sides s n, r.terms⟩
  | .mark s (some n), .sign next => complete max r.terms (.constant s n) (.operand next)
  | .mark _ none, .sign _ => .error (.unexpected (.number none) l.place)
  | .sides s count, .number sides =>
    complete max r.terms (.roll s (count.getD Word.top) (sides.getD Word.top)) .sign
  | _, found => .error (.unexpected found l.place)

/-- **Reads lexemes one after the other**, up to the first that is refused. -/
def feed (max : Nat) (r : Reading) : List Lexeme → Except ReadFault Reading
  | [] => .ok r
  | l :: rest =>
    match r.step max l with
    | .ok next => feed max next rest
    | .error why => .error why

@[simp] theorem feed_nil (max : Nat) (r : Reading) : r.feed max [] = .ok r := rfl

theorem feed_cons_of_ok {max : Nat} {r next : Reading} {l : Lexeme} (h : r.step max l = .ok next)
    (rest : List Lexeme) : r.feed max (l :: rest) = next.feed max rest := by
  rw [feed, h]

theorem feed_cons_of_error {max : Nat} {r : Reading} {l : Lexeme} {why : ReadFault}
    (h : r.step max l = .error why) (rest : List Lexeme) :
    r.feed max (l :: rest) = .error why := by
  rw [feed, h]

theorem feed_append_of_ok {max : Nat} {r next : Reading} {front : List Lexeme}
    (h : r.feed max front = .ok next) (back : List Lexeme) :
    r.feed max (front ++ back) = next.feed max back := by
  induction front generalizing r with
  | nil => cases h; rfl
  | cons l rest ih =>
    cases hstep : r.step max l with
    | error why => rw [feed_cons_of_error hstep] at h; cases h
    | ok mid =>
      rw [feed_cons_of_ok hstep] at h
      rw [List.cons_append, feed_cons_of_ok hstep, ih h]

/-- A fault is final. -/
theorem feed_append_of_error {max : Nat} {r : Reading} {front : List Lexeme} {why : ReadFault}
    (h : r.feed max front = .error why) (back : List Lexeme) :
    r.feed max (front ++ back) = .error why := by
  induction front generalizing r with
  | nil => cases h
  | cons l rest ih =>
    cases hstep : r.step max l with
    | error e =>
      rw [feed_cons_of_error hstep] at h
      rw [List.cons_append, feed_cons_of_error hstep, h]
    | ok mid =>
      rw [feed_cons_of_ok hstep] at h
      rw [List.cons_append, feed_cons_of_ok hstep, ih h]

end Reading

/-! ## Whole texts -/

/-- A plus sign that is understood at the end of a text. -/
def impliedPlus (s : String) : Lexeme := ⟨.sign .plus, .ending s⟩

/-- **The lexemes of a text with the signs that are understood**: a plus before the first unless
that is a minus, and one behind the last. -/
def framed (s : String) : List Lexeme :=
  (if (Lexeme.scan s).head?.map Lexeme.token = some (.sign .minus) then [] else [impliedPlus s]) ++
    Lexeme.scan s ++ [impliedPlus s]

/-- Whether a character is one of ASCII. -/
def isAscii (c : Char) : Bool := c.toNat < 128

/-- **The place of the first character that is not one of ASCII.**  Those before it take one byte
each, so it starts at their number. -/
def foreign? (s : String) : Option Place :=
  match s.toList.dropWhile isAscii with
  | [] => none
  | c :: _ => some ⟨(s.toList.takeWhile isAscii).length, String.singleton c⟩

/-- **The terms of a text**, at most `max` of them.  A character that is not one of ASCII is
refused before anything else. -/
def readTerms (max : Nat) (s : String) : Except ReadFault (List Term) :=
  match foreign? s with
  | some place => .error (.unexpected .stray place)
  | none =>
    match Reading.start.feed max (framed s) with
    | .ok r => .ok r.terms
    | .error why => .error why

end CabbageFormula
