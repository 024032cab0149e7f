import CabbageFormula.Numeral
import CabbageFormula.Sign

/-!
# Outcomes

What a formula came to: the total, and a trace of every constant and every single cabbage.

* `Entry` — one piece of a trace.
* `Outcome.traceText` — the trace as a sum, without a plus in front.
* `Outcome.text` — total and trace, the reply to a formula that was rolled.
-/

namespace CabbageFormula

/-! ## Entries -/

/-- **One piece of a trace.** -/
inductive Entry where
  /-- A constant of the formula. -/
  | constant (sign : Sign) (value : UInt64)
  /-- What one cabbage showed, with the sign of its term. -/
  | rolled (sign : Sign) (value : UInt64)
deriving DecidableEq

namespace Entry

/-- **What an entry adds to the total.** -/
def amount : Entry → Int
  | constant s v => s.signed v
  | rolled s v => s.signed v

@[simp] theorem amount_constant (s : Sign) (v : UInt64) : (constant s v).amount = s.signed v := rfl

@[simp] theorem amount_rolled (s : Sign) (v : UInt64) : (rolled s v).amount = s.signed v := rfl

/-- **An entry as text**: sign and value, the value of a cabbage in brackets. -/
def text : Entry → String
  | constant s v => s.text ++ toString v
  | rolled s v => s.text ++ "[" ++ toString v ++ "]"

@[simp] theorem toList_text_constant (s : Sign) (v : UInt64) :
    (constant s v).text.toList = s.char :: Numeral.digits v.toNat := by
  simp [text]

@[simp] theorem toList_text_rolled (s : Sign) (v : UInt64) :
    (rolled s v).text.toList = s.char :: '[' :: (Numeral.digits v.toNat ++ [']']) := by
  simp [text]

end Entry

/-! ## Outcomes -/

/-- Drops one plus sign in front. -/
def dropPlus : List Char → List Char
  | '+' :: rest => rest
  | cs => cs

@[simp] theorem dropPlus_nil : dropPlus [] = [] := rfl

@[simp] theorem dropPlus_plus (rest : List Char) : dropPlus ('+' :: rest) = rest := rfl

theorem dropPlus_of_ne {c : Char} (h : c ≠ '+') (rest : List Char) :
    dropPlus (c :: rest) = c :: rest := by
  unfold dropPlus
  split
  case h_1 e => exact absurd (List.cons.inj e).1 h
  case h_2 => rfl

/-- **What a formula came to.** -/
structure Outcome where
  total : Int
  /-- In the order of the formula. -/
  trace : List Entry
deriving DecidableEq

namespace Outcome

/-- **The trace as a sum**: its entries one after the other, without a plus in front. -/
def traceText (o : Outcome) : String :=
  String.ofList (dropPlus (o.trace.flatMap fun e => e.text.toList))

@[simp] theorem toList_traceText (o : Outcome) :
    o.traceText.toList = dropPlus (o.trace.flatMap fun e => e.text.toList) :=
  String.toList_ofList

/-- **An outcome as text**: the total, and the trace in parentheses. -/
def text (o : Outcome) : String := toString o.total ++ " (" ++ o.traceText ++ ")"

end Outcome

end CabbageFormula
