import CabbageFormula.Proofs.Pieces
import CabbageFormula.Reading
import Mathlib.Data.List.TakeWhile

/-!
# Reading as a relation

What one step of reading can do, said once: a move takes a reading to the next by a token, and
where the token stands plays no part unless it is refused.  Reading a text to its end is a chain
of moves over its tokens and the signs that are understood.

* `Move`, `Reading.step_eq_ok_iff` — the six moves, and that a step is one of them or a fault.
* `Moves`, `Reading.feed_eq_ok_iff` — chains of moves, and that `feed` makes them.
* `framedTokens`, `readTerms_eq_ok_iff_moves` — the tokens of a text with the signs that are
  understood, and which chain of moves is behind the terms of a text.
* `Move.length_le`, `Moves.length_le` — no chain of moves goes beyond the cap on terms.
-/

namespace CabbageFormula

/-! ## One token -/

/-- **A step of reading that is not refused.** -/
inductive Move (max : Nat) : Reading → Token → Reading → Prop where
  | sign (ts : List Term) (s : Sign) : Move max ⟨.sign, ts⟩ (.sign s) ⟨.operand s, ts⟩
  | bare (ts : List Term) (s : Sign) : Move max ⟨.operand s, ts⟩ .cabbage ⟨.sides s (some 1), ts⟩
  | number (ts : List Term) (s : Sign) (n : Option UInt64) :
      Move max ⟨.operand s, ts⟩ (.number n) ⟨.mark s n, ts⟩
  | mark (ts : List Term) (s : Sign) (n : Option UInt64) :
      Move max ⟨.mark s n, ts⟩ .cabbage ⟨.sides s n, ts⟩
  | constant {ts : List Term} (s next : Sign) (n : UInt64) (room : ts.length < max) :
      Move max ⟨.mark s (some n), ts⟩ (.sign next) ⟨.operand next, ts ++ [.constant s n]⟩
  | roll {ts : List Term} (s : Sign) (count sides : Option UInt64) (room : ts.length < max) :
      Move max ⟨.sides s count, ts⟩ (.number sides)
        ⟨.sign, ts ++ [.roll s (count.getD Word.top) (sides.getD Word.top)]⟩

lemma Reading.complete_eq_ok_iff {max : Nat} {ts : List Term} {t : Term} {next : Awaiting}
    {r : Reading} :
    complete max ts t next = .ok r ↔ ts.length < max ∧ r = ⟨next, ts ++ [t]⟩ := by
  rw [complete]
  split
  case isTrue room =>
    constructor
    · intro h
      exact ⟨room, (Except.ok.inj h).symm⟩
    · rintro ⟨-, rfl⟩
      rfl
  case isFalse full =>
    constructor
    · intro h
      cases h
    · rintro ⟨room, -⟩
      exact absurd room full

/-- **A step is a move or a fault.** -/
theorem Reading.step_eq_ok_iff {max : Nat} {r r' : Reading} {l : Lexeme} :
    r.step max l = .ok r' ↔ Move max r l.token r' := by
  obtain ⟨a, ts⟩ := r
  obtain ⟨t, p⟩ := l
  constructor
  · intro h
    rw [step] at h
    dsimp only at h
    -- one goal for each row of the table: the six that can succeed, the wide constant, the rest
    split at h
    case h_1 => cases h; exact Move.sign _ _
    case h_2 => cases h; exact Move.bare _ _
    case h_3 => cases h; exact Move.number _ _ _
    case h_4 => cases h; exact Move.mark _ _ _
    case h_5 =>
      obtain ⟨room, rfl⟩ := complete_eq_ok_iff.mp h
      exact Move.constant _ _ _ room
    case h_6 => cases h
    case h_7 =>
      obtain ⟨room, rfl⟩ := complete_eq_ok_iff.mp h
      exact Move.roll _ _ _ room
    case h_8 => cases h
  · intro h
    cases h with
    | sign s => rfl
    | bare s => rfl
    | number s n => rfl
    | mark s n => rfl
    | constant s next n room => exact complete_eq_ok_iff.mpr ⟨room, rfl⟩
    | roll s count sides room => exact complete_eq_ok_iff.mpr ⟨room, rfl⟩

/-! ## Many tokens -/

/-- **A chain of moves.** -/
inductive Moves (max : Nat) : Reading → List Token → Reading → Prop where
  | nil (r : Reading) : Moves max r [] r
  | cons {r mid r' : Reading} {t : Token} {ts : List Token} (head : Move max r t mid)
      (tail : Moves max mid ts r') : Moves max r (t :: ts) r'

/-- **Feeding lexemes is a chain of moves over their tokens.** -/
theorem Reading.feed_eq_ok_iff {max : Nat} {r r' : Reading} {ls : List Lexeme} :
    r.feed max ls = .ok r' ↔ Moves max r (ls.map (·.token)) r' := by
  induction ls generalizing r with
  | nil =>
      constructor
      · intro h
        obtain rfl : r = r' := Except.ok.inj h
        exact Moves.nil r
      · intro h
        cases h
        rfl
  | cons l ls ih =>
      constructor
      · intro h
        cases hstep : r.step max l with
        | error why => rw [feed_cons_of_error hstep] at h; cases h
        | ok mid =>
            rw [feed_cons_of_ok hstep] at h
            exact Moves.cons (step_eq_ok_iff.mp hstep) (ih.mp h)
      · intro h
        cases h with
        | cons head tail =>
            rw [feed_cons_of_ok (step_eq_ok_iff.mpr head)]
            exact ih.mpr tail

namespace Moves

variable {max : Nat} {r mid r' : Reading} {ts us : List Token}

lemma append (h : Moves max r ts mid) (h' : Moves max mid us r') : Moves max r (ts ++ us) r' := by
  induction h with
  | nil r => exact h'
  | cons head _ ih => exact Moves.cons head (ih h')

lemma exists_of_append (h : Moves max r (ts ++ us) r') :
    ∃ mid, Moves max r ts mid ∧ Moves max mid us r' := by
  induction ts generalizing r with
  | nil => exact ⟨r, Moves.nil r, h⟩
  | cons t ts ih =>
      cases h with
      | cons head tail =>
          obtain ⟨mid, hfront, hback⟩ := ih tail
          exact ⟨mid, Moves.cons head hfront, hback⟩

lemma singleton {t : Token} (h : Move max r t r') : Moves max r [t] r' :=
  Moves.cons h (Moves.nil r')

end Moves

/-! ## The cap on terms -/

lemma Move.length_le {max : Nat} {r r' : Reading} {t : Token} (h : Move max r t r')
    (hr : r.terms.length ≤ max) : r'.terms.length ≤ max := by
  cases h with
  | sign s => exact hr
  | bare s => exact hr
  | number s n => exact hr
  | mark s n => exact hr
  | constant s next n room => rw [List.length_append]; exact room
  | roll s count sides room => rw [List.length_append]; exact room

lemma Moves.length_le {max : Nat} {r r' : Reading} {ts : List Token} (h : Moves max r ts r')
    (hr : r.terms.length ≤ max) : r'.terms.length ≤ max := by
  induction h with
  | nil r => exact hr
  | cons head _ ih => exact ih (head.length_le hr)

/-! ## Whole texts -/

/-- **The tokens of a text with the signs that are understood.** -/
def framedTokens (cs : List Char) : List Token :=
  (if ((pieces cs).map Token.ofPiece).head? = some (.sign .minus) then [] else [.sign .plus]) ++
    (pieces cs).map Token.ofPiece ++ [.sign .plus]

lemma map_token_framed (s : String) : (framed s).map (·.token) = framedTokens s.toList := by
  have hscan : (Lexeme.scan s).map (·.token) = (pieces s.toList).map Token.ofPiece :=
    Lexeme.map_token_locate 0 _
  have hhead : (Lexeme.scan s).head?.map Lexeme.token =
      ((pieces s.toList).map Token.ofPiece).head? := by
    rw [← hscan, List.head?_map]
  rw [framed, framedTokens, hhead, List.map_append, List.map_append, hscan]
  split <;> rfl

lemma foreign?_eq_none_iff {s : String} :
    foreign? s = none ↔ ∀ c ∈ s.toList, isAscii c = true := by
  rw [foreign?]
  split
  case h_1 h => exact ⟨fun _ => List.dropWhile_eq_nil_iff.mp h, fun _ => rfl⟩
  case h_2 c rest h =>
    constructor
    · intro hnone
      cases hnone
    · intro hall
      rw [List.dropWhile_eq_nil_iff.mpr hall] at h
      cases h

/-- **The terms of a text are those of a chain of moves** from the start over all its tokens, if
there is nothing but ASCII in it. -/
theorem readTerms_eq_ok_iff_moves {max : Nat} {s : String} {terms : List Term} :
    readTerms max s = .ok terms ↔
      (∀ c ∈ s.toList, isAscii c = true) ∧
        ∃ r, Moves max Reading.start (framedTokens s.toList) r ∧ r.terms = terms := by
  rw [readTerms, ← foreign?_eq_none_iff, ← map_token_framed]
  constructor
  · intro h
    split at h
    case h_1 => cases h
    case h_2 hascii =>
      split at h
      case h_1 r hfeed => exact ⟨hascii, r, Reading.feed_eq_ok_iff.mp hfeed, Except.ok.inj h⟩
      case h_2 => cases h
  · rintro ⟨hascii, r, hmoves, rfl⟩
    rw [hascii]
    simp only [Reading.feed_eq_ok_iff.mpr hmoves]

end CabbageFormula
