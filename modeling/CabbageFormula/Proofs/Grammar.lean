import CabbageFormula.Proofs.Moves
import CabbageFormula.Proofs.Wording

/-!
# The texts that are read

Reading accepts exactly the wordings whose constants fit and that have no more terms than the cap
allows, and it returns the terms that they mean.

**What has been read.**  `Reading.Accounts` says of a reading and the pieces behind it that they
are those of the completed summands, followed by what the awaited thing says has been read of the
next.  Every move keeps it (`Move.accounts`), so every chain of moves does (`Moves.accounts`), and
a sign at the end leaves nothing half read (`exists_summands_of_moves`).

**What can be read.**  An operand and the sign behind it are always read as one term
(`moves_operand`), hence so are all summands (`moves_summands`).

* `exists_wording_of_readTerms` — a text that is read is a wording.
* `readTerms_chars` — a wording is read as its terms.
* `readTerms_eq_ok_iff_wording` — both, with the look of an accepted text.
-/

namespace CabbageFormula

/-! ## What has been read -/

/-- The pieces that have been read of the term in progress. -/
inductive Awaiting.Spells : Awaiting → List (List Char) → Prop where
  | sign : Spells .sign []
  | operand (s : Sign) : Spells (.operand s) [[s.char]]
  | mark (s : Sign) {n : Option UInt64} (l : Literal) (h : Numeral.word? l.digits = n) :
      Spells (.mark s n) [[s.char], l.digits]
  | bare (s : Sign) : Spells (.sides s (some 1)) [[s.char], ['c']]
  | counted (s : Sign) {n : Option UInt64} (l : Literal) (h : Numeral.word? l.digits = n) :
      Spells (.sides s n) [[s.char], l.digits, ['c']]

/-- **What a reading has behind it**: the pieces of completed summands, each of them a term by
now, and then what has been read of the next. -/
def Reading.Accounts (r : Reading) (ps : List (List Char)) : Prop :=
  ∃ (done : List Summand) (begun : List (List Char)),
    ps = done.flatMap Summand.pieces ++ begun ∧ r.awaiting.Spells begun ∧
      r.terms = done.map Summand.term ∧ ∀ x ∈ done, x.operand.Fits

lemma Reading.accounts_start : Reading.start.Accounts [] :=
  ⟨[], [], rfl, Awaiting.Spells.sign, rfl, by simp⟩

/-- A completed summand joins those before it. -/
lemma Reading.accounts_complete {done : List Summand} {x : Summand} {begun : List (List Char)}
    {a : Awaiting} {ts : List Term} {ps : List (List Char)}
    (hps : ps = done.flatMap Summand.pieces ++ x.pieces ++ begun) (hspells : a.Spells begun)
    (hterms : ts = done.map Summand.term) (hfits : ∀ y ∈ done, y.operand.Fits)
    (hx : x.operand.Fits) : Reading.Accounts ⟨a, ts ++ [x.term]⟩ ps := by
  refine ⟨done ++ [x], begun, ?_, hspells, ?_, ?_⟩
  · rw [hps]
    simp
  · rw [hterms]
    simp
  · intro y hy
    rcases List.mem_append.mp hy with hy | hy
    · exact hfits y hy
    · rw [List.mem_singleton.mp hy]
      exact hx

/-- **A move accounts for the piece it reads.** -/
theorem Move.accounts {max : Nat} {r r' : Reading} {p : List Char} {ps : List (List Char)}
    (h : Move max r (Token.ofPiece p) r') (hp : IsPiece p) (hr : r.Accounts ps) :
    r'.Accounts (ps ++ [p]) := by
  obtain ⟨done, begun, rfl, hspells, hterms, hfits⟩ := hr
  -- one case for each move; the piece has to be the one spelling of its token
  generalize ht : Token.ofPiece p = t at h
  cases h with
  | sign ts s =>
      cases hspells
      rw [hp.eq_of_sign ht]
      exact ⟨done, [[s.char]], by simp, .operand s, hterms, hfits⟩
  | bare ts s =>
      cases hspells
      rw [hp.eq_of_cabbage ht]
      exact ⟨done, [[s.char], ['c']], by simp, .bare s, hterms, hfits⟩
  | number ts s n =>
      cases hspells
      obtain ⟨l, rfl, hl⟩ := hp.eq_of_number ht
      exact ⟨done, [[s.char], l.digits], by simp, .mark s l hl, hterms, hfits⟩
  | mark ts s n =>
      cases hspells with
      | mark _ l hl =>
          rw [hp.eq_of_cabbage ht]
          exact ⟨done, [[s.char], l.digits, ['c']], by simp, .counted s l hl, hterms, hfits⟩
  | constant s next n room =>
      cases hspells with
      | mark _ l hl =>
          obtain ⟨hfit, rfl⟩ := Literal.word?_eq_some_iff.mp hl
          rw [hp.eq_of_sign ht]
          have hpieces : done.flatMap Summand.pieces ++ [[s.char], l.digits] ++ [[next.char]] =
              done.flatMap Summand.pieces ++ Summand.pieces ⟨s, .constant l⟩ ++ [[next.char]] := rfl
          exact Reading.accounts_complete hpieces (.operand next) hterms hfits hfit
  | roll s count sides room =>
      obtain ⟨l, rfl, rfl⟩ := hp.eq_of_number ht
      cases hspells with
      | bare _ =>
          have hpieces : done.flatMap Summand.pieces ++ [[s.char], ['c']] ++ [l.digits] =
              done.flatMap Summand.pieces ++ Summand.pieces ⟨s, .roll none l⟩ ++ [] := by
            simp [Summand.pieces, Operand.pieces]
          rw [l.getD_word?]
          exact Reading.accounts_complete hpieces .sign hterms hfits trivial
      | counted _ k hk =>
          have hpieces : done.flatMap Summand.pieces ++ [[s.char], k.digits, ['c']] ++ [l.digits] =
              done.flatMap Summand.pieces ++ Summand.pieces ⟨s, .roll (some k) l⟩ ++ [] := by
            simp [Summand.pieces, Operand.pieces]
          rw [← hk, k.getD_word?, l.getD_word?]
          exact Reading.accounts_complete hpieces .sign hterms hfits trivial

/-- **A chain of moves accounts for the pieces it reads.** -/
theorem Moves.accounts {max : Nat} {r r' : Reading} {ps qs : List (List Char)}
    (h : Moves max r (qs.map Token.ofPiece) r') (hqs : ∀ q ∈ qs, IsPiece q) (hr : r.Accounts ps) :
    r'.Accounts (ps ++ qs) := by
  induction qs generalizing r ps with
  | nil =>
      cases h
      rw [List.append_nil]
      exact hr
  | cons q qs ih =>
      cases h with
      | cons head tail =>
          have hq : IsPiece q := hqs q (by simp)
          have hmid := ih tail (fun a ha => hqs a (by simp [ha])) (head.accounts hq hr)
          rw [List.append_assoc] at hmid
          exact hmid

/-- **Nothing is half read once a sign has closed the text.** -/
theorem exists_summands_of_moves {max : Nat} {r : Reading} {ps : List (List Char)}
    (hps : ∀ p ∈ ps, IsPiece p)
    (h : Moves max Reading.start (ps.map Token.ofPiece ++ [.sign .plus]) r) :
    ∃ done : List Summand, ps = done.flatMap Summand.pieces ∧ r.terms = done.map Summand.term ∧
      ∀ x ∈ done, x.operand.Fits := by
  obtain ⟨mid, hfront, hlast⟩ := h.exists_of_append
  have hmove : Move max mid (Token.ofPiece [Sign.plus.char]) r := by
    cases hlast with
    | cons head tail => cases tail; exact head
  have hplus : IsPiece [Sign.plus.char] := IsPiece.single Sign.plus.isDigit_char
  have hmid : mid.Accounts ps := hfront.accounts hps Reading.accounts_start
  obtain ⟨done, begun, hall, hspells, hterms, hfits⟩ := hmove.accounts hplus hmid
  have hawaits : r.awaiting = .operand .plus := by
    generalize ht : Token.ofPiece [Sign.plus.char] = t at hmove
    cases hmove <;> cases ht <;> rfl
  rw [hawaits] at hspells
  cases hspells
  exact ⟨done, List.append_cancel_right hall, hterms, hfits⟩

/-! ## What can be read -/

/-- **An operand and the sign behind it are read as one term.** -/
lemma moves_operand {max : Nat} {ts : List Term} (room : ts.length < max) (s next : Sign)
    (o : Operand) (hfits : o.Fits) :
    Moves max ⟨.operand s, ts⟩ (o.pieces.map Token.ofPiece ++ [.sign next])
      ⟨.operand next, ts ++ [o.term s]⟩ := by
  rcases o with value | ⟨_ | count, sides⟩
  · have hword : Numeral.word? value.digits = some value.capped :=
      Literal.word?_eq_some_iff.mpr ⟨hfits, rfl⟩
    simp only [Operand.pieces, List.map_cons, List.map_nil, Literal.ofPiece_digits, hword,
      List.cons_append, List.nil_append]
    exact .cons (.number ts s _) (.singleton (.constant s next value.capped room))
  · have hroll := Move.roll s (some 1) (Numeral.word? sides.digits) room
    rw [sides.getD_word?] at hroll
    simp only [Operand.pieces, List.map_cons, List.map_nil, Literal.ofPiece_digits,
      Token.ofPiece_cabbage, List.cons_append, List.nil_append]
    exact .cons (.bare ts s) (.cons hroll (.singleton (.sign _ next)))
  · have hroll := Move.roll s (Numeral.word? count.digits) (Numeral.word? sides.digits) room
    rw [count.getD_word?, sides.getD_word?] at hroll
    simp only [Operand.pieces, List.map_cons, List.map_nil, Literal.ofPiece_digits,
      Token.ofPiece_cabbage, List.cons_append, List.nil_append]
    exact .cons (.number ts s _) (.cons (.mark ts s _) (.cons hroll (.singleton (.sign _ next))))

/-- **Summands are read as their terms**, up to the plus that closes them. -/
lemma moves_summands {max : Nat} (xs : List Summand) :
    ∀ (ts : List Term) (s : Sign) (o : Operand), ts.length + xs.length < max → o.Fits →
      (∀ x ∈ xs, x.operand.Fits) →
        Moves max ⟨.operand s, ts⟩
          ((o.pieces ++ xs.flatMap Summand.pieces).map Token.ofPiece ++ [.sign .plus])
          ⟨.operand .plus, ts ++ o.term s :: xs.map Summand.term⟩ := by
  induction xs with
  | nil =>
      intro ts s o room ho _
      rw [List.flatMap_nil, List.append_nil]
      exact moves_operand room s .plus o ho
  | cons x xs ih =>
      intro ts s o room ho hxs
      have hroom : ts.length < max := by omega
      have hfirst := moves_operand hroom s x.sign o ho
      have hrest := ih (ts ++ [o.term s]) x.sign x.operand (by simp at room ⊢; omega)
        (hxs x (by simp)) (fun y hy => hxs y (by simp [hy]))
      have hboth := hfirst.append hrest
      simpa [Summand.pieces, Summand.term] using hboth

/-! ## Texts -/

lemma flatten_flatMap_pieces (xs : List Summand) :
    (xs.flatMap Summand.pieces).flatten = xs.flatMap Summand.chars := by
  rw [← pieces_flatMap_chars, flatten_pieces]

/-- **A text that is read is a wording**, and what is read are its terms. -/
theorem exists_wording_of_readTerms {max : Nat} {s : String} {terms : List Term}
    (h : readTerms max s = .ok terms) :
    ∃ w : Wording, s.toList = w.chars ∧ w.Fits ∧ w.summands.length ≤ max ∧ w.terms = terms := by
  obtain ⟨-, r, hmoves, rfl⟩ := readTerms_eq_ok_iff_moves.mp h
  have hcap : r.terms.length ≤ max := hmoves.length_le (Nat.zero_le _)
  have hpieces : ∀ p ∈ pieces s.toList, IsPiece p := fun p hp => isPiece_of_mem_pieces hp
  have hflat : s.toList = (pieces s.toList).flatten := (flatten_pieces s.toList).symm
  rw [framedTokens] at hmoves
  split at hmoves
  case isTrue hminus =>
    obtain ⟨done, hps, hterms, hfits⟩ := exists_summands_of_moves hpieces hmoves
    rw [hps] at hminus hflat
    cases done with
    | nil => cases hminus
    | cons x xs =>
        have hsign : x.sign = .minus := by
          simpa [Summand.pieces] using hminus
        refine ⟨⟨x, xs⟩, ?_, hfits, ?_, hterms.symm⟩
        · rw [hflat, flatten_flatMap_pieces, Wording.chars, List.flatMap_cons, Summand.chars, hsign]
          rfl
        · rw [hterms, List.length_map] at hcap
          exact hcap
  case isFalse hother =>
    have himplied : ∀ p ∈ [Sign.plus.char] :: pieces s.toList, IsPiece p := by
      intro p hp
      rcases List.mem_cons.mp hp with rfl | hp
      · exact IsPiece.single Sign.plus.isDigit_char
      · exact hpieces p hp
    obtain ⟨done, hps, hterms, hfits⟩ := exists_summands_of_moves himplied hmoves
    cases done with
    | nil => cases hps
    | cons x xs =>
        simp only [List.flatMap_cons, Summand.pieces, List.cons_append, List.cons.injEq,
          and_true] at hps
        obtain ⟨hchar, hrest⟩ := hps
        have hsign : x.sign = .plus := (Sign.char_injective hchar).symm
        refine ⟨⟨x, xs⟩, ?_, hfits, ?_, hterms.symm⟩
        · rw [hflat, hrest, List.flatten_append, flatten_flatMap_pieces, Operand.flatten_pieces,
            Wording.chars, hsign]
          rfl
        · rw [hterms, List.length_map] at hcap
          exact hcap

/-- With the signs that are understood, a wording is a sign and an operand, over and over. -/
lemma framedTokens_chars (w : Wording) :
    framedTokens w.chars = .sign w.first.sign ::
      ((w.first.operand.pieces ++ w.rest.flatMap Summand.pieces).map Token.ofPiece ++
        [.sign .plus]) := by
  rw [framedTokens, w.pieces_chars]
  cases w.first.sign with
  | minus => rfl
  | plus =>
      have hhead : ((w.first.operand.pieces ++ w.rest.flatMap Summand.pieces).map
          Token.ofPiece).head? ≠ some (.sign .minus) := by
        rcases w.first.operand with value | ⟨_ | count, sides⟩ <;>
          simp [Operand.pieces, Literal.ofPiece_digits]
      rw [Wording.leadPieces, List.nil_append, if_neg hhead]
      rfl

/-- **A wording is read as its terms.** -/
theorem readTerms_chars {max : Nat} {s : String} {w : Wording} (hs : s.toList = w.chars)
    (hfits : w.Fits) (hcap : w.summands.length ≤ max) : readTerms max s = .ok w.terms := by
  refine readTerms_eq_ok_iff_moves.mpr ⟨?_, ⟨.operand .plus, w.terms⟩, ?_, rfl⟩
  · intro c hc
    rw [hs] at hc
    rcases w.tidy_chars.alphabet c hc with h | rfl | rfl | rfl
    · have hnine : '9'.toNat < 128 := by decide
      have hlt : c.toNat < 128 := lt_of_le_of_lt (Char.isDigit_iff_toNat.mp h).2 hnine
      exact decide_eq_true hlt
    · rfl
    · rfl
    · rfl
  · rw [hs, framedTokens_chars]
    have hroom : ([] : List Term).length + w.rest.length < max := by
      have hlen : w.rest.length + 1 ≤ max := hcap
      rw [List.length_nil]
      omega
    have hrest := moves_summands w.rest [] w.first.sign w.first.operand hroom
      (hfits w.first (by simp [Wording.summands]))
      (fun x hx => hfits x (by simp [Wording.summands, hx]))
    exact .cons (.sign [] w.first.sign) hrest

/-- **The texts that are read.**  A text is read exactly if it is a wording whose constants fit
and that has no more terms than the cap allows; what is read are the terms that it means.  Nothing
else is accepted: an accepted text is of digits, marks and signs, without a plus in front, without
two signs side by side, and with a digit behind its last sign and behind every mark. -/
theorem readTerms_eq_ok_iff_wording (max : Nat) (s : String) :
    (∀ terms : List Term, readTerms max s = .ok terms ↔
      ∃ w : Wording, s.toList = w.chars ∧ w.Fits ∧ w.summands.length ≤ max ∧ w.terms = terms) ∧
    (∀ terms : List Term, readTerms max s = .ok terms →
      Tidy s.toList ∧ ∀ c ∈ s.toList, isAscii c = true) := by
  refine ⟨fun terms => ⟨exists_wording_of_readTerms, ?_⟩, ?_⟩
  · rintro ⟨w, hs, hfits, hcap, rfl⟩
    exact readTerms_chars hs hfits hcap
  · intro terms h
    obtain ⟨w, hs, -⟩ := exists_wording_of_readTerms h
    refine ⟨?_, (readTerms_eq_ok_iff_moves.mp h).1⟩
    rw [hs]
    exact w.tidy_chars

end CabbageFormula
