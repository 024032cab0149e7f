import CabbageFormula.Proofs.Refusals

/-!
# Which fault comes first

A text may have more terms than the cap allows and a token that cannot stand where it is.  It is
told of the one that reading comes to first: of the cap, if a term too many is completed in front of
the token.  A roll is completed by its number of sides already, but a constant only by the sign
behind it, so that it depends on the kind of the last term which fault that is.

* `completions` — how many terms tokens complete, counted on the tokens alone.
* `Moves.length_add_completions` — reading completes just as many.
* `completedBefore` — how many terms are completed in front of a place.
* `Stop.under`, `Stop.termCap` — a stop under another cap.
* `readTerms_under_cap` — **the result under a cap**, from the result without one.
-/

namespace CabbageFormula

/-! ## Counting completed terms -/

/-- **How many terms tokens complete**: a roll with the number behind its mark, and a constant with
the sign behind its number. -/
def completions : List Token → Nat
  | .cabbage :: .number _ :: rest => completions rest + 1
  | .number _ :: .sign _ :: rest => completions rest + 1
  | _ :: rest => completions rest
  | [] => 0

@[simp] lemma completions_nil : completions [] = 0 := rfl

lemma completions_sign (s : Sign) (ts : List Token) :
    completions (.sign s :: ts) = completions ts := by
  rw [completions] <;> simp

lemma completions_number_cabbage (n : Option UInt64) (ts : List Token) :
    completions (.number n :: .cabbage :: ts) = completions (.cabbage :: ts) := by
  rw [completions] <;> simp

/-- The tokens of the term in progress that may count with what follows. -/
def Awaiting.begun : Awaiting → List Token
  | .sign => []
  | .operand _ => []
  | .mark _ n => [.number n]
  | .sides .. => [.cabbage]

lemma completions_begun (a : Awaiting) : completions a.begun = 0 := by
  cases a <;> rfl

variable {max max' : Nat} {r mid r' : Reading} {t found : Token} {ts : List Token}

/-- **A move completes a term** exactly if its token does, behind what has been begun. -/
lemma Move.length_add_completions (h : Move max r t r') (ts : List Token) :
    r.terms.length + completions (r.awaiting.begun ++ t :: ts) =
      r'.terms.length + completions (r'.awaiting.begun ++ ts) := by
  cases h with
  | sign terms s => exact congrArg _ (completions_sign s ts)
  | bare terms s => rfl
  | number terms s n => rfl
  | mark terms s n => exact congrArg _ (completions_number_cabbage n ts)
  | @constant terms s next n _ =>
      have hlength : (terms ++ [Term.constant s n]).length = terms.length + 1 := List.length_append
      show terms.length + (completions ts + 1) =
        (terms ++ [Term.constant s n]).length + completions ts
      omega
  | @roll terms s count sides _ =>
      have hlength : (terms ++ [Term.roll s (count.getD Word.top) (sides.getD Word.top)]).length =
          terms.length + 1 := List.length_append
      show terms.length + (completions ts + 1) =
        (terms ++ [Term.roll s _ _]).length + completions ts
      omega

/-- **A chain of moves completes as many terms as its tokens do.** -/
theorem Moves.length_add_completions (h : Moves max r ts r') :
    r.terms.length + completions (r.awaiting.begun ++ ts) = r'.terms.length := by
  induction h with
  | nil r => rw [List.append_nil, completions_begun, Nat.add_zero]
  | cons head _ ih => rw [head.length_add_completions, ih]

lemma length_terms_of_moves {us : List Token}
    (h : Moves max Reading.start (lead us ++ ts) mid) : mid.terms.length = completions ts := by
  have hlead : completions (lead us ++ ts) = completions ts := by
    rw [lead]
    split
    case isTrue => rfl
    case isFalse => exact completions_sign .plus ts
  have hcount := h.length_add_completions
  rw [← hcount, ← hlead]
  exact Nat.zero_add _

/-- **How many terms of a text are completed in front of a place.** -/
def completedBefore (s : String) (p : Place) : Nat :=
  completions (((Lexeme.scan s).filter fun l => l.place.start < p.start).map (·.token))

/-! ## A stop under another cap -/

lemma Stop.completedBefore_eq {s : String} {front : List Lexeme} {p : Place}
    (h : Stop max s found front p) :
    completedBefore s p = completions (front.map (·.token)) := by
  have hfront : (Lexeme.scan s).filter (fun l => l.place.start < p.start) = front := by
    cases h with
    | lexeme hscan _ _ => exact Lexeme.filter_start_lt hscan
    | ending _ _ => exact Lexeme.filter_start_lt_ending s
  rw [completedBefore, hfront]

/-- What is read in front of a stop has completed as many terms as are counted there. -/
lemma Stop.exists_read {s : String} {front : List Lexeme} {p : Place}
    (h : Stop max s found front p) :
    ∃ read rest mid, framed s = read ++ rest ∧
      Moves max Reading.start (read.map (·.token)) mid ∧
        mid.terms.length = completedBefore s p := by
  obtain ⟨opening, hframed, hopening⟩ := exists_framed s
  rw [h.completedBefore_eq]
  cases h with
  | @lexeme _ back l mid hscan hread _ =>
      refine ⟨opening ++ front, l :: back ++ [impliedPlus s], mid, ?_, ?_, ?_⟩
      · rw [hframed, hscan]
        simp
      · rw [List.map_append, hopening]
        exact hread
      · exact length_terms_of_moves hread
  | @ending mid hread _ =>
      refine ⟨opening ++ Lexeme.scan s, [impliedPlus s], mid, hframed, ?_, ?_⟩
      · rw [List.map_append, hopening, map_token_scan]
        exact hread
      · rw [map_token_scan]
        exact length_terms_of_moves hread

/-- **A cap with room for the terms in front of a stop** does not change it. -/
theorem Stop.under {s : String} {front : List Lexeme} {p : Place} (h : Stop max s found front p)
    (room : completedBefore s p ≤ max') : Stop max' s found front p := by
  rw [h.completedBefore_eq] at room
  cases h with
  | lexeme hscan hread hrefused =>
      rw [← length_terms_of_moves hread] at room
      exact .lexeme hscan (hread.under room) hrefused
  | ending hread hrefused =>
      rw [map_token_scan, ← length_terms_of_moves hread] at room
      exact .ending (hread.under room) hrefused

/-- **A cap without room for them** stops the reading in front of it. -/
theorem Stop.termCap {s : String} {front : List Lexeme} {p : Place} (h : Stop max s found front p)
    (full : max' < completedBefore s p) :
    Reading.start.feed max' (framed s) = .error (.termCap max') := by
  obtain ⟨read, rest, mid, hframed, hread, hcount⟩ := h.exists_read
  rw [hframed]
  refine Reading.feed_append_of_error (Reading.feed_eq_termCap hread (Nat.zero_le _) ?_) rest
  rw [hcount]
  exact full

/-! ## Caps that are never hit -/

lemma Reading.feed_ne_termCap {ls : List Lexeme} {cap : Nat} :
    ∀ {r : Reading}, r.terms.length + ls.length ≤ max → r.feed max ls ≠ .error (.termCap cap) := by
  induction ls with
  | nil =>
      intro r _ h
      cases h
  | cons l ls ih =>
      intro r room h
      rw [List.length_cons] at room
      cases hstep : r.step max l with
      | error why =>
          rw [feed_cons_of_error hstep] at h
          rw [h] at hstep
          exact step_ne_termCap (by omega) hstep
      | ok next =>
          rw [feed_cons_of_ok hstep] at h
          have hgrown : next.terms.length ≤ r.terms.length + 1 :=
            (step_eq_ok_iff.mp hstep).length_le_succ
          exact ih (by omega) h

lemma length_le_length_flatten {ps : List (List Char)} (h : ∀ p ∈ ps, p ≠ []) :
    ps.length ≤ ps.flatten.length := by
  induction ps with
  | nil => exact Nat.le_refl 0
  | cons p ps ih =>
      have hpos : 0 < p.length := List.length_pos_of_ne_nil (h p (by simp))
      have hrest := ih fun q hq => h q (by simp [hq])
      rw [List.length_cons, List.flatten_cons, List.length_append]
      omega

/-- A text has no more lexemes than characters. -/
lemma length_scan_le (s : String) : (Lexeme.scan s).length ≤ s.length := by
  have htokens : (Lexeme.scan s).length = (pieces s.toList).length := by
    rw [← List.length_map (f := (·.token)), map_token_scan, tokens, List.length_map]
  have hne : ∀ p ∈ pieces s.toList, p ≠ [] := fun p hp => Lexeme.ne_nil_of_mem_pieces hp
  have hle := length_le_length_flatten hne
  rw [flatten_pieces, String.length_toList] at hle
  rw [htokens]
  exact hle

/-- **A cap above the length of a text is never hit.** -/
theorem readTerms_ne_termCap {s : String} (hascii : ∀ c ∈ s.toList, isAscii c = true)
    (hlong : s.length < max) (cap : Nat) : readTerms max s ≠ .error (.termCap cap) := by
  rw [Ne, readTerms_eq_error_iff_feed hascii]
  obtain ⟨opening, hframed, hopening⟩ := exists_framed s
  obtain ⟨first, hlead⟩ := exists_moves_lead max (tokens s.toList)
  have hfirst : Reading.start.feed max opening = .ok first :=
    Reading.feed_eq_ok_iff.mpr (hopening ▸ hlead)
  -- nothing is completed by the sign in front, and behind it each lexeme completes one term at most
  rw [← List.append_nil (lead (tokens s.toList))] at hlead
  have hnone : first.terms.length = 0 := length_terms_of_moves hlead
  have hscan := length_scan_le s
  rw [hframed, List.append_assoc, Reading.feed_append_of_ok hfirst]
  apply Reading.feed_ne_termCap
  rw [hnone, List.length_append, List.length_singleton]
  omega

/-! ## The result under a cap -/

lemma readTerms_of_ok {s : String} {terms : List Term} (h : readTerms max s = .ok terms) :
    readTerms max' s = if terms.length ≤ max' then .ok terms else .error (.termCap max') := by
  obtain ⟨hascii, r, hmoves, rfl⟩ := readTerms_eq_ok_iff_moves.mp h
  split
  case isTrue room => exact readTerms_eq_ok_iff_moves.mpr ⟨hascii, r, hmoves.under room, rfl⟩
  case isFalse full =>
    rw [readTerms_eq_error_iff_feed hascii]
    rw [← map_token_framed] at hmoves
    exact Reading.feed_eq_termCap hmoves (Nat.zero_le _) (Nat.lt_of_not_le full)

lemma readTerms_of_unexpected {s : String} (hascii : ∀ c ∈ s.toList, isAscii c = true) {p : Place}
    (h : readTerms max s = .error (.unexpected found p)) :
    readTerms max' s =
      if completedBefore s p ≤ max' then .error (.unexpected found p)
      else .error (.termCap max') := by
  obtain ⟨front, hstop⟩ := (readTerms_eq_unexpected_iff hascii).mp h
  split
  case isTrue room => exact (readTerms_eq_unexpected_iff hascii).mpr ⟨front, hstop.under room⟩
  case isFalse full =>
    rw [readTerms_eq_error_iff_feed hascii]
    exact hstop.termCap (Nat.lt_of_not_le full)

/-- **Which fault comes first.**  Let the cap on terms be too large to be hit, and see what becomes
of a text of ASCII.  If it is read, then any other cap lets it pass if there is room for its terms,
and is hit otherwise.  If a token is refused, then under any other cap the same token is refused, at the
same place, unless there are more terms completed in front of it than the cap allows: then the cap
is hit.  A text with a character outside ASCII is refused for the first of these, whatever the cap
and whatever stands in front of it. -/
theorem readTerms_under_cap (s : String) (max : Nat) :
    ((∀ c ∈ s.toList, isAscii c = true) → ∀ large, s.length < large →
      (∀ terms, readTerms large s = .ok terms →
        readTerms max s = if terms.length ≤ max then .ok terms else .error (.termCap max)) ∧
      (∀ found p, readTerms large s = .error (.unexpected found p) →
        readTerms max s =
          if completedBefore s p ≤ max then .error (.unexpected found p)
          else .error (.termCap max)) ∧
      ∀ cap, readTerms large s ≠ .error (.termCap cap)) ∧
    ((∃ c ∈ s.toList, isAscii c = false) →
      ∃ front c back, s.toList = front ++ c :: back ∧ (∀ a ∈ front, isAscii a = true) ∧
        isAscii c = false ∧
          readTerms max s = .error (.unexpected .stray ⟨width front, String.ofList [c]⟩)) := by
  constructor
  · intro hascii large hlarge
    refine ⟨fun terms h => readTerms_of_ok h, fun found p h => readTerms_of_unexpected hascii h, ?_⟩
    exact readTerms_ne_termCap hascii hlarge
  · rintro ⟨c, hc, hforeign⟩
    cases hplace : foreign? s with
    | none =>
        rw [foreign?_eq_none_iff.mp hplace c hc] at hforeign
        cases hforeign
    | some p =>
        obtain ⟨front, d, back, hs, hfront, hd, rfl⟩ := exists_of_foreign hplace
        exact ⟨front, d, back, hs, hfront, hd, readTerms_of_foreign hplace max⟩

/-- The plus at the end completes the constant in front of it, so that a cap of one is hit before
the end of the text is found out; a cap of two is not. -/
theorem readTerms_under_cap_trailing_plus :
    readTerms 6 "c6-5+" = .error (.unexpected (.sign .plus) ⟨5, ""⟩) ∧
      readTerms 2 "c6-5+" = .error (.unexpected (.sign .plus) ⟨5, ""⟩) ∧
        readTerms 1 "c6-5+" = .error (.termCap 1) := by
  have hascii : ∀ c ∈ "c6-5+".toList, isAscii c = true :=
    List.all_eq_true.mp (by decide +kernel)
  have hlarge : readTerms 6 "c6-5+" = .error (.unexpected (.sign .plus) ⟨5, ""⟩) := by
    decide +kernel
  have hcount : completedBefore "c6-5+" ⟨5, ""⟩ = 2 := by decide +kernel
  have htwo := ((readTerms_under_cap "c6-5+" 2).1 hascii 6 (by decide)).2.1 _ _ hlarge
  have hone := ((readTerms_under_cap "c6-5+" 1).1 hascii 6 (by decide)).2.1 _ _ hlarge
  rw [hcount] at htwo hone
  exact ⟨hlarge, htwo, hone⟩

end CabbageFormula
