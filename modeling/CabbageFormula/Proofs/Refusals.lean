import CabbageFormula.Proofs.Moves
import CabbageFormula.Proofs.Places

/-!
# Where reading stops

The other half of what a step of reading can do: a token that is refused, and what is reported of
it.  Which tokens are refused depends on what is awaited alone, never on the cap on terms, so that
a reading that is stopped by a token has made the moves up to there, and these can be made again
under any cap that has room for the terms.

* `Awaiting.takes`, `Refused` — the tokens that may stand next, and what is said of any other.
* `Reading.step_eq_unexpected_iff`, `Reading.feed_eq_unexpected_iff` — a reading that is stopped.
* `Moves.unique`, `Moves.under` — where moves lead does not depend on the cap.
* `Reading.feed_eq_termCap` — moves for which a cap has no room.
* `Stop`, `readTerms_eq_unexpected_iff` — **where the reading of a text stops**: at one of its
  lexemes, or at its end.
* `takes_number`, `Stop.halt` — it never stops at a number, and so at one character.
-/

namespace CabbageFormula

/-! ## One token -/

/-- Whether a token may stand where something is awaited. -/
def Awaiting.takes : Awaiting → Token → Bool
  | .sign, .sign _ => true
  | .operand _, .cabbage => true
  | .operand _, .number _ => true
  | .mark .., .cabbage => true
  | .mark .., .sign _ => true
  | .sides .., .number _ => true
  | _, _ => false

/-- **A token is refused**, and this is said to have been found.  Most often it is the token itself;
but a number that is too wide to be a constant is found out only at the sign that makes it one. -/
inductive Refused : Awaiting → Token → Token → Prop where
  | misplaced {a : Awaiting} {t : Token} (h : a.takes t = false) : Refused a t t
  | wide (s next : Sign) : Refused (.mark s none) (.sign next) (.number none)

variable {max max' : Nat} {r mid r' : Reading} {t found : Token} {ts us : List Token}

lemma Refused.not_move {a : Awaiting} {terms : List Term} (h : Refused a t found) :
    ¬ Move max ⟨a, terms⟩ t r' := by
  intro hmove
  cases h with
  | misplaced htakes => cases hmove <;> cases htakes
  | wide s next => cases hmove

/-- What is found is the token that is refused, or the wide number in front of it. -/
lemma Refused.eq_or_wide {a : Awaiting} (h : Refused a t found) :
    (found = t ∧ a.takes t = false) ∨
      ∃ s next, a = .mark s none ∧ t = .sign next ∧ found = .number none := by
  cases h with
  | misplaced htakes => exact .inl ⟨rfl, htakes⟩
  | wide s next => exact .inr ⟨s, next, rfl, rfl, rfl⟩

/-- A token that is taken is refused only as the sign behind a wide number. -/
lemma Refused.eq_wide {a : Awaiting} (h : Refused a t found) (htakes : a.takes t = true) :
    ∃ s next, a = .mark s none ∧ t = .sign next ∧ found = .number none := by
  rcases h.eq_or_wide with ⟨-, hother⟩ | hwide
  · rw [htakes] at hother
    cases hother
  · exact hwide

namespace Reading

lemma complete_ne_unexpected {terms : List Term} {term : Term} {next : Awaiting} {p : Place} :
    complete max terms term next ≠ .error (.unexpected found p) := by
  rw [complete]
  split
  case isTrue => exact fun h => by cases h
  case isFalse => exact fun h => by cases h

/-- The cap stops no step while there is room. -/
lemma step_ne_termCap {l : Lexeme} {cap : Nat} (room : r.terms.length < max) :
    r.step max l ≠ .error (.termCap cap) := by
  have hroom : ∀ term next, complete max r.terms term next ≠ .error (.termCap cap) := by
    intro term next h
    rw [complete, if_pos room] at h
    cases h
  rw [step]
  split
  case h_5 => exact hroom _ _
  case h_7 => exact hroom _ _
  all_goals exact fun h => by cases h

/-- **A step is stopped by a token** exactly if that is refused, and it is stopped there. -/
theorem step_eq_unexpected_iff {l : Lexeme} {p : Place} :
    r.step max l = .error (.unexpected found p) ↔
      Refused r.awaiting l.token found ∧ p = l.place := by
  obtain ⟨a, terms⟩ := r
  obtain ⟨t, q⟩ := l
  constructor
  · intro h
    -- for each state the tokens that it takes, and then all others
    cases a with
    | sign =>
        cases t with
        | sign next => cases h
        | _ => cases h; exact ⟨.misplaced rfl, rfl⟩
    | operand s =>
        cases t with
        | cabbage | number n => cases h
        | _ => cases h; exact ⟨.misplaced rfl, rfl⟩
    | mark s n =>
        cases t with
        | cabbage => cases h
        | sign next =>
            cases n with
            | none => cases h; exact ⟨.wide s next, rfl⟩
            | some n => exact absurd h complete_ne_unexpected
        | _ => cases n <;> cases h <;> exact ⟨.misplaced rfl, rfl⟩
    | sides s count =>
        cases t with
        | number n => exact absurd h complete_ne_unexpected
        | _ => cases h; exact ⟨.misplaced rfl, rfl⟩
  · rintro ⟨h, rfl⟩
    cases h with
    | wide s next => rfl
    | misplaced h =>
        cases a with
        | sign => cases t <;> first | rfl | cases h
        | operand s => cases t <;> first | rfl | cases h
        | mark s n => cases n <;> cases t <;> first | rfl | cases h
        | sides s count => cases t <;> first | rfl | cases h

end Reading

/-! ## Moves and the cap -/

lemma Move.length_mono (h : Move max r t r') : r.terms.length ≤ r'.terms.length := by
  cases h <;> simp

lemma Move.length_le_succ (h : Move max r t r') : r'.terms.length ≤ r.terms.length + 1 := by
  cases h <;> simp

lemma Moves.length_mono (h : Moves max r ts r') : r.terms.length ≤ r'.terms.length := by
  induction h with
  | nil r => exact Nat.le_refl _
  | cons head _ ih => exact Nat.le_trans head.length_mono ih

/-- A move can be made under any cap that has room for the terms it leaves. -/
lemma Move.under (h : Move max r t r') (room : r'.terms.length ≤ max') : Move max' r t r' := by
  cases h with
  | sign => exact .sign _ _
  | bare => exact .bare _ _
  | number => exact .number _ _ _
  | mark => exact .mark _ _ _
  | constant s next n _ =>
      rw [List.length_append] at room
      exact .constant s next n room
  | roll s count sides _ =>
      rw [List.length_append] at room
      exact .roll s count sides room

/-- **A chain of moves can be made under any cap that has room for the terms it leaves.** -/
theorem Moves.under (h : Moves max r ts r') (room : r'.terms.length ≤ max') :
    Moves max' r ts r' := by
  induction h with
  | nil r => exact .nil r
  | cons head tail ih => exact .cons (head.under (Nat.le_trans tail.length_mono room)) (ih room)

lemma Move.unique (h : Move max r t mid) (h' : Move max' r t r') : mid = r' := by
  cases h <;> cases h' <;> rfl

/-- **Where moves lead does not depend on the cap.** -/
theorem Moves.unique (h : Moves max r ts mid) (h' : Moves max' r ts r') : mid = r' := by
  induction h with
  | nil r => cases h'; rfl
  | cons head _ ih =>
      cases h' with
      | cons head' tail' =>
          rw [← head.unique head'] at tail'
          exact ih tail'

/-- Where a token is refused no move goes on, under whatever cap. -/
lemma Refused.not_moves (h : Refused mid.awaiting t found) (hread : Moves max r ts mid) :
    ¬ Moves max' r (ts ++ t :: us) r' := by
  intro hmoves
  obtain ⟨other, hfront, hback⟩ := hmoves.exists_of_append
  obtain rfl : mid = other := hread.unique hfront
  cases hback with
  | cons head _ => exact h.not_move head

namespace Reading

lemma step_eq_termCap {l : Lexeme} (h : Move max r l.token r') (low : r.terms.length ≤ max')
    (high : max' < r'.terms.length) : r.step max' l = .error (.termCap max') := by
  obtain ⟨t, p⟩ := l
  have hfull : ∀ (term : Term) (next : Awaiting), r.terms.length = max' →
      complete max' r.terms term next = .error (.termCap max') := by
    intro term next heq
    rw [complete, if_neg (by omega)]
  dsimp only at h
  cases h with
  | sign s => exact absurd low (Nat.not_le.mpr high)
  | bare s => exact absurd low (Nat.not_le.mpr high)
  | number s n => exact absurd low (Nat.not_le.mpr high)
  | mark s n => exact absurd low (Nat.not_le.mpr high)
  | constant s next n _ =>
      rw [List.length_append, List.length_singleton] at high
      exact hfull (.constant s n) (.operand next) (by dsimp only at low ⊢; omega)
  | roll s count sides _ =>
      rw [List.length_append, List.length_singleton] at high
      exact hfull (.roll s _ _) .sign (by dsimp only at low ⊢; omega)

/-- **Moves for which a cap has no room** are stopped by it. -/
theorem feed_eq_termCap {ls : List Lexeme} :
    ∀ {r : Reading}, Moves max r (ls.map (·.token)) r' → r.terms.length ≤ max' →
      max' < r'.terms.length → r.feed max' ls = .error (.termCap max') := by
  induction ls with
  | nil =>
      intro r h low high
      cases h
      exact absurd low (Nat.not_le.mpr high)
  | cons l ls ih =>
      intro r h low high
      cases h with
      | @cons _ mid _ _ _ head tail =>
          by_cases hmid : mid.terms.length ≤ max'
          · rw [feed_cons_of_ok (step_eq_ok_iff.mpr (head.under hmid))]
            exact ih tail hmid high
          · exact feed_cons_of_error (step_eq_termCap head low (Nat.lt_of_not_le hmid)) ls

/-! ## Many tokens -/

/-- **A reading that is stopped by a token** has read all that stands in front of it. -/
theorem feed_eq_unexpected_iff {ls : List Lexeme} {p : Place} :
    ∀ {r : Reading}, r.feed max ls = .error (.unexpected found p) ↔
      ∃ front l back mid, ls = front ++ l :: back ∧ Moves max r (front.map (·.token)) mid ∧
        Refused mid.awaiting l.token found ∧ p = l.place := by
  induction ls with
  | nil =>
      intro r
      constructor
      · intro h
        cases h
      · rintro ⟨front, l, back, mid, h, -⟩
        simp at h
  | cons k ls ih =>
      intro r
      constructor
      · intro h
        cases hstep : r.step max k with
        | error why =>
            rw [feed_cons_of_error hstep] at h
            rw [h] at hstep
            obtain ⟨hrefused, hp⟩ := step_eq_unexpected_iff.mp hstep
            exact ⟨[], k, ls, r, rfl, .nil r, hrefused, hp⟩
        | ok next =>
            rw [feed_cons_of_ok hstep] at h
            obtain ⟨front, l, back, mid, rfl, hread, hrefused, hp⟩ := ih.mp h
            have hall := Moves.cons (step_eq_ok_iff.mp hstep) hread
            exact ⟨k :: front, l, back, mid, rfl, hall, hrefused, hp⟩
      · rintro ⟨front, l, back, mid, hls, hread, hrefused, hp⟩
        cases front with
        | nil =>
            obtain ⟨rfl, rfl⟩ := List.cons.inj hls
            cases hread
            exact feed_cons_of_error (step_eq_unexpected_iff.mpr ⟨hrefused, hp⟩) ls
        | cons f front =>
            obtain ⟨rfl, rfl⟩ := List.cons.inj hls
            cases hread with
            | cons head tail =>
                rw [feed_cons_of_ok (step_eq_ok_iff.mpr head)]
                exact ih.mpr ⟨front, l, back, mid, rfl, tail, hrefused, hp⟩

end Reading

/-! ## Whole texts -/

/-- The tokens of a text, in order. -/
def tokens (cs : List Char) : List Token := (pieces cs).map Token.ofPiece

lemma map_token_scan (s : String) : (Lexeme.scan s).map (·.token) = tokens s.toList :=
  Lexeme.map_token_locate 0 _

/-- The sign that is understood in front of tokens, if there is one. -/
def lead (ts : List Token) : List Token :=
  if ts.head? = some (.sign .minus) then [] else [.sign .plus]

lemma lead_of_ne (h : ts.head? ≠ some (.sign .minus)) : lead ts = [.sign .plus] := if_neg h

/-- What is behind the first token has no say in it. -/
lemma lead_append_cons (ts us : List Token) (t : Token) :
    lead (ts ++ t :: us) = lead (ts ++ [t]) := by
  cases ts <;> rfl

lemma framedTokens_eq (cs : List Char) :
    framedTokens cs = lead (tokens cs) ++ tokens cs ++ [.sign .plus] := rfl

lemma exists_framed (s : String) :
    ∃ opening : List Lexeme, framed s = opening ++ Lexeme.scan s ++ [impliedPlus s] ∧
      opening.map (·.token) = lead (tokens s.toList) := by
  refine ⟨_, rfl, ?_⟩
  rw [lead, ← map_token_scan, List.head?_map]
  split <;> rfl

/-- **Where the reading of a text stops**, with the lexemes that have been read up to there: at the
next lexeme, or at the plus that is understood at the end. -/
inductive Stop (max : Nat) (s : String) (found : Token) : List Lexeme → Place → Prop where
  | lexeme {front back : List Lexeme} {l : Lexeme} {mid : Reading}
      (hscan : Lexeme.scan s = front ++ l :: back)
      (hread : Moves max Reading.start (lead (tokens s.toList) ++ front.map (·.token)) mid)
      (hrefused : Refused mid.awaiting l.token found) : Stop max s found front l.place
  | ending {mid : Reading}
      (hread : Moves max Reading.start (lead (tokens s.toList) ++ tokens s.toList) mid)
      (hrefused : Refused mid.awaiting (.sign .plus) found) :
      Stop max s found (Lexeme.scan s) (.ending s)

lemma not_refused_start {next : Sign} : ¬ Refused Reading.start.awaiting (.sign next) found := by
  intro h
  obtain ⟨s, _, ha, -⟩ := h.eq_wide rfl
  cases ha

/-! ## Characters outside ASCII -/

lemma width_of_ascii {cs : List Char} (h : ∀ c ∈ cs, isAscii c = true) : width cs = cs.length := by
  induction cs with
  | nil => exact width_nil
  | cons c cs ih =>
      have hc : c.val ≤ 127 := by
        have hlt : c.toNat < 128 := of_decide_eq_true (h c (by simp))
        exact Nat.le_of_lt_succ hlt
      have hone : width [c] = 1 := by
        rw [width, ← String.singleton_eq_ofList, String.utf8ByteSize_singleton]
        exact Char.utf8Size_eq_one_iff.mpr hc
      have hrest := ih fun a ha => h a (by simp [ha])
      rw [← List.singleton_append, width_append, hone, hrest, List.length_append,
        List.length_singleton]

/-- **The first character outside ASCII** and its place. -/
lemma exists_of_foreign {s : String} {p : Place} (h : foreign? s = some p) :
    ∃ front c back, s.toList = front ++ c :: back ∧ (∀ a ∈ front, isAscii a = true) ∧
      isAscii c = false ∧ p = ⟨width front, String.ofList [c]⟩ := by
  rw [foreign?] at h
  split at h
  case h_1 => cases h
  case h_2 c back hdrop =>
    have hfront : ∀ a ∈ s.toList.takeWhile isAscii, isAscii a = true :=
      fun a ha => List.mem_takeWhile_imp ha
    refine ⟨s.toList.takeWhile isAscii, c, back, ?_, hfront, ?_, ?_⟩
    · rw [← hdrop, List.takeWhile_append_dropWhile]
    · have hhead := List.head?_dropWhile_not isAscii s.toList
      rw [hdrop] at hhead
      simpa using hhead
    · rw [← Option.some.inj h, width_of_ascii hfront, String.singleton_eq_ofList]

lemma readTerms_of_foreign {s : String} {p : Place} (h : foreign? s = some p) (max : Nat) :
    readTerms max s = .error (.unexpected .stray p) := by
  rw [readTerms, h]

/-! ## Texts of ASCII -/

lemma readTerms_of_ascii {s : String} (hascii : ∀ c ∈ s.toList, isAscii c = true) (max : Nat) :
    readTerms max s = (Reading.start.feed max (framed s)).map Reading.terms := by
  rw [readTerms, foreign?_eq_none_iff.mpr hascii]
  dsimp only
  cases Reading.start.feed max (framed s) <;> rfl

/-- The sign that is understood in front is always read. -/
lemma exists_moves_lead (max : Nat) (ts : List Token) :
    ∃ r, Moves max Reading.start (lead ts) r := by
  rw [lead]
  split
  case isTrue => exact ⟨_, .nil _⟩
  case isFalse => exact ⟨_, .singleton (.sign [] .plus)⟩

/-- **The reading of a text stops at a token** exactly where a stop is. -/
lemma feed_framed_eq_unexpected_iff {s : String} {p : Place} :
    Reading.start.feed max (framed s) = .error (.unexpected found p) ↔
      ∃ front, Stop max s found front p := by
  obtain ⟨opening, hframed, hopening⟩ := exists_framed s
  rw [hframed]
  constructor
  · intro h
    obtain ⟨first, hlead⟩ := exists_moves_lead max (tokens s.toList)
    have hfirst : Reading.start.feed max opening = .ok first :=
      Reading.feed_eq_ok_iff.mpr (hopening ▸ hlead)
    rw [List.append_assoc, Reading.feed_append_of_ok hfirst] at h
    cases hscan : first.feed max (Lexeme.scan s) with
    | error why =>
        rw [Reading.feed_append_of_error hscan] at h
        rw [h] at hscan
        obtain ⟨front, l, back, mid, hsplit, hread, hrefused, rfl⟩ :=
          Reading.feed_eq_unexpected_iff.mp hscan
        exact ⟨front, .lexeme hsplit (hlead.append hread) hrefused⟩
    | ok mid =>
        rw [Reading.feed_append_of_ok hscan] at h
        obtain ⟨front, l, back, last, hsplit, hread, hrefused, rfl⟩ :=
          Reading.feed_eq_unexpected_iff.mp h
        -- there is only the one sign at the end
        cases front with
        | cons f front => simp at hsplit
        | nil =>
            obtain ⟨rfl, -⟩ := List.cons.inj hsplit
            cases hread
            have hread := hlead.append (Reading.feed_eq_ok_iff.mp hscan)
            rw [map_token_scan] at hread
            exact ⟨Lexeme.scan s, .ending hread hrefused⟩
  · rintro ⟨front, hstop⟩
    rw [Reading.feed_eq_unexpected_iff]
    cases hstop with
    | @lexeme _ back l mid hscan hread hrefused =>
        refine ⟨opening ++ front, l, back ++ [impliedPlus s], mid, ?_, ?_, hrefused, rfl⟩
        · rw [hscan]
          simp
        · rw [List.map_append, hopening]
          exact hread
    | @ending mid hread hrefused =>
        refine ⟨opening ++ Lexeme.scan s, impliedPlus s, [], mid, rfl, ?_, hrefused, rfl⟩
        rw [List.map_append, hopening, map_token_scan]
        exact hread

/-- A text of ASCII is refused for what its lexemes are refused for. -/
lemma readTerms_eq_error_iff_feed {s : String} (hascii : ∀ c ∈ s.toList, isAscii c = true)
    {why : ReadFault} :
    readTerms max s = .error why ↔ Reading.start.feed max (framed s) = .error why := by
  rw [readTerms_of_ascii hascii]
  cases Reading.start.feed max (framed s) with
  | ok r => exact iff_of_false (fun h => by cases h) (fun h => by cases h)
  | error other =>
      constructor
      · exact fun h => congrArg Except.error (Except.error.inj h)
      · exact fun h => congrArg Except.error (Except.error.inj h)

/-- **Where reading stops** in a text of ASCII. -/
theorem readTerms_eq_unexpected_iff {s : String} (hascii : ∀ c ∈ s.toList, isAscii c = true)
    {p : Place} :
    readTerms max s = .error (.unexpected found p) ↔ ∃ front, Stop max s found front p := by
  rw [readTerms_eq_error_iff_feed hascii, feed_framed_eq_unexpected_iff]

/-! ## What stands in front of a stop -/

/-- The token that has led to what is awaited, if it was the last one. -/
def Awaiting.Follows : Awaiting → Token → Prop
  | .sign, t => ∃ n, t = .number n
  | .operand s, t => t = .sign s
  | .mark _ n, t => t = .number n
  | .sides .., t => t = .cabbage

lemma Move.follows (h : Move max r t r') : r'.awaiting.Follows t := by
  cases h with
  | sign => rfl
  | bare => rfl
  | number => rfl
  | mark => rfl
  | constant => rfl
  | roll => exact ⟨_, rfl⟩

lemma Moves.exists_of_concat (h : Moves max r (ts ++ [t]) r') :
    ∃ mid, Moves max r ts mid ∧ Move max mid t r' := by
  obtain ⟨mid, hfront, hlast⟩ := h.exists_of_append
  cases hlast with
  | cons head tail =>
      cases tail
      exact ⟨mid, hfront, head⟩

lemma Moves.follows (h : Moves max r (ts ++ [t]) r') : r'.awaiting.Follows t := by
  obtain ⟨mid, -, hlast⟩ := h.exists_of_concat
  exact hlast.follows

lemma Moves.follows_of_singleton (h : Moves max r [t] r') : r'.awaiting.Follows t := by
  rw [← List.nil_append [t]] at h
  exact h.follows

/-- **Reading never stops at a number**: there is none at its start nor behind another number, and
anywhere else a number may stand. -/
theorem takes_number {s : String} {front back : List Lexeme} {l : Lexeme} {n : Option UInt64}
    (hscan : Lexeme.scan s = front ++ l :: back) (hl : l.token = .number n)
    (hread : Moves max Reading.start (lead (tokens s.toList) ++ front.map (·.token)) mid) :
    mid.awaiting.takes (.number n) = true := by
  rcases List.eq_nil_or_concat front with rfl | ⟨front, k, rfl⟩
  · have hlead : lead (tokens s.toList) = [.sign .plus] := by
      apply lead_of_ne
      rw [← map_token_scan, hscan, List.nil_append, List.map_cons, List.head?_cons, hl]
      simp
    rw [hlead] at hread
    have hmid : mid.awaiting.Follows (.sign .plus) := hread.follows_of_singleton
    cases ha : mid.awaiting with
    | sign => rw [ha] at hmid; obtain ⟨_, h⟩ := hmid; cases h
    | operand s => rfl
    | mark s n => rw [ha] at hmid; cases hmid
    | sides s count => rfl
  · rw [List.concat_eq_append, List.append_assoc] at hscan
    rw [List.concat_eq_append, List.map_append, ← List.append_assoc] at hread
    have hmid : mid.awaiting.Follows k.token := hread.follows
    cases ha : mid.awaiting with
    | sign =>
        rw [ha] at hmid
        obtain ⟨m, hk⟩ := hmid
        exact absurd hl (Lexeme.not_number_of_scan hscan hk)
    | operand s => rfl
    | mark s m =>
        rw [ha] at hmid
        exact absurd hl (Lexeme.not_number_of_scan hscan hmid)
    | sides s count => rfl

/-! ## The character at which reading stops -/

/-- In front of everything a minus is not refused, and no other token makes a difference to the sign
that is understood there. -/
lemma lead_concat_of_refused (hread : Moves max Reading.start (lead (ts ++ [t]) ++ ts) mid)
    (hrefused : Refused mid.awaiting t found) : lead (ts ++ [t]) = lead ts := by
  cases ts with
  | cons u us => rfl
  | nil =>
      refine lead_of_ne fun hminus => ?_
      obtain rfl : t = .sign .minus := Option.some.inj hminus
      cases hread
      exact not_refused_start hrefused

/-- **A character at which reading stops**, or the end of the text, with the moves that have been
made over the text in front of it. -/
inductive Halt (max : Nat) (s : String) (found : Token) : Place → Prop where
  | character {front back : List Char} {c : Char} {mid : Reading}
      (hs : s.toList = front ++ c :: back) (hc : c.isDigit = false)
      (hlead : lead (tokens front ++ [Token.ofPiece [c]]) = lead (tokens front))
      (hread : Moves max Reading.start (lead (tokens front) ++ tokens front) mid)
      (hrefused : Refused mid.awaiting (Token.ofPiece [c]) found) :
      Halt max s found ⟨width front, String.ofList [c]⟩
  | ending {mid : Reading}
      (hread : Moves max Reading.start (lead (tokens s.toList) ++ tokens s.toList) mid)
      (hrefused : Refused mid.awaiting (.sign .plus) found) : Halt max s found (.ending s)

/-- **Reading stops at a single character** or at the end: a lexeme of more than one character would
be a number. -/
theorem Stop.halt {s : String} {front : List Lexeme} {p : Place} (h : Stop max s found front p) :
    Halt max s found p := by
  cases h with
  | ending hread hrefused => exact .ending hread hrefused
  | @lexeme _ back l mid hscan hread hrefused =>
      obtain ⟨before, piece, after, hpieces, rfl, rfl, -⟩ := Lexeme.exists_of_scan hscan
      rw [Lexeme.map_token_locate] at hread
      have hpiece : piece ∈ pieces s.toList := by simp [hpieces]
      have hform : IsPiece piece := isPiece_of_mem_pieces hpiece
      cases hform with
      | literal k =>
          have htakes := takes_number hscan k.ofPiece_digits (by
            rw [Lexeme.map_token_locate]
            exact hread)
          obtain ⟨_, _, -, htoken, -⟩ := hrefused.eq_wide (by
            rw [Lexeme.token_ofPiece, k.ofPiece_digits]
            exact htakes)
          rw [Lexeme.token_ofPiece, k.ofPiece_digits] at htoken
          cases htoken
      | @single c hc =>
          have hfront : tokens before.flatten = before.map Token.ofPiece := by
            rw [tokens, pieces_flatten_front hpieces]
          have htokens : tokens s.toList =
              tokens before.flatten ++ Token.ofPiece [c] :: after.map Token.ofPiece := by
            rw [hfront, tokens, hpieces, List.map_append, List.map_cons]
          have hs : s.toList = before.flatten ++ c :: after.flatten := by
            rw [← flatten_pieces s.toList, hpieces]
            simp
          rw [htokens, lead_append_cons, ← hfront] at hread
          rw [Lexeme.token_ofPiece] at hrefused
          have hlead := lead_concat_of_refused hread hrefused
          rw [hlead] at hread
          exact .character hs hc hlead hread hrefused

end CabbageFormula
