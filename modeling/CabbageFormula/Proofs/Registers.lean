import CabbageFormula.Proofs.Grammar
import CabbageFormula.Proofs.Tiling

/-!
# Reading with registers

A reader that keeps what it knows in four registers: what it expects, a sign, a number and the
completed terms.  The sign and the number are shared by all the terms of a text and are never
cleared, so a register can still hold what an earlier term left in it.  This reader is the one of
`Reading`, where what is known of the term in progress is part of what is awaited and nothing can
be left over; and whenever one of its registers is read, the term in progress has written it.

* `Registers`, `Registers.step`, `Registers.feed`, `Registers.readTerms` — the reader, with a last
  fault for a text that has come to its end without a term.
* `Registers.reading`, `Registers.map_reading_feed` — **what the registers mean**: with everything
  else forgotten, reading with registers is reading.
* `Registers.Turn`, `Registers.turn_of_step` — what a step writes, and what it leaves as it was.
* `Registers.Holds` — what the registers hold of the pieces of the term in progress.
* `registers_never_stale` — they hold that and nothing else, and the last fault never comes.
-/

namespace CabbageFormula

/-! ## The reader -/

/-- **What the reader expects.** -/
inductive Expecting where
  /-- A sign: at the start, and after a roll. -/
  | sign
  /-- A number or a cabbage mark, behind a sign. -/
  | operand
  /-- A cabbage mark or the next sign, behind a number. -/
  | mark
  /-- A number of sides, behind a cabbage mark. -/
  | sides
deriving DecidableEq

/-- **All that the reader remembers.** -/
structure Registers where
  expecting : Expecting
  sign : Sign
  number : Option UInt64
  /-- The completed terms, in the order of the text. -/
  terms : List Term
deriving DecidableEq

namespace Registers

/-- Before anything has been read. -/
def start : Registers := ⟨.sign, .plus, none, []⟩

/-- Adds a completed term, unless the cap is reached. -/
def complete (max : Nat) (m : Registers) (term : Term) : Except ReadFault Registers :=
  if m.terms.length < max then .ok { m with terms := m.terms ++ [term] } else .error (.termCap max)

/-- **Reads one lexeme.**  A step writes the registers that its lexeme is about, and no others. -/
def step (max : Nat) (m : Registers) (l : Lexeme) : Except ReadFault Registers :=
  match m.expecting, l.token with
  | .sign, .sign s => .ok { m with expecting := .operand, sign := s }
  | .operand, .cabbage => .ok { m with expecting := .sides, number := some 1 }
  | .operand, .number n => .ok { m with expecting := .mark, number := n }
  | .mark, .cabbage => .ok { m with expecting := .sides }
  | .mark, .sign next =>
    match m.number with
    | none => .error (.unexpected (.number none) l.place)
    | some n =>
      (m.complete max (.constant m.sign n)).map
        fun m => { m with expecting := .operand, sign := next }
  | .sides, .number sides =>
    (m.complete max (.roll m.sign (m.number.getD Word.top) (sides.getD Word.top))).map
      fun m => { m with expecting := .sign }
  | _, found => .error (.unexpected found l.place)

/-- **Reads lexemes one after the other**, up to the first that is refused. -/
def feed (max : Nat) (m : Registers) (ls : List Lexeme) : Except ReadFault Registers :=
  ls.foldlM (step max) m

/-- **The terms of a text**, of which there must be one at the end. -/
def readTerms (max : Nat) (s : String) : Except ReadFault (List Term) :=
  match foreign? s with
  | some place => .error (.unexpected .stray place)
  | none =>
    match start.feed max (framed s) with
    | .error why => .error why
    | .ok m =>
      if m.terms = [] then .error (.unexpected (.sign .plus) (.ending s)) else .ok m.terms

/-! ## What the registers mean -/

/-- **What the registers mean**: only those count that will be read before they are written. -/
def reading (m : Registers) : Reading :=
  match m.expecting with
  | .sign => ⟨.sign, m.terms⟩
  | .operand => ⟨.operand m.sign, m.terms⟩
  | .mark => ⟨.mark m.sign m.number, m.terms⟩
  | .sides => ⟨.sides m.sign m.number, m.terms⟩

lemma terms_reading (m : Registers) : m.reading.terms = m.terms := by
  rw [reading]
  split <;> rfl

/-- A term is completed under the same cap. -/
lemma map_reading_complete (max : Nat) {m : Registers} {t : Term} {f : Registers → Registers}
    {next : Awaiting}
    (hf : (f { m with terms := m.terms ++ [t] }).reading = ⟨next, m.terms ++ [t]⟩) :
    ((m.complete max t).map f).map reading = Reading.complete max m.terms t next := by
  rw [complete, Reading.complete]
  split
  case isTrue => exact congrArg Except.ok hf
  case isFalse => rfl

/-- **A step with registers is a step of reading**, and they are refused for the same fault. -/
lemma map_reading_step (max : Nat) (m : Registers) (l : Lexeme) :
    (m.step max l).map reading = m.reading.step max l := by
  obtain ⟨e, s, n, ts⟩ := m
  obtain ⟨t, p⟩ := l
  -- a term is completed in two of the rows, all others agree as they stand
  cases e with
  | sign => cases t <;> rfl
  | operand => cases t <;> rfl
  | mark =>
      cases t with
      | sign next =>
          cases n with
          | none => rfl
          | some n => exact map_reading_complete max rfl
      | number n => rfl
      | cabbage => rfl
      | stray => rfl
  | sides =>
      cases t with
      | number sides => exact map_reading_complete max rfl
      | cabbage => rfl
      | sign next => rfl
      | stray => rfl

/-- **Reading with registers is reading.** -/
theorem map_reading_feed (max : Nat) (m : Registers) (ls : List Lexeme) :
    (m.feed max ls).map reading = m.reading.feed max ls := by
  induction ls generalizing m with
  | nil => rfl
  | cons l ls ih =>
      have hstep := map_reading_step max m l
      cases h : m.step max l with
      | error why =>
          rw [h] at hstep
          rw [Reading.feed_cons_of_error hstep.symm, feed, List.foldlM_cons, h]
          rfl
      | ok next =>
          rw [h] at hstep
          rw [Reading.feed_cons_of_ok hstep.symm, ← ih, feed, List.foldlM_cons, h]
          rfl

lemma feed_reading_of_ok {max : Nat} {m m' : Registers} {ls : List Lexeme}
    (h : m.feed max ls = .ok m') : m.reading.feed max ls = .ok m'.reading := by
  rw [← map_reading_feed, h]
  rfl

/-! ## What a step writes -/

/-- **A step that is not refused**, with what it leaves as it was. -/
inductive Turn : Registers → Token → Registers → Prop where
  | sign (old : Sign) (n : Option UInt64) (ts : List Term) (s : Sign) :
      Turn ⟨.sign, old, n, ts⟩ (.sign s) ⟨.operand, s, n, ts⟩
  | bare (s : Sign) (old : Option UInt64) (ts : List Term) :
      Turn ⟨.operand, s, old, ts⟩ .cabbage ⟨.sides, s, some 1, ts⟩
  | number (s : Sign) (old : Option UInt64) (ts : List Term) (n : Option UInt64) :
      Turn ⟨.operand, s, old, ts⟩ (.number n) ⟨.mark, s, n, ts⟩
  | mark (s : Sign) (n : Option UInt64) (ts : List Term) :
      Turn ⟨.mark, s, n, ts⟩ .cabbage ⟨.sides, s, n, ts⟩
  | constant (s : Sign) (n : UInt64) (ts : List Term) (next : Sign) :
      Turn ⟨.mark, s, some n, ts⟩ (.sign next) ⟨.operand, next, some n, ts ++ [.constant s n]⟩
  | roll (s : Sign) (count : Option UInt64) (ts : List Term) (sides : Option UInt64) :
      Turn ⟨.sides, s, count, ts⟩ (.number sides)
        ⟨.sign, s, count, ts ++ [.roll s (count.getD Word.top) (sides.getD Word.top)]⟩

lemma eq_of_complete {max : Nat} {m m' : Registers} {t : Term} {f : Registers → Registers}
    (h : (m.complete max t).map f = .ok m') : f { m with terms := m.terms ++ [t] } = m' := by
  rw [complete] at h
  split at h
  case isTrue => exact Except.ok.inj h
  case isFalse => cases h

lemma turn_of_step {max : Nat} {m m' : Registers} {l : Lexeme} (h : m.step max l = .ok m') :
    Turn m l.token m' := by
  obtain ⟨e, s, n, ts⟩ := m
  obtain ⟨t, p⟩ := l
  -- only the two completed terms leave an equation that is not between constructors
  cases e with
  | sign =>
      cases t with
      | sign next => cases h; exact Turn.sign s n ts next
      | _ => cases h
  | operand =>
      cases t with
      | cabbage => cases h; exact Turn.bare s n ts
      | number k => cases h; exact Turn.number s n ts k
      | _ => cases h
  | mark =>
      cases t with
      | cabbage => cases h; exact Turn.mark s n ts
      | sign next =>
          cases n with
          | none => cases h
          | some n => exact eq_of_complete h ▸ Turn.constant s n ts next
      | _ => cases h
  | sides =>
      cases t with
      | number sides => exact eq_of_complete h ▸ Turn.roll s n ts sides
      | _ => cases h

/-- What a turn writes depends on nothing but the registers and the token. -/
lemma Turn.unique {m a b : Registers} {t : Token} (ha : Turn m t a) (hb : Turn m t b) : a = b := by
  cases ha <;> cases hb <;> rfl

/-- **A sign is expected behind a roll only**, and then the last term is what the registers still
hold. -/
lemma Turn.last_roll {m m' : Registers} {t : Token} (h : Turn m t m')
    (hsign : m'.expecting = .sign) :
    ∃ ts sides, m'.terms = ts ++ [.roll m'.sign (m'.number.getD Word.top) sides] := by
  cases h with
  | roll s count ts sides => exact ⟨ts, _, rfl⟩
  | _ => cases hsign

/-! ## What a run of steps writes -/

variable {max : Nat} {m m' : Registers}

/-- One computation behind another succeeds if the first does, and the second with its result. -/
lemma bind_eq_ok_iff {ε α β : Type} {x : Except ε α} {f : α → Except ε β} {b : β} :
    x >>= f = .ok b ↔ ∃ a, x = .ok a ∧ f a = .ok b := by
  cases x with
  | error why =>
      constructor
      · intro h
        cases h
      · rintro ⟨a, ha, -⟩
        cases ha
  | ok a =>
      constructor
      · intro h
        exact ⟨a, rfl, h⟩
      · rintro ⟨a', ha', h⟩
        cases ha'
        exact h

lemma feed_cons_eq_ok_iff {l : Lexeme} {ls : List Lexeme} :
    m.feed max (l :: ls) = .ok m' ↔ ∃ mid, m.step max l = .ok mid ∧ mid.feed max ls = .ok m' := by
  rw [feed, List.foldlM_cons]
  exact bind_eq_ok_iff

lemma feed_concat_eq_ok_iff {l : Lexeme} {ls : List Lexeme} :
    m.feed max (ls ++ [l]) = .ok m' ↔ ∃ mid, m.feed max ls = .ok mid ∧ mid.step max l = .ok m' := by
  rw [feed, List.foldlM_append, bind_eq_ok_iff]
  simp only [List.foldlM_cons, List.foldlM_nil, bind_pure]
  rfl

/-- **The registers are determined by the tokens**, wherever these stand and whatever the cap. -/
theorem feed_unique {max' : Nat} {a b : Registers} {ls ls' : List Lexeme}
    (htokens : ls.map (·.token) = ls'.map (·.token)) (ha : m.feed max ls = .ok a)
    (hb : m.feed max' ls' = .ok b) : a = b := by
  induction ls generalizing m ls' with
  | nil =>
      obtain rfl := List.map_eq_nil_iff.mp htokens.symm
      cases ha
      cases hb
      rfl
  | cons l ls ih =>
      obtain ⟨l', ls', rfl, hl, hls⟩ := List.map_eq_cons_iff.mp htokens.symm
      obtain ⟨mid, hstep, hrest⟩ := feed_cons_eq_ok_iff.mp ha
      obtain ⟨mid', hstep', hrest'⟩ := feed_cons_eq_ok_iff.mp hb
      have hturn' := turn_of_step hstep'
      rw [hl] at hturn'
      obtain rfl := (turn_of_step hstep).unique hturn'
      exact ih hls.symm hrest hrest'

lemma last_roll_of_feed {ls : List Lexeme} (h : m.feed max ls = .ok m') (hne : ls ≠ [])
    (hsign : m'.expecting = .sign) :
    ∃ ts sides, m'.terms = ts ++ [.roll m'.sign (m'.number.getD Word.top) sides] := by
  obtain ⟨front, l, rfl⟩ := (List.eq_nil_or_concat' ls).resolve_left hne
  obtain ⟨mid, -, hstep⟩ := feed_concat_eq_ok_iff.mp h
  exact (turn_of_step hstep).last_roll hsign

end Registers

/-! ## What has been read -/

/-- **The spelling of a lexeme**: its characters, or a plus if the sign is understood. -/
def Lexeme.spelling (l : Lexeme) : List Char :=
  if l.chars = [] then [Sign.plus.char] else l.chars

lemma Lexeme.spelling_impliedPlus (s : String) : (impliedPlus s).spelling = [Sign.plus.char] :=
  rfl

/-- What is read of a text is spelled in pieces, with the signs that are understood. -/
lemma isPiece_spelling {s : String} {l : Lexeme} (h : l ∈ framed s) :
    IsPiece l.spelling ∧ l.token = Token.ofPiece l.spelling := by
  have hcases : l ∈ Lexeme.scan s ∨ l = impliedPlus s := by
    simp only [framed, List.mem_append, List.mem_singleton] at h
    rcases h with (hopening | hscan) | hclosing
    · split at hopening
      · cases hopening
      · exact .inr (List.mem_singleton.mp hopening)
    · exact .inl hscan
    · exact .inr hclosing
  rcases hcases with hscan | rfl
  · rw [Lexeme.spelling, if_neg ((isLexing_scan s).chars_ne_nil hscan)]
    exact (isLexing_scan s).isPiece hscan
  · rw [Lexeme.spelling_impliedPlus]
    exact ⟨.single Sign.plus.isDigit_char, rfl⟩

lemma map_token_eq_map_spelling {s : String} {ls : List Lexeme} (h : ∀ l ∈ ls, l ∈ framed s) :
    ls.map (·.token) = (ls.map Lexeme.spelling).map Token.ofPiece := by
  rw [List.map_map]
  exact List.map_congr_left fun l hl => (isPiece_spelling (h l hl)).2

/-- **Reading accounts for the spelling of what it has read.** -/
lemma accounts_of_feed {max : Nat} {s : String} {ls : List Lexeme} {r : Reading}
    (hls : ∀ l ∈ ls, l ∈ framed s) (h : Reading.start.feed max ls = .ok r) :
    r.Accounts (ls.map Lexeme.spelling) := by
  have hmoves := Reading.feed_eq_ok_iff.mp h
  rw [map_token_eq_map_spelling hls] at hmoves
  have hpieces : ∀ p ∈ ls.map Lexeme.spelling, IsPiece p := by
    intro p hp
    obtain ⟨l, hl, rfl⟩ := List.mem_map.mp hp
    exact (isPiece_spelling (hls l hl)).1
  exact hmoves.accounts hpieces Reading.accounts_start

namespace Registers

/-- **What the registers hold of the term in progress**: its own sign, and its own number, which is
one where there is a mark and no count. -/
inductive Holds (m : Registers) : List (List Char) → Prop where
  | sign (h : m.expecting = .sign) : Holds m []
  | operand (h : m.expecting = .operand) : Holds m [[m.sign.char]]
  | mark (h : m.expecting = .mark) (l : Literal) (own : Carries l.digits m.number) :
      Holds m [[m.sign.char], l.digits]
  | bare (h : m.expecting = .sides) (one : m.number = some 1) : Holds m [[m.sign.char], ['c']]
  | counted (h : m.expecting = .sides) (l : Literal) (own : Carries l.digits m.number) :
      Holds m [[m.sign.char], l.digits, ['c']]

/-- What is known of the term in progress is what the registers hold of it. -/
lemma holds_of_spells {m : Registers} {begun : List (List Char)}
    (h : m.reading.awaiting.Spells begun) : m.Holds begun := by
  obtain ⟨e, s, n, ts⟩ := m
  cases e with
  | sign =>
      cases h
      exact .sign rfl
  | operand =>
      cases h
      exact .operand rfl
  | mark =>
      cases h with
      | mark _ l hl => exact .mark rfl l (carries_iff.mpr hl.symm)
  | sides =>
      cases h with
      | bare => exact .bare rfl rfl
      | counted _ l hl => exact .counted rfl l (carries_iff.mpr hl.symm)

/-! ## The end of a text -/

/-- There is something to read in front of the sign that closes a text. -/
lemma exists_body (s : String) : ∃ body, body ≠ [] ∧ framed s = body ++ [impliedPlus s] := by
  refine ⟨_, ?_, rfl⟩
  split
  case isTrue hminus =>
    intro hnil
    rw [List.nil_append] at hnil
    rw [hnil] at hminus
    cases hminus
  case isFalse => simp

/-- **A text that has come to its end has a term.** -/
theorem terms_ne_nil {max : Nat} {s : String} {m : Registers}
    (h : start.feed max (framed s) = .ok m) : m.terms ≠ [] := by
  obtain ⟨body, hne, hbody⟩ := exists_body s
  rw [hbody, feed_concat_eq_ok_iff] at h
  obtain ⟨mid, hfeed, hstep⟩ := h
  have hturn : Turn mid (.sign .plus) m := turn_of_step hstep
  -- the sign that closes the text is read behind a roll, or it completes a constant
  cases hturn with
  | sign old n ts =>
      obtain ⟨front, sides, hlast⟩ := last_roll_of_feed hfeed hne rfl
      exact hlast ▸ List.append_ne_nil_of_right_ne_nil _ (List.cons_ne_nil _ _)
  | constant s' n ts => exact List.append_ne_nil_of_right_ne_nil _ (List.cons_ne_nil _ _)

lemma readTerms_eq (max : Nat) (s : String) :
    readTerms max s = CabbageFormula.readTerms max s := by
  have hreading : Reading.start.feed max (framed s) = _ :=
    (map_reading_feed max start (framed s)).symm
  rw [readTerms, CabbageFormula.readTerms, hreading]
  cases foreign? s with
  | some place => rfl
  | none =>
      cases hfeed : start.feed max (framed s) with
      | error why => rfl
      | ok m => simp only [Except.map, if_neg (terms_ne_nil hfeed), terms_reading]

end Registers

/-- **No register is ever read stale.**  Reading with registers is reading, lexeme by lexeme, and
so are its results.  Whenever a beginning of a text has been read without a fault, with the signs
that are understood, its spelling is that of whole summands and of one that is begun; the terms are
those of the summands, and the sign and the number are what is spelled of the one that is begun.  A
sign is expected only at the very start or behind a roll, so that there is a term.  The same
spelling leaves the same registers, in whatever text and under whatever cap.  So there is a term
when the sign that closes a text has been read, and the last fault of the reader never comes. -/
theorem registers_never_stale (max : Nat) (s : String) :
    (∀ ls, Reading.start.feed max ls = (Registers.start.feed max ls).map Registers.reading) ∧
    (∀ (front back : List Lexeme) (m : Registers), framed s = front ++ back →
      Registers.start.feed max front = .ok m →
        (∃ (done : List Summand) (begun : List (List Char)),
          front.map Lexeme.spelling = done.flatMap Summand.pieces ++ begun ∧
          m.terms = done.map Summand.term ∧ m.Holds begun) ∧
        (m.expecting = .sign → front ≠ [] →
          ∃ ts sides, m.terms = ts ++ [.roll m.sign (m.number.getD Word.top) sides]) ∧
        (∀ (max' : Nat) (s' : String) (front' back' : List Lexeme) (m' : Registers),
          framed s' = front' ++ back' → Registers.start.feed max' front' = .ok m' →
            front'.map Lexeme.spelling = front.map Lexeme.spelling → m' = m)) ∧
    (∀ m, Registers.start.feed max (framed s) = .ok m → m.terms ≠ []) ∧
    Registers.readTerms max s = readTerms max s := by
  have hstart := Registers.map_reading_feed max Registers.start
  refine ⟨fun ls => (hstart ls).symm, ?_, fun m => Registers.terms_ne_nil,
    Registers.readTerms_eq max s⟩
  intro front back m hsplit hfeed
  have hfront : ∀ l ∈ front, l ∈ framed s := fun l hl => by simp [hsplit, hl]
  refine ⟨?_, fun hsign hne => Registers.last_roll_of_feed hfeed hne hsign, ?_⟩
  · have hreading : Reading.start.feed max front = .ok m.reading :=
      Registers.feed_reading_of_ok hfeed
    obtain ⟨done, begun, hspelling, hspells, hterms, -⟩ := accounts_of_feed hfront hreading
    rw [m.terms_reading] at hterms
    exact ⟨done, begun, hspelling, hterms, Registers.holds_of_spells hspells⟩
  · intro max' s' front' back' m' hsplit' hfeed' hspelling
    have hfront' : ∀ l ∈ front', l ∈ framed s' := fun l hl => by simp [hsplit', hl]
    have htokens : front'.map (·.token) = front.map (·.token) := by
      rw [map_token_eq_map_spelling hfront', hspelling, ← map_token_eq_map_spelling hfront]
    exact Registers.feed_unique htokens hfeed' hfeed

/-- Behind a roll of one cabbage, the number of a count that is too wide is not the one that the
roll has left. -/
theorem registers_never_stale_wide_count :
    (∃ (done : List Summand) (begun : List (List Char)),
      ((framed "c6+18446744073709551616c07-2").take 6).map Lexeme.spelling =
        done.flatMap Summand.pieces ++ begun ∧
      [Term.roll .plus 1 6] = done.map Summand.term ∧
      Registers.Holds ⟨.sides, .plus, none, [.roll .plus 1 6]⟩ begun) ∧
    (∃ m, Registers.start.feed 1 ((framed "c6+18446744073709551616c").take 6) = .ok m ∧
      m = ⟨.sides, .plus, none, [.roll .plus 1 6]⟩) ∧
    (∃ ts sides, [Term.roll .plus 1 6] = ts ++ [.roll .plus 1 sides]) ∧
    [Term.roll .plus 1 6, .roll .plus Word.top 7, .constant .minus 2] ≠ [] ∧
    Registers.readTerms 5 "c6+18446744073709551616c07-2" =
      readTerms 5 "c6+18446744073709551616c07-2" := by
  obtain ⟨-, hfront, hend, hterms⟩ := registers_never_stale 5 "c6+18446744073709551616c07-2"
  obtain ⟨hcount, -, hsame⟩ := hfront _ _ ⟨.sides, .plus, none, [.roll .plus 1 6]⟩
    (List.take_append_drop 6 _).symm (by decide +kernel)
  obtain ⟨-, hroll, -⟩ := hfront _ _ ⟨.sign, .plus, some 1, [.roll .plus 1 6]⟩
    (List.take_append_drop 3 _).symm (by decide +kernel)
  have hother : Registers.start.feed 1 ((framed "c6+18446744073709551616c").take 6) =
      .ok ⟨.sides, .plus, none, [.roll .plus 1 6]⟩ := by decide +kernel
  have hlast : Registers.start.feed 5 (framed "c6+18446744073709551616c07-2") =
      .ok ⟨.operand, .plus, some 2,
        [.roll .plus 1 6, .roll .plus Word.top 7, .constant .minus 2]⟩ := by decide +kernel
  exact ⟨hcount,
    ⟨_, hother, hsame 1 _ _ _ _ (List.take_append_drop 6 _).symm hother (by decide +kernel)⟩,
    hroll rfl (by decide +kernel), hend _ hlast, hterms⟩

end CabbageFormula
