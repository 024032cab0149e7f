import CabbageFormula.Proofs.Lines
import CabbageFormula.Proofs.Replies
import CabbageFormula.Proofs.Screening

/-!
# What is written in a dialogue

A dialogue hears the lines of its bytes up to the first that is not UTF-8.  A line that is not blank
gets the reply of the session, a blank one gets none, and both get a prompt.

* `blank_of_reply_empty` — no formula is told that it is empty but one that is blank.
* `Session.replies` — the replies of a session that is asked for one formula after the other.
* `Console.heard`, `Console.exchanges` — the lines that are heard, each with its reply.
* `Console.Transcript.behind`, `Console.exists_follow_append` — what is written on lines that are
  UTF-8, whatever follows them.
* `Console.exists_parting`, `Console.converse_append_of_broken` — the end at a broken line.
* `Console.Dialogue`, `Console.exists_dialogue` — all that is written, for every input.
-/

namespace CabbageFormula

/-! ## Blank formulas -/

lemma Console.isBlankLine_iff {line : String} : isBlankLine line = true ↔ Blank line :=
  List.all_eq_true

instance : DecidablePred Blank := fun line =>
  decidable_of_iff (Console.isBlankLine line = true) Console.isBlankLine_iff

lemma Formula.blank_of_screen_empty {caps : Caps} {s : String}
    (h : Formula.screen caps s = .error .empty) : Blank s := by
  rw [Formula.screen] at h
  split at h
  case isTrue hempty =>
    subst hempty
    intro c hc
    cases hc
  case isFalse =>
    split at h
    case isTrue => cases h
    case isFalse =>
      split at h
      case isTrue => cases h
      case isFalse =>
        split at h
        case isTrue hstrip => exact Formula.strip_eq_empty_iff.mp hstrip
        case isFalse => cases h

lemma Formula.blank_of_read_empty {caps : Caps} {s : String}
    (h : Formula.read caps s = .error (.screen .empty)) : Blank s := by
  rw [Formula.read] at h
  cases hscreen : Formula.screen caps s with
  | error why =>
      rw [hscreen] at h
      obtain rfl : why = .empty := by simpa using h
      exact Formula.blank_of_screen_empty hscreen
  | ok stripped =>
      simp only [hscreen] at h
      cases hread : readTerms caps.terms.toNat stripped <;> simp [hread] at h

variable {σ : Type} [RollSource σ]

lemma blank_of_attempt_empty {caps : Caps} {s : String} {source : σ}
    (h : (attempt caps s source).result = .error (.screen .empty)) : Blank s := by
  cases hread : Formula.read caps s with
  | error why =>
      rw [attempt_of_error hread] at h
      obtain rfl : why = .screen .empty := by simpa using h
      exact Formula.blank_of_read_empty hread
  | ok terms =>
      rw [attempt_of_ok hread] at h
      cases hrolled : (evaluate caps terms source).1 <;> simp [hrolled, Except.mapError] at h

lemma Rejection.eq_of_kind_empty {why : Rejection} (h : why.kind = .empty) :
    why = .screen .empty := by
  rcases why with (_ | _ | _) | (_ | _) | (_ | _ | _ | _) <;> first | rfl | cases h

/-- **Only a blank formula is told that it is empty.** -/
theorem blank_of_reply_empty {caps : Caps} {s : String} {source : σ}
    (h : (attempt caps s source).reply = (Rejection.screen .empty).message) : Blank s := by
  have halike : Alike (attempt caps s source).result (.error (.screen .empty)) :=
    replyTo_eq_iff.mp h
  generalize hresult : (attempt caps s source).result = result at halike
  cases halike with
  | fault hkind =>
      rw [Rejection.eq_of_kind_empty hkind] at hresult
      exact blank_of_attempt_empty hresult

/-! ## Replies -/

namespace Session

/-- **The replies of a session** that is asked for one formula after the other. -/
def replies (s : Session σ) (formulas : List String) : List String :=
  (s.serveAll (formulas.map .roll)).1.filterMap fun answer => answer.result?.map replyTo

lemma replies_cons (s : Session σ) (formula : String) (rest : List String) :
    s.replies (formula :: rest) =
      (s.attempt formula).reply ::
        { s with source := (s.attempt formula).source : Session σ }.replies rest := rfl

end Session

/-! ## Lines and replies -/

namespace Console

/-- **A line is UTF-8** if it has a text. -/
def Readable (line : List UInt8) : Prop := ∃ text, decode? line = some text

lemma isSome_decode_iff {line : List UInt8} : (decode? line).isSome = true ↔ Readable line :=
  Option.isSome_iff_exists

lemma decode_eq_none_iff {line : List UInt8} : decode? line = none ↔ ¬ Readable line := by
  rw [← isSome_decode_iff, Bool.not_eq_true, Option.isSome_eq_false_iff, Option.isNone_iff_eq_none]

/-- The lines in front of the first that is not UTF-8. -/
def opening (bytes : List UInt8) : List (List UInt8) :=
  (cut bytes).takeWhile fun line => (decode? line).isSome

/-- **The lines that are heard**: the texts of those in front of the first that is not UTF-8. -/
def heard (bytes : List UInt8) : List String := (opening bytes).filterMap decode?

lemma readable_of_mem_opening {bytes line : List UInt8} (h : line ∈ opening bytes) :
    Readable line :=
  isSome_decode_iff.mp (List.mem_takeWhile_imp (p := fun line => (decode? line).isSome) h)

lemma opening_of_readable {bytes : List UInt8} (h : ∀ line ∈ cut bytes, Readable line) :
    opening bytes = lines bytes := by
  rw [opening, lines_eq_cut, List.takeWhile_eq_self_iff]
  exact fun line hline => isSome_decode_iff.mpr (h line hline)

/-- **The first broken line** comes right behind the lines that are heard. -/
lemma exists_first_broken {bytes : List UInt8} (h : ∃ line ∈ cut bytes, ¬ Readable line) :
    ∃ line more, lines bytes = opening bytes ++ line :: more ∧ ¬ Readable line := by
  have hparts : opening bytes ++ (cut bytes).dropWhile (fun line => (decode? line).isSome) =
      cut bytes := List.takeWhile_append_dropWhile
  have hhead := List.head?_dropWhile_not (fun line => (decode? line).isSome) (cut bytes)
  cases hrest : (cut bytes).dropWhile fun line => (decode? line).isSome with
  | nil =>
      -- all lines would be heard
      obtain ⟨line, hline, hbroken⟩ := h
      rw [hrest, List.append_nil] at hparts
      rw [← hparts] at hline
      exact absurd (readable_of_mem_opening hline) hbroken
  | cons line more =>
      rw [hrest] at hhead hparts
      refine ⟨line, more, by rw [lines_eq_cut, hparts], ?_⟩
      rw [← isSome_decode_iff, Bool.not_eq_true]
      exact hhead

/-- The reply to a line, unless it is blank, and the session behind it. -/
def answer (line : String) (s : Session σ) : Option String × Session σ :=
  if Blank line then (none, s)
  else (some (s.attempt line).reply, { s with source := (s.attempt line).source })

/-- **Lines that are heard, each with its reply.** -/
def exchanges : List String → Session σ → List (String × Option String)
  | [], _ => []
  | line :: rest, s => (line, (answer line s).1) :: exchanges rest (answer line s).2

/-- What is written on a line: the reply to it, if it gets one, and the next prompt. -/
def shown : String × Option String → String
  | (_, none) => prompt
  | (_, some reply) => reply ++ "\n" ++ prompt

lemma answer_of_blank {line : String} (h : Blank line) (s : Session σ) :
    answer line s = (none, s) := if_pos h

lemma answer_of_not_blank {line : String} (h : ¬ Blank line) (s : Session σ) :
    answer line s =
      (some (s.attempt line).reply, { s with source := (s.attempt line).source }) := if_neg h

/-- **A line gets a reply unless it is blank**, and it is never told that it is empty. -/
lemma answer_spec (line : String) (s : Session σ) :
    ((answer line s).1 = none ↔ Blank line) ∧
      (answer line s).1 ≠ some (Rejection.screen .empty).message := by
  by_cases h : Blank line
  · rw [answer_of_blank h]
    exact ⟨iff_of_true rfl h, by simp⟩
  · rw [answer_of_not_blank h]
    refine ⟨iff_of_false (by simp) h, ?_⟩
    intro hreply
    exact h (blank_of_reply_empty (Option.some.inj hreply))

lemma map_fst_exchanges (texts : List String) (s : Session σ) :
    (exchanges texts s).map Prod.fst = texts := by
  induction texts generalizing s with
  | nil => rfl
  | cons line rest ih => rw [exchanges, List.map_cons, ih]

/-- **The replies are those of one session**, to the lines that are not blank. -/
lemma filterMap_snd_exchanges (texts : List String) (s : Session σ) :
    (exchanges texts s).filterMap Prod.snd = s.replies (texts.filter (¬ Blank ·)) := by
  induction texts generalizing s with
  | nil => rfl
  | cons line rest ih =>
      by_cases h : Blank line
      · rw [exchanges, answer_of_blank h, List.filterMap_cons, ih,
          List.filter_cons_of_neg (by simpa using h)]
      · rw [exchanges, answer_of_not_blank h, List.filterMap_cons, ih,
          List.filter_cons_of_pos (by simpa using h), Session.replies_cons]

lemma spec_of_mem_exchanges {texts : List String} {turn : String × Option String} :
    ∀ {s : Session σ}, turn ∈ exchanges texts s →
      (turn.2 = none ↔ Blank turn.1) ∧ turn.2 ≠ some (Rejection.screen .empty).message := by
  induction texts with
  | nil =>
      intro s h
      cases h
  | cons line rest ih =>
      intro s h
      rcases List.mem_cons.mp h with rfl | h
      · exact answer_spec line s
      · exact ih h

/-- **The replies find their lines**: it is known which lines get one. -/
lemma eq_of_projections {turns : List (String × Option String)} :
    ∀ {turns' : List (String × Option String)}, turns.map Prod.fst = turns'.map Prod.fst →
      (∀ turn ∈ turns, turn.2 = none ↔ Blank turn.1) →
        (∀ turn ∈ turns', turn.2 = none ↔ Blank turn.1) →
          turns.filterMap Prod.snd = turns'.filterMap Prod.snd → turns = turns' := by
  induction turns with
  | nil =>
      intro turns' hlines _ _ _
      exact (List.map_eq_nil_iff.mp hlines.symm).symm
  | cons turn turns ih =>
      intro turns' hlines hanswered hanswered' hreplies
      obtain ⟨line, reply⟩ := turn
      obtain ⟨⟨line', reply'⟩, turns', rfl, hline, hrest⟩ := List.map_eq_cons_iff.mp hlines.symm
      obtain rfl : line' = line := hline
      obtain ⟨hturn, hturns⟩ := List.forall_mem_cons.mp hanswered
      obtain ⟨hturn', hturns'⟩ := List.forall_mem_cons.mp hanswered'
      have hnone : reply = none ↔ reply' = none := hturn.trans hturn'.symm
      cases reply with
      | none =>
          obtain rfl : reply' = none := hnone.mp rfl
          rw [ih hrest.symm hturns hturns' hreplies]
      | some text =>
          obtain ⟨text', rfl⟩ : ∃ text', reply' = some text' :=
            Option.ne_none_iff_exists'.mp fun h => by cases hnone.mpr h
          obtain ⟨rfl, hmore⟩ := List.cons.inj hreplies
          rw [ih hrest.symm hturns hturns' hmore]

/-! ## What is written -/

/-- **One line**: what is written on it, and the session that is left. -/
lemma exists_takeTurn {line : List UInt8} {text : String} (h : decode? line = some text)
    (s : Session σ) :
    ∃ events, takeTurn? line s =
      some ⟨shown (text, (answer text s).1), events, (answer text s).2⟩ := by
  rw [takeTurn?, h, Option.map_some, respond]
  by_cases hblank : Blank text
  · rw [if_pos (isBlankLine_iff.mpr hblank), answer_of_blank hblank]
    exact ⟨_, rfl⟩
  · rw [if_neg (mt isBlankLine_iff.mp hblank), answer_of_not_blank hblank]
    exact ⟨_, rfl⟩

/-- **A transcript behind something** that was written and noted before. -/
def Transcript.behind (written : String) (events : List Event) (t : Transcript σ) : Transcript σ :=
  { t with output := written ++ t.output, events := events ++ t.events }

lemma Transcript.behind_empty {τ : Type} (t : Transcript τ) : t.behind "" [] = t := by
  rw [behind, String.empty_append, List.nil_append]

lemma Transcript.behind_behind {τ : Type} (w w' : String) (e e' : List Event) (t : Transcript τ) :
    (t.behind w' e').behind w e = t.behind (w ++ w') (e ++ e') := by
  simp only [behind, String.append_assoc, List.append_assoc]

/-- **Lines that are UTF-8**, whatever follows them: their exchanges say what is written on them,
and what follows starts from the session that they leave. -/
lemma exists_follow_append {texts : List String} :
    ∀ {front : List (List UInt8)} (s : Session σ), front.map decode? = texts.map some →
      ∃ (events : List Event) (last : Session σ),
        (∀ back, follow (front ++ back) s =
          (follow back last).behind (String.join ((exchanges texts s).map shown)) events) ∧
        ∀ more, exchanges (texts ++ more) s = exchanges texts s ++ exchanges more last := by
  induction texts with
  | nil =>
      intro front s h
      obtain rfl := List.map_eq_nil_iff.mp h
      exact ⟨[], s, fun back => (Transcript.behind_empty _).symm, fun more => rfl⟩
  | cons text texts ih =>
      intro front s h
      obtain ⟨line, front, rfl, hline, hfront⟩ := List.map_eq_cons_iff.mp h
      obtain ⟨events, hturn⟩ := exists_takeTurn hline s
      obtain ⟨events', last, hfollow, hexchanges⟩ := ih (answer text s).2 hfront
      refine ⟨events ++ events', last, fun back => ?_, fun more => ?_⟩
      · rw [List.cons_append, follow_cons_of_some hturn, hfollow, exchanges, List.map_cons,
          String.join_cons, ← Transcript.behind_behind]
        rfl
      · rw [List.cons_append, exchanges, exchanges, hexchanges, List.cons_append]

lemma map_decode_of_readable {front : List (List UInt8)} (h : ∀ line ∈ front, Readable line) :
    front.map decode? = (front.filterMap decode?).map some := by
  induction front with
  | nil => rfl
  | cons line rest ih =>
      obtain ⟨text, htext⟩ := h line List.mem_cons_self
      rw [List.map_cons, List.filterMap_cons_some htext, List.map_cons, htext,
        ih fun line' hline' => h line' (List.mem_cons_of_mem _ hline')]

/-- **What is written on bytes that begin with given lines**, whatever follows these. -/
lemma exists_converse {front : List (List UInt8)} (h : ∀ line ∈ front, Readable line)
    (s : Session σ) :
    ∃ last : Session σ, ∀ bytes back, lines bytes = front ++ back →
      (converse bytes s).output =
          prompt ++ String.join ((exchanges (front.filterMap decode?) s).map shown) ++
            (follow back last).output ∧
        (converse bytes s).failed = (follow back last).failed := by
  obtain ⟨events, last, hfollow, -⟩ := exists_follow_append s (map_decode_of_readable h)
  refine ⟨last, fun bytes back hlines => ?_⟩
  rw [converse, hlines, hfollow, String.append_assoc]
  exact ⟨rfl, rfl⟩

lemma follow_cons_of_broken {line : List UInt8} (h : ¬ Readable line) (more : List (List UInt8))
    (s : Session σ) : follow (line :: more) s = ⟨"", [], true, s⟩ := by
  refine follow_cons_of_none ?_ more
  rw [takeTurn?, decode_eq_none_iff.mpr h, Option.map_none]

/-! ## Dialogues -/

/-- **Bytes that open with a broken line**: their first line is not UTF-8. -/
def OpensBroken (bytes : List UInt8) : Prop :=
  ∃ line more, cut bytes = line :: more ∧ ¬ Readable line

/-- **Bytes with a broken line are parted in front of the first of them**, and the lines that are
heard are those of the first part. -/
lemma exists_parting {bytes : List UInt8} (h : ∃ line ∈ cut bytes, ¬ Readable line) :
    ∃ front rest, bytes = front ++ rest ∧ Closed front ∧
      (∀ line ∈ cut front, Readable line) ∧ OpensBroken rest ∧ heard bytes = heard front := by
  obtain ⟨line, more, hlines, hline⟩ := exists_first_broken h
  obtain ⟨front, rest, hbytes, hclosed, hfront, hrest⟩ := exists_closed_of_lines hlines
  have hreadable : ∀ line ∈ cut front, Readable line := by
    rw [← lines_eq_cut, hfront]
    exact fun _ => readable_of_mem_opening
  refine ⟨front, rest, hbytes, hclosed, hreadable, ⟨line, more, ?_, hline⟩, ?_⟩
  · rw [← lines_eq_cut, hrest]
  · rw [heard, heard, opening_of_readable hreadable, hfront]

lemma converse_of_readable {bytes : List UInt8} (h : ∀ line ∈ cut bytes, Readable line)
    (s : Session σ) :
    (converse bytes s).output =
        prompt ++ String.join ((exchanges (heard bytes) s).map shown) ++ "\n" ∧
      (converse bytes s).failed = false := by
  have hopening : ∀ line ∈ opening bytes, Readable line := fun _ => readable_of_mem_opening
  obtain ⟨last, hlast⟩ := exists_converse hopening s
  have hlines : lines bytes = opening bytes ++ [] := by
    rw [opening_of_readable h, List.append_nil]
  exact hlast bytes [] hlines

/-- **A broken line is the end**: nothing is written on it, whatever it is and whatever follows. -/
lemma converse_append_of_broken {front rest : List UInt8} (hclosed : Closed front)
    (h : ∀ line ∈ cut front, Readable line) (hopens : OpensBroken rest) (s : Session σ) :
    (converse (front ++ rest) s).output =
        prompt ++ String.join ((exchanges (heard front) s).map shown) ∧
      (converse (front ++ rest) s).failed = true := by
  have hopening : ∀ line ∈ opening front, Readable line := fun _ => readable_of_mem_opening
  obtain ⟨last, hlast⟩ := exists_converse hopening s
  obtain ⟨line, more, hrest, hline⟩ := hopens
  have hlines : lines (front ++ rest) = opening front ++ line :: more := by
    rw [lines_append hclosed, opening_of_readable h, lines_eq_cut rest, hrest]
  obtain ⟨houtput, hfailed⟩ := hlast (front ++ rest) (line :: more) hlines
  rw [follow_cons_of_broken hline] at houtput hfailed
  rw [String.append_empty] at houtput
  exact ⟨houtput, hfailed⟩

/-- **The dialogue over bytes**, as the lines that are heard, each with its reply. -/
structure Dialogue (bytes : List UInt8) (s : Session σ) (turns : List (String × Option String)) :
    Prop where
  /-- There is a turn for each line that is heard, in order. -/
  lines : turns.map Prod.fst = heard bytes
  /-- Just the blank lines get no reply. -/
  answered : ∀ turn ∈ turns, turn.2 = none ↔ Blank turn.1
  /-- The replies are those of one session, to the lines that are not blank. -/
  replies : turns.filterMap Prod.snd = s.replies ((heard bytes).filter (¬ Blank ·))
  /-- No line is told that it is empty. -/
  never_empty : ∀ turn ∈ turns, turn.2 ≠ some (Rejection.screen .empty).message
  /-- If all lines are UTF-8, the last prompt gets a line end, and all is well. -/
  whole : (∀ line ∈ cut bytes, Readable line) →
    (converse bytes s).output = prompt ++ String.join (turns.map shown) ++ "\n" ∧
      (converse bytes s).code = 0
  /-- Otherwise the dialogue is broken off.  The bytes are parted in front of the broken line, and
  nothing from there on can be told from what is written. -/
  broken : (∃ line ∈ cut bytes, ¬ Readable line) →
    (converse bytes s).output = prompt ++ String.join (turns.map shown) ∧
      (converse bytes s).code = 1 ∧
        ∃ front rest, bytes = front ++ rest ∧ Closed front ∧
          (∀ line ∈ cut front, Readable line) ∧ OpensBroken rest ∧
            ∀ other, OpensBroken other →
              (converse (front ++ other) s).output = (converse bytes s).output ∧
                (converse (front ++ other) s).output ++ "\n" = (converse front s).output

/-- The lines that are heard, each with its reply, are the dialogue. -/
lemma dialogue_exchanges (bytes : List UInt8) (s : Session σ) :
    Dialogue bytes s (exchanges (heard bytes) s) where
  lines := map_fst_exchanges _ s
  answered := fun turn hturn => (spec_of_mem_exchanges hturn).1
  replies := filterMap_snd_exchanges _ s
  never_empty := fun turn hturn => (spec_of_mem_exchanges hturn).2
  whole := by
    intro h
    obtain ⟨houtput, hfailed⟩ := converse_of_readable h s
    refine ⟨houtput, ?_⟩
    rw [Transcript.code, hfailed]
    rfl
  broken := by
    intro h
    obtain ⟨front, rest, rfl, hclosed, hreadable, hopens, hheard⟩ := exists_parting h
    obtain ⟨houtput, hfailed⟩ := converse_append_of_broken hclosed hreadable hopens s
    rw [hheard]
    refine ⟨houtput, ?_, front, rest, rfl, hclosed, hreadable, hopens, fun other hother => ?_⟩
    · rw [Transcript.code, hfailed]
      rfl
    · obtain ⟨hsame, -⟩ := converse_append_of_broken hclosed hreadable hother s
      rw [hsame, houtput, (converse_of_readable hreadable s).1]
      exact ⟨rfl, rfl⟩

lemma Dialogue.eq {bytes : List UInt8} {s : Session σ}
    {turns turns' : List (String × Option String)} (h : Dialogue bytes s turns)
    (h' : Dialogue bytes s turns') : turns = turns' :=
  eq_of_projections (h.lines.trans h'.lines.symm) h.answered h'.answered
    (h.replies.trans h'.replies.symm)

/-- **All that is written in a dialogue**, for every input and from every source: prompts, the
replies of one session to the lines that are not blank, and nothing on a broken line or behind
it.  It is settled for each line what is written on it. -/
theorem exists_dialogue (bytes : List UInt8) (s : Session σ) :
    ∃ turns, Dialogue bytes s turns ∧ ∀ other, Dialogue bytes s other → other = turns :=
  ⟨exchanges (heard bytes) s, dialogue_exchanges bytes s,
    fun _ hother => hother.eq (dialogue_exchanges bytes s)⟩

end Console

end CabbageFormula
