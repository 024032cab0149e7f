import CabbageFormula.Proofs.Dialogues
import CabbageFormula.Proofs.TextLines
import CabbageFormula.Source.Scripted

/-!
# Line ends in dialogues

A dialogue depends on its lines alone, so it does not matter how these are ended.  And it can be
parted between any two of them: all that the second part knows of the first is the session it
left.  A blank line is a part that leaves the session as it was.

* `Console.exists_prompt_last` — what is written on lines, up to the prompt for the next one.
* `Console.repliesIn`, `Console.converse_append` — a dialogue over two texts.
* `Console.converse_blank_append` — a blank line in front of a text.
* `Console.LineLaws`, `Console.line_laws` — **the laws of line ends**.
-/

namespace CabbageFormula.Console

variable {σ : Type}

/-! ## Transcripts in parts -/

lemma Transcript.diagnostics_congr {t t' : Transcript σ} (hevents : t.events = t'.events)
    (hfailed : t.failed = t'.failed) (threshold : Threshold) :
    t.diagnostics threshold = t'.diagnostics threshold := by
  rw [diagnostics, diagnostics, hevents, hfailed]

variable [RollSource σ]

lemma converse_eq_behind (bytes : List UInt8) (s : Session σ) :
    converse bytes s = (follow (lines bytes) s).behind prompt [] := rfl

/-- What is written on lines ends with the prompt for the next one. -/
lemma exists_prompt_last (turns : List (String × Option String)) :
    ∃ before, prompt ++ String.join (turns.map shown) = before ++ prompt := by
  induction turns with
  | nil => exact ⟨"", rfl⟩
  | cons turn turns ih =>
      obtain ⟨before, hbefore⟩ := ih
      obtain ⟨lead, hlead⟩ : ∃ lead, shown turn = lead ++ prompt := by
        obtain ⟨line, _ | reply⟩ := turn
        · exact ⟨"", String.empty_append.symm⟩
        · exact ⟨reply ++ "\n", rfl⟩
      refine ⟨prompt ++ lead ++ before, ?_⟩
      rw [List.map_cons, String.join_cons, hlead]
      calc prompt ++ (lead ++ prompt ++ String.join (turns.map shown))
          = prompt ++ lead ++ (prompt ++ String.join (turns.map shown)) := by
            simp only [String.append_assoc]
        _ = prompt ++ lead ++ before ++ prompt := by rw [hbefore, ← String.append_assoc]

/-! ## Dialogues over texts -/

/-- **The replies in a dialogue**, each to a line that is heard and not blank. -/
def repliesIn (bytes : List UInt8) (s : Session σ) : List String :=
  (exchanges (heard bytes) s).filterMap Prod.snd

/-- All lines of a text are UTF-8. -/
lemma readable_of_mem_lines_utf8 {text : String} {line : List UInt8}
    (h : line ∈ lines (utf8 text)) : Readable line := by
  obtain ⟨texts, htexts, -⟩ := exists_lines_utf8 text
  rw [htexts] at h
  obtain ⟨line, -, rfl⟩ := List.mem_map.mp h
  exact ⟨line, decode?_utf8 line⟩

lemma heard_utf8 (text : String) : heard (utf8 text) = (lines (utf8 text)).filterMap decode? := by
  rw [heard, opening_of_readable]
  rw [← lines_eq_cut]
  exact fun _ => readable_of_mem_lines_utf8

/-- **A dialogue over two texts**, the first of which ends with a line. -/
lemma converse_append {x : String} (hx : EndsLine x) (s : Session σ) :
    ∃ before, (converse (utf8 x) s).output = before ++ prompt ++ "\n" ∧ ∀ y,
      converse (utf8 (x ++ y)) s =
          (converse (utf8 y) (converse (utf8 x) s).session).behind before
            (converse (utf8 x) s).events ∧
        repliesIn (utf8 (x ++ y)) s =
          repliesIn (utf8 x) s ++ repliesIn (utf8 y) (converse (utf8 x) s).session := by
  have hreadable := map_decode_of_readable fun line (h : line ∈ lines (utf8 x)) =>
    readable_of_mem_lines_utf8 h
  obtain ⟨events, last, hfollow, hexchanges⟩ := exists_follow_append s hreadable
  obtain ⟨before, hbefore⟩ := exists_prompt_last (exchanges (heard (utf8 x)) s)
  rw [heard_utf8] at hbefore
  have hboth : ∀ back, (follow (lines (utf8 x) ++ back) s).behind prompt [] =
      ((follow back last).behind prompt []).behind before events := by
    intro back
    rw [hfollow, Transcript.behind_behind, hbefore, Transcript.behind_behind, List.nil_append,
      List.append_nil]
  have hlines : ∀ y, lines (utf8 (x ++ y)) = lines (utf8 x) ++ lines (utf8 y) := by
    intro y
    rw [utf8_append, lines_append hx.closed]
  -- with nothing behind it, the first text shows which session it leaves
  have hfirst : converse (utf8 x) s = ⟨before ++ (prompt ++ "\n"), events, false, last⟩ := by
    have hend := hboth []
    rw [List.append_nil] at hend
    rw [converse_eq_behind, hend]
    show (⟨_, events ++ [], _, _⟩ : Transcript σ) = _
    rw [List.append_nil]
    rfl
  rw [hfirst]
  refine ⟨before, (String.append_assoc).symm, fun y => ⟨?_, ?_⟩⟩
  · rw [converse_eq_behind, hlines, hboth]
    rfl
  · rw [repliesIn, repliesIn, repliesIn, heard_utf8, heard_utf8, heard_utf8, hlines,
      List.filterMap_append, hexchanges, List.filterMap_append]

/-- **A blank line in front of a text** gets a prompt, and that is all. -/
lemma converse_blank_append {blank : String} (h : Blank blank) (hline : '\n' ∉ blank.toList)
    (y : String) (s : Session σ) :
    converse (utf8 (blank ++ "\n" ++ y)) s = (converse (utf8 y) s).behind prompt [] ∧
      repliesIn (utf8 (blank ++ "\n" ++ y)) s = repliesIn (utf8 y) s := by
  obtain ⟨line, hlines, hsubset⟩ := exists_line_utf8 hline
  have hblank : Blank line := by
    intro c hc
    rcases List.mem_append.mp (String.toList_append ▸ hsubset hc) with hc | hc
    · exact h c hc
    · obtain rfl := List.mem_singleton.mp hc
      decide
  have hends : EndsLine (blank ++ "\n") := Or.inr (by simp)
  have hall : lines (utf8 (blank ++ "\n" ++ y)) = utf8 line :: lines (utf8 y) := by
    rw [utf8_append, lines_append hends.closed, hlines, List.singleton_append]
  have hturn : takeTurn? (utf8 line) s = some ⟨prompt, [], s⟩ := by
    rw [takeTurn?, decode?_utf8, Option.map_some, respond, if_pos (isBlankLine_iff.mpr hblank)]
  constructor
  · rw [converse_eq_behind, hall, follow_cons_of_some hturn]
    rfl
  · rw [repliesIn, repliesIn, heard_utf8, heard_utf8, hall,
      List.filterMap_cons_some (decode?_utf8 line), exchanges, answer_of_blank hblank,
      List.filterMap_cons]

/-! ## The laws -/

/-- **The laws of line ends**, for dialogues over any text and from any source. -/
structure LineLaws (σ : Type) [RollSource σ] : Prop where
  /-- If no line end has a carriage return in front of it, it makes no difference to put one there
  everywhere. -/
  returns : ∀ (text : String) (s : Session σ), ¬ ['\r', '\n'] <:+: text.toList →
    converse (utf8 (withReturns text)) s = converse (utf8 text) s
  /-- If a text ends in neither a line end nor a carriage return, it makes no difference to end its
  last line. -/
  last : ∀ (text : String) (s : Session σ), text ≠ "" →
    text.toList.getLast? ≠ some '\n' → text.toList.getLast? ≠ some '\r' →
      converse (utf8 (text ++ "\n")) s = converse (utf8 text) s
  /-- A blank line between two lines adds a prompt at its place, and nothing else. -/
  blank : ∀ (x blank y : String) (s : Session σ), EndsLine x → Blank blank →
    '\n' ∉ blank.toList →
      let first := converse (utf8 x) s
      let without := converse (utf8 (x ++ y)) s
      let within := converse (utf8 (x ++ blank ++ "\n" ++ y)) s
      (∃ before after, first.output = before ++ "\n" ∧ without.output = before ++ after ∧
        within.output = before ++ prompt ++ after) ∧
      repliesIn (utf8 (x ++ blank ++ "\n" ++ y)) s = repliesIn (utf8 (x ++ y)) s ∧
      within.events = without.events ∧
      (∀ threshold, within.diagnostics threshold = without.diagnostics threshold) ∧
      within.code = without.code ∧ within.session = without.session
  /-- A dialogue over two texts is one over the first and then, from the session that it left, one
  over the second. -/
  append : ∀ (x y : String) (s : Session σ), EndsLine x →
    let first := converse (utf8 x) s
    let second := converse (utf8 y) first.session
    let both := converse (utf8 (x ++ y)) s
    repliesIn (utf8 (x ++ y)) s = repliesIn (utf8 x) s ++ repliesIn (utf8 y) first.session ∧
      both.events = first.events ++ second.events ∧ both.code = second.code ∧
        both.session = second.session ∧
          ∃ before, first.output = before ++ prompt ++ "\n" ∧
            both.output = before ++ second.output
  /-- The replies are what is written between the prompts. -/
  written : ∀ (text : String) (s : Session σ),
    (converse (utf8 text) s).output =
      prompt ++ String.join ((exchanges (heard (utf8 text)) s).map shown) ++ "\n"

/-- **The laws of line ends hold** for every source. -/
theorem line_laws : LineLaws σ where
  returns text s h := by
    rw [converse_eq_behind, converse_eq_behind, lines_withReturns h]
  last text s hne hnewline hreturn := by
    obtain ⟨c, hc⟩ : ∃ c, text.toList.getLast? = some c := by
      rw [← Option.isSome_iff_exists, List.getLast?_isSome]
      exact mt String.toList_eq_nil_iff.mp hne
    rw [hc, Ne, Option.some.injEq] at hnewline hreturn
    rw [converse_eq_behind, converse_eq_behind, lines_concat_newline hc hnewline hreturn]
  blank x blank y s hx hblank hline := by
    obtain ⟨before, hfirst, happend⟩ := converse_append hx s
    obtain ⟨hwithout, hreplies⟩ := happend y
    obtain ⟨hwithin, hreplies'⟩ := happend (blank ++ "\n" ++ y)
    obtain ⟨hskip, hskipped⟩ :=
      converse_blank_append hblank hline y (converse (utf8 x) s).session
    rw [← String.append_assoc, ← String.append_assoc] at hwithin hreplies'
    rw [hskip] at hwithin
    rw [hskipped] at hreplies'
    refine ⟨⟨before ++ prompt, ?_⟩, hreplies'.trans hreplies.symm, ?_, ?_, ?_, ?_⟩
    · refine ⟨(follow (lines (utf8 y)) (converse (utf8 x) s).session).output, hfirst, ?_, ?_⟩
      · rw [hwithout]
        exact String.append_assoc.symm
      · rw [hwithin, String.append_assoc, String.append_assoc]
        rfl
    · rw [hwithin, hwithout]; rfl
    · exact Transcript.diagnostics_congr (by rw [hwithin, hwithout]; rfl)
        (by rw [hwithin, hwithout]; rfl)
    · rw [hwithin, hwithout]; rfl
    · rw [hwithin, hwithout]; rfl
  append x y s hx := by
    obtain ⟨before, hfirst, happend⟩ := converse_append hx s
    obtain ⟨hboth, hreplies⟩ := happend y
    refine ⟨hreplies, ?_, ?_, ?_, before, hfirst, ?_⟩ <;> rw [hboth] <;> rfl
  written text s := by
    refine (converse_of_readable ?_ s).1
    rw [← lines_eq_cut]
    exact fun _ => readable_of_mem_lines_utf8

/-- Two lines, with a third between them that has only blanks. -/
theorem line_laws_two_lines :
    let s : Session Script := ⟨⟨[[4], [2]]⟩, {}⟩
    converse (utf8 (withReturns "c6\nc6")) s = converse (utf8 "c6\nc6") s ∧
      converse (utf8 ("c6\nc6" ++ "\n")) s = converse (utf8 "c6\nc6") s ∧
      repliesIn (utf8 ("c6\n" ++ " \t\r" ++ "\n" ++ "c6")) s = repliesIn (utf8 ("c6\n" ++ "c6")) s ∧
      repliesIn (utf8 ("c6\n" ++ "c6")) s = ["4 ([4])", "2 ([2])"] := by
  intro s
  have hends : EndsLine "c6\n" := Or.inr (by decide)
  refine ⟨line_laws.returns _ s (by decide), line_laws.last _ s (by decide) (by decide) (by decide),
    (line_laws.blank _ _ _ s hends (by decide) (by decide)).2.1, ?_⟩
  rw [(line_laws.append _ _ s hends).1]
  decide +kernel

end CabbageFormula.Console
