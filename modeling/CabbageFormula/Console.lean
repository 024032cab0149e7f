import CabbageFormula.Session

/-!
# The console

A dialogue over bytes: a prompt, a line with a formula, the reply, the next prompt.  The whole
dialogue is a function of the bytes that come in and of the session it starts from.

* `lines` — the lines of a stretch of bytes.
* `Turn`, `takeTurn?` — what the console does on one line.
* `Transcript`, `follow`, `converse` — what it does on all lines, from the first prompt on.
* `Transcript.output`, `Transcript.diagnostics`, `Transcript.code` — what is seen of it.
-/

namespace CabbageFormula.Console

/-! ## Lines -/

/-- The byte that ends a line. -/
def newline : UInt8 := 10

/-- The byte that may stand directly before it and then belongs to the end of the line, too. -/
def carriageReturn : UInt8 := 13

/-- **The lines of a stretch of bytes**, without their ends.  What stands behind the last end is
a line if it is not empty. -/
def lines : List UInt8 → List (List UInt8)
  | [] => []
  | b :: rest =>
    if b = newline then [] :: lines rest
    else if b = carriageReturn ∧ rest.head? = some newline then lines rest
    else match lines rest with
      | [] => [[b]]
      | line :: more => (b :: line) :: more

@[simp] theorem lines_nil : lines [] = [] := rfl

@[simp] theorem lines_newline (rest : List UInt8) : lines (newline :: rest) = [] :: lines rest := by
  rw [lines, if_pos rfl]

/-- The text of a line, unless its bytes are not UTF-8. -/
def decode? (line : List UInt8) : Option String := String.fromUTF8? ⟨line.toArray⟩

/-! ## Turns -/

variable {σ : Type}

/-- Written whenever the console is ready for a line. -/
def prompt : String := "> "

/-- **What the console does on one line.** -/
structure Turn (σ : Type) where
  /-- The reply, if the line gets one, and the next prompt. -/
  output : String
  events : List Event
  session : Session σ

/-- Whether a text has nothing but blanks. -/
def isBlankLine (line : String) : Bool := line.toList.all Text.isBlank

/-- The reply to a line, with its own line end.  A blank line is passed over in silence. -/
def respond [RollSource σ] (line : String) (s : Session σ) : Turn σ :=
  if isBlankLine line then ⟨prompt, [], s⟩
  else
    let a := s.attempt line
    ⟨a.reply ++ "\n" ++ prompt, a.journal line, { s with source := a.source }⟩

/-- **Takes a line**, or `none` if its bytes are not UTF-8. -/
def takeTurn? [RollSource σ] (line : List UInt8) (s : Session σ) : Option (Turn σ) :=
  (decode? line).map fun text => respond text s

/-! ## Dialogues -/

/-- **What the console did.** -/
structure Transcript (σ : Type) where
  /-- All that was written for the reader. -/
  output : String
  /-- All that happened. -/
  events : List Event
  /-- Whether the dialogue was broken off at a line that is not UTF-8. -/
  failed : Bool
  session : Session σ

/-- **Takes lines in order**, up to the first that is not UTF-8.  When there are none left, the
last prompt gets a line end. -/
def follow [RollSource σ] : List (List UInt8) → Session σ → Transcript σ
  | [], s => ⟨"\n", [], false, s⟩
  | line :: rest, s =>
    match takeTurn? line s with
    | none => ⟨"", [], true, s⟩
    | some turn =>
      let t := follow rest turn.session
      { t with output := turn.output ++ t.output, events := turn.events ++ t.events }

@[simp] theorem follow_nil [RollSource σ] (s : Session σ) :
    follow [] s = ⟨"\n", [], false, s⟩ := rfl

/-- A broken line ends the dialogue. -/
theorem follow_cons_of_none [RollSource σ] {line : List UInt8} {s : Session σ}
    (h : takeTurn? line s = none) (rest : List (List UInt8)) :
    follow (line :: rest) s = ⟨"", [], true, s⟩ := by
  rw [follow, h]

theorem follow_cons_of_some [RollSource σ] {line : List UInt8} {s : Session σ} {turn : Turn σ}
    (h : takeTurn? line s = some turn) (rest : List (List UInt8)) :
    follow (line :: rest) s =
      { follow rest turn.session with
        output := turn.output ++ (follow rest turn.session).output
        events := turn.events ++ (follow rest turn.session).events } := by
  rw [follow, h]

/-- **A whole dialogue** over bytes. -/
def converse [RollSource σ] (bytes : List UInt8) (s : Session σ) : Transcript σ :=
  let t := follow (lines bytes) s
  { t with output := prompt ++ t.output }

/-- What is said of a line that is not UTF-8. -/
def brokenText : String :=
  "Error: Error \x7b kind: InvalidData, message: \"stream did not contain valid UTF-8\" \x7d"

namespace Transcript

/-- **What was written beside the output**: the records that a threshold lets pass, and the
complaint about a broken line, each on a line of its own. -/
def diagnostics (threshold : Threshold) (t : Transcript σ) : String :=
  let complaint := if t.failed then [brokenText] else []
  String.join ((records threshold t.events ++ complaint).map (· ++ "\n"))

/-- The exit code: one if the dialogue was broken off. -/
def code (t : Transcript σ) : UInt8 := if t.failed then 1 else 0

end Transcript

/-- The threshold that a setting stands for.  Anything but the name of one, and no setting at all,
means warnings. -/
def thresholdOf (setting : Option String) : Threshold :=
  (setting.bind Threshold.ofName?).getD (some .warn)

end CabbageFormula.Console
