import CabbageFormula.Console
import CabbageFormula.Source.Words

/-!
# The program

The console on the standard streams, with a random source.  The variable `CABBAGE_LOG` names the
threshold of the records that go to standard error.  Everything is decided by `Console`; here
bytes are fetched line by line, so that a reply comes before the next line is asked for.
-/

namespace CabbageFormula.Program

open Console

/-- The bytes up to and including the next line end, or up to the end of the input. -/
partial def fetchLine (input : IO.FS.Stream) (fetched : Array UInt8) : IO (Array UInt8) := do
  match (← input.read 1).toList with
  | [] => return fetched
  | b :: _ => if b = newline then return fetched.push b else fetchLine input (fetched.push b)

/-- Takes lines and writes what comes of each.  A broken line leaves no session. -/
def takeLines (threshold : Threshold) :
    List (List UInt8) → Session WordSource → IO (Option (Session WordSource))
  | [], s => return some s
  | line :: rest, s => do
    match takeTurn? line s with
    | none => return none
    | some turn =>
      for record in records threshold turn.events do
        IO.eprintln record
      IO.print turn.output
      (← IO.getStdout).flush
      takeLines threshold rest turn.session

/-- Fetches and takes lines until the input ends or a line is broken; then the exit code. -/
partial def loop (threshold : Threshold) (input : IO.FS.Stream) (s : Session WordSource) :
    IO UInt32 := do
  let bytes ← fetchLine input #[]
  if bytes.isEmpty then
    IO.println ""
    return 0
  match ← takeLines threshold (lines bytes.toList) s with
  | some next => loop threshold input next
  | none =>
    IO.eprintln brokenText
    return 1

/-- The word that bytes write, the first of them the highest. -/
def wordOf (bytes : ByteArray) : UInt64 :=
  bytes.toList.foldl (fun word b => word * 256 + b.toUInt64) 0

/-- The console on the standard streams, from the first prompt on. -/
def run : IO UInt32 := do
  let threshold := thresholdOf (← IO.getEnv "CABBAGE_LOG")
  let seed := wordOf (← IO.getRandomBytes 8)
  IO.print prompt
  (← IO.getStdout).flush
  loop threshold (← IO.getStdin) ⟨⟨.seeded seed, 0⟩, {}⟩

end CabbageFormula.Program

/-- Runs the console. -/
def main : IO UInt32 := CabbageFormula.Program.run
