/-
The program: the command line on a real terminal. It reads the script
file, keeps the clock, prints what the script writes, and asks for a
line of input whenever the script wants one that is not there.
-/
import TickScript.CommandLine

namespace TickScript.CommandLine

/-- Reads a script file. -/
def readScript (path : String) : IO (Except ReadFailure String) := do
  try
    match String.fromUTF8? (← IO.FS.readBinFile path) with
    | some source => return .ok source
    | none => return .error .notText
  catch e =>
    match e with
    | .noFileOrDirectory .. => return .error .missing
    | .inappropriateType .. => return .error .directory
    | e => return .error (.other (toString e))

/-- Prints the texts written after the first `shown`. -/
def showWritten (s : Session) (shown upTo : Nat) : IO Unit := do
  for text in (s.scene.world.console.written.take upTo).drop shown do
    IO.println text

/-- Asks for a line of input. -/
def promptLine : IO String := do
  let out ← IO.getStdout
  out.putStr "> "
  out.flush
  let line ← (← IO.getStdin).getLine
  return String.ofList (line.toList.filter fun c => c != '\n' && c != '\r')

/-- The session with a text for the script to read. -/
def feed (s : Session) (text : String) : Session :=
  let world := s.scene.world
  let console := { world.console.feed text with starved := none }
  { s with scene := { s.scene with world := { world with console } } }

/-- Runs one frame. Each time the script reads and nothing is waiting,
asks for a line and runs the frame again with it. -/
partial def liveFrame (s : Session) (elapsed : Float) (shown : Nat) :
    IO (Event × Session × Nat) := do
  let (event, after) := s.frame elapsed
  let written := after.scene.world.console.written.length
  match after.scene.world.console.starved with
  | none =>
    showWritten after shown written
    return (event, after, written)
  | some upTo =>
    showWritten after shown upTo
    let line ← promptLine
    liveFrame (feed s line) elapsed upTo

/-- Runs frames until the processor ends, up to a number of ticks. -/
partial def liveRun (s : Session) (event : Event) (ticks shown last : Nat) :
    IO (Event × Session) := do
  if ticks = 0 then return (event, s)
  let now ← IO.monoMsNow
  let (event, s, shown) ← liveFrame s (Float.ofNat (now - last) / 1000) shown
  if Session.goesOn event then liveRun s event (ticks - 1) shown now else return (event, s)

/-- Runs the command line. -/
def live (args : List String) : IO UInt32 := do
  match Options.parse args with
  | .error e =>
    IO.eprintln e.message
    return 2
  | .ok options =>
    match ← readScript options.path with
    | .error e =>
      IO.eprintln e.message
      return 1
    | .ok source =>
      let seed ← IO.rand 0 (Number.twoTo 64 - 1)
      let (loaded, session) := Session.start options.config source ⟨UInt64.ofNat seed⟩
      let ready := session.scene.proc.status
      let start ← IO.monoMsNow
      let (event, session) ←
        if loaded then liveRun session ready options.ticks 0 start else pure (ready, session)
      IO.eprint (diagnostics session event options.ticks)
      return (exitStatus event).toUInt32

end TickScript.CommandLine

/-- Runs the command line. -/
def main (args : List String) : IO UInt32 := TickScript.CommandLine.live args
