/-
The command line: `<script> [--ipt N] [--memory N] [--ticks N]`
runs one script to its end, or for so many ticks. Everything but the
terminal itself is here: reading the options, the session that runs the
script frame by frame, and the report at the end with its exit status.
-/
import TickScript.Collector
import TickScript.Processor.Load
import TickScript.Processor.Tick

namespace TickScript.CommandLine

-- =============================================================== options

/-- What is asked for. -/
structure Options where
  path : String
  config : Config
  ticks : Nat
deriving DecidableEq

/-- What can be wrong with the arguments. -/
inductive UsageError where
  | missingScript
  | needsNumber (flag : String)
  | noBudget
  | unknownOption (flag : String)
  | unexpectedArgument (arg : String)
deriving DecidableEq

/-- How the program is used. -/
def usage : String := "usage: msipl <script> [--ipt N] [--memory N] [--ticks N]"

/-- The message of a usage error, with how it should be. -/
def UsageError.message (e : UsageError) : String :=
  let what := match e with
    | missingScript => "missing script"
    | needsNumber flag => flag ++ " needs a number"
    | noBudget => "--ipt must be at least 1"
    | unknownOption flag => "unknown option " ++ flag
    | unexpectedArgument arg => "unexpected argument " ++ arg
  what ++ "\n" ++ usage

/-- The arguments read so far. -/
structure Draft where
  path : Option String
  config : Config
  ticks : Nat

/-- The setup if no option says otherwise. -/
def Draft.start : Draft :=
  { path := none, config := { Config.standard with memorySize := 64 }, ticks := 100000 }

/-- Whether an argument is a flag with a number after it. -/
def isFlag (arg : String) : Bool := arg == "--ipt" || arg == "--memory" || arg == "--ticks"

/-- Takes in a flag and its number. -/
def Draft.flag (d : Draft) (flag : String) (n : Nat) : Draft :=
  match flag with
  | "--ipt" => { d with config := { d.config with instructionsPerTick := n } }
  | "--memory" => { d with config := { d.config with memorySize := n } }
  | _ => { d with ticks := n }

/-- Takes in an argument that is not one of the flags with a number. -/
def Draft.word (d : Draft) (arg : String) : Except UsageError Draft :=
  if ['-', '-'].isPrefixOf arg.toList then .error (.unknownOption arg)
  else
    match d.path with
    | some _ => .error (.unexpectedArgument arg)
    | none => .ok { d with path := some arg }

/-- Takes in all arguments, in order. A later flag outweighs an earlier
one. -/
def Draft.read (d : Draft) : List String → Except UsageError Draft
  | [] => .ok d
  | [arg] => if isFlag arg then .error (.needsNumber arg) else d.word arg
  | arg :: next :: args =>
    if isFlag arg then
      match Number.readCount? next with
      | some n => (d.flag arg n).read args
      | none => .error (.needsNumber arg)
    else do
      let d ← d.word arg
      d.read (next :: args)

/-- Reads the arguments of the command line. -/
def Options.parse (args : List String) : Except UsageError Options := do
  let d ← Draft.start.read args
  if d.config.instructionsPerTick = 0 then .error .noBudget
  else
    match d.path with
    | some path => .ok { path, config := d.config, ticks := d.ticks }
    | none => .error .missingScript

-- =============================================================== session

/-- Why a script could not be read. -/
inductive ReadFailure where
  | missing
  | directory
  /-- The file holds something other than UTF-8 text. -/
  | notText
  | other (message : String)
deriving DecidableEq

def ReadFailure.message : ReadFailure → String
  | missing => "No such file or directory (os error 2)"
  | directory => "Is a directory (os error 21)"
  | notText => "stream did not contain valid UTF-8"
  | other message => message

/-- A processor on a part of its own, with a collector. -/
structure Session where
  scene : Scene
  collector : Collector

namespace Session

/-- Sets up a world with one part that carries a memory component, and
loads a script there. Says whether that succeeded. -/
def start (config : Config) (source : String) (draws : Draws) : Bool × Session :=
  let (part, world) := (World.start (.start 0) draws).spawn 0
  let world := match world.attachMemory part config.memorySize with
    | .ok (_, world) => world
    | .error _ => world
  let scene : Scene := ⟨(Processor.ofConfig config).mount part, world⟩
  let (loaded, scene) := scene.load source
  (loaded, ⟨scene, .every config.sweepPeriod⟩)

/-- Runs one frame that comes some seconds after the last. -/
def frame (s : Session) (elapsed : Float) : Event × Session :=
  let world := { s.scene.world with clock := s.scene.world.clock.advance elapsed }
  let (event, scene) := { s.scene with world }.tick
  let (_, collector, procs, world) := s.collector.tick scene.world [scene.proc]
  let proc := procs.headD scene.proc
  (event, ⟨⟨proc, world⟩, collector⟩)

/-- Whether a processor goes on after an event. -/
def goesOn : Event → Bool
  | .running | .waiting _ => true
  | _ => false

/-- Runs frames until the processor ends, up to a number of ticks. -/
def run (s : Session) (event : Event) : (ticks : Nat) → Event × Session
  | 0 => (event, s)
  | ticks + 1 =>
    let (event, s) := s.frame 0
    if goesOn event then s.run event ticks else (event, s)

/-- All that was written, each text on lines of its own. -/
def output (s : Session) : String :=
  String.join (s.scene.world.console.written.map fun text => text ++ "\n")

end Session

-- ================================================================ report

/-- What the program leaves behind. -/
structure Outcome where
  status : Nat
  stdout : String
  stderr : String
deriving DecidableEq

/-- Text set in bold on a terminal. -/
def bold (s : String) : String := "\x1b[1m" ++ s ++ "\x1b[0m"

/-- The exit status after the last event. -/
def exitStatus : Event → Nat
  | .completed | .stopped => 0
  | .halted => 1
  | .running | .waiting _ => 3

/-- The diagnostics after the last event: the faults, and whether time
ran out. -/
def diagnostics (s : Session) (event : Event) (ticks : Nat) : String :=
  let faults := s.scene.proc.faults.map fun f => bold f.message ++ "\n"
  let late := if Session.goesOn event then toString ticks ++ " ticks exceeded.\n" else ""
  String.join faults ++ late

/-- Runs the command line on files that `read` finds. -/
def run (args : List String) (read : String → Except ReadFailure String) (draws : Draws) :
    Outcome :=
  match Options.parse args with
  | .error e => ⟨2, "", e.message ++ "\n"⟩
  | .ok options =>
    match read options.path with
    | .error e => ⟨1, "", e.message ++ "\n"⟩
    | .ok source =>
      let (loaded, session) := Session.start options.config source draws
      let ready := session.scene.proc.status
      let (event, session) := if loaded then session.run ready options.ticks else (ready, session)
      ⟨exitStatus event, session.output, diagnostics session event options.ticks⟩

end TickScript.CommandLine
