/-
Processors. A processor owns a compiled script, its variables, a local
memory device and two text buffers, and is mounted on a part. The host
ticks it once per frame; each tick runs a limited number of
instructions. The first fault halts it for good.

A `Scene` is a processor in its world. Whatever an instruction does, it
does to a scene, and an instruction that fails yields no scene, so
nothing of what it began can be seen.
-/
import TickScript.Instruction
import TickScript.Name
import TickScript.World

namespace TickScript

/-- How a processor is set up. -/
structure Config where
  instructionsPerTick : Nat
  maxVariables : Nat
  /-- Cells of the local memory; zero for none. -/
  memorySize : Nat
  /-- Ticks between sweeps, for the host's use. -/
  sweepPeriod : Nat
  /-- A jump also runs the line it goes to, in the same step. -/
  legacyJump : Bool
  /-- A declaration assigns only the first time it runs. -/
  legacyVar : Bool
deriving DecidableEq

/-- The usual setup. -/
def Config.standard : Config :=
  { instructionsPerTick := 10
    maxVariables := 1024
    memorySize := 0
    sweepPeriod := 1000
    legacyJump := false
    legacyVar := false }

/-- What a processor did on a tick, or why it did nothing. -/
inductive Event where
  | running
  /-- Held up by a wait, for so many more ticks. -/
  | waiting (ticks : Nat)
  /-- Stopped by the script or the host, or never loaded. -/
  | stopped
  | completed
  /-- Halted by a fault, for good. -/
  | halted
deriving DecidableEq

/-- The event as it stands in summaries. -/
def Event.display : Event → String
  | running => "Running"
  | waiting n => s!"Waiting({n})"
  | stopped => "Stopped"
  | completed => "Completed"
  | halted => "Halted"

/-- A processor. -/
structure Processor where
  config : Config
  script : Script
  vars : Storage
  memory : Memory
  /-- The part it is mounted on. -/
  this : Option Handle
  /-- Other parts it knows, by name. -/
  links : List (String × Handle)
  pc : Nat
  /-- Ticks still to be waited. -/
  delay : Nat
  enabled : Bool
  completed : Bool
  halted : Bool
  /-- Faults since the processor was made. -/
  faultCount : Nat
  /-- Faults since the last load. -/
  faults : List Fault
  input : String
  output : String
  /-- Ticks since the last load. -/
  frames : Nat
  /-- When the script was loaded, in seconds. -/
  launch : Float
  /-- The variables whose declaration has run. -/
  declared : List VarId

namespace Processor

/-- A processor without a script. -/
def ofConfig (config : Config) : Processor :=
  { config
    script := #[]
    vars := .empty config.maxVariables
    memory := .empty config.memorySize
    this := none
    links := []
    pc := 0
    delay := 0
    enabled := false
    completed := false
    halted := false
    faultCount := 0
    faults := []
    input := ""
    output := ""
    frames := 0
    launch := 0
    declared := [] }

/-- How the processor stands. A fault outweighs the end of the script,
which outweighs a stop, which outweighs a wait. -/
def status (p : Processor) : Event :=
  if p.halted then .halted
  else if p.completed then .completed
  else if !p.enabled then .stopped
  else if 0 < p.delay then .waiting p.delay
  else .running

/-- The processor in one line. -/
def display (p : Processor) : String :=
  "Processor \x7b pc: " ++ toString p.pc ++ ", status: " ++ p.status.display ++ ", lines: " ++
    toString p.script.size ++ ", variables: " ++ toString p.vars.size ++ " \x7d"

/-- Mounts the processor on a part, which scripts know as `this`. -/
def mount (p : Processor) (part : Handle) : Processor := { p with this := some part }

/-- Makes another part known to scripts under a name. -/
def connect (p : Processor) (name : String) (part : Handle) : Except Fault Processor := do
  let name ← Name.check name
  if p.links.any fun link => link.1 == name.name then
    .error (.of .redeclared name.name)
  else .ok { p with links := p.links ++ [(name.name, part)] }

/-- Records a fault at the current line and halts. -/
def fail (p : Processor) (fault : Fault) : Processor :=
  { p with
    halted := true
    enabled := false
    faultCount := p.faultCount + 1
    faults := p.faults ++ [fault.atLine (some p.pc)] }

/-- Stops the processor from outside. It does not resume. -/
def interrupt (p : Processor) : Processor := { p with enabled := false }

/-- Adds text to the input buffer. -/
def feed (p : Processor) (s : String) : Processor := { p with input := p.input ++ s }

/-- The value of the variable with a name, if there is one. -/
def value? (p : Processor) (name : String) : Option Value := p.vars.value? name

end Processor

-- ================================================================ scenes

/-- A processor in its world. -/
structure Scene where
  proc : Processor
  world : World

namespace Scene

/-- The value of an operand. -/
def read (s : Scene) (o : Operand) : Except Fault (Value × Scene) := do
  let (v, draws) ← o.value s.proc.vars s.world.arena.isAlive s.world.draws
  .ok (v, { s with world := { s.world with draws } })

/-- The values of several operands in turn. -/
def readAll (s : Scene) : List Operand → Except Fault (List Value × Scene)
  | [] => .ok ([], s)
  | o :: os => do
    let (v, s) ← s.read o
    let (vs, s) ← s.readAll os
    .ok (v :: vs, s)

/-- Refuses an entity of another type than a component variable is
restricted to. -/
def checkType (s : Scene) (var : Variable) (v : Value) : Except Fault Unit :=
  match var.component, v with
  | some wanted, .entity h =>
    if (s.world.arena.entity? h).map Entity.typeName = some wanted then .ok ()
    else .error (.of .conversionError (v.display ++ " IS NOT " ++ wanted))
  | _, _ => .ok ()

/-- Stores a value of a variable's kind in it, and moves the usage from
the value it displaces. -/
def store (s : Scene) (id : VarId) (v : Value) : Except Fault Scene := do
  let var ← s.proc.vars.get id
  s.checkType var v
  let (old, vars) ← s.proc.vars.set id v
  .ok { proc := { s.proc with vars }
        world := { s.world with arena := s.world.arena.exchange v old } }

/-- Stores a value in a variable, coerced to the variable's kind. -/
def assign (s : Scene) (id : VarId) (v : Value) : Except Fault Scene := do
  let var ← s.proc.vars.get id
  let v ← var.kind.convert s.world.arena.resolve v
  s.store id v

/-- The living entity in a variable, if this processor may call it. -/
def reach (s : Scene) (id : VarId) : Except Fault Handle := do
  let var ← s.proc.vars.get id
  match var.value >>= Value.handle? with
  | some h =>
    if s.world.arena.isAlive h then
      match s.proc.this with
      | some this =>
        if s.world.canConnect this h then .ok h
        else .error (.of .permissionDenied var.name)
      | none => .error (.of .permissionDenied "NOT ATTACHED TO A PART")
    else .error (.of .nullParameter var.name)
  | none => .error (.of .nullParameter var.name)

/-- The scene after its processor failed. -/
def fail (s : Scene) (fault : Fault) : Scene := { s with proc := s.proc.fail fault }

end Scene

end TickScript
