/-
Loading scripts. Loading drops the previous script with its variables
and local memory, declares the parts the processor knows, and compiles
the source. With a fault on any line the processor is left halted.
-/
import TickScript.Processor
import TickScript.Script

namespace TickScript

/-- The processor as it is before anything is loaded, with its setup,
its parts and the count of its faults. -/
def Processor.fresh (p : Processor) : Processor :=
  { Processor.ofConfig p.config with
    this := p.this
    links := p.links
    faultCount := p.faultCount
    launch := p.launch }

/-- The parts a processor knows by name, the one it is mounted on
first. -/
def Processor.parts (p : Processor) : List (String × Handle) :=
  match p.this with
  | some this => (thisName, this) :: p.links
  | none => p.links

namespace Scene

/-- Drops the script, releasing all that its variables and local memory
hold. -/
def reset (s : Scene) : Scene :=
  let arena := (s.world.arena.releaseAll s.proc.vars.values).releaseAll s.proc.memory.values
  { proc := s.proc.fresh, world := { s.world with arena } }

/-- Declares a part as a readonly variable. -/
def declarePart (s : Scene) (name : String) (part : Handle) : Except Fault Scene := do
  if s.world.arena.isAlive part ∧ part.kind = .part then
    let (id, vars) ← s.proc.vars.add (.empty name .part true)
    { s with proc := { s.proc with vars } }.store id (.entity part)
  else .error (.of .nullParameter ("PART " ++ name))

/-- Declares parts in turn, up to the first that fails. -/
def declareParts (s : Scene) : List (String × Handle) → Option Fault × Scene
  | [] => (none, s)
  | (name, part) :: parts =>
    match s.declarePart name part with
    | .ok s => s.declareParts parts
    | .error fault => (some fault, s)

/-- Makes compiled source the script of the processor. -/
def install (s : Scene) (c : Compiled) : Scene :=
  { s with
    proc := { s.proc with
      script := c.script
      vars := c.vars
      launch := s.world.clock.seconds
      enabled := c.faults.isEmpty
      halted := !c.faults.isEmpty
      faultCount := s.proc.faultCount + c.faults.length
      faults := c.faults } }

/-- Loads a script. Says whether it is free of faults. -/
def load (s : Scene) (source : String) : Bool × Scene :=
  let s := s.reset
  match s.declareParts s.proc.parts with
  | (some fault, s) => (false, s.fail fault)
  | (none, s) =>
    let compiled := compile source s.proc.vars s.world.registry
    (compiled.faults.isEmpty, s.install compiled)

end Scene

end TickScript
