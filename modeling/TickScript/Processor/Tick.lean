/-
Running scripts, tick by tick. A tick has a budget of instructions.
`advance` takes one counted step: it passes over labels, which cost
nothing, and carries out the instruction after them. `spend` takes such
steps until the budget is used up or the processor no longer runs: at
the end of the script, at a stop, a wait or a fault.
-/
import TickScript.Processor.Execute

namespace TickScript

/-- Whether a script entry is a label. -/
def isLabelEntry : Option Instruction → Bool
  | some .label => true
  | _ => false

/-- The first of the `count` lines from `pc` on that is not a label, or
the line after them. -/
def Script.passUpTo (script : Script) : (count pc : Nat) → Nat
  | 0, pc => pc
  | count + 1, pc =>
    match script[pc]? with
    | some entry => if isLabelEntry entry then passUpTo script count (pc + 1) else pc
    | none => pc

/-- The first line from `pc` on that is not a label. -/
def Script.passLabels (script : Script) (pc : Nat) : Nat :=
  script.passUpTo (script.size - pc) pc

namespace Scene

/-- The scene with the processor at a line. -/
def goTo (s : Scene) (line : Nat) : Scene := { s with proc := { s.proc with pc := line } }

/-- Completes the script if the processor has run past its end. -/
def completeAtEnd (s : Scene) : Scene :=
  if s.proc.script.size ≤ s.proc.pc then
    { s with proc := { s.proc with completed := true } }
  else s

/-- Whether a line is one to jump to: a line of the script, or its
end. -/
def isTarget (s : Scene) (line : Nat) : Bool := line ≤ s.proc.script.size

/-- The fault of a jump to nowhere. -/
def invalidJump (line : Nat) : Fault := .of .invalidJump ("LINE " ++ toString line)

/-- Carries out the line just jumped to, in the step of the jump. A
jump found there is followed, but its target is not carried out. -/
def runTarget (s : Scene) : Scene :=
  match s.proc.script[s.proc.pc]? with
  | none => s
  | some none => s.fail (.bare .missingInstruction)
  | some (some i) =>
    match i.execute s with
    | .error fault => s.fail fault
    | .ok (.next, s) => s.goTo (s.proc.pc + 1)
    | .ok (.goto line, s) => if s.isTarget line then s.goTo line else s.fail (invalidJump line)

/-- Jumps to a line. -/
def jump (s : Scene) (line : Nat) : Scene :=
  if s.isTarget line then
    let s := s.goTo line
    if s.proc.config.legacyJump then s.runTarget else s
  else s.fail (invalidJump line)

/-- Takes one counted step. -/
def advance (s : Scene) : Scene :=
  let s := s.goTo (s.proc.script.passLabels s.proc.pc)
  match s.proc.script[s.proc.pc]? with
  | none => s.completeAtEnd
  | some none => s.fail (.bare .missingInstruction)
  | some (some i) =>
    match i.execute s with
    | .error fault => s.fail fault
    | .ok (.next, s) => (s.goTo (s.proc.pc + 1)).completeAtEnd
    | .ok (.goto line, s) => (s.jump line).completeAtEnd

/-- Takes counted steps while the processor runs, up to a budget. -/
def spend : (budget : Nat) → Scene → Scene
  | 0, s => s.completeAtEnd
  | budget + 1, s =>
    let s := s.advance
    if s.proc.status = .running then spend budget s else s

/-- Runs one frame and says how the processor stands. -/
def tick (s : Scene) : Event × Scene :=
  let s := { s with proc := { s.proc with frames := s.proc.frames + 1 } }
  match s.proc.status with
  | .waiting n =>
    (.waiting (n - 1), { s with proc := { s.proc with delay := s.proc.delay - 1 } })
  | .running =>
    let s := s.spend s.proc.config.instructionsPerTick
    (s.proc.status, s)
  | event => (event, s)

end Scene

end TickScript
