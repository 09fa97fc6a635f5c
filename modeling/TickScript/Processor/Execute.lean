/-
What instructions do. `Instruction.execute` carries out one instruction
on a scene and says where the script goes on. It either yields the
whole scene it leads to, or a fault and no scene at all.
-/
import TickScript.Processor

namespace TickScript

/-- Where a script goes on after an instruction. -/
inductive Signal where
  | next
  | goto (target : Nat)
deriving DecidableEq

namespace Scene

-- ================================================================== time

/-- The greatest number of ticks that can be waited. -/
def longestWait : Nat := 4294967295

/-- The whole number that a wait is given. -/
def waitTicks : Value → Except Fault Int64
  | .int n => .ok n
  | .float x =>
    match Number.isWhole x, Number.wholePart? x with
    | true, some n => .ok (Number.clamp n)
    | _, _ => .error (.of .invalidWait (Value.float x).display)
  | v => .error (.of .invalidWait v.display)

/-- Waits for a number of ticks. -/
def wait (s : Scene) (v : Value) : Except Fault Scene := do
  let n ← waitTicks v
  let ticks := n.toInt
  if 0 ≤ ticks ∧ ticks ≤ longestWait then
    .ok { s with proc := { s.proc with delay := min (s.proc.delay + ticks.toNat) longestWait } }
  else .error (.of .invalidWait (toString ticks))

/-- Reads the clock or waits. -/
def time (s : Scene) : TimeOp → Except Fault Scene
  | .framesSinceLaunch dest => s.assign dest (.int (Int64.ofNat s.proc.frames))
  | .secondsSinceLaunch dest =>
    s.assign dest (.float (s.world.clock.seconds - s.proc.launch))
  | .deltaTime dest => s.assign dest (.float s.world.clock.delta)
  | .wait ticks => do
    let (v, s) ← s.read ticks
    s.wait v

-- =============================================================== console

/-- The digits that text goes on with and what comes after them. One
point may stand among them if `point` says so. -/
def digitRun (point : Bool) : List Char → List Char × List Char
  | [] => ([], [])
  | c :: cs =>
    if c.isDigit then
      let (digits, rest) := digitRun point cs
      (c :: digits, rest)
    else if c = '.' ∧ point then
      let (digits, rest) := digitRun false cs
      (c :: digits, rest)
    else ([], c :: cs)

/-- The first number in text and what comes after it. -/
def findNumber? (point : Bool) (cs : List Char) : Option (List Char × List Char) :=
  match cs.dropWhile fun c => !c.isDigit with
  | [] => none
  | start => some (digitRun point start)

/-- The value that a number found in the input has. -/
def numberValue (digits : String) : Except Fault Value :=
  match Number.readInt? digits with
  | some n => .ok (.int n)
  | none =>
    match Number.readFloat? digits with
    | some x => .ok (.float x)
    | none => .error (.of .numberNotFound digits)

/-- Takes the first character of the input. -/
def popChar (s : Scene) (dest : VarId) : Except Fault Scene :=
  match s.proc.input.toList with
  | [] => .error (.bare .inputEmpty)
  | c :: cs => do
    let s ← s.store dest (.int (Int64.ofNat c.toNat))
    .ok { s with proc := { s.proc with input := String.ofList cs } }

/-- Takes the first number out of the input, with everything before
it. A float variable takes a decimal point along. -/
def popNumber (s : Scene) (dest : VarId) : Except Fault Scene := do
  if s.proc.input = "" then .error (.bare .inputEmpty)
  else
    let var ← s.proc.vars.get dest
    match findNumber? (var.kind = .float) s.proc.input.toList with
    | some (digits, rest) => do
      let v ← numberValue (String.ofList digits)
      let s ← s.assign dest v
      .ok { s with proc := { s.proc with input := String.ofList rest } }
    | none => .error (.bare .numberNotFound)

/-- Whether the input holds something to be taken. -/
def canPop (s : Scene) : Intake → Except Fault Bool
  | .char _ => .ok (s.proc.input ≠ "")
  | .number id => do
    let var ← s.proc.vars.get id
    .ok (findNumber? (var.kind = .float) s.proc.input.toList).isSome

/-- Works on the console and its buffers. -/
def console (s : Scene) : ConsoleOp → Except Fault Scene
  | .read =>
    let (text, console) := s.world.console.read
    .ok { proc := s.proc.feed text, world := { s.world with console } }
  | .write =>
    .ok { s with world := { s.world with console := s.world.console.write s.proc.output } }
  | .pop (.char dest) => s.popChar dest
  | .pop (.number dest) => s.popNumber dest
  | .canPop probe dest => do
    let ready ← s.canPop probe
    s.store dest (.bool ready)
  | .push args => do
    let (vs, s) ← s.readAll args
    let text := String.join (vs.map Value.render)
    .ok { s with proc := { s.proc with output := s.proc.output ++ text } }
  | .clear .input => .ok { s with proc := { s.proc with input := "" } }
  | .clear .output => .ok { s with proc := { s.proc with output := "" } }
  | .filter => .error (.of .notSupported "FILTER")

-- ================================================================ memory

/-- The address that an operand gives. -/
def readAddress (s : Scene) (o : Operand) : Except Fault (Int64 × Scene) := do
  let (v, s) ← s.read o
  match v with
  | .int n => .ok (n, s)
  | .float x =>
    match Number.truncate? x with
    | some n => .ok (n, s)
    | none =>
      .error (.of .conversionError (v.display ++ " TO " ++ Kind.int.display))
  | v => .error (.of .invalidOperand ("ADDRESS " ++ v.display))

/-- The local memory, or that of a component. -/
def device (s : Scene) : Option Handle → Except Fault Memory
  | none => .ok s.proc.memory
  | some h => Standard.device s.world.arena h

/-- The scene with the local memory, or that of a component,
replaced. -/
def setDevice (s : Scene) (target : Option Handle) (m : Memory) : Scene :=
  match target with
  | none => { s with proc := { s.proc with memory := m } }
  | some h => { s with world := { s.world with arena := s.world.arena.setMemory h m } }

/-- The scene with another arena. -/
def withArena (s : Scene) (arena : Arena) : Scene :=
  { s with world := { s.world with arena } }

/-- Works on a memory device. -/
def memory (s : Scene) (target : Option Handle) : MemoryOp → Except Fault Scene
  | .get addr dest => do
    let (n, s) ← s.readAddress addr
    let m ← s.device target
    match ← m.present s.world.arena.isAlive n with
    | some v => s.assign dest v
    | none => .error (.of .nullParameter ("MEMORY " ++ toString n.toInt))
  | .getType addr dest => do
    let (n, s) ← s.readAddress addr
    let m ← s.device target
    let kind ← m.kind s.world.arena.isAlive n
    s.store dest (.int kind.code)
  | .isNull addr dest => do
    let (n, s) ← s.readAddress addr
    let m ← s.device target
    let null ← m.isNull s.world.arena.isAlive n
    s.store dest (.bool null)
  | .set addr value => do
    let (n, s) ← s.readAddress addr
    let (v, s) ← s.read value
    let m ← s.device target
    let (old, m) ← m.set n v
    let s := s.setDevice target m
    .ok (s.withArena (s.world.arena.exchange v old))
  | .clear addr => do
    let (n, s) ← s.readAddress addr
    let m ← s.device target
    let (old, m) ← m.clear n
    let s := s.setDevice target m
    .ok (s.withArena (s.world.arena.releaseAll old.toList))

-- =============================================================== methods

/-- Stores what a method gave back, if that is asked for. -/
def storeResult (s : Scene) (method : String) (ret : Option VarId) (result : Option Value) :
    Except Fault Scene :=
  match ret, result with
  | none, _ => .ok s
  | some dest, some v => s.assign dest v
  | some _, none => .error (.of .noReturnValue method)

/-- Calls a method of the entity in a variable. -/
def call (s : Scene) (target : VarId) (method : String) (args : List Operand)
    (ret : Option VarId) : Except Fault Scene := do
  let h ← s.reach target
  match s.world.arena.entity? h with
  | none => .error (.bare .nullParameter)
  | some entity => do
    let (vs, s) ← s.readAll args
    match s.world.registry.find? entity.typeName method with
    | none => .error (.of .notSupported (entity.typeName ++ "." ++ method))
    | some m => do
      let (result, arena) ← m.invoke s.world.arena h vs
      (s.withArena arena).storeResult method ret result

end Scene

-- ========================================================== instructions

/-- Carries out one instruction. -/
def Instruction.execute (i : Instruction) (s : Scene) : Except Fault (Signal × Scene) :=
  match i with
  | declare dest source =>
    if s.proc.config.legacyVar ∧ dest ∈ s.proc.declared then .ok (.next, s)
    else do
      let (v, s) ← s.read source
      let s ← s.assign dest v
      let proc := { s.proc with declared := dest :: s.proc.declared }
      .ok (.next, { s with proc })
  | assign dest source => do
    let (v, s) ← s.read source
    let s ← s.assign dest v
    .ok (.next, s)
  | jump target condition => do
    let (v, s) ← s.read condition
    match v with
    | .bool true => .ok (.goto target, s)
    | .bool false => .ok (.next, s)
    | v => .error (.of .invalidCondition (v.display ++ " IS NOT BOOL"))
  | label => .ok (.next, s)
  | stop => .ok (.next, { s with proc := { s.proc with enabled := false } })
  | time op => (s.time op).map fun s => (.next, s)
  | console op => (s.console op).map fun s => (.next, s)
  | memory none op => (s.memory none op).map fun s => (.next, s)
  | memory (some id) op => do
    let h ← s.reach id
    (s.memory (some h) op).map fun s => (.next, s)
  | create => .ok (.next, s)
  | call target method args ret =>
    (s.call target method args ret).map fun s => (.next, s)

end TickScript
