/-
Compiling scripts. Comments are dropped; every other line keeps one
entry in the script, so the index of a line is also its jump address.

The first pass declares the labels. A label waits until the next line that
is not one, or the end, is come to, and is bound to that. The second pass
compiles the other lines in order. A line at fault leaves an empty entry,
and compiling goes on, so one run reports every bad line. What the passes
report is sorted by lines in the end.

All work on the variables is done in place: a line declares its variable
among those declared so far, and goes on with what it has done if it fails.
-/
import TickScript.Call
import TickScript.InPlace
import TickScript.Instruction
import TickScript.Line
import TickScript.Name
import TickScript.Registry.Standard

namespace TickScript

namespace Compiler

open InPlace (look check once)

-- ============================================================= variables

/-- A variable that an instruction may assign. -/
def writable (vars : Storage) (name : String) : Except Fault VarId := do
  let id ← vars.id name
  let v ← vars.get id
  if v.readonly then .error (.of .readonlyVariable name) else .ok id

/-- The variable that takes the result of a call. -/
def returnVar (vars : Storage) (c : Call) : Except Fault VarId :=
  match c.ret with
  | some name => writable vars name
  | none => .error (.of .returnVariable (c.name ++ " NEEDS A RETURN VARIABLE"))

/-- The variable that takes the result of a call, which is of a kind. -/
def returnVarOf (vars : Storage) (c : Call) (kind : Kind) : Except Fault VarId := do
  let id ← returnVar vars c
  let v ← vars.get id
  if v.kind = kind then .ok id
  else
    .error (.of .typeMismatch
      (c.name ++ " RETURNS " ++ kind.display ++ ", NOT " ++ v.kind.display))

/-- Refuses a return variable. -/
def noReturn (c : Call) : Except Fault Unit :=
  match c.ret with
  | some _ => .error (.of .returnVariable (c.name ++ " RETURNS NOTHING"))
  | none => .ok ()

/-- The arguments of a call that takes none. -/
def noArgs (c : Call) : Except Fault Unit :=
  match c.args with
  | [] => .ok ()
  | _ => .error (.of .argumentCount (c.name ++ " TAKES 0"))

/-- The argument of a call that takes one. -/
def oneArg (c : Call) : Except Fault String :=
  match c.args with
  | [arg] => .ok arg
  | _ => .error (.of .argumentCount (c.name ++ " TAKES 1"))

/-- The arguments of a call that takes two. -/
def twoArgs (c : Call) : Except Fault (String × String) :=
  match c.args with
  | [first, second] => .ok (first, second)
  | _ => .error (.of .argumentCount (c.name ++ " TAKES 2"))

/-- The operands that several texts stand for. -/
def operands (vars : Storage) : List String → Except Fault (List Operand)
  | [] => .ok []
  | s :: ss => do
    let o ← Operand.ofText s vars
    let os ← operands vars ss
    .ok (o :: os)

-- ============================================================ assignment

/-- What is assigned to a variable: an expression for values, another
variable of the same kind and component type for entities. -/
def source (vars : Storage) (kind : Kind) (component : Option String) (s : String) :
    Except Fault Operand :=
  if kind.isValue then Operand.expression s vars
  else do
    let id ← vars.id s
    let v ← vars.get id
    if v.kind = kind ∧ v.component = component then .ok (.var id)
    else .error (.of .typeMismatch (s ++ " IS NOT " ++ kind.display))

/-- Declares a variable; gives back its index. -/
def add (v : Variable) : InPlace Storage VarId := once fun vars => vars.add v

/-- Compiles `var <type> <name> <value>`. -/
def declare (l : Line) : InPlace Storage Instruction :=
  match l.split 4 with
  | [_, word, name, value] => do
    let kind := Kind.ofWord word
    if kind = .none then
      throw (.of .typeMismatch ("UNKNOWN TYPE " ++ word))
    else
      let name ← check (Name.check name)
      let o ← look fun vars => source vars kind none value
      let id ← add (.zeroed name.name kind name.readonly)
      pure (.declare id o)
  | _ => throw (.of .syntaxError "VAR <TYPE> <NAME> <VALUE>")

/-- Compiles `set <name> <value>`. -/
def assign (vars : Storage) (l : Line) : Except Fault Instruction :=
  match l.split 3 with
  | [_, name, value] => do
    let id ← writable vars name
    let v ← vars.get id
    if v.kind.isValue ∨ v.kind.isEntity then do
      let o ← source vars v.kind v.component value
      .ok (.assign id o)
    else .error (.of .typeMismatch ("CANNOT SET " ++ v.kind.display ++ " " ++ name))
  | _ => .error (.of .syntaxError "SET <NAME> <VALUE>")

/-- Compiles `jump <label> <condition>`. -/
def jump (vars : Storage) (l : Line) : Except Fault Instruction :=
  match l.split 3 with
  | [_, label, condition] => do
    let v ← vars.find label
    match v.kind, v.value with
    | .label, some (.line target) => do
      let o ← Operand.expression condition vars
      .ok (.jump target o)
    | _, _ => .error (.of .typeMismatch (label ++ " IS NOT A LABEL"))
  | _ => .error (.of .syntaxError "JUMP <LABEL> <CONDITION>")

-- ================================================================== time

/-- The variable that takes a reading of the clock. Only a count of
frames fits an integer. -/
def timeVar (vars : Storage) (c : Call) (whole : Bool) : Except Fault VarId := do
  noArgs c
  let id ← returnVar vars c
  let v ← vars.get id
  if v.kind = .float ∨ (whole ∧ v.kind = .int) then .ok id
  else .error (.of .typeMismatch (v.kind.display ++ " CANNOT HOLD " ++ c.name))

/-- Compiles `time <function>(…)`. -/
def time (vars : Storage) (c : Call) : Except Fault TimeOp :=
  match c.name with
  | "frames_since_launch" => (timeVar vars c true).map .framesSinceLaunch
  | "seconds_since_launch" => (timeVar vars c false).map .secondsSinceLaunch
  | "delta_time" => (timeVar vars c false).map .deltaTime
  | "wait" => do
    let arg ← oneArg c
    noReturn c
    let o ← Operand.expression arg vars
    .ok (.wait o)
  | name => .error (.of .unknownFunction ("TIME " ++ name))

-- =============================================================== console

/-- A variable that input is taken into. In single quotes it takes a
character. -/
def intake (vars : Storage) (s : String) : Except Fault Intake :=
  match Text.insideQuotes '\'' s with
  | some name => do
    let id ← vars.id name
    let _ ← Operand.character name vars
    .ok (.char id)
  | none => do
    let id ← vars.id s
    let v ← vars.get id
    if v.kind.isValue then .ok (.number id)
    else .error (.of .typeMismatch (s ++ " IS " ++ v.kind.display))

/-- A console function that takes and returns nothing. -/
def plain (c : Call) (op : ConsoleOp) : Except Fault ConsoleOp := do
  noArgs c
  noReturn c
  .ok op

/-- Compiles `console <function>(…)`. -/
def console (vars : Storage) (c : Call) : Except Fault ConsoleOp :=
  match c.name with
  | "read" => plain c .read
  | "write" => plain c .write
  | "clear_in" => plain c (.clear .input)
  | "clear_out" => plain c (.clear .output)
  | "clear" => do
    let arg ← oneArg c
    noReturn c
    let o ← Operand.ofText arg vars
    match o.string? with
    | some "in" => .ok (.clear .input)
    | some "out" => .ok (.clear .output)
    | _ => .error (.of .typeMismatch "CLEAR \"in\" OR \"out\"")
  | "pop" => do
    noArgs c
    match c.ret with
    | some name => do
      let target ← intake vars name
      let v ← vars.get target.id
      if v.readonly then .error (.of .readonlyVariable name) else .ok (.pop target)
    | none => .error (.of .returnVariable "POP NEEDS A RETURN VARIABLE")
  | "can_pop" => do
    let arg ← oneArg c
    let dest ← returnVarOf vars c .bool
    let probe ← intake vars arg
    .ok (.canPop probe dest)
  | "push" =>
    match c.args with
    | [] => .error (.of .argumentCount "PUSH NEEDS ARGUMENTS")
    | args => do
      noReturn c
      let os ← operands vars args
      .ok (.push os)
  | "filter" => .ok .filter
  | name => .error (.of .unknownFunction ("CONSOLE " ++ name))

-- ================================================================ memory

/-- An operand that is an address. -/
def address (vars : Storage) (s : String) : Except Fault Operand := do
  let o ← Operand.expression s vars
  if o.isNumeric then .ok o else .error (.of .typeMismatch ("ADDRESS " ++ s))

/-- The work that a memory function does. -/
def memoryOp (vars : Storage) (c : Call) (method : String) : Except Fault MemoryOp :=
  match method with
  | "get" => do
    let arg ← oneArg c
    let addr ← address vars arg
    let dest ← returnVar vars c
    .ok (.get addr dest)
  | "get_type" => do
    let arg ← oneArg c
    let addr ← address vars arg
    let dest ← returnVarOf vars c .int
    .ok (.getType addr dest)
  | "is_null" => do
    let arg ← oneArg c
    let addr ← address vars arg
    let dest ← returnVarOf vars c .bool
    .ok (.isNull addr dest)
  | "set" => do
    let (first, second) ← twoArgs c
    noReturn c
    let value ← Operand.ofText second vars
    match value with
    | .text _ | .char _ => .error (.of .typeMismatch ("MEMORY VALUE " ++ second))
    | value => do
      let addr ← address vars first
      .ok (.set addr value)
  | "clear" => do
    let arg ← oneArg c
    noReturn c
    let addr ← address vars arg
    .ok (.clear addr)
  | name => .error (.of .unknownFunction ("MEMORY " ++ name))

/-- The variable of a memory component. -/
def memoryVar (vars : Storage) (name : String) : Except Fault VarId := do
  let id ← vars.id name
  let v ← vars.get id
  if v.kind = .component ∧ v.component = some Entity.memoryType then .ok id
  else .error (.of .typeMismatch (name ++ " IS NOT A MEMORY"))

/-- Compiles `memory <function>(…)` or `memory <variable>.<function>(…)`. -/
def memory (vars : Storage) (c : Call) : Except Fault Instruction :=
  match Text.split '.' c.name with
  | [method] => (memoryOp vars c method).map (.memory none)
  | [device, method] => do
    let id ← memoryVar vars device
    (memoryOp vars c method).map (.memory (some id))
  | _ => .error (.of .syntaxError ("MEMORY " ++ c.name))

-- ============================================================ components

/-- The type whose methods a variable answers to. -/
def targetType (name : String) (v : Variable) : Except Fault String :=
  match v.kind, v.component with
  | .part, _ => .ok Entity.partType
  | .component, some typeName => .ok typeName
  | kind, _ => .error (.of .typeMismatch (name ++ " IS " ++ kind.display))

/-- The variable that takes the result of a method, if one is named. -/
def methodReturn (vars : Storage) (c : Call) (method : String) (returns : Returns) :
    Except Fault (Option VarId) :=
  match c.ret with
  | none => .ok none
  | some name => do
    let id ← writable vars name
    let v ← vars.get id
    match returns with
    | .nothing => .error (.of .returnVariable (method ++ " RETURNS NOTHING"))
    | .dynamic => .ok (some id)
    | .kind k =>
      if k = v.kind ∨ (k.isValue ∧ v.kind.isValue) then .ok (some id)
      else .error (.of .typeMismatch (method ++ " RETURNS " ++ k.display))

/-- Compiles `comp <variable>.<method>(…)`. -/
def methodCall (registry : Registry) (vars : Storage) (c : Call) (target method : String) :
    Except Fault Instruction := do
  let id ← vars.id target
  let v ← vars.get id
  let typeName ← targetType target v
  match registry.find? typeName method with
  | none => .error (.of .unknownFunction (typeName ++ "." ++ method))
  | some m =>
    let wanted := m.signature.params.length
    if c.args.length = wanted then do
      let args ← operands vars c.args
      let ret ← methodReturn vars c method m.signature.returns
      .ok (.call id method args ret)
    else .error (.of .argumentCount (c.name ++ " TAKES " ++ toString wanted))

/-- Compiles `comp create("<name>", "<type>")`. -/
def create (registry : Registry) (c : Call) : InPlace Storage Instruction := do
  let (first, second) ← check (twoArgs c)
  check (noReturn c)
  let name ← look (Operand.ofText first)
  let typeName ← look (Operand.ofText second)
  match name.string?, typeName.string? with
  | some name, some typeName => do
    let name ← check (Name.check name)
    if name.readonly then
      throw (.of .illegalName ("\x7b" ++ name.name ++ "\x7d"))
    else if typeName = Entity.partType ∨ registry.hasType typeName = false then
      throw (.of .typeMismatch ("UNKNOWN COMPONENT " ++ typeName))
    else do
      let _ ← add (.ofComponent name.name typeName)
      pure .create
  | _, _ => throw (.of .typeMismatch "CREATE(\"<NAME>\", \"<TYPE>\")")

/-- Compiles `comp …`. -/
def component (registry : Registry) (c : Call) : InPlace Storage Instruction :=
  if c.name = "create" then create registry c
  else
    match Text.split '.' c.name with
    | [target, method] => look fun vars => methodCall registry vars c target method
    | _ => throw (.of .syntaxError ("COMP <NAME>.<METHOD>, NOT " ++ c.name))

-- ================================================================= lines

/-- Compiles a line that is not a label, among the variables declared so
far. -/
def line (registry : Registry) (l : Line) : InPlace Storage Instruction :=
  match l.keyword with
  | "var" => declare l
  | "set" => look fun vars => assign vars l
  | "jump" => look fun vars => jump vars l
  | "stop" =>
    if l.text = "stop" then pure .stop
    else throw (.of .syntaxError "STOP TAKES NOTHING")
  | "time" => do
    let c ← check (Call.parse l.text)
    look fun vars => (time vars c).map .time
  | "console" => do
    let c ← check (Call.parse l.text)
    look fun vars => (console vars c).map .console
  | "memory" => do
    let c ← check (Call.parse l.text)
    look fun vars => memory vars c
  | "comp" => do
    let c ← check (Call.parse l.text)
    component registry c
  | keyword => throw (.of .unknownInstruction keyword)

/-- The name that a label line declares. -/
def labelName (l : Line) : Except Fault String :=
  match l.split 2 with
  | ["label", name] => (Name.check name).map Name.name
  | _ => .error (.of .syntaxError "LABEL <NAME>")

/-- Declares a label bound to a line. -/
def bindLabel (l : Line) (target : Nat) : InPlace Storage VarId := do
  let name ← check (labelName l)
  add (.label name target)

-- ============================================================ first pass

/-- The first pass at work. -/
structure FirstPass where
  /-- The labels that wait to be bound, with their lines, in order. -/
  pending : Array (Nat × Line)
  vars : Storage
  /-- The lines whose labels were refused. -/
  bad : Array Bool
  faults : Array Fault

namespace FirstPass

/-- Binds a label to a line. If it is refused, its own line is marked and
the fault reported. -/
def settle (target : Nat) (p : FirstPass) (label : Nat × Line) : FirstPass :=
  match (bindLabel label.2 target).run p.vars with
  | .ok _ vars => { p with vars }
  | .error fault vars =>
    { p with
      vars
      bad := p.bad.setIfInBounds label.1 true
      faults := p.faults.push (fault.atLine (some label.1)) }

/-- Binds all labels that wait, in order. -/
def drain (target : Nat) (p : FirstPass) : FirstPass :=
  p.pending.foldl (settle target) { p with pending := #[] }

/-- Comes to a line. A label waits; any other line is what the labels
before it have waited for. -/
def step (p : FirstPass) (entry : Line × Nat) : FirstPass :=
  if entry.1.isLabel then { p with pending := p.pending.push (entry.2, entry.1) }
  else p.drain entry.2

/-- Before the first line. -/
def start (size : Nat) (vars : Storage) : FirstPass where
  pending := #[]
  vars
  bad := Array.replicate size false
  faults := #[]

end FirstPass

/-- The first pass: declares the labels. Those at the end of the lines are
bound to the end. -/
def firstPass (lines : List Line) (vars : Storage) : FirstPass :=
  (lines.zipIdx.foldl FirstPass.step (.start lines.length vars)).drain lines.length

-- =========================================================== second pass

/-- The second pass at work. -/
structure SecondPass where
  vars : Storage
  script : Script
  faults : Array Fault

/-- Makes the entry of a line. That of a label is empty if the first pass
has refused the label. -/
def SecondPass.step (registry : Registry) (bad : Array Bool) (p : SecondPass)
    (entry : Line × Nat) : SecondPass :=
  if entry.1.isLabel then
    { p with script := p.script.push (if bad.getD entry.2 false then none else some .label) }
  else
    match (line registry entry.1).run p.vars with
    | .ok i vars => { p with vars, script := p.script.push (some i) }
    | .error fault vars =>
      { vars
        script := p.script.push none
        faults := p.faults.push (fault.atLine (some entry.2)) }

/-- The second pass: goes on with the variables and the faults of the
first. -/
def secondPass (registry : Registry) (lines : List Line) (p : FirstPass) : SecondPass :=
  lines.zipIdx.foldl (SecondPass.step registry p.bad) ⟨p.vars, #[], p.faults⟩

-- =============================================================== sorting

/-- Faults are in order of lines, those that are on none first. -/
def noLater (fault fault' : Fault) : Bool :=
  match fault.line, fault'.line with
  | none, _ => true
  | some _, none => false
  | some n, some n' => n ≤ n'

/-- Puts a fault where it belongs, before others of its line. -/
def insertByLine (fault : Fault) : List Fault → List Fault
  | [] => [fault]
  | fault' :: faults =>
    if noLater fault fault' then fault :: fault' :: faults
    else fault' :: insertByLine fault faults

/-- Sorts faults by lines. Those of one line stay in order. -/
def sortByLine (faults : List Fault) : List Fault := faults.foldr insertByLine []

end Compiler

/-- A source compiled: its script, what is wrong with it, and the
variables declared. -/
structure Compiled where
  script : Script
  faults : List Fault
  vars : Storage

/-- Compiles a source with some variables declared already. What both
passes have reported is sorted by lines. -/
def compile (source : String) (vars : Storage) (registry : Registry) : Compiled :=
  let lines := Line.ofSource source
  let p := Compiler.secondPass registry lines (Compiler.firstPass lines vars)
  { script := p.script
    faults := Compiler.sortByLine p.faults.toList
    vars := p.vars }

end TickScript
