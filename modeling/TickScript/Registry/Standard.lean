/-
The methods that are always there: those of parts, to find their
components, and those of memory components, to use them as memory.
-/
import TickScript.Registry

namespace TickScript.Standard

/-- What a method does. -/
abbrev Action := Arena → Handle → List Value → Except Fault (Option Value × Arena)

/-- An action that looks and changes nothing. -/
def look (f : Arena → Handle → List Value → Except Fault (Option Value)) : Action :=
  fun a target args => (f a target args).map fun v => (v, a)

-- ============================================================= arguments

/-- The integer argument in a place. -/
def intArg (args : List Value) (i : Nat) : Except Fault Int64 :=
  match args[i]? with
  | some (.int n) => .ok n
  | _ => .error (.of .internalError "EXPECTED INT ARGUMENT")

/-- The text argument in a place. -/
def textArg (args : List Value) (i : Nat) : Except Fault String :=
  match args[i]? with
  | some (.text s) => .ok s
  | _ => .error (.of .internalError "EXPECTED STR ARGUMENT")

/-- Any argument in a place. -/
def anyArg (args : List Value) (i : Nat) : Except Fault Value :=
  match args[i]? with
  | some v => .ok v
  | none => .error (.of .internalError "EXPECTED VALUE ARGUMENT")

/-- A count as a script integer. -/
def count (n : Nat) : Value := .int (Int64.ofNat n)

-- ================================================================= parts

/-- The number of the part's slot. -/
def partId : Action := look fun _ target _ => .ok (some (count target.index))

/-- The component of a type with a number, counted from zero. -/
def partComponent : Action := look fun a target args => do
  let typeName ← textArg args 0
  let n ← intArg args 1
  if n < 0 then
    .error (.of .addressOutOfBounds ("COMPONENT INDEX " ++ toString n.toInt))
  else
    match a.component? target typeName n.toInt.toNat with
    | some h => .ok (some (.entity h))
    | none =>
      .error (.of .nullParameter ("NO " ++ typeName ++ " COMPONENT " ++ toString n.toInt))

/-- How many components of a type there are. -/
def partComponentCount : Action := look fun a target args => do
  let typeName ← textArg args 0
  .ok (some (count (a.components target typeName).length))

-- ================================================================ memory

/-- The memory of the entity a method is called on. -/
def device (a : Arena) (target : Handle) : Except Fault Memory :=
  match a.memory? target with
  | some m => .ok m
  | none => .error (.of .nullParameter "NOT A MEMORY DEVICE")

/-- A cell number, or minus one for none. -/
def cellNumber : Option Nat → Value
  | some i => count i
  | none => .int (-1)

def memorySize : Action := look fun a target _ => do
  let m ← device a target
  .ok (some (count m.size))

def memoryFreeCount : Action := look fun a target _ => do
  let m ← device a target
  .ok (some (count m.freeCount))

def memoryFirstFree : Action := look fun a target _ => do
  let m ← device a target
  .ok (some (cellNumber m.firstFree))

def memoryLastFree : Action := look fun a target _ => do
  let m ← device a target
  .ok (some (cellNumber m.lastFree))

/-- Whether a cell holds nothing that is alive. -/
def memoryIsNull : Action := look fun a target args => do
  let addr ← intArg args 0
  let m ← device a target
  let null ← m.isNull a.isAlive addr
  .ok (some (.bool null))

/-- The number of the kind of what a cell holds. -/
def memoryGetType : Action := look fun a target args => do
  let addr ← intArg args 0
  let m ← device a target
  let kind ← m.kind a.isAlive addr
  .ok (some (.int kind.code))

/-- What a cell holds. -/
def memoryGetValue : Action := look fun a target args => do
  let addr ← intArg args 0
  let m ← device a target
  m.present a.isAlive addr

/-- Stores a value in a cell. A handle must be to a living entity. -/
def memorySetValue : Action := fun a target args => do
  let addr ← intArg args 0
  let v ← anyArg args 1
  match v with
  | .entity h =>
    if a.isAlive h then .ok () else .error (.of .nullParameter "DEAD ENTITY")
  | _ => .ok ()
  let m ← device a target
  let (old, m) ← m.set addr v
  .ok (none, (a.setMemory target m).exchange v old)

/-- Empties a cell. -/
def memoryClear : Action := fun a target args => do
  let addr ← intArg args 0
  let m ← device a target
  let (old, m) ← m.clear addr
  .ok (none, (a.setMemory target m).releaseAll old.toList)

-- ============================================================== registry

/-- The methods of parts. -/
def partMethods : List Method :=
  [⟨"id", ⟨[], .kind .int⟩, partId⟩,
   ⟨"get_component", ⟨[.kind .text, .kind .int], .kind .component⟩, partComponent⟩,
   ⟨"component_count", ⟨[.kind .text], .kind .int⟩, partComponentCount⟩]

/-- The methods of memory components. -/
def memoryMethods : List Method :=
  [⟨"size", ⟨[], .kind .int⟩, memorySize⟩,
   ⟨"free_count", ⟨[], .kind .int⟩, memoryFreeCount⟩,
   ⟨"first_free", ⟨[], .kind .int⟩, memoryFirstFree⟩,
   ⟨"last_free", ⟨[], .kind .int⟩, memoryLastFree⟩,
   ⟨"is_null", ⟨[.kind .int], .kind .bool⟩, memoryIsNull⟩,
   ⟨"get_type", ⟨[.kind .int], .kind .int⟩, memoryGetType⟩,
   ⟨"get_value", ⟨[.kind .int], .dynamic⟩, memoryGetValue⟩,
   ⟨"set_value", ⟨[.kind .int, .any], .nothing⟩, memorySetValue⟩,
   ⟨"clear", ⟨[.kind .int], .nothing⟩, memoryClear⟩]

end Standard

/-- The registry of the methods that are always there. -/
def Registry.standard : Registry :=
  let r := Standard.partMethods.foldl (fun r m => r.register Entity.partType m) Registry.empty
  Standard.memoryMethods.foldl (fun r m => r.register Entity.memoryType m) r

end TickScript
