/-
Variables and their storage. A variable is a named slot of one kind; a
storage is the table of a processor's variables. Names in it are
unique, it never shrinks, and a variable keeps the index it was given,
so compiled code refers to variables by index.
-/
import TickScript.Kind

namespace TickScript

/-- The index of a variable in its storage. -/
abbrev VarId := Nat

/-- An index as it stands in messages. -/
def VarId.text (id : VarId) : String := s!"VarId({id})"

/-- A typed, named slot. -/
structure Variable where
  name : String
  kind : Kind
  value : Option Value
  readonly : Bool
  /-- The component type a component variable is restricted to. -/
  component : Option String

namespace Variable

/-- A variable that holds nothing. -/
def empty (name : String) (kind : Kind) (readonly : Bool) : Variable :=
  { name, kind, value := none, readonly, component := none }

/-- The value a freshly declared variable of a kind starts with. -/
def zero? : Kind → Option Value
  | .int => some (.int 0)
  | .float => some (.float 0)
  | .bool => some (.bool false)
  | _ => none

/-- A variable that starts at zero, if its kind has a zero. -/
def zeroed (name : String) (kind : Kind) (readonly : Bool) : Variable :=
  { empty name kind readonly with value := zero? kind }

/-- A label, bound to a line for good. -/
def label (name : String) (line : Nat) : Variable :=
  { empty name .label true with value := some (.line line) }

/-- An empty reference to components of one type. -/
def ofComponent (name typeName : String) : Variable :=
  { empty name .component false with component := some typeName }

/-- Whether the variable is empty or refers to an entity that no longer
exists. -/
def isNull (alive : Handle → Bool) (v : Variable) : Bool :=
  match v.value with
  | none => true
  | some (.entity h) => !alive h
  | some _ => false

/-- The value of a variable that is not null. -/
def present? (alive : Handle → Bool) (v : Variable) : Option Value :=
  if v.isNull alive then none else v.value

/-- Stores a value of exactly the variable's kind. -/
def set (v : Variable) (w : Value) : Except Fault Variable :=
  if Kind.of w = v.kind then .ok { v with value := some w }
  else .error (.of .internalError (v.name ++ " IS NOT " ++ (Kind.of w).display))

/-- Empties the variable. -/
def clear (v : Variable) : Variable := { v with value := none }

/-- A variable as text, a readonly one with its name in braces. -/
def display (v : Variable) : String :=
  let name := if v.readonly then "\x7b" ++ v.name ++ "\x7d" else v.name
  let value := match v.value with
    | some w => w.display
    | none => "NULL"
  v.kind.display ++ " " ++ name ++ " = " ++ value

end Variable

-- =============================================================== storage

/-- A table of variables with a limit on their number. -/
structure Storage where
  vars : List Variable
  limit : Nat

namespace Storage

/-- A storage without variables. -/
def empty (limit : Nat) : Storage := ⟨[], limit⟩

def size (s : Storage) : Nat := s.vars.length

/-- The variable at an index. -/
def get? (s : Storage) (id : VarId) : Option Variable := s.vars[id]?

/-- The index of the variable with a name. -/
def id? (s : Storage) (name : String) : Option VarId := s.vars.findIdx? (·.name == name)

/-- Whether a variable has the name. -/
def contains (s : Storage) (name : String) : Bool := (s.id? name).isSome

/-- The fault of a name that no variable has. -/
def undefined (name : String) : Fault := .of .undefinedVariable name

/-- The fault of an index that no variable has. -/
def unknown (id : VarId) : Fault := .of .internalError ("NO VARIABLE " ++ toString id)

/-- The index of the variable with a name. -/
def id (s : Storage) (name : String) : Except Fault VarId :=
  match s.id? name with
  | some id => .ok id
  | none => .error (undefined name)

/-- The variable at an index. -/
def get (s : Storage) (id : VarId) : Except Fault Variable :=
  match s.get? id with
  | some v => .ok v
  | none => .error (unknown id)

/-- The variable with a name. -/
def find (s : Storage) (name : String) : Except Fault Variable := do
  let id ← s.id name
  s.get id

/-- Adds a variable at the end. A taken name is a worse fault than a
full table. -/
def add (s : Storage) (v : Variable) : Except Fault (VarId × Storage) :=
  if s.contains v.name then .error (.of .redeclared v.name)
  else if s.vars.length < s.limit then
    .ok (s.vars.length, { s with vars := s.vars ++ [v] })
  else .error (.of .tooManyVariables v.name)

/-- Adds a variable if that is possible. -/
def tryAdd (s : Storage) (v : Variable) : Bool × Storage :=
  match s.add v with
  | .ok (_, s) => (true, s)
  | .error _ => (false, s)

/-- Replaces the variable at an index. -/
def put (s : Storage) (id : VarId) (v : Variable) : Storage :=
  { s with vars := s.vars.set id v }

/-- Stores a value at an index and gives back the one it displaces. -/
def set (s : Storage) (id : VarId) (w : Value) : Except Fault (Option Value × Storage) := do
  let v ← s.get id
  let v' ← v.set w
  .ok (v.value, s.put id v')

/-- Empties the variable at an index and gives back what it held. -/
def clear (s : Storage) (id : VarId) : Option Value × Storage :=
  match s.get? id with
  | some v => (v.value, s.put id v.clear)
  | none => (none, s)

/-- The value of the variable with a name, if there is one. -/
def value? (s : Storage) (name : String) : Option Value :=
  s.id? name >>= s.get? >>= Variable.value

/-- Stores a value by name. A name that no variable has is ignored. -/
def setValue (s : Storage) (name : String) (w : Value) :
    Except Fault (Option Value × Storage) :=
  match s.id? name with
  | some id => s.set id w
  | none => .ok (none, s)

/-- The names in order of declaration. -/
def names (s : Storage) : List String := s.vars.map (·.name)

/-- The values held, in order of declaration. -/
def values (s : Storage) : List Value := s.vars.filterMap (·.value)

/-- All variables as text, each on a line of its own. -/
def display (s : Storage) : String := String.join (s.vars.map fun v => v.display ++ "\n")

end Storage

end TickScript
