/-
Methods that scripts can call on entities. A method belongs to an
entity type, has a signature, and works on the arena. Hosts register
methods for component types of their own; a method exists only if it
was registered.
-/
import TickScript.Arena

namespace TickScript

/-- What a method takes in one place. -/
inductive Param where
  | kind (k : Kind)
  | any
deriving DecidableEq

/-- What a method gives back. -/
inductive Returns where
  | nothing
  | kind (k : Kind)
  /-- Whatever the call produces, which may be nothing. -/
  | dynamic
deriving DecidableEq

/-- The parameters of a method and what it returns. -/
structure Signature where
  params : List Param
  returns : Returns
deriving DecidableEq

/-- A method. It gets the entity it is called on and its arguments, and
gives back a value or none, and the arena as it leaves it. -/
structure Method where
  name : String
  signature : Signature
  action : Arena → Handle → List Value → Except Fault (Option Value × Arena)

-- ================================================================== text

/-- The name of a kind in signatures. -/
def Kind.word : Kind → String
  | none => "None"
  | int => "Int"
  | float => "Float"
  | bool => "Bool"
  | text => "Str"
  | part => "PartRef"
  | component => "ComponentRef"
  | label => "Label"

def Param.display : Param → String
  | kind k => "Kind(" ++ k.word ++ ")"
  | any => "Any"

def Returns.display : Returns → String
  | nothing => "Nothing"
  | kind k => "Kind(" ++ k.word ++ ")"
  | dynamic => "Dynamic"

def Signature.display (s : Signature) : String :=
  "Signature \x7b params: [" ++ ", ".intercalate (s.params.map Param.display) ++
    "], returns: " ++ s.returns.display ++ " \x7d"

-- ================================================================= calls

/-- An argument as a parameter takes it. An integer is taken for a
float. -/
def Param.accept? : Param → Value → Option Value
  | .any, v => some v
  | .kind .float, .int n => some (.float (Number.toFloat n))
  | .kind k, v => if Kind.of v = k then some v else none

/-- The kind that a parameter wants, in messages. -/
def Param.wanted : Param → String
  | .kind k => k.display
  | .any => "ANY"

namespace Method

/-- The method with its signature. -/
def display (m : Method) : String := m.name ++ m.signature.display

/-- The arguments as the parameters take them, in order from the
`i`th on. -/
def checkArgs (m : Method) : (i : Nat) → List Param → List Value → Except Fault (List Value)
  | i, p :: ps, v :: vs =>
    match p.accept? v with
    | some w => (checkArgs m (i + 1) ps vs).map (w :: ·)
    | none =>
      .error (.of .invalidOperand
        ("ARGUMENT " ++ toString i ++ " OF " ++ m.name ++ " IS " ++ (Kind.of v).display ++
          ", NOT " ++ p.wanted))
  | _, _, _ => .ok []

/-- Checks the arguments and calls the method. -/
def invoke (m : Method) (a : Arena) (target : Handle) (args : List Value) :
    Except Fault (Option Value × Arena) :=
  if args.length = m.signature.params.length then do
    let args ← m.checkArgs 0 m.signature.params args
    m.action a target args
  else .error (.of .invalidOperand (m.name ++ " ARGUMENT COUNT"))

end Method

-- ============================================================== registry

/-- The methods of every entity type, the latest registered first. -/
structure Registry where
  methods : List (String × Method)

namespace Registry

/-- The registry without methods. -/
def empty : Registry := ⟨[]⟩

/-- Registers a method for a type, in place of an older one with its
name. -/
def register (r : Registry) (typeName : String) (m : Method) : Registry :=
  ⟨(typeName, m) :: r.methods⟩

/-- Whether a type has methods. -/
def hasType (r : Registry) (typeName : String) : Bool :=
  r.methods.any fun entry => entry.1 == typeName

/-- The method of a type with a name. -/
def find? (r : Registry) (typeName name : String) : Option Method :=
  (r.methods.find? fun entry => entry.1 == typeName && entry.2.name == name).map Prod.snd

end Registry

end TickScript
