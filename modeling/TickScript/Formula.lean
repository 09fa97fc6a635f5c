/-
Compiled expressions. The free names of an expression are its
parameters; each is resolved to a variable when the expression is
compiled and bound to the variable's current value every time it is
evaluated. Entities are bound by their slot number, so an expression
never sees a handle.
-/
import TickScript.Code.Generate
import TickScript.Code.Run
import TickScript.Term.Parser
import TickScript.Text.Blank
import TickScript.Variable

namespace TickScript

/-- An expression ready to be evaluated. -/
structure Formula where
  source : String
  code : Code
  /-- The parameters, with the variables they read. -/
  params : List (String × VarId)

namespace Formula

/-- Where a name first occurs in the text of an expression. Text that
parses is ASCII, so columns are characters. -/
def spanOf (source name : String) : Span :=
  match Text.findChars name.toList source.toList with
  | some start => ⟨start, start + name.length⟩
  | none => Span.nowhere

/-- Finds the variable of each parameter. -/
def resolve (source : String) (vars : Storage) : List String → Except Fault (List (String × VarId))
  | [] => .ok []
  | name :: names =>
    match vars.id name with
    | .error fault => .error (fault.inSpan (spanOf source name))
    | .ok id => (resolve source vars names).map ((name, id) :: ·)

/-- Compiles an expression. Text that does not parse is reported whole,
with what is wrong with it. -/
def compile (source : String) (vars : Storage) : Except Fault Formula :=
  match parse source with
  | .error fault =>
    let detail := Text.trimEnd (source ++ " " ++ fault.detail)
    .error ((Fault.of .invalidExpression detail).inSpan fault.span)
  | .ok term => do
    let params ← resolve source vars term.parameters
    let code ← term.generate term.parameters
    .ok { source, code, params }

/-- The value of an expression that is a single literal. -/
def constant? (f : Formula) : Option Value :=
  match f.code with
  | [.literal v] => some v
  | _ => none

/-- The values that expressions see for the parameters. -/
def bind (vars : Storage) (alive : Handle → Bool) :
    List (String × VarId) → Except Fault (List Value)
  | [] => .ok []
  | (name, id) :: params => do
    let var ← vars.get id
    match var.present? alive with
    | some v => (bind vars alive params).map (v.scalar :: ·)
    | none => .error (.of .nullParameter name)

/-- Evaluates an expression on the current values of its variables. -/
def evaluate (f : Formula) (vars : Storage) (alive : Handle → Bool) (draws : Draws) :
    Except Fault (Value × Draws) := do
  let bound ← bind vars alive f.params
  f.code.run bound draws

end Formula

end TickScript
