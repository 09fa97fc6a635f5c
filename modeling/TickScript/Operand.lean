/-
Operands of instructions. Every operand an instruction reads goes
through `Operand.value`, so null checks and binding are the same
everywhere.

* Text in double quotes is a string.
* A name in single quotes reads an integer variable as one character.
* The name of a variable that holds no number or truth value refers to
  that variable.
* Anything else is an expression; one that is a single literal is kept
  as that literal.
-/
import TickScript.Formula

namespace TickScript

/-- What an instruction reads. -/
inductive Operand where
  | literal (v : Value)
  | var (id : VarId)
  | char (id : VarId)
  | formula (f : Formula)
  | text (s : String)

namespace Operand

/-- An operand that must be an expression. -/
def expression (s : String) (vars : Storage) : Except Fault Operand := do
  let f ← Formula.compile s vars
  match f.constant? with
  | some v => .ok (literal v)
  | none => .ok (formula f)

/-- An integer variable read as a character. -/
def character (name : String) (vars : Storage) : Except Fault Operand := do
  let id ← vars.id name
  let v ← vars.get id
  if v.kind = .int then .ok (char id)
  else .error (.of .typeMismatch (name ++ " IS " ++ v.kind.display ++ ", NOT INT"))

/-- The operand that text stands for. -/
def ofText (s : String) (vars : Storage) : Except Fault Operand :=
  if s.toList.contains '"' then
    match Text.insideQuotes '"' s with
    | some inner =>
      if inner.toList.contains '"' then .error (.of .syntaxError ("INVALID STRING " ++ s))
      else .ok (text inner)
    | none => .error (.of .syntaxError ("INVALID STRING " ++ s))
  else if s.toList.contains '\'' then
    match Text.insideQuotes '\'' s with
    | some name => character name vars
    | none => .error (.of .syntaxError ("INVALID CHARACTER " ++ s))
  else
    match vars.id? s with
    | some id =>
      match vars.get? id with
      | some v => if v.kind.isValue then expression s vars else .ok (var id)
      | none => expression s vars
    | none => expression s vars

/-- Whether the operand may be a number. -/
def isNumeric : Operand → Bool
  | literal (.int _) | literal (.float _) | formula _ => true
  | _ => false

/-- The text of a string operand. -/
def string? : Operand → Option String
  | text s => some s
  | _ => none

/-- The character with a code. -/
def charOfCode? (n : Int64) : Option Char :=
  let code := n.toInt.toNat
  if 0 ≤ n ∧ code.isValidChar then some (Char.ofNat code) else none

/-- The fault of reading a variable that is null. -/
def null (v : Variable) : Fault := .of .nullParameter v.name

/-- The current value of an operand. -/
def value (o : Operand) (vars : Storage) (alive : Handle → Bool) (draws : Draws) :
    Except Fault (Value × Draws) :=
  match o with
  | literal v => .ok (v, draws)
  | text s => .ok (.text s, draws)
  | formula f => f.evaluate vars alive draws
  | var id => do
    let v ← vars.get id
    match v.present? alive with
    | some w => .ok (w, draws)
    | none => .error (null v)
  | char id => do
    let v ← vars.get id
    match v.value with
    | some (.int n) =>
      match charOfCode? n with
      | some c => .ok (.text (String.singleton c), draws)
      | none =>
        .error (.of .conversionError ((Value.int n).display ++ " IS NOT A CHARACTER"))
    | _ => .error (null v)

/-- An operand in messages. -/
def display : Operand → String
  | literal v => v.display
  | var id => "VAR(" ++ VarId.text id ++ ")"
  | char id => "CHAR(" ++ VarId.text id ++ ")"
  | formula f => f.source
  | text s => "\"" ++ s ++ "\""

end Operand

end TickScript
