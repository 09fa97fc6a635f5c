/-
Names in declarations. A name is made of ASCII letters, digits and
underscores, and must not be taken for anything else: not for a number
or a truth value, not for an instruction, not for the part the script
runs on. A name in braces declares something readonly.
-/
import TickScript.Fault
import TickScript.Number.Reading

namespace TickScript

/-- The words that instructions start with. -/
def keywords : List String :=
  ["var", "set", "jump", "label", "stop", "time", "console", "memory", "comp"]

def isKeyword (word : String) : Bool := keywords.contains word

/-- The name under which scripts know the part they run on. -/
def thisName : String := "this"

/-- A name fit for a declaration. -/
structure Name where
  name : String
  readonly : Bool
deriving DecidableEq

namespace Name

/-- Characters of names. -/
def isNameChar (c : Char) : Bool := c.isAlphanum || c == '_'

/-- Whether a word reads as a number or a truth value. -/
def isLiteral (word : String) : Bool :=
  (Number.readFloat? word).isSome || Text.sameWord word "true" || Text.sameWord word "false"

/-- The inside of a name in braces; `none` for a name without. -/
def insideBraces (s : String) : Option String :=
  match s.toList with
  | '\x7b' :: cs =>
    if cs.getLast? = some '\x7d' then some (String.ofList cs.dropLast) else none
  | _ => none

/-- Checks a name as it stands in a declaration. -/
def check (s : String) : Except Fault Name :=
  let (word, readonly) := match insideBraces s with
    | some inner => (inner, true)
    | none => (s, false)
  if word = "" then .error (.of .illegalName "EMPTY NAME")
  else if isLiteral word then .error (.of .illegalName (word ++ " IS A LITERAL"))
  else if isKeyword word then .error (.of .illegalName (word ++ " IS AN INSTRUCTION"))
  else if word = thisName then .error (.of .illegalName "THIS IS RESERVED")
  else if word.toList.all isNameChar then .ok ⟨word, readonly⟩
  else .error (.of .illegalName ("ILLEGAL CHARACTER IN " ++ word))

end Name

end TickScript
