/-
Call lines, `<instruction> <name>(<arg>, <arg>) <ret>`. Arguments are
divided by a comma and one space at the outermost bracket level outside
double quotes; inside nested brackets or quotes commas and spaces are
part of the argument. Everywhere else a space may stand only after the
instruction and before the return variable.

`Call.text` writes a call in the form that `Call.parse` reads.
-/
import TickScript.Fault

namespace TickScript

/-- A call line taken apart. -/
structure Call where
  instruction : String
  name : String
  args : List String
  ret : Option String
deriving DecidableEq

namespace Call

/-- The call as a line. -/
def text (c : Call) : String :=
  c.instruction ++ " " ++ c.name ++ "(" ++ ", ".intercalate c.args ++ ")" ++
    match c.ret with
    | some ret => " " ++ ret
    | none => ""

-- ================================================================ faults

/-- A fault at the character at `pos`. -/
def faultAt (pos : Nat) (detail : String) : Fault :=
  (Fault.of .syntaxError detail).inSpan (Span.char pos)

/-- Something at `pos` that may not stand there. -/
def unexpected (pos : Nat) (what : String) : Fault := faultAt pos ("UNEXPECTED " ++ what)

/-- A space is missing at `pos`. -/
def spaceExpected (pos : Nat) : Fault := faultAt pos "SPACE EXPECTED"

-- ================================================================= parts

/-- A piece of the line and what comes after it: the position reached
and the characters from there on. -/
structure Rest where
  pos : Nat
  chars : List Char

/-- Reads the instruction up to the space after it. -/
def readInstruction : (pos : Nat) → List Char → Except Fault (List Char × Rest)
  | pos, [] => .ok ([], ⟨pos + 1, []⟩)
  | pos, c :: cs =>
    if c = ' ' then .ok ([], ⟨pos + 1, cs⟩)
    else if c = '(' ∨ c = ')' then .error (unexpected pos "BRACKET")
    else do
      let (more, rest) ← readInstruction (pos + 1) cs
      .ok (c :: more, rest)

/-- Reads the name up to the bracket that opens the arguments. -/
def readName : (pos : Nat) → List Char → Except Fault (List Char × Rest)
  | pos, [] => .ok ([], ⟨pos + 1, []⟩)
  | pos, c :: cs =>
    if c = '(' then .ok ([], ⟨pos + 1, cs⟩)
    else if c = ' ' then .error (unexpected pos "SPACE")
    else do
      let (more, rest) ← readName (pos + 1) cs
      .ok (c :: more, rest)

/-- How the reader of arguments stands: how many brackets are open,
whether it is inside quotes, and whether a comma just ended an
argument. -/
structure ArgState where
  depth : Nat
  quoted : Bool
  comma : Bool

/-- Whether commas and spaces are part of the argument. -/
def ArgState.nested (s : ArgState) : Bool := 1 < s.depth || s.quoted

/-- Puts a character in front of the first argument. -/
def prepend (c : Char) : List (List Char) × Rest → List (List Char) × Rest
  | ([], rest) => ([[c]], rest)
  | (arg :: args, rest) => ((c :: arg) :: args, rest)

/-- Reads arguments up to the bracket that closes them. The first piece
is what remains of the argument the reader is in. -/
def readArgs : (pos : Nat) → ArgState → List Char → Except Fault (List (List Char) × Rest)
  | _, s, [] =>
    .error (.of .syntaxError (if s.quoted then "UNTERMINATED STRING" else "UNBALANCED BRACKETS"))
  | pos, s, c :: cs =>
    if c = ' ' then
      if s.nested then (readArgs (pos + 1) s cs).map (prepend c)
      else if s.comma then do
        let (args, rest) ← readArgs (pos + 1) { s with comma := false } cs
        .ok ([] :: args, rest)
      else .error (unexpected pos "SPACE")
    else if s.comma then .error (spaceExpected pos)
    else if c = '"' then
      (readArgs (pos + 1) { s with quoted := !s.quoted } cs).map (prepend c)
    else if c = ',' then
      if s.nested then (readArgs (pos + 1) s cs).map (prepend c)
      else readArgs (pos + 1) { s with comma := true } cs
    else if c = '(' ∧ s.quoted = false then
      (readArgs (pos + 1) { s with depth := s.depth + 1 } cs).map (prepend c)
    else if c = ')' ∧ s.quoted = false then
      if s.depth ≤ 1 then .ok ([[]], ⟨pos + 1, cs⟩)
      else (readArgs (pos + 1) { s with depth := s.depth - 1 } cs).map (prepend c)
    else (readArgs (pos + 1) s cs).map (prepend c)

/-- Reads a word without spaces, brackets and quotes to the end of the
line. -/
def readWord : (pos : Nat) → List Char → Except Fault (List Char)
  | _, [] => .ok []
  | pos, c :: cs =>
    if c = ' ' ∨ c = '(' ∨ c = ')' ∨ c = '"' then
      .error (unexpected pos (String.singleton c))
    else (readWord (pos + 1) cs).map (c :: ·)

/-- Reads the return variable after the closing bracket. A single space
with nothing after it names none. -/
def readReturn (rest : Rest) : Except Fault (Option String) :=
  match rest.chars with
  | [] => .ok none
  | c :: cs =>
    if c = ' ' then do
      let word ← readWord (rest.pos + 1) cs
      .ok (if word = [] then none else some (String.ofList word))
    else .error (spaceExpected rest.pos)

-- ================================================================== line

/-- Reads a call line. -/
def parseChars (cs : List Char) : Except Fault Call := do
  match cs with
  | [] => .error (.of .syntaxError "NOT A FUNCTION CALL")
  | c :: _ =>
    if c = '#' then .error (.of .syntaxError "NOT A FUNCTION CALL")
    else if c = ' ' ∨ c = '(' ∨ c = ')' ∨ c = '"' then
      .error (unexpected 0 (String.singleton c))
    else do
      let (instruction, rest) ← readInstruction 0 cs
      let (name, rest) ← readName rest.pos rest.chars
      let (args, rest) ← readArgs rest.pos ⟨1, false, false⟩ rest.chars
      let ret ← readReturn rest
      let args := if args = [[]] then [] else args
      if name = [] then .error (.of .syntaxError "MISSING FUNCTION NAME")
      else if [] ∈ args then .error (.of .syntaxError "EMPTY ARGUMENT")
      else
        .ok { instruction := String.ofList instruction
              name := String.ofList name
              args := args.map String.ofList
              ret }

/-- Reads a call line. -/
def parse (s : String) : Except Fault Call := parseChars s.toList

end Call

end TickScript
