/-
Splitting expression text into lexemes. Spaces and tabs separate
tokens and are dropped; every other character belongs to exactly one
lexeme.

`lexFrom` walks the characters one by one. Where a token starts, `scan`
looks ahead and says which token it is and how many more characters it
covers; the walk then passes over that many.
-/
import TickScript.Token

namespace TickScript.Lexer

-- ====================================================== character classes

/-- Blanks between tokens. -/
def isGap (c : Char) : Bool := c == ' ' || c == '\t'

/-- Characters an identifier starts with. -/
def isWordStart (c : Char) : Bool := c.isAlpha || c == '_'

/-- Characters an identifier goes on with. -/
def isWordChar (c : Char) : Bool := c.isAlphanum || c == '_'

def isSign (c : Char) : Bool := c == '+' || c == '-'

-- ================================================================ numbers

/-- How far into a number literal the reader is. -/
inductive NumberPart where
  /-- Before any point or exponent. -/
  | whole
  /-- After the point. -/
  | places
  /-- Right after the exponent letter, where a sign may stand. -/
  | exponentSign
  /-- Among the digits of the exponent. -/
  | exponent
deriving DecidableEq

/-- Whether the text after an `e` makes it an exponent: a digit, or a
sign and a digit. -/
def exponentFollows : List Char → Bool
  | [] => false
  | [c] => c.isDigit
  | c :: d :: _ => c.isDigit || (isSign c && d.isDigit)

/-- What `c`, standing before `rest`, adds to a number: the character
kept and the part the number is then in. -/
def NumberPart.step (part : NumberPart) (c : Char) (rest : List Char) :
    Option (Char × NumberPart) :=
  if c.isDigit then some (c, if part = exponentSign then exponent else part)
  else if c = '.' ∧ part = whole then some (c, places)
  else if (c = 'e' ∨ c = 'E') ∧ (part = whole ∨ part = places) ∧ exponentFollows rest then
    some ('E', exponentSign)
  else if isSign c ∧ part = exponentSign then some (c, exponent)
  else none

/-- The longest number that text goes on with, with the exponent letter
written `E`, and the part it ends in. -/
def number (part : NumberPart) : List Char → List Char × NumberPart
  | [] => ([], part)
  | c :: cs =>
    match part.step c cs with
    | some (kept, next) =>
      let (more, last) := number next cs
      (kept :: more, last)
    | none => ([], part)

-- ================================================================= tokens

/-- The token that starts with `c` and the number of further characters
it covers. -/
def scan (c : Char) (cs : List Char) : Token × Nat :=
  if c.isDigit || c == '.' then
    let (digits, part) := number .whole (c :: cs)
    let text := String.ofList digits
    (if part = .whole then .integer text else .float text, digits.length - 1)
  else if isWordStart c then
    let more := cs.takeWhile isWordChar
    (Token.ofWord (String.ofList (c :: more)), more.length)
  else
    match cs.head? >>= Token.ofPair? c with
    | some token => (token, 1)
    | none => (Token.ofChar c, 0)

/-- The lexemes of the characters from position `pos` on, the first
`skip` of which belong to a token already read. -/
def lexFrom : (pos skip : Nat) → List Char → List Lexeme
  | _, _, [] => []
  | pos, skip + 1, _ :: cs => lexFrom (pos + 1) skip cs
  | pos, 0, c :: cs =>
    if isGap c then lexFrom (pos + 1) 0 cs
    else
      let (token, more) := scan c cs
      ⟨⟨pos, pos + 1 + more⟩, token⟩ :: lexFrom (pos + 1) more cs

end Lexer

/-- The lexemes of expression text, in order. -/
def lex (s : String) : List Lexeme := Lexer.lexFrom 0 0 s.toList

end TickScript
