/-
The expression parser: operator precedence by climbing. `climb floor`
reads an operand and then goes on for as long as the next operator
binds tighter than `floor`; all binary operators group to the left, and
a unary operator takes an operand that no binary operator can enter.

The functions call each other along the lexemes still to be read, and
each takes a bound on the depth of these calls. At most two calls in a
row read nothing, so `2 * n + 2` is deep enough for `n` lexemes:
`ofLexemes` supplies it and no caller sees it.

A fault is placed at the last lexeme read, which is the offending one
if there is one.
-/
import TickScript.Term
import TickScript.Fault
import TickScript.Number.Reading
import TickScript.Token.Lexer

namespace TickScript.Parser

/-- Where the parser stands: the span of the last lexeme read, and the
lexemes to come. -/
structure Cursor where
  last : Span
  rest : List Lexeme

/-- A syntax fault at the last lexeme read. -/
def Cursor.expected (cur : Cursor) (what : String) : Fault :=
  (Fault.of .syntaxError what).inSpan cur.last

/-- The depth bound fell short. -/
def tooDeep (cur : Cursor) : Fault := cur.expected "EXPRESSION TOO DEEP"

/-- How tightly unary operators bind: more than any binary one. -/
def unaryFloor : Nat := 7

/-- The term of an integer literal. -/
def integerTerm (span : Span) (digits : String) : Except Fault Term :=
  match Number.readInt? digits with
  | some n => .ok (.int span n)
  | none => .error ((Fault.of .overflow "INTEGER LITERAL TOO LARGE").inSpan span)

/-- The term of a float literal. -/
def floatTerm (span : Span) (digits : String) : Except Fault Term :=
  match Number.readFloat? digits with
  | some x => .ok (.float span x)
  | none => .error ((Fault.of .syntaxError "MALFORMED NUMBER").inSpan span)

mutual

/-- Reads an operand: a literal, a variable, a call, an expression in
parentheses, or a unary operator and its operand. -/
def operand : (depth : Nat) → Cursor → Except Fault (Term × Cursor)
  | 0, cur => .error (tooDeep cur)
  | depth + 1, cur =>
    match cur.rest with
    | [] => .error (cur.expected "EXPECTED EXPRESSION")
    | ⟨span, token⟩ :: rest =>
      let cur : Cursor := ⟨span, rest⟩
      match token with
      | .leftParen => do
        let (term, cur) ← climb depth 0 cur
        match cur.rest with
        | ⟨close, .rightParen⟩ :: rest => .ok (term, ⟨close, rest⟩)
        | ⟨other, _⟩ :: rest =>
          .error (Cursor.expected ⟨other, rest⟩ "EXPECTED RIGHT PARENTHESIS")
        | [] => .error (cur.expected "EXPECTED RIGHT PARENTHESIS")
      | .operator .minus => do
        let (term, cur) ← climb depth unaryFloor cur
        .ok (.unary span .negate term, cur)
      | .operator .plus => climb depth unaryFloor cur
      | .operator .not => do
        let (term, cur) ← climb depth unaryFloor cur
        .ok (.unary span .not term, cur)
      | .ident name =>
        match rest with
        | ⟨paren, .leftParen⟩ :: rest => do
          let (args, cur) ← callArguments depth ⟨paren, rest⟩
          .ok (.call span name args, cur)
        | _ => .ok (.var span name, cur)
      | .integer digits => (integerTerm span digits).map fun t => (t, cur)
      | .float digits => (floatTerm span digits).map fun t => (t, cur)
      | .bool b => .ok (.bool span b, cur)
      | _ => .error (cur.expected "EXPECTED EXPRESSION")

/-- Reads an operand and every binary operator after it that binds
tighter than `floor`. -/
def climb : (depth floor : Nat) → Cursor → Except Fault (Term × Cursor)
  | 0, _, cur => .error (tooDeep cur)
  | depth + 1, floor, cur => do
    let (lhs, cur) ← operand depth cur
    extend depth floor lhs cur

/-- Goes on after `lhs` while the next operator binds tighter than
`floor`. -/
def extend : (depth floor : Nat) → Term → Cursor → Except Fault (Term × Cursor)
  | 0, _, _, cur => .error (tooDeep cur)
  | depth + 1, floor, lhs, cur =>
    match cur.rest with
    | ⟨span, .operator op⟩ :: rest =>
      match op.binary? with
      | some (binary, tightness) =>
        if floor < tightness then do
          let (rhs, cur) ← climb depth tightness ⟨span, rest⟩
          extend depth floor (.binary span binary lhs rhs) cur
        else .ok (lhs, cur)
      | none => .ok (lhs, cur)
    | _ => .ok (lhs, cur)

/-- Reads the arguments of a call after its opening parenthesis. -/
def callArguments : (depth : Nat) → Cursor → Except Fault (List Term × Cursor)
  | 0, cur => .error (tooDeep cur)
  | depth + 1, cur =>
    match cur.rest with
    | ⟨span, .rightParen⟩ :: rest => .ok ([], ⟨span, rest⟩)
    | _ => moreArguments depth cur

/-- Reads one argument or more, separated by commas, and the closing
parenthesis. -/
def moreArguments : (depth : Nat) → Cursor → Except Fault (List Term × Cursor)
  | 0, cur => .error (tooDeep cur)
  | depth + 1, cur => do
    let (arg, cur) ← climb depth 0 cur
    match cur.rest with
    | ⟨span, .rightParen⟩ :: rest => .ok ([arg], ⟨span, rest⟩)
    | ⟨span, .comma⟩ :: rest => do
      let (args, cur) ← moreArguments depth ⟨span, rest⟩
      .ok (arg :: args, cur)
    | ⟨other, _⟩ :: rest =>
      .error (Cursor.expected ⟨other, rest⟩ "EXPECTED END OR SEPARATOR")
    | [] => .error (cur.expected "EXPECTED END OR SEPARATOR")

end

/-- Parses lexemes into one term that uses them all. -/
def ofLexemes (lexemes : List Lexeme) : Except Fault Term := do
  let (term, cur) ← climb (2 * lexemes.length + 2) 0 ⟨Span.nowhere, lexemes⟩
  match cur.rest with
  | [] => .ok term
  | ⟨span, token⟩ :: rest =>
    .error (Cursor.expected ⟨span, rest⟩ ("UNEXPECTED " ++ token.spelling))

end Parser

/-- Parses the text of one expression. -/
def parse (s : String) : Except Fault Term := Parser.ofLexemes (lex s)

end TickScript
