/-
Stack code: the instructions that expressions are compiled to. The
machine that runs them has a stack and nothing else; operands are
pushed, operators and functions replace their operands by their result,
and branches go to an index in the code. For example `n+1 < 3` becomes
`PUSH(0) INT(1) ADD INT(3) LT`, where parameter 0 is bound to `n`.
-/
import TickScript.Builtin

namespace TickScript

/-- One instruction of stack code. -/
inductive Op where
  /-- Pushes a value. -/
  | literal (v : Value)
  /-- Pushes the value bound to a parameter. -/
  | push (index : Nat)
  /-- Takes a truth value and goes to the address if it is false. -/
  | ifNot (address : Nat)
  /-- Goes to the address. -/
  | jump (address : Nat)
  | unary (op : UnaryOp)
  | binary (op : BinaryOp)
  | builtin (f : Builtin)
deriving DecidableEq

/-- Stack code. Addresses are indices into it. -/
abbrev Code := List Op

/-- A unary operator in listings. -/
def UnaryOp.mnemonic : UnaryOp → String
  | negate => "NEG"
  | not => "NOT"

/-- A binary operator in listings. -/
def BinaryOp.mnemonic : BinaryOp → String
  | multiply => "MUL"
  | divide => "DIV"
  | modulus => "MOD"
  | add => "ADD"
  | subtract => "SUB"
  | equal => "EQ"
  | notEqual => "NOTEQ"
  | less => "LT"
  | lessEqual => "LTEQ"
  | greater => "GT"
  | greaterEqual => "GTEQ"
  | and => "AND"
  | or => "OR"

namespace Op

/-- An instruction in listings. -/
def display : Op → String
  | literal v => v.listing
  | push n => s!"PUSH({n})"
  | ifNot a => s!"IFNOT({a})"
  | jump a => s!"JUMP({a})"
  | unary op => op.mnemonic
  | binary op => op.mnemonic
  | builtin f => f.display

/-- The instruction with its address, if it has one, moved up. -/
def relocate (offset : Nat) : Op → Op
  | ifNot a => ifNot (a + offset)
  | jump a => jump (a + offset)
  | op => op

end Op

/-- The code `first` followed by `second`, whose branches are moved along. -/
def Code.link (first second : Code) : Code :=
  first ++ second.map (Op.relocate first.length)

end TickScript
