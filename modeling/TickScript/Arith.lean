/-
The operators of expressions. Integer arithmetic is exact or refused;
an integer beside a float is taken as a float; division always gives a
float. Comparisons with NaN are false. Truth values can be compared
for equality only.
-/
import TickScript.Fault
import TickScript.Value
import TickScript.Term

namespace TickScript

/-- How an operator stands in messages. -/
def BinaryOp.symbol : BinaryOp → String
  | multiply => "*"
  | divide => "/"
  | modulus => "%"
  | add => "+"
  | subtract => "-"
  | equal => "=="
  | notEqual => "=="
  | less => "<"
  | lessEqual => "<="
  | greater => ">"
  | greaterEqual => ">="
  | and => "&&"
  | or => "||"

namespace Arith

/-- Two numbers, both exact or both floats. -/
inductive Numbers where
  | ints (l r : Int64)
  | floats (l r : Float)

/-- Two values as numbers of one sort. -/
def numbers? : Value → Value → Option Numbers
  | .int l, .int r => some (.ints l r)
  | .int l, .float r => some (.floats (Number.toFloat l) r)
  | .float l, .int r => some (.floats l (Number.toFloat r))
  | .float l, .float r => some (.floats l r)
  | _, _ => none

/-- The fault of an operator that does not take these operands. -/
def mismatch (op : BinaryOp) (l r : Value) : Fault :=
  .of .invalidOperand (l.display ++ " " ++ op.symbol ++ " " ++ r.display)

/-- An exact result, refused if it does not fit. -/
def exact (i : Int) : Except Fault Value :=
  match Number.fit? i with
  | some n => .ok (.int n)
  | none => .error (.bare .overflow)

/-- The remainder toward zero. That of the least integer by minus one
is refused although it is zero, because the quotient does not fit. -/
def remainder (l r : Int64) : Except Fault Value :=
  if r = 0 then .error (.bare .divisionByZero)
  else if Number.Fits (l.toInt.tdiv r.toInt) then exact (l.toInt.tmod r.toInt)
  else .error (.bare .overflow)

/-- Arithmetic on two integers. -/
def onInts : BinaryOp → Int64 → Int64 → Option (Except Fault Value)
  | .multiply, l, r => some (exact (l.toInt * r.toInt))
  | .divide, l, r => some (.ok (.float (Number.toFloat l / Number.toFloat r)))
  | .modulus, l, r => some (remainder l r)
  | .add, l, r => some (exact (l.toInt + r.toInt))
  | .subtract, l, r => some (exact (l.toInt - r.toInt))
  | .equal, l, r => some (.ok (.bool (l == r)))
  | .notEqual, l, r => some (.ok (.bool (l != r)))
  | .less, l, r => some (.ok (.bool (l < r)))
  | .lessEqual, l, r => some (.ok (.bool (l ≤ r)))
  | .greater, l, r => some (.ok (.bool (r < l)))
  | .greaterEqual, l, r => some (.ok (.bool (r ≤ l)))
  | .and, _, _ => none
  | .or, _, _ => none

/-- Arithmetic on two floats. -/
def onFloats : BinaryOp → Float → Float → Option Value
  | .multiply, l, r => some (.float (l * r))
  | .divide, l, r => some (.float (l / r))
  | .modulus, l, r => some (.float (Number.remainder l r))
  | .add, l, r => some (.float (l + r))
  | .subtract, l, r => some (.float (l - r))
  | .equal, l, r => some (.bool (l == r))
  | .notEqual, l, r => some (.bool (l != r))
  | .less, l, r => some (.bool (l < r))
  | .lessEqual, l, r => some (.bool (l ≤ r))
  | .greater, l, r => some (.bool (r < l))
  | .greaterEqual, l, r => some (.bool (r ≤ l))
  | .and, _, _ => none
  | .or, _, _ => none

/-- Operators on two truth values. -/
def onBools : BinaryOp → Bool → Bool → Option Value
  | .equal, l, r => some (.bool (l == r))
  | .notEqual, l, r => some (.bool (l != r))
  | .and, l, r => some (.bool (l && r))
  | .or, l, r => some (.bool (l || r))
  | _, _, _ => none

end Arith

open Arith in
/-- Applies an operator to two values. -/
def BinaryOp.apply (op : BinaryOp) (l r : Value) : Except Fault Value :=
  match l, r with
  | .bool a, .bool b =>
    match onBools op a b with
    | some v => .ok v
    | none => .error (mismatch op l r)
  | _, _ =>
    match numbers? l r with
    | some (.ints a b) => (onInts op a b).getD (.error (mismatch op l r))
    | some (.floats a b) =>
      match onFloats op a b with
      | some v => .ok v
      | none => .error (mismatch op l r)
    | none => .error (mismatch op l r)

/-- Applies an operator to one value. -/
def UnaryOp.apply : UnaryOp → Value → Except Fault Value
  | negate, .int n => Arith.exact (-n.toInt)
  | negate, .float x => .ok (.float (-x))
  | negate, v => .error (.of .invalidOperand ("-" ++ v.display))
  | not, .bool b => .ok (.bool (!b))
  | not, v => .error (.of .invalidOperand ("!" ++ v.display))

end TickScript
