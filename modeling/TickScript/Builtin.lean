/-
The functions that expressions can call. Names are known in any case.
The conditional `if` is not among them: it chooses between expressions
and does not take values.

Most functions take one number and give a float. The others keep
integers exact where they can: `abs`, `sign`, `max` and `min`.
-/
import TickScript.Arith

namespace TickScript

/-- The functions of expressions. -/
inductive Builtin where
  | abs
  | acos
  | asin
  | atan
  | ceiling
  | cos
  | exp
  | floor
  | log
  | log10
  | max
  | min
  | pow
  | random
  | round
  | sign
  | sin
  | sqrt
  | tan
  | truncate
deriving DecidableEq

/-- Whether a name calls the conditional. -/
def isIf (name : String) : Bool := Text.sameWord name "if"

namespace Builtin

/-- The function a name calls. -/
def ofName? (name : String) : Option Builtin :=
  match Text.lower name with
  | "abs" => some abs
  | "acos" => some acos
  | "asin" => some asin
  | "atan" => some atan
  | "ceiling" => some ceiling
  | "cos" => some cos
  | "exp" => some exp
  | "floor" => some floor
  | "log" => some log
  | "log10" => some log10
  | "max" => some max
  | "min" => some min
  | "pow" => some pow
  | "random" => some random
  | "round" => some round
  | "sign" => some sign
  | "sin" => some sin
  | "sqrt" => some sqrt
  | "tan" => some tan
  | "truncate" => some truncate
  | _ => none

/-- The fewest and the most arguments a function takes. -/
def arity : Builtin → Nat × Nat
  | log => (1, 2)
  | max | min | pow => (2, 2)
  | random => (0, 0)
  | _ => (1, 1)

/-- The function in listings and messages. -/
def display : Builtin → String
  | abs => "ABS"
  | acos => "ACOS"
  | asin => "ASIN"
  | atan => "ATAN"
  | ceiling => "CEILING"
  | cos => "COS"
  | exp => "EXP"
  | floor => "FLOOR"
  | log => "LOG"
  | log10 => "LOG10"
  | max => "MAX"
  | min => "MIN"
  | pow => "POW"
  | random => "RANDOM"
  | round => "ROUND"
  | sign => "SIGN"
  | sin => "SIN"
  | sqrt => "SQRT"
  | tan => "TAN"
  | truncate => "TRUNCATE"

/-- The function on floats, for those that take one number to a
float. -/
def onFloat? : Builtin → Option (Float → Float)
  | acos => some Float.acos
  | asin => some Float.asin
  | atan => some Float.atan
  | ceiling => some Float.ceil
  | cos => some Float.cos
  | exp => some Float.exp
  | floor => some Float.floor
  | log10 => some Float.log10
  | round => some Number.roundEven
  | sin => some Float.sin
  | sqrt => some Float.sqrt
  | tan => some Float.tan
  | truncate => some Number.truncate
  | _ => none

/-- The fault of a function that does not take this value. -/
def refuses (f : Builtin) (v : Value) : Fault :=
  .of .invalidOperand (f.display ++ "(" ++ v.display ++ ")")

/-- An argument as a float. -/
def floatArg (f : Builtin) : Value → Except Fault Float
  | .int n => .ok (Number.toFloat n)
  | .float x => .ok x
  | v => .error (f.refuses v)

/-- Applies a function that takes one number to a float. -/
def unary (f : Builtin) (v : Value) : Except Fault Value := do
  let x ← f.floatArg v
  match f.onFloat? with
  | some g => .ok (.float (g x))
  | none => .error (.of .internalError (f.display ++ " IS NOT UNARY"))

/-- The size of a number. -/
def absOf : Value → Except Fault Value
  | .int n => Arith.exact n.toInt.natAbs
  | .float x => .ok (.float x.abs)
  | v => .error (abs.refuses v)

/-- The sign of a number, as `-1`, `0` or `1`. -/
def signOf : Value → Except Fault Value
  | .int n => .ok (.int (Int64.ofInt n.toInt.sign))
  | .float x =>
    if x.isNaN then .error (.of .invalidOperand "SIGN(NAN)")
    else if x == 0 then .ok (.int 0)
    else .ok (.int (if x < 0 then -1 else 1))
  | v => .error (sign.refuses v)

/-- The natural logarithm of one argument, or the logarithm of the
first to the base of the second. The base is looked at first, and of
more than two arguments only the last counts. -/
def logOf (args : List Value) : Except Fault Value :=
  match args with
  | [v, b] => do
    let base ← log.floatArg b
    let x ← log.floatArg v
    .ok (.float (x.log / base.log))
  | _ =>
    match args.getLast? with
    | some v => do
      let x ← log.floatArg v
      .ok (.float x.log)
    | none => .error (.of .internalError "LOG WITHOUT ARGUMENT")

/-- The first value to the power of the second. -/
def powOf (l r : Value) : Except Fault Value := do
  let x ← pow.floatArg l
  let y ← pow.floatArg r
  .ok (.float (x.pow y))

/-- The greater of two numbers. -/
def maxOf (l r : Value) : Except Fault Value :=
  match l, r with
  | .int a, .int b => .ok (.int (if a < b then b else a))
  | _, _ => do
    let x ← max.floatArg l
    let y ← max.floatArg r
    .ok (.float (Number.maximum x y))

/-- The lesser of two numbers. -/
def minOf (l r : Value) : Except Fault Value :=
  match l, r with
  | .int a, .int b => .ok (.int (if b < a then b else a))
  | _, _ => do
    let x ← min.floatArg l
    let y ← min.floatArg r
    .ok (.float (Number.minimum x y))

end Builtin

end TickScript
