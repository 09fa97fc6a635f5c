/-
What expressions mean, said on their terms and without any code.
Operands and arguments are evaluated from left to right and the first
fault is the fault of the whole. The conditional evaluates its condition
and then only the branch it chooses; every other call evaluates all its
arguments first.

Variables are read by name, through `look`. The random draws are handed
along in the order in which they are used up.
-/
import TickScript.Builtin
import TickScript.Draws

namespace TickScript

/-- Applies a function to the values of its arguments. -/
def Builtin.call (f : Builtin) (args : List Value) (draws : Draws) :
    Except Fault (Value × Draws) :=
  match f, args with
  | .random, [] =>
    let (x, draws) := draws.next
    .ok (.float x, draws)
  | .abs, [v] => (absOf v).map (·, draws)
  | .sign, [v] => (signOf v).map (·, draws)
  | .log, [v] => (logOf [v]).map (·, draws)
  | .log, [v, base] => (logOf [v, base]).map (·, draws)
  | .max, [l, r] => (maxOf l r).map (·, draws)
  | .min, [l, r] => (minOf l r).map (·, draws)
  | .pow, [l, r] => (powOf l r).map (·, draws)
  | f, [v] => (f.unary v).map (·, draws)
  | _, _ => .error (.of .argumentCount "WRONG NUMBER OF ARGUMENTS")

namespace Term

mutual

/-- The value of a term. -/
def eval (look : String → Option Value) : Term → Draws → Except Fault (Value × Draws)
  | .int _ n, draws => .ok (.int n, draws)
  | .float _ x, draws => .ok (.float x, draws)
  | .bool _ b, draws => .ok (.bool b, draws)
  | .var _ name, draws =>
    match look name with
    | some v => .ok (v, draws)
    | none => .error (.of .undefinedVariable name)
  | .call _ name args, draws =>
    if isIf name then evalIf look args draws
    else
      match Builtin.ofName? name with
      | some f => do
        let (vs, draws) ← evalAll look args draws
        f.call vs draws
      | none => .error (.of .unknownFunction (Text.upper name))
  | .unary _ op arg, draws => do
    let (v, draws) ← eval look arg draws
    let w ← op.apply v
    .ok (w, draws)
  | .binary _ op lhs rhs, draws => do
    let (l, draws) ← eval look lhs draws
    let (r, draws) ← eval look rhs draws
    let w ← op.apply l r
    .ok (w, draws)

/-- The values of several terms in turn. -/
def evalAll (look : String → Option Value) : List Term → Draws → Except Fault (List Value × Draws)
  | [], draws => .ok ([], draws)
  | t :: ts, draws => do
    let (v, draws) ← eval look t draws
    let (vs, draws) ← evalAll look ts draws
    .ok (v :: vs, draws)

/-- The value of a conditional with these arguments. -/
def evalIf (look : String → Option Value) : List Term → Draws → Except Fault (Value × Draws)
  | [condition, whenTrue, whenFalse], draws => do
    let (v, draws) ← eval look condition draws
    match v with
    | .bool true => eval look whenTrue draws
    | .bool false => eval look whenFalse draws
    | v => .error (.of .invalidOperand ("IF(" ++ v.display ++ ")"))
  | _, _ => .error (.of .argumentCount "IF TAKES 3 ARGUMENTS")

end

end Term

end TickScript
