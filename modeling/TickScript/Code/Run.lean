/-
The machine that runs stack code. Its state is an index into the code,
a bounded stack of values and the random draws still to come. It ends
when the index runs past the code, with one value on the stack.

Generated code only branches forward, so it ends within as many steps
as it has instructions. `Code.run` allows that many; code that would go
on is refused as endless.
-/
import TickScript.Code
import TickScript.Draws
import TickScript.Stack

namespace TickScript

/-- The state of the stack machine. -/
structure Machine where
  pc : Nat
  stack : Stack Value
  draws : Draws

namespace Machine

/-- The machine before the first instruction. -/
def start (draws : Draws) : Machine := ⟨0, Stack.empty "EXPRESSION TOO COMPLEX", draws⟩

/-- Puts a value on the stack. -/
def push (m : Machine) (v : Value) : Except Fault Machine := do
  let stack ← m.stack.push v
  .ok { m with stack }

/-- Replaces the top value by what `f` makes of it. -/
def replaceOne (m : Machine) (f : Value → Except Fault Value) : Except Fault Machine := do
  let (v, stack) ← m.stack.pop
  let w ← f v
  { m with stack }.push w

/-- Replaces the top two values by what `f` makes of them. -/
def replaceTwo (m : Machine) (f : Value → Value → Except Fault Value) :
    Except Fault Machine := do
  let (operands, stack) := m.stack.popTwo
  let (lhs, rhs) ← operands
  let w ← f lhs rhs
  { m with stack }.push w

/-- Applies the logarithm to as many values as the count on top of
them says. -/
def applyLog (m : Machine) : Except Fault Machine := do
  let (top, stack) ← m.stack.pop
  match top with
  | .int n => do
    let (args, stack) ← stack.popMany n.toUInt64.toNat
    let w ← Builtin.logOf args
    { m with stack }.push w
  | _ => .error (.of .internalError "LOG ARITY")

/-- Applies a function to the values on the stack. -/
def applyBuiltin (m : Machine) (f : Builtin) : Except Fault Machine :=
  match f with
  | .abs => m.replaceOne Builtin.absOf
  | .sign => m.replaceOne Builtin.signOf
  | .log => m.applyLog
  | .max => m.replaceTwo Builtin.maxOf
  | .min => m.replaceTwo Builtin.minOf
  | .pow => m.replaceTwo Builtin.powOf
  | .random =>
    let (x, draws) := m.draws.next
    { m with draws }.push (.float x)
  | f => m.replaceOne f.unary

/-- Takes a truth value and goes to `address` if it is false. -/
def branch (m : Machine) (address : Nat) : Except Fault Machine := do
  let (v, stack) ← m.stack.pop
  match v with
  | .bool true => .ok { m with stack }
  | .bool false => .ok { m with stack, pc := address }
  | v => .error (.of .invalidOperand ("IF(" ++ v.display ++ ")"))

/-- Carries out one instruction; the index has moved past it already. -/
def exec (bound : List Value) (op : Op) (m : Machine) : Except Fault Machine :=
  match op with
  | .literal v => m.push v
  | .push index =>
    match bound[index]? with
    | some v => m.push v
    | none => .error (.of .internalError "UNBOUND PARAMETER")
  | .ifNot address => m.branch address
  | .jump address => .ok { m with pc := address }
  | .unary op => m.replaceOne op.apply
  | .binary op => m.replaceTwo op.apply
  | .builtin f => m.applyBuiltin f

/-- The value left at the end. -/
def result (m : Machine) : Except Fault (Value × Draws) := do
  let (v, stack) ← m.stack.pop
  if stack.isEmpty then .ok (v, m.draws)
  else .error (.of .internalError "STACK NOT EMPTY")

/-- Runs code for at most `steps` instructions. -/
def run (code : Code) (bound : List Value) : (steps : Nat) → Machine → Except Fault (Value × Draws)
  | steps, m =>
    match code[m.pc]?, steps with
    | none, _ => m.result
    | some _, 0 => .error (.of .internalError "ENDLESS EXPRESSION")
    | some op, steps + 1 => do
      let m ← exec bound op { m with pc := m.pc + 1 }
      run code bound steps m

end Machine

/-- Runs code with values bound to its parameters. -/
def Code.run (code : Code) (bound : List Value) (draws : Draws) :
    Except Fault (Value × Draws) :=
  Machine.run code bound code.length (Machine.start draws)

end TickScript
