/-
Generating stack code from terms. The generator visits a term from the
leaves up and keeps the code of finished subterms as fragments on a
bounded stack, so a term whose subterms pile up too deep is refused
here rather than when it runs. A node takes the fragments of its
operands off the stack and puts back its own.

Of several faults in a term the one visited first is reported: that of
an argument before that of the call it belongs to.
-/
import TickScript.Code
import TickScript.Stack

namespace TickScript.Generate

/-- Code of a subterm and the span of text it stands for. -/
structure Fragment where
  span : Span
  code : Code

/-- The fragments of finished subterms. -/
abbrev Fragments := Stack Fragment

/-- Puts a finished fragment on the stack. -/
def finish (frags : Fragments) (frag : Fragment) : Except Fault Fragments :=
  match frags.push frag with
  | .ok frags => .ok frags
  | .error fault => .error (fault.inSpan frag.span)

/-- The code of all fragments, one after the other. -/
def concat (frags : List Fragment) : Code :=
  frags.foldl (fun code frag => Code.link code frag.code) []

/-- Code that runs only one of two branches, as the condition says. -/
def conditional (condition whenTrue whenFalse : Code) : Code :=
  let test := condition ++ [.ifNot (condition.length + 1 + whenTrue.length + 1)]
  let chosen := Code.link test whenTrue
  Code.link (chosen ++ [.jump (chosen.length + 1 + whenFalse.length)]) whenFalse

/-- The fragment of a call, made from the fragments of its `count`
arguments. -/
def callFragment (frags : Fragments) (span : Span) (name : String) (count : Nat) :
    Except Fault (Fragment × Fragments) :=
  if isIf name then
    if count = 3 then do
      let (whenFalse, frags) ← frags.pop
      let (whenTrue, frags) ← frags.pop
      let (condition, frags) ← frags.pop
      .ok (⟨span, conditional condition.code whenTrue.code whenFalse.code⟩, frags)
    else .error ((Fault.of .argumentCount "IF TAKES 3 ARGUMENTS").inSpan span)
  else
    match Builtin.ofName? name with
    | none => .error ((Fault.of .unknownFunction (Text.upper name)).inSpan span)
    | some f =>
      let (fewest, most) := f.arity
      if fewest ≤ count ∧ count ≤ most then do
        let (args, frags) ← frags.popMany count
        let tally := if fewest = most then [] else [Op.literal (.int (Int64.ofNat count))]
        .ok (⟨span, concat args ++ tally ++ [.builtin f]⟩, frags)
      else .error ((Fault.of .argumentCount "WRONG NUMBER OF ARGUMENTS").inSpan span)

mutual

/-- Puts the fragment of a term on the stack. -/
def term (params : List String) : Term → Fragments → Except Fault Fragments
  | .int span n, frags => finish frags ⟨span, [.literal (.int n)]⟩
  | .float span x, frags => finish frags ⟨span, [.literal (.float x)]⟩
  | .bool span b, frags => finish frags ⟨span, [.literal (.bool b)]⟩
  | .var span name, frags =>
    match params.findIdx? (· == name) with
    | some index => finish frags ⟨span, [.push index]⟩
    | none => .error ((Fault.of .undefinedVariable name).inSpan span)
  | .call span name args, frags => do
    let frags ← terms params args frags
    let (frag, frags) ← callFragment frags span name args.length
    finish frags frag
  | .unary span op arg, frags => do
    let frags ← term params arg frags
    let (frag, frags) ← frags.pop
    finish frags ⟨⟨span.start, frag.span.stop⟩, frag.code ++ [.unary op]⟩
  | .binary _ op lhs rhs, frags => do
    let frags ← term params lhs frags
    let frags ← term params rhs frags
    let (right, frags) ← frags.pop
    let (left, frags) ← frags.pop
    finish frags
      ⟨⟨left.span.start, right.span.stop⟩, Code.link left.code right.code ++ [.binary op]⟩

/-- Puts the fragments of several terms on the stack. -/
def terms (params : List String) : List Term → Fragments → Except Fault Fragments
  | [], frags => .ok frags
  | t :: ts, frags => do
    let frags ← term params t frags
    terms params ts frags

end

end Generate

/-- The stack code of a term whose variables are parameters. A variable
becomes a push of the parameter with its name. -/
def Term.generate (t : Term) (params : List String) : Except Fault Code := do
  let frags ← Generate.term params t (Stack.empty "EXPRESSION OVERFLOW")
  let (frag, _) ← frags.pop
  .ok frag.code

end TickScript
