/-
Expression terms: the tree an expression is parsed into. Every node
carries a span; that of an operator node is the operator's own, that of
a call the function name's.
-/
import TickScript.Token

namespace TickScript

/-- Operators with one operand. -/
inductive UnaryOp where
  | negate
  | not
deriving DecidableEq

/-- Operators with two operands. -/
inductive BinaryOp where
  | multiply
  | divide
  | modulus
  | add
  | subtract
  | equal
  | notEqual
  | less
  | lessEqual
  | greater
  | greaterEqual
  | and
  | or
deriving DecidableEq

/-- An expression. -/
inductive Term where
  | int (span : Span) (n : Int64)
  | float (span : Span) (x : Float)
  | bool (span : Span) (b : Bool)
  | var (span : Span) (name : String)
  | call (span : Span) (name : String) (args : List Term)
  | unary (span : Span) (op : UnaryOp) (arg : Term)
  | binary (span : Span) (op : BinaryOp) (lhs rhs : Term)

namespace Term

/-- The span of the node itself. -/
def span : Term → Span
  | int s _ | float s _ | bool s _ | var s _ | call s _ _ | unary s _ _ | binary s _ _ _ => s

/-- Whether the expression is a single literal. -/
def isLiteral : Term → Bool
  | int .. | float .. | bool .. => true
  | _ => false

/-- Appends a name unless it is there already. -/
def addName (names : List String) (name : String) : List String :=
  if name ∈ names then names else names ++ [name]

mutual

/-- The list `names`, extended by the variables of the term in order of first
appearance. -/
def collect (names : List String) : Term → List String
  | int .. | float .. | bool .. => names
  | var _ name => addName names name
  | call _ _ args => collectAll names args
  | unary _ _ arg => collect names arg
  | binary _ _ lhs rhs => collect (collect names lhs) rhs

/-- Does `collect` for each term of a list in turn. -/
def collectAll (names : List String) : List Term → List String
  | [] => names
  | t :: ts => collectAll (collect names t) ts

end

/-- The variables of a term in order of first appearance. -/
def parameters (t : Term) : List String := t.collect []

end Term

/-- The binary operator a token stands for, and how tightly it binds. -/
def Operator.binary? : Operator → Option (BinaryOp × Nat)
  | .or => some (.or, 1)
  | .and => some (.and, 2)
  | .equal => some (.equal, 3)
  | .notEqual => some (.notEqual, 3)
  | .less => some (.less, 4)
  | .lessEqual => some (.lessEqual, 4)
  | .greater => some (.greater, 4)
  | .greaterEqual => some (.greaterEqual, 4)
  | .plus => some (.add, 5)
  | .minus => some (.subtract, 5)
  | .times => some (.multiply, 6)
  | .divide => some (.divide, 6)
  | .modulus => some (.modulus, 6)
  | .not => none

end TickScript
