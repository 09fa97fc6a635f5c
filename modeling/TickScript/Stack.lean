/-
Bounded stacks. A stack holds at most `limit` items; pushing one more
is an overflow with the stack's own message, and taking more than there
are is an internal fault. Both the code generator and the machine that
runs its code work on such stacks.
-/
import TickScript.Fault

namespace TickScript

/-- A stack, its top item first. -/
structure Stack (α : Type) where
  items : List α
  limit : Nat
  /-- The detail of the fault when the stack is full. -/
  overflow : String

namespace Stack

variable {α : Type}

/-- How deep the stacks of expressions may grow. -/
def depth : Nat := 256

/-- An empty stack with a limit of its own. -/
def withLimit (limit : Nat) (overflow : String) : Stack α := ⟨[], limit, overflow⟩

/-- An empty stack of the usual depth. -/
def empty (overflow : String) : Stack α := withLimit depth overflow

def size (s : Stack α) : Nat := s.items.length

def isEmpty (s : Stack α) : Bool := s.items.isEmpty

/-- The items in the order they were pushed. -/
def toList (s : Stack α) : List α := s.items.reverse

/-- The fault of taking more items than there are. -/
def underflow : Fault := .of .internalError "UNDERFLOW"

/-- Puts an item on top. -/
def push (s : Stack α) (item : α) : Except Fault (Stack α) :=
  if s.items.length < s.limit then .ok { s with items := item :: s.items }
  else .error (.of .overflow s.overflow)

/-- Takes the top item. -/
def pop (s : Stack α) : Except Fault (α × Stack α) :=
  match s.items with
  | [] => .error underflow
  | item :: items => .ok (item, { s with items })

/-- Takes the top two items, the lower one first, and leaves the stack
without them. If only one is there it is taken all the same. -/
def popTwo (s : Stack α) : Except Fault (α × α) × Stack α :=
  match s.items with
  | rhs :: lhs :: items => (.ok (lhs, rhs), { s with items })
  | _ => (.error underflow, { s with items := [] })

/-- Takes the top `n` items, in the order they were pushed. -/
def popMany (s : Stack α) (n : Nat) : Except Fault (List α × Stack α) :=
  if n ≤ s.items.length then
    .ok ((s.items.take n).reverse, { s with items := s.items.drop n })
  else .error underflow

/-- The items in square brackets, in the order they were pushed. -/
def text (item : α → String) (s : Stack α) : String :=
  "[" ++ ", ".intercalate (s.toList.map item) ++ "]"

end Stack

end TickScript
