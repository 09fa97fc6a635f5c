/-
Work in place.

A program that changes a state step by step keeps what it has changed when
a later step fails. Work in place gives back the state in either case, with
a result or with a fault, so that what a failure leaves behind can be seen.
-/
import TickScript.Fault

namespace TickScript

/-- Work on a state. What was done stays done when it fails. -/
abbrev InPlace (σ α : Type) := EStateM Fault σ α

namespace InPlace

variable {σ α : Type}

/-- A look at the state. -/
def look (f : σ → Except Fault α) : InPlace σ α := fun s =>
  match f s with
  | .ok a => .ok a s
  | .error fault => .error fault s

/-- A check that does not depend on the state. -/
def check (x : Except Fault α) : InPlace σ α := look fun _ => x

/-- A step that is done at once, or is refused and not begun. -/
def once (f : σ → Except Fault (α × σ)) : InPlace σ α := fun s =>
  match f s with
  | .ok (a, s') => .ok a s'
  | .error fault => .error fault s

/-- A change that cannot be refused. -/
def change (f : σ → σ) : InPlace σ Unit := fun s => .ok () (f s)

end InPlace

end TickScript
