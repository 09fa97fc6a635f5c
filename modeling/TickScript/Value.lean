/-
Values: whatever a variable, a memory slot or an expression can hold.
An entity value is a weak reference, a `Handle`, and says nothing about
whether the entity still exists. A line is the value of a label.
-/
import TickScript.Number.Layout
import TickScript.Text.Pieces

namespace TickScript

/-- The two sorts of entities. -/
inductive EntityKind where
  | part
  | component
deriving DecidableEq

/-- A reference to an entity: the slot it lives in, and which of the
slot's successive occupants it is. -/
structure Handle where
  index : Nat
  generation : UInt32
  kind : EntityKind
deriving DecidableEq

/-- Script values. -/
inductive Value where
  | int (n : Int64)
  | float (x : Float)
  | bool (b : Bool)
  | text (s : String)
  | entity (h : Handle)
  | line (n : Nat)
deriving DecidableEq

namespace Value

/-- The handle an entity value holds. -/
def handle? : Value → Option Handle
  | entity h => some h
  | _ => none

/-- What an expression sees of a value. Entities are seen as their slot
number and labels as their line. -/
def scalar : Value → Value
  | entity h => int (Int64.ofNat h.index)
  | line n => int (Int64.ofNat n)
  | v => v

-- ================================================================== text

/-- A float as text. A whole one below `10 ^ 16` is written like an
integer. -/
def floatText (x : Float) : String :=
  match Number.isWhole x, Number.wholePart? x with
  | true, some n => if n.natAbs < Number.tenTo 16 then toString n else Number.Layout.plain.render x
  | _, _ => Number.Layout.plain.render x

/-- A value as text. -/
def display : Value → String
  | int n => toString n.toInt
  | float x => floatText x
  | bool b => if b then "true" else "false"
  | text s => s
  | entity h => toString h.index
  | line n => toString n

/-- A value as output text, where truth values are digits. -/
def render : Value → String
  | bool b => if b then "1" else "0"
  | v => v.display

/-- A value as it stands in a listing of stack code, where literals show
their kind. -/
def listing : Value → String
  | int n => "INT(" ++ toString n.toInt ++ ")"
  | float x => "FLOAT(" ++ Text.upper (Number.Layout.literal.render x) ++ ")"
  | bool b => if b then "BOOL(TRUE)" else "BOOL(FALSE)"
  | v => v.display

end Value

end TickScript
