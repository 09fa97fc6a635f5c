/-
Kinds, and the conversion of values between them. A kind is the shape
a variable is declared with; `Kind.of` is the kind a value has.

`Kind.convert` coerces a value into a kind or fails. Numbers convert
into each other, a float losing its fraction; text converts to what it
spells; entity kinds take a handle of that kind, or the slot number of
a living entity of that kind.
-/
import TickScript.Fault
import TickScript.Value
import TickScript.Number.Reading
import TickScript.Text.Blank

namespace TickScript

/-- The shapes that variables and memory slots can hold. -/
inductive Kind where
  | none
  | int
  | float
  | bool
  | text
  | part
  | component
  | label
deriving DecidableEq

namespace Kind

/-- The kind a type word names in a declaration; `none` for no kind. -/
def ofWord : String → Kind
  | "int" => int
  | "float" => float
  | "bool" => bool
  | "part" => part
  | _ => none

/-- The kind of handles to one sort of entity. -/
def ofEntity : EntityKind → Kind
  | .part => part
  | .component => component

/-- The kind of a value. -/
def of : Value → Kind
  | .int _ => int
  | .float _ => float
  | .bool _ => bool
  | .text _ => text
  | .entity h => ofEntity h.kind
  | .line _ => label

/-- Kinds that expressions compute. -/
def isValue : Kind → Bool
  | int | float | bool => true
  | _ => false

/-- Kinds that refer to entities. -/
def isEntity : Kind → Bool
  | part | component => true
  | _ => false

/-- The number that scripts see for a kind. -/
def code : Kind → Int64
  | none => 0
  | int => 1
  | float => 2
  | bool => 3
  | text => 4
  | part => 5
  | component => 6
  | label => 7

/-- The kind as it stands in messages. -/
def display : Kind → String
  | none => "NONE"
  | int => "INT"
  | float => "FLOAT"
  | bool => "BOOL"
  | text => "STR"
  | part => "PART"
  | component => "COMPONENT"
  | label => "LABEL"

-- ============================================================ conversion

/-- Integers: fractions are cut off, and text may spell a float. -/
def toInt? : Value → Option Int64
  | .int n => some n
  | .float x => Number.truncate? x
  | .bool b => some (if b then 1 else 0)
  | .text s =>
    let s := Text.trim s
    match Number.readInt? s with
    | some n => some n
    | Option.none => Number.readFloat? s >>= Number.truncate?
  | .entity h => some (Int64.ofNat h.index)
  | .line n => some (Int64.ofNat n)

/-- Floats. A label is not a number. -/
def toFloat? : Value → Option Float
  | .int n => some (Number.toFloat n)
  | .float x => some x
  | .bool b => some (if b then 1 else 0)
  | .text s => Number.readFloat? (Text.trim s)
  | .entity h => some (Float.ofNat h.index)
  | .line _ => Option.none

/-- Truth values: zero is false, and text must spell one. -/
def toBool? : Value → Option Bool
  | .int n => some (n != 0)
  | .float x => some (x != 0)
  | .bool b => some b
  | .text s =>
    let s := Text.trim s
    if Text.sameWord s "true" then some true
    else if Text.sameWord s "false" then some false
    else Option.none
  | _ => Option.none

/-- Handles of one kind: such a handle itself, or the slot number of a
living entity of the kind. -/
def toHandle? (resolve : Nat → Option Handle) (kind : Kind) : Value → Option Handle
  | .entity h => if ofEntity h.kind = kind then some h else Option.none
  | .int n =>
    if n < 0 then Option.none
    else (resolve n.toInt.toNat).filter fun h => ofEntity h.kind = kind
  | _ => Option.none

/-- Lines: a line itself, or its number. -/
def toLine? : Value → Option Nat
  | .line n => some n
  | .int n => if n < 0 then Option.none else some n.toInt.toNat
  | _ => Option.none

/-- The value coerced into the kind, if it can be. `resolve` finds the
living entity in a slot. -/
def convert? (resolve : Nat → Option Handle) : Kind → Value → Option Value
  | none, _ => Option.none
  | int, v => (toInt? v).map .int
  | float, v => (toFloat? v).map .float
  | bool, v => (toBool? v).map .bool
  | text, v => some (.text v.display)
  | part, v => (toHandle? resolve part v).map .entity
  | component, v => (toHandle? resolve component v).map .entity
  | label, v => (toLine? v).map .line

/-- The value coerced into the kind. -/
def convert (resolve : Nat → Option Handle) (kind : Kind) (v : Value) : Except Fault Value :=
  match convert? resolve kind v with
  | some w => .ok w
  | Option.none => .error (.of .conversionError (v.display ++ " TO " ++ kind.display))

end Kind

end TickScript
