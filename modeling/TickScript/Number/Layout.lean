/-
How the shortest decimal of a float is laid out as text. A `Layout`
says which magnitudes are written with an exponent and whether a whole
number keeps a point. Two layouts are in use: `plain`, which never
writes an exponent, and `literal`, which always shows that the number
is a float.
-/
import TickScript.Number.Shortest

namespace TickScript.Number

/-- The decisions of a float format. -/
structure Layout where
  /-- Decimals whose `point` lies in this range are written out
  positionally; `none` means all are. -/
  positional : Option (Int × Int)
  /-- What follows the digits of a whole number. -/
  wholeEnding : String

namespace Layout

/-- Digits and a point, never an exponent. -/
def plain : Layout := { positional := none, wholeEnding := "" }

/-- Whole numbers end in `.0`; an exponent is written below `10 ^ -4`
and from `10 ^ 16` on. -/
def literal : Layout := { positional := some (-3, 16), wholeEnding := ".0" }

end Layout

/-- The characters of digits. -/
def digitText (ds : List Nat) : String :=
  String.ofList (ds.map fun d => Char.ofNat ('0'.toNat + d))

/-- A run of `n` zeros. -/
def zeros (n : Nat) : String := String.ofList (List.replicate n '0')

namespace Decimal

/-- The decimal written with all its places. -/
def positional (l : Layout) (d : Decimal) : String :=
  let size : Int := d.digits.length
  if d.digits = [] then "0" ++ l.wholeEnding
  else if d.point ≤ 0 then "0." ++ zeros (-d.point).toNat ++ digitText d.digits
  else if size ≤ d.point then
    digitText d.digits ++ zeros (d.point - size).toNat ++ l.wholeEnding
  else
    let n := d.point.toNat
    digitText (d.digits.take n) ++ "." ++ digitText (d.digits.drop n)

/-- The decimal with one digit before the point and an exponent. -/
def scientific (d : Decimal) : String :=
  let e := d.point - 1
  let exponent := "e" ++ (if e < 0 then "-" else "") ++ toString e.natAbs
  match d.digits with
  | [] => "0" ++ exponent
  | [one] => digitText [one] ++ exponent
  | one :: more => digitText [one] ++ "." ++ digitText more ++ exponent

/-- The decimal in a layout. -/
def render (l : Layout) (d : Decimal) : String :=
  match l.positional with
  | none => d.positional l
  | some (lo, hi) =>
    if d.digits = [] ∨ (lo ≤ d.point ∧ d.point ≤ hi) then d.positional l
    else d.scientific

end Decimal

/-- A float as text in a layout. -/
def Layout.render (l : Layout) (x : Float) : String :=
  match Binary.ofFloat x with
  | .nan => "NaN"
  | .infinite negative => if negative then "-inf" else "inf"
  | .finite negative m q =>
    (if negative then "-" else "") ++ (shortest m q).render l

end TickScript.Number
