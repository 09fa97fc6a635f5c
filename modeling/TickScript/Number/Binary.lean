/-
Floats taken apart. A finite float is `± significand * 2 ^ exponent`
with a significand of at most 53 bits; `Binary.ofFloat` reads that off
the bits, and everything here that needs the exact value of a float
starts from it: its whole part, whether it is whole, and the remainder
of a division.

Roundings that need no exact value are at the end.
-/
import TickScript.Number.Whole

namespace TickScript.Number

/-- What a float is. -/
inductive Binary where
  | nan
  | infinite (negative : Bool)
  /-- The value `± significand * 2 ^ exponent`. -/
  | finite (negative : Bool) (significand : Nat) (exponent : Int)
deriving DecidableEq

namespace Binary

/-- The exponent of the smallest float above zero. -/
def leastExponent : Int := -1074

/-- Takes a float apart. The eleven exponent bits are all ones for NaN
and infinity and all zeros for floats too small for a leading one. -/
def ofFloat (x : Float) : Binary :=
  let bits := x.toBits.toNat
  let negative : Bool := bits / twoTo 63 = 1
  let biased : Nat := bits / twoTo 52 % twoTo 11
  let fraction : Nat := bits % twoTo 52
  if biased = 2047 then
    if fraction = 0 then infinite negative else nan
  else if biased = 0 then finite negative fraction leastExponent
  else finite negative (twoTo 52 + fraction) ((biased : Int) - 1075)

/-- Puts `± significand * 2 ^ exponent` together, for a value that some
float has exactly. -/
def encode (negative : Bool) (significand : Nat) (exponent : Int) : Float :=
  let sign := if negative then twoTo 63 else 0
  if significand = 0 then Float.ofBits (UInt64.ofNat sign)
  else
    let room := min (52 - (Nat.log2 significand : Int)) (exponent - leastExponent)
    let shift := room.toNat
    let m := significand * twoTo shift
    let q := exponent - shift
    let bits := if m < twoTo 52 then m else (q + 1075).toNat * twoTo 52 + (m - twoTo 52)
    Float.ofBits (UInt64.ofNat (sign + bits))

/-- The float above all others. -/
def infinity : Float := Float.ofBits 0x7ff0000000000000

end Binary

/-- The value that is not a number. -/
def notANumber : Float := Float.ofBits 0x7ff8000000000000

-- ========================================================== whole floats

/-- The value of a float with its fraction cut off, toward zero. -/
def wholePart? (x : Float) : Option Int :=
  match Binary.ofFloat x with
  | .finite negative m q =>
    let size : Nat := if 0 ≤ q then m * twoTo q.toNat else m / twoTo (-q).toNat
    some (if negative then -(size : Int) else size)
  | _ => none

/-- Whether a float is finite and has no fraction. -/
def isWhole (x : Float) : Bool :=
  match Binary.ofFloat x with
  | .finite _ m q => 0 ≤ q || m % twoTo (-q).toNat = 0
  | _ => false

/-- The float with its fraction cut off as a script integer; `none` for
NaN, infinities and values out of range. -/
def truncate? (x : Float) : Option Int64 := wholePart? x >>= fit?

/-- The float nearest to a script integer. -/
def toFloat (n : Int64) : Float := Float.ofInt n.toInt

-- ============================================================ remainder

/-- The exact remainder of dividing `x` by `y` toward zero. It has the
sign of `x`. There is none for an infinite `x` or a zero `y`, and an
infinite `y` leaves `x` as it is. -/
def remainder (x y : Float) : Float :=
  match Binary.ofFloat x, Binary.ofFloat y with
  | .finite negative m p, .finite _ n q =>
    if n = 0 then notANumber
    else
      let unit := min p q
      let r := (m * twoTo (p - unit).toNat) % (n * twoTo (q - unit).toNat)
      Binary.encode negative r unit
  | .finite _ _ _, .infinite _ => x
  | _, _ => notANumber

-- ============================================================ roundings

/-- The nearest whole float toward zero. -/
def truncate (x : Float) : Float := if x < 0 then x.ceil else x.floor

/-- The nearest whole float; a tie goes to the even one. -/
def roundEven (x : Float) : Float :=
  if (x - truncate x).abs == 0.5 then 2 * (x / 2).round else x.round

/-- The greater of two floats. A NaN yields to the other one, and of two
equal ones the right is taken, which tells zero from minus zero. -/
def maximum (x y : Float) : Float :=
  if y.isNaN then x else if y < x then x else y

/-- The lesser of two floats, with the rules of `maximum`. -/
def minimum (x y : Float) : Float :=
  if y.isNaN then x else if x < y then x else y

end TickScript.Number
