/-
The shortest decimal of a float: the fewest digits that still read
back as the same float and, among those, the ones nearest to it.

A positive float stands for every real number that rounds to it. These
form an interval around it, halfway to its neighbours on either side;
the ends belong to it just when the significand is even. For one,
two, … digits in turn, the float lies between two neighbours on the
grid of decimals with so many digits. The first grid on which one of
them falls into the interval gives the answer. If both do, the nearer
one is taken, and of two equally near ones the greater.

All of it is exact arithmetic on natural numbers: the interval is kept
in quarters of the last binary place.
-/
import TickScript.Number.Binary

namespace TickScript.Number

/-- The decimal `0.d₁d₂… * 10 ^ point`, its digits without zeros on
either end; no digits at all stand for zero. -/
structure Decimal where
  digits : List Nat
  point : Int
deriving DecidableEq

namespace Shortest

/-- A float above zero as a fraction `value / scale`, and the two ends
`low / scale` and `high / scale` of the interval that rounds to it. -/
structure Window where
  low : Nat
  value : Nat
  high : Nat
  scale : Nat
  /-- Whether the ends round to the float as well. -/
  closed : Bool

/-- The window of `m * 2 ^ q`. Below a power of two the floats are
twice as dense, unless they have reached the least exponent. -/
def window (m : Nat) (q : Int) : Window :=
  let below := if m = twoTo 52 ∧ Binary.leastExponent < q then 1 else 2
  let num := twoTo (q - 2).toNat
  { low := (4 * m - below) * num
    value := 4 * m * num
    high := (4 * m + 2) * num
    scale := twoTo (2 - q).toNat
    closed := m % 2 = 0 }

/-- The decimal digits of a number, the leading one first. -/
def digitList (n : Nat) : List Nat := (Nat.toDigits 10 n).map digitValue

/-- How far the first digit of `value / scale` stands before the
decimal point: the `p` with `10 ^ (p - 1) ≤ value / scale < 10 ^ p`. -/
def magnitude (value scale : Nat) : Int :=
  if scale ≤ value then (digitList (value / scale)).length
  else
    let zeros := (List.range 400).find? fun k => scale ≤ value * tenTo (k + 1)
    match zeros with
    | some k => -(k : Int)
    | none => 0

/-- Whether the decimal `n * 10 ^ e` reads back as the float. -/
def Window.holds (w : Window) (n : Nat) (e : Int) : Bool :=
  let x := n * tenTo e.toNat * w.scale
  let unit := tenTo (-e).toNat
  if w.closed then w.low * unit ≤ x && x ≤ w.high * unit
  else w.low * unit < x && x < w.high * unit

/-- The neighbours of the float among the multiples of `10 ^ e` that
read back, the better one if both do. -/
def Window.pick? (w : Window) (e : Int) : Option Nat :=
  let num := w.value * tenTo (-e).toNat
  let den := w.scale * tenTo e.toNat
  let down := num / den
  let nearerDown := 2 * (num % den) < den
  match w.holds down e, w.holds (down + 1) e with
  | true, true => some (if nearerDown then down else down + 1)
  | true, false => some down
  | false, true => some (down + 1)
  | false, false => none

/-- The decimal `n * 10 ^ e` without zeros on either end. -/
def normal (n : Nat) (e : Int) : Decimal :=
  let ds := digitList n
  { digits := (ds.reverse.dropWhile (· = 0)).reverse, point := e + ds.length }

end Shortest

open Shortest in
/-- The shortest decimal of the float `m * 2 ^ q`. Seventeen digits are
always enough. -/
def shortest (m : Nat) (q : Int) : Decimal :=
  if m = 0 then ⟨[], 0⟩
  else
    let w := window m q
    let p := magnitude w.value w.scale
    let found := (List.range 17).findSome? fun n =>
      let e := p - (n + 1 : Nat)
      (w.pick? e).map fun k => normal k e
    found.getD ⟨[], 0⟩

end TickScript.Number
