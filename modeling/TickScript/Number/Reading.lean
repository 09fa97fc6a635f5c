/-
Reading floats from text. Text writes a float if it is an optional
sign followed by `inf`, `infinity` or `nan` in any case, or by digits
with at most one point among or around them, at least one digit, and
then perhaps an exponent of `e` or `E`, an optional sign and digits.
The float nearest to the number written is taken.
-/
import TickScript.Number.Binary
import TickScript.Text.Pieces

namespace TickScript.Number

/-- A number as written: its digits without the point, and the power of
ten they are multiplied by. -/
structure Scientific where
  digits : List Char
  exponent : Int

/-- Reads the exponent after the digits, if text continues with one. -/
def exponent? : List Char → Option Int
  | [] => some 0
  | c :: cs =>
    if c = 'e' ∨ c = 'E' then
      let (negative, digits) := splitSign cs
      (natural? digits).map fun n => if negative then -(n : Int) else n
    else none

/-- Reads digits with at most one point, then an exponent. -/
def scientific? (cs : List Char) : Option Scientific := do
  let whole := cs.takeWhile Char.isDigit
  let rest := cs.dropWhile Char.isDigit
  let (places, rest) := match rest with
    | '.' :: more => (more.takeWhile Char.isDigit, more.dropWhile Char.isDigit)
    | _ => ([], rest)
  let exponent ← exponent? rest
  if whole = [] ∧ places = [] then none
  else some ⟨whole ++ places, exponent - places.length⟩

/-- The float nearest to a written number. Beyond 400 places before or
after the point every number rounds to infinity or to zero. -/
def Scientific.nearest (s : Scientific) : Float :=
  let n := digitsValue s.digits
  let size : Int := (Nat.toDigits 10 n).length + s.exponent
  if n = 0 then 0
  else if 400 < size then Binary.infinity
  else if size < -400 then 0
  else Float.ofScientific n (s.exponent < 0) s.exponent.natAbs

/-- Reads a float. -/
def readFloat? (s : String) : Option Float := do
  let (negative, body) := splitSign s.toList
  let word := Text.lower (String.ofList body)
  let size ←
    if word = "inf" ∨ word = "infinity" then some Binary.infinity
    else if word = "nan" then some notANumber
    else (scientific? body).map Scientific.nearest
  some (if negative then -size else size)

end TickScript.Number
