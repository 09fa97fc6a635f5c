/-
Whole numbers of 64 bits. Script integers are `Int64`; arithmetic on
them is done exactly, on `Int`, and the result is taken back only if
it still fits (`fit?`). Nothing wraps.

The second half reads whole numbers from decimal text.
-/

namespace TickScript.Number

-- ============================================================== powers

/-- The `n`th power of two. -/
def twoTo (n : Nat) : Nat := Nat.pow 2 n

/-- The `n`th power of ten. -/
def tenTo (n : Nat) : Nat := Nat.pow 10 n

-- ======================================================== exact results

/-- The least value of a script integer. -/
def least : Int := -9223372036854775808

/-- The greatest value of a script integer. -/
def greatest : Int := 9223372036854775807

/-- Whether an exact result is a script integer. -/
def Fits (i : Int) : Prop := least ≤ i ∧ i ≤ greatest

instance (i : Int) : Decidable (Fits i) := inferInstanceAs (Decidable (_ ∧ _))

/-- The script integer equal to an exact result, if there is one. -/
def fit? (i : Int) : Option Int64 := if Fits i then some (Int64.ofInt i) else none

/-- The script integer nearest to an exact result. -/
def clamp (i : Int) : Int64 :=
  if i < least then Int64.ofInt least
  else if greatest < i then Int64.ofInt greatest
  else Int64.ofInt i

-- ========================================================= decimal text

/-- The value of a decimal digit. -/
def digitValue (c : Char) : Nat := c.toNat - '0'.toNat

/-- The number that a run of decimal digits writes. -/
def digitsValue (cs : List Char) : Nat :=
  cs.foldl (fun n c => 10 * n + digitValue c) 0

/-- The number that text writes, if it is one or more decimal digits. -/
def natural? (cs : List Char) : Option Nat :=
  if cs ≠ [] ∧ cs.all Char.isDigit then some (digitsValue cs) else none

/-- A sign, if text starts with one: whether it is a minus, and the
text after it. -/
def splitSign : List Char → Bool × List Char
  | '-' :: cs => (true, cs)
  | '+' :: cs => (false, cs)
  | cs => (false, cs)

/-- Reads a script integer: an optional sign and decimal digits, within
range. -/
def readInt? (s : String) : Option Int64 := do
  let (negative, digits) := splitSign s.toList
  let n ← natural? digits
  fit? (if negative then -(n : Int) else n)

/-- Reads a count of at most `2 ^ 64 - 1`: an optional plus sign and
decimal digits. -/
def readCount? (s : String) : Option Nat := do
  let digits := match s.toList with
    | '+' :: cs => cs
    | cs => cs
  let n ← natural? digits
  if n < twoTo 64 then some n else none

end TickScript.Number
