/-
Blank characters: the characters with the Unicode property
`White_Space`, twenty-five of them in ten ranges. Text that a value is
read from is trimmed of these on both ends.
-/

namespace TickScript.Text

/-- The first and last code point of each range of blank characters. -/
def blankRanges : List (Nat × Nat) :=
  [(0x09, 0x0D), (0x20, 0x20), (0x85, 0x85), (0xA0, 0xA0), (0x1680, 0x1680),
   (0x2000, 0x200A), (0x2028, 0x2029), (0x202F, 0x202F), (0x205F, 0x205F),
   (0x3000, 0x3000)]

/-- Whether a character has the property `White_Space`. -/
def isBlank (c : Char) : Bool :=
  blankRanges.any fun (lo, hi) => lo ≤ c.toNat && c.toNat ≤ hi

/-- Drops the longest run at the end whose characters all satisfy `p`. -/
def dropEnd (p : Char → Bool) (cs : List Char) : List Char :=
  (cs.reverse.dropWhile p).reverse

/-- Drops the longest runs at both ends whose characters satisfy `p`. -/
def trimBoth (p : Char → Bool) (cs : List Char) : List Char :=
  dropEnd p (cs.dropWhile p)

/-- Text without the blanks on its ends. -/
def trim (s : String) : String := String.ofList (trimBoth isBlank s.toList)

/-- Text without the blanks at its end. -/
def trimEnd (s : String) : String := String.ofList (dropEnd isBlank s.toList)

example : (blankRanges.map fun (lo, hi) => hi + 1 - lo).sum = 25 := by decide

end TickScript.Text
