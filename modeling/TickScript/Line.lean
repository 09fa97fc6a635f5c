/-
Script lines. A line is its text without the spaces, tabs and line ends
around it; spacing inside is significant and never collapsed. Empty
lines and lines that start with `#` are comments.
-/
import TickScript.Text.Blank
import TickScript.Text.Pieces

namespace TickScript

/-- One line of a script, without the blanks around it. -/
structure Line where
  text : String
deriving DecidableEq

namespace Line

/-- The characters dropped from the ends of a line. -/
def isMargin (c : Char) : Bool := c == ' ' || c == '\t' || c == '\r' || c == '\n'

/-- The line that text holds. -/
def ofText (s : String) : Line := ⟨String.ofList (Text.trimBoth isMargin s.toList)⟩

/-- Whether the line is a comment or empty. -/
def isComment (l : Line) : Bool :=
  match l.text.toList with
  | [] => true
  | c :: _ => c == '#'

/-- The text before the first space. -/
def keyword (l : Line) : String := String.ofList (l.text.toList.takeWhile (· ≠ ' '))

/-- Whether the line declares a label. -/
def isLabel (l : Line) : Bool := !l.isComment && l.keyword == "label"

/-- The text cut at single spaces into at most `n` pieces; the last
piece keeps the remainder, and adjacent spaces make empty pieces. -/
def split (l : Line) (n : Nat) : List String := Text.splitUpTo ' ' n l.text

/-- The lines of a source that are not comments, in order. -/
def ofSource (source : String) : List Line :=
  ((Text.split '\n' source).map ofText).filter fun l => !l.isComment

end Line

end TickScript
