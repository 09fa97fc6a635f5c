/-
Cutting text at a character, and comparing words without regard to the
case of their ASCII letters.
-/

namespace TickScript.Text

/-- Cuts at every `sep`. There is always one piece more than there are
separators, so empty text is one empty piece. -/
def splitChars (sep : Char) : List Char → List (List Char)
  | [] => [[]]
  | c :: cs =>
    if c = sep then [] :: splitChars sep cs
    else match splitChars sep cs with
      | [] => [[c]]
      | piece :: pieces => (c :: piece) :: pieces

/-- The pieces of `s` between occurrences of `sep`. -/
def split (sep : Char) (s : String) : List String :=
  (splitChars sep s.toList).map String.ofList

/-- Cuts at `sep` into at most `n` pieces; the last one keeps the
remainder as it stands. -/
def splitUpToChars (sep : Char) : Nat → List Char → List (List Char)
  | 0, _ => []
  | 1, cs => [cs]
  | n + 2, cs =>
    match cs.dropWhile (· ≠ sep) with
    | [] => [cs]
    | _ :: rest => cs.takeWhile (· ≠ sep) :: splitUpToChars sep (n + 1) rest

/-- The text of `splitUpToChars`. -/
def splitUpTo (sep : Char) (n : Nat) (s : String) : List String :=
  (splitUpToChars sep n s.toList).map String.ofList

/-- Upper case for ASCII letters, all else kept. -/
def upper (s : String) : String := String.ofList (s.toList.map Char.toUpper)

/-- Lower case for ASCII letters, all else kept. -/
def lower (s : String) : String := String.ofList (s.toList.map Char.toLower)

/-- Whether two words agree up to the case of ASCII letters. -/
def sameWord (a b : String) : Bool := lower a == lower b

/-- Where `needle` first occurs in `hay`, counted in characters. -/
def findChars (needle : List Char) : List Char → Option Nat
  | [] => if needle.isEmpty then some 0 else none
  | c :: cs =>
    if needle.isPrefixOf (c :: cs) then some 0
    else (findChars needle cs).map (· + 1)

/-- The text inside a pair of `quote` characters at both ends, if the
ends are such a pair. -/
def insideQuotes (quote : Char) (s : String) : Option String :=
  match s.toList with
  | [] => none
  | c :: cs =>
    if c = quote && cs.getLast? = some quote then some (String.ofList cs.dropLast)
    else none

end TickScript.Text
