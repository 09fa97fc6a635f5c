/-
Tokens of expressions. A token is a literal, an operator, an
identifier, one of the three separators, or a character that means
nothing here. `Token.spelling` writes a token in the one spelling that
reads back as it; operators with several spellings have a chosen one.
-/
import TickScript.Span
import TickScript.Text.Pieces

namespace TickScript

/-- The operators of expressions, unary and binary alike. -/
inductive Operator where
  | plus
  | minus
  | times
  | divide
  | modulus
  | equal
  | notEqual
  | less
  | lessEqual
  | greater
  | greaterEqual
  | not
  | and
  | or
deriving DecidableEq

/-- One token. Number literals keep their digits as text, since whether
these make a number in range is for the parser to say. -/
inductive Token where
  | unknown (c : Char)
  | integer (digits : String)
  | float (digits : String)
  | bool (b : Bool)
  | operator (op : Operator)
  | ident (name : String)
  | leftParen
  | rightParen
  | comma
deriving DecidableEq

/-- A token and the span of text it was read from. -/
structure Lexeme where
  span : Span
  token : Token
deriving DecidableEq

-- =============================================================== spelling

/-- How an operator is written. -/
def Operator.spelling : Operator → String
  | plus => "+"
  | minus => "-"
  | times => "*"
  | divide => "/"
  | modulus => "%"
  | equal => "=="
  | notEqual => "!="
  | less => "<"
  | lessEqual => "<="
  | greater => ">"
  | greaterEqual => ">="
  | not => "!"
  | and => "&&"
  | or => "||"

/-- How a token is written. -/
def Token.spelling : Token → String
  | unknown c => String.singleton c
  | integer digits => digits
  | float digits => digits
  | bool b => if b then "true" else "false"
  | operator op => op.spelling
  | ident name => name
  | leftParen => "("
  | rightParen => ")"
  | comma => ","

-- ================================================================ reading

/-- The token that two characters together make, if they do. -/
def Token.ofPair? : Char → Char → Option Token
  | '=', '=' => some (operator .equal)
  | '!', '=' => some (operator .notEqual)
  | '<', '>' => some (operator .notEqual)
  | '<', '=' => some (operator .lessEqual)
  | '>', '=' => some (operator .greaterEqual)
  | '&', '&' => some (operator .and)
  | '|', '|' => some (operator .or)
  | _, _ => none

/-- The token that one character makes. -/
def Token.ofChar : Char → Token
  | '(' => leftParen
  | ')' => rightParen
  | ',' => comma
  | '+' => operator .plus
  | '-' => operator .minus
  | '*' => operator .times
  | '/' => operator .divide
  | '%' => operator .modulus
  | '=' => operator .equal
  | '<' => operator .less
  | '>' => operator .greater
  | '!' => operator .not
  | c => unknown c

/-- The token that a word makes. Literals and operators among the words
are known in any case; every other word is an identifier. -/
def Token.ofWord (word : String) : Token :=
  match Text.lower word with
  | "true" => bool true
  | "false" => bool false
  | "and" => operator .and
  | "or" => operator .or
  | "not" => operator .not
  | _ => ident word

end TickScript
