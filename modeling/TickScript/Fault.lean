/-
Faults. Whatever can go wrong while a script is read, compiled or run
is a `Fault`: a `Cause` out of a closed list, where it happened as far
as that is known, and a short detail text.

Causes are numbered. Numbers below 50 belong to compiling, numbers
from 50 on to running; `Cause.isRuntime` reads that off the number.

A fault picks up its place on the way out of nested work, innermost
place first, so `atLine` and `inSpan` never replace a place that is
already known.
-/
import TickScript.Span

namespace TickScript

/-- Everything that can go wrong. -/
inductive Cause where
  | syntaxError
  | unknownInstruction
  | unknownFunction
  | illegalName
  | redeclared
  | undefinedVariable
  | readonlyVariable
  | typeMismatch
  | argumentCount
  | returnVariable
  | invalidExpression
  | tooManyVariables
  | nullParameter
  | invalidCondition
  | invalidWait
  | addressOutOfBounds
  | inputEmpty
  | numberNotFound
  | noReturnValue
  | permissionDenied
  | invalidJump
  | notSupported
  | conversionError
  | overflow
  | divisionByZero
  | missingInstruction
  | invalidOperand
  | internalError
deriving DecidableEq

namespace Cause

/-- The number a host sees for the cause. -/
def number : Cause → Nat
  | syntaxError => 2
  | unknownInstruction => 3
  | unknownFunction => 4
  | illegalName => 5
  | redeclared => 6
  | undefinedVariable => 7
  | readonlyVariable => 8
  | typeMismatch => 9
  | argumentCount => 10
  | returnVariable => 11
  | invalidExpression => 12
  | tooManyVariables => 13
  | nullParameter => 50
  | invalidCondition => 51
  | invalidWait => 52
  | addressOutOfBounds => 53
  | inputEmpty => 54
  | numberNotFound => 55
  | noReturnValue => 56
  | permissionDenied => 57
  | invalidJump => 58
  | notSupported => 59
  | conversionError => 60
  | overflow => 61
  | divisionByZero => 62
  | missingInstruction => 63
  | invalidOperand => 64
  | internalError => 99

/-- The headline a reader of the fault sees. -/
def title : Cause → String
  | syntaxError => "SYNTAX ERROR"
  | unknownInstruction => "UNKNOWN INSTRUCTION"
  | unknownFunction => "UNKNOWN FUNCTION"
  | illegalName => "ILLEGAL NAME"
  | redeclared => "REDECLARED"
  | undefinedVariable => "UNDEFINED VARIABLE"
  | readonlyVariable => "READONLY VARIABLE"
  | typeMismatch => "TYPE MISMATCH"
  | argumentCount => "WRONG ARGUMENT COUNT"
  | returnVariable => "RETURN VARIABLE"
  | invalidExpression => "INVALID EXPRESSION"
  | tooManyVariables => "TOO MANY VARIABLES"
  | nullParameter => "NULL PARAMETER"
  | invalidCondition => "INVALID CONDITION"
  | invalidWait => "INVALID WAIT"
  | addressOutOfBounds => "ADDRESS OUT OF BOUNDS"
  | inputEmpty => "INPUT EMPTY"
  | numberNotFound => "NUMBER NOT FOUND"
  | noReturnValue => "NO RETURN VALUE"
  | permissionDenied => "PERMISSION DENIED"
  | invalidJump => "INVALID JUMP"
  | notSupported => "NOT SUPPORTED"
  | conversionError => "CONVERSION ERROR"
  | overflow => "OVERFLOW"
  | divisionByZero => "DIVISION BY ZERO"
  | missingInstruction => "MISSING INSTRUCTION"
  | invalidOperand => "INVALID OPERAND"
  | internalError => "INTERNAL ERROR"

/-- Causes of running scripts are numbered from 50 on. -/
def isRuntime (c : Cause) : Bool := 50 ≤ c.number

end Cause

/-- One thing that went wrong. -/
structure Fault where
  cause : Cause
  /-- Index of the script line, once known. -/
  line : Option Nat
  span : Span
  detail : String
deriving DecidableEq

namespace Fault

/-- A fault with a detail text and no place yet. -/
def of (cause : Cause) (detail : String) : Fault :=
  { cause, line := none, span := Span.nowhere, detail }

/-- A fault that its cause explains in full. -/
def bare (cause : Cause) : Fault := of cause ""

/-- Adds the script line. A fault that knows its line keeps it. -/
def atLine (f : Fault) (line : Option Nat) : Fault :=
  { f with line := f.line.or line }

/-- Adds the span. A fault that knows its span keeps it. -/
def inSpan (f : Fault) (span : Span) : Fault :=
  { f with span := if f.span = Span.nowhere then span else f.span }

/-- Replaces the detail text. -/
def withDetail (f : Fault) (detail : String) : Fault :=
  { f with detail }

-- ================================================================ text

/-- The place and detail part of the message: each piece shows only
if there is something to show. -/
def suffix (f : Fault) : String :=
  let line := match f.line with
    | some n => s!" {n}"
    | none => ""
  let span := if f.span = Span.nowhere then "" else " (" ++ f.span.text ++ ")"
  let detail := if f.detail = "" then "" else "; " ++ f.detail
  line ++ span ++ detail

/-- The message of a fault: the headline, then `IN` and whatever is
known of place and detail. -/
def message (f : Fault) : String :=
  if f.suffix = "" then f.cause.title else f.cause.title ++ " IN" ++ f.suffix

/-- The message set in a frame, for logs. -/
def framed (f : Fault) : String := "Error \x7b " ++ f.message ++ " \x7d"

end Fault

end TickScript
