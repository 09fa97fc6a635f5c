/-
Instructions: what a script line is compiled to. Instructions refer to
variables by index and never change once compiled.
-/
import TickScript.Operand

namespace TickScript

/-- Readings of the clock, and waiting. -/
inductive TimeOp where
  | framesSinceLaunch (dest : VarId)
  | secondsSinceLaunch (dest : VarId)
  | deltaTime (dest : VarId)
  | wait (ticks : Operand)

/-- The two buffers of the console. -/
inductive Stream where
  | input
  | output
deriving DecidableEq

/-- A variable that input is taken into: as the code of one character,
or as a number. -/
inductive Intake where
  | char (id : VarId)
  | number (id : VarId)
deriving DecidableEq

/-- The variable an intake fills. -/
def Intake.id : Intake → VarId
  | char id | number id => id

/-- Work on the console and its buffers. -/
inductive ConsoleOp where
  | read
  | write
  | pop (target : Intake)
  | canPop (probe : Intake) (dest : VarId)
  | push (args : List Operand)
  | clear (stream : Stream)
  | filter

/-- Work on a memory device. -/
inductive MemoryOp where
  | get (addr : Operand) (dest : VarId)
  | getType (addr : Operand) (dest : VarId)
  | isNull (addr : Operand) (dest : VarId)
  | set (addr value : Operand)
  | clear (addr : Operand)

/-- One compiled script line. -/
inductive Instruction where
  /-- Gives a declared variable its first value. -/
  | declare (dest : VarId) (source : Operand)
  | assign (dest : VarId) (source : Operand)
  | jump (target : Nat) (condition : Operand)
  | label
  | stop
  | time (op : TimeOp)
  | console (op : ConsoleOp)
  /-- Works on the memory in a component variable, or on the
  processor's own. -/
  | memory (device : Option VarId) (op : MemoryOp)
  /-- Declares a component variable; nothing is left to do. -/
  | create
  | call (target : VarId) (method : String) (args : List Operand) (ret : Option VarId)

/-- A compiled script: one entry per line that is not a comment, and
none where the line is at fault. -/
abbrev Script := Array (Option Instruction)

end TickScript
