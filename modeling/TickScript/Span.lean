/-
Spans of text. A span names the characters from `start` up to, and not
including, `stop` within one line or one expression. The empty span at
zero stands for "nowhere": a fault whose place is not known carries it.
-/

namespace TickScript

/-- The characters `start ≤ i < stop` of some text. -/
structure Span where
  start : Nat
  stop : Nat
deriving DecidableEq

namespace Span

/-- The span of a fault that has no place yet. -/
def nowhere : Span := ⟨0, 0⟩

/-- The span of the single character at `pos`. -/
def char (pos : Nat) : Span := ⟨pos, pos + 1⟩

/-- The span written with its two ends, `start..stop`. -/
def text (s : Span) : String := s!"{s.start}..{s.stop}"

end Span

end TickScript
