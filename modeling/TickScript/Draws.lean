/-
Random draws. `Draws` is the state of a generator of numbers that are
spread evenly over `[0, 1)`: a counter that advances by a fixed odd
step and is scrambled into each number drawn. Whoever draws hands the
advanced state on, so a run is determined by the state it starts from.
-/

namespace TickScript

/-- The state of the generator. -/
structure Draws where
  state : UInt64
deriving DecidableEq

namespace Draws

/-- Scrambles the bits of the counter. -/
def scramble (z : UInt64) : UInt64 :=
  let z := (z ^^^ (z >>> 30)) * 0xbf58476d1ce4e5b9
  let z := (z ^^^ (z >>> 27)) * 0x94d049bb133111eb
  z ^^^ (z >>> 31)

/-- Draws a number in `[0, 1)`: 53 random bits over `2 ^ 53`. -/
def next (d : Draws) : Float × Draws :=
  let state := d.state + 0x9e3779b97f4a7c15
  let bits := (scramble state >>> 11).toNat
  (Float.ofNat bits / Float.ofNat 9007199254740992, ⟨state⟩)

end Draws

end TickScript
