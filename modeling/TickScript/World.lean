/-
The world: everything a processor reaches outside itself. That is the
arena, the methods of entities, a clock, a console, the antennas of
groups and the random draws.

A group stands for one connected structure. Entities of one group reach
each other; those of two groups only if both groups have an antenna.
-/
import TickScript.Draws
import TickScript.Registry.Standard

namespace TickScript

-- ================================================================= clock

/-- A clock that moves on when it is told to. -/
structure Clock where
  seconds : Float
  /-- How far it moved last. -/
  delta : Float
  /-- How far it moves with each tick. -/
  step : Float

namespace Clock

/-- A clock at zero. -/
def start (step : Float) : Clock := ⟨0, 0, step⟩

/-- Moves the clock on. -/
def advance (c : Clock) (seconds : Float) : Clock :=
  { c with seconds := c.seconds + seconds, delta := seconds }

/-- Moves the clock on by its step. -/
def tick (c : Clock) : Clock := c.advance c.step

end Clock

-- =============================================================== console

/-- A console: texts waiting to be read, and all that was written. -/
structure Console where
  input : List String
  written : List String
  /-- How much had been written when a read first found nothing
  waiting, if one did. -/
  starved : Option Nat

namespace Console

/-- A console on which nothing has happened. -/
def empty : Console := ⟨[], [], none⟩

/-- Puts a text in the queue for reading. -/
def feed (c : Console) (s : String) : Console := { c with input := c.input ++ [s] }

/-- Reads the next text; nothing, if none is waiting. -/
def read (c : Console) : String × Console :=
  match c.input with
  | s :: input => (s, { c with input })
  | [] => ("", { c with starved := c.starved.or (some c.written.length) })

/-- Writes a text. -/
def write (c : Console) (s : String) : Console := { c with written := c.written ++ [s] }

/-- The text written last. -/
def last? (c : Console) : Option String := c.written.getLast?

end Console

-- ================================================================= world

/-- What processors run in. -/
structure World where
  arena : Arena
  registry : Registry
  clock : Clock
  console : Console
  /-- Groups with an antenna. -/
  antennas : List Nat
  draws : Draws

namespace World

/-- A world without entities, with the standard methods. -/
def start (clock : Clock) (draws : Draws) : World :=
  { arena := .empty, registry := .standard, clock, console := .empty, antennas := [], draws }

/-- Moves the clock on, once in every frame. -/
def tick (w : World) : World := { w with clock := w.clock.tick }

/-- Creates a part in a group. -/
def spawn (w : World) (group : Nat) : Handle × World :=
  let (h, arena) := w.arena.spawn group
  (h, { w with arena })

/-- Creates a memory component on a part. -/
def attachMemory (w : World) (part : Handle) (size : Nat) : Except Fault (Handle × World) := do
  let (h, arena) ← w.arena.attach part Entity.memoryType (some (.empty size))
  .ok (h, { w with arena })

/-- Gives a group an antenna. -/
def addAntenna (w : World) (group : Nat) : World :=
  if group ∈ w.antennas then w else { w with antennas := group :: w.antennas }

/-- Takes the antenna of a group away. -/
def removeAntenna (w : World) (group : Nat) : World :=
  { w with antennas := w.antennas.filter (· ≠ group) }

/-- Whether an entity may call another: both must be alive, and in one
group or both in groups with antennas. -/
def canConnect (w : World) (source target : Handle) : Bool :=
  match w.arena.group? source, w.arena.group? target with
  | some a, some b => a == b || (w.antennas.contains a && w.antennas.contains b)
  | _, _ => false

end World

end TickScript
