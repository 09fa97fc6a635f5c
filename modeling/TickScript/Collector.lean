/-
Sweeping dead references. A sweep empties every variable and memory
cell that refers to an entity that is gone, and releases these usages,
so that the arena can recycle the slots. A collector does so for a
world and its processors, every so many frames.
-/
import TickScript.Processor

namespace TickScript

/-- Empties the variables that refer to entities that are gone; gives
back what they held. -/
def Storage.sweep (s : Storage) (alive : Handle → Bool) : List Value × Storage :=
  let dead := fun (v : Variable) => Memory.isDead alive v.value
  ((s.vars.filter dead).filterMap Variable.value,
    { s with vars := s.vars.map fun v => if dead v then v.clear else v })

/-- Sweeps the variables and the local memory of a processor. Says how
many references were dropped. -/
def Processor.sweep (p : Processor) (arena : Arena) : Nat × Processor × Arena :=
  let (fromVars, vars) := p.vars.sweep arena.isAlive
  let (fromMemory, memory) := p.memory.sweep arena.isAlive
  let dropped := fromVars ++ fromMemory
  (dropped.length, { p with vars, memory }, arena.releaseAll dropped)

/-- Counts frames from one sweep to the next. -/
structure Collector where
  period : Nat
  timer : Nat

namespace Collector

/-- A collector that sweeps every `period` frames, at least every
one. -/
def every (period : Nat) : Collector := ⟨max period 1, 0⟩

/-- Sweeps processors in turn. -/
def sweepAll : Arena → List Processor → Nat × List Processor × Arena
  | arena, [] => (0, [], arena)
  | arena, p :: ps =>
    let (n, p, arena) := p.sweep arena
    let (more, ps, arena) := sweepAll arena ps
    (n + more, p :: ps, arena)

/-- Sweeps processors and then the memory of all components. -/
def collect (w : World) (ps : List Processor) : Nat × List Processor × World :=
  let (n, ps, arena) := sweepAll w.arena ps
  let (more, arena) := arena.sweepMemory
  (n + more, ps, { w with arena })

/-- Counts a frame, and sweeps when the period is up. -/
def tick (c : Collector) (w : World) (ps : List Processor) :
    Nat × Collector × List Processor × World :=
  if c.timer + 1 < c.period then (0, { c with timer := c.timer + 1 }, ps, w)
  else
    let (n, ps, w) := collect w ps
    (n, { c with timer := 0 }, ps, w)

end Collector

end TickScript
