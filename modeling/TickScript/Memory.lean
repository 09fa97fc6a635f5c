/-
Memory devices: a fixed number of cells, each empty or holding one
value. Beside the cells a device keeps how many of them are empty and
which is the first and the last empty one, and brings these up to date
with every change. A cell that holds a handle to an entity that is gone
counts as occupied until it is cleared or swept.

`set` and `clear` give back the value they displace. When that is a
handle, whoever called them releases its usage.
-/
import TickScript.Kind

namespace TickScript

/-- A memory device. -/
structure Memory where
  cells : List (Option Value)
  freeCount : Nat
  firstFree : Option Nat
  lastFree : Option Nat

namespace Memory

/-- A device whose cells are all empty. -/
def empty (size : Nat) : Memory :=
  { cells := List.replicate size none
    freeCount := size
    firstFree := if size = 0 then none else some 0
    lastFree := if size = 0 then none else some (size - 1) }

def size (m : Memory) : Nat := m.cells.length

/-- The values held, in order of their cells. -/
def values (m : Memory) : List Value := m.cells.filterMap fun cell => cell

-- =========================================================== bookkeeping

/-- The first empty cell at `start` or after it. -/
def emptyFrom (cells : List (Option Value)) (start : Nat) : Option Nat :=
  ((cells.drop start).findIdx? Option.isNone).map (start + ·)

/-- The last empty cell before `stop`. -/
def emptyBefore (cells : List (Option Value)) : (stop : Nat) → Option Nat
  | 0 => none
  | stop + 1 => if cells[stop]? = some none then some stop else emptyBefore cells stop

/-- Notes that the cell at `i`, empty before, now holds a value. -/
def occupied (m : Memory) (i : Nat) : Memory :=
  { m with
    freeCount := m.freeCount - 1
    firstFree := if m.firstFree = some i then emptyFrom m.cells (i + 1) else m.firstFree
    lastFree := if m.lastFree = some i then emptyBefore m.cells i else m.lastFree }

/-- Notes that the cell at `i`, full before, is now empty. -/
def freed (m : Memory) (i : Nat) : Memory :=
  { m with
    freeCount := m.freeCount + 1
    firstFree := match m.firstFree with
      | some first => if first ≤ i then some first else some i
      | none => some i
    lastFree := match m.lastFree with
      | some last => if i ≤ last then some last else some i
      | none => some i }

/-- Fills the cell at `i`; gives back what it held. -/
def fill (m : Memory) (i : Nat) (v : Value) : Option Value × Memory :=
  let old := m.cells[i]?.join
  let m := { m with cells := m.cells.set i (some v) }
  (old, if old.isNone then m.occupied i else m)

/-- Empties the cell at `i`; gives back what it held. -/
def vacate (m : Memory) (i : Nat) : Option Value × Memory :=
  let old := m.cells[i]?.join
  let m := { m with cells := m.cells.set i none }
  (old, if old.isSome then m.freed i else m)

-- ============================================================= addresses

/-- The cell an address names. -/
def index (m : Memory) (addr : Int64) : Except Fault Nat :=
  if 0 ≤ addr.toInt ∧ addr.toInt < m.size then .ok addr.toInt.toNat
  else
    .error (.of .addressOutOfBounds
      (toString addr.toInt ++ " NOT IN 0.." ++ toString m.size))

/-- What the cell at an address holds. -/
def get (m : Memory) (addr : Int64) : Except Fault (Option Value) := do
  let i ← m.index addr
  .ok m.cells[i]?.join

/-- What the cell at an address holds, unless that is a handle to an
entity that is gone. -/
def present (m : Memory) (alive : Handle → Bool) (addr : Int64) :
    Except Fault (Option Value) := do
  match ← m.get addr with
  | some (.entity h) => .ok (if alive h then some (.entity h) else none)
  | cell => .ok cell

/-- Whether the cell at an address is empty or holds a handle to an
entity that is gone. -/
def isNull (m : Memory) (alive : Handle → Bool) (addr : Int64) : Except Fault Bool :=
  (m.present alive addr).map Option.isNone

/-- The kind of what the cell at an address holds. -/
def kind (m : Memory) (alive : Handle → Bool) (addr : Int64) : Except Fault Kind :=
  (m.present alive addr).map fun
    | some v => Kind.of v
    | none => .none

/-- Stores a value at an address; gives back what it displaces. -/
def set (m : Memory) (addr : Int64) (v : Value) : Except Fault (Option Value × Memory) := do
  let i ← m.index addr
  .ok (m.fill i v)

/-- Empties the cell at an address; gives back what it held. -/
def clear (m : Memory) (addr : Int64) : Except Fault (Option Value × Memory) := do
  let i ← m.index addr
  .ok (m.vacate i)

-- ================================================================= sweep

/-- Whether a cell holds a handle to an entity that is gone. -/
def isDead (alive : Handle → Bool) : Option Value → Bool
  | some (.entity h) => !alive h
  | _ => false

/-- Sweeps the cells at some indices, one after the other. -/
def sweepAt (alive : Handle → Bool) : List Nat → Memory → List Value × Memory
  | [], m => ([], m)
  | i :: is, m =>
    if isDead alive m.cells[i]?.join then
      let (old, m) := m.vacate i
      let (removed, m) := sweepAt alive is m
      (old.toList ++ removed, m)
    else sweepAt alive is m

/-- Empties every cell that holds a handle to an entity that is gone.
Gives back the values removed, in order of their cells. -/
def sweep (m : Memory) (alive : Handle → Bool) : List Value × Memory :=
  sweepAt alive (List.range m.size) m

end Memory

end TickScript
