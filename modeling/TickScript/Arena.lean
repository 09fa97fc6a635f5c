/-
The arena: parts and the components on them. Scripts hold only
handles, each the index of a slot and the slot's generation when the
handle was issued. An entity can be destroyed at any time; handles to
it are then no longer alive.

Every place that stores a handle holds one *usage* of the slot. The
slot of a destroyed entity is recycled once its usages are down to
zero, and recycling moves the slot on to its next generation, so no old
handle is ever taken for a handle to a newer entity.
-/
import TickScript.Memory

namespace TickScript

/-- What an entity is and what only that sort of entity has. -/
inductive Role where
  /-- A part, with the components attached to it in order. -/
  | part (components : List Handle)
  /-- A component of some type, on a part; it may be a memory device. -/
  | component (typeName : String) (parent : Handle) (memory : Option Memory)

/-- A part or a component. -/
structure Entity where
  group : Nat
  role : Role

namespace Entity

/-- The type under which methods of parts are registered. -/
def partType : String := "part"

/-- The type of components that are memory devices. -/
def memoryType : String := "memory"

def kind (e : Entity) : EntityKind :=
  match e.role with
  | .part _ => .part
  | .component .. => .component

/-- The type whose methods the entity answers to. -/
def typeName (e : Entity) : String :=
  match e.role with
  | .part _ => partType
  | .component typeName _ _ => typeName

/-- The part a component is on. -/
def parent? (e : Entity) : Option Handle :=
  match e.role with
  | .part _ => none
  | .component _ parent _ => some parent

/-- The components on a part. -/
def components (e : Entity) : List Handle :=
  match e.role with
  | .part components => components
  | .component .. => []

/-- The memory of a component that is a memory device. -/
def memory? (e : Entity) : Option Memory :=
  match e.role with
  | .part _ => none
  | .component _ _ memory => memory

/-- The entity with other memory, if it has any. -/
def withMemory (e : Entity) (m : Memory) : Entity :=
  match e.role with
  | .component typeName parent (some _) => { e with role := .component typeName parent (some m) }
  | _ => e

/-- The values its memory holds. -/
def values (e : Entity) : List Value :=
  match e.memory? with
  | some m => m.values
  | none => []

end Entity

/-- A place for entities, one at a time. -/
structure Slot where
  generation : UInt32
  usings : Nat
  entity : Option Entity

/-- All entities. -/
structure Arena where
  slots : List Slot
  /-- Slots to be reused, the next one first. -/
  free : List Nat

namespace Arena

/-- The arena without entities. -/
def empty : Arena := ⟨[], []⟩

-- ================================================================ lookup

/-- The slot of a handle, while it is still of the handle's
generation. -/
def slot? (a : Arena) (h : Handle) : Option Slot :=
  (a.slots[h.index]?).filter fun slot => slot.generation == h.generation

/-- The living entity a handle refers to. -/
def entity? (a : Arena) (h : Handle) : Option Entity := a.slot? h >>= Slot.entity

/-- Whether the entity a handle refers to still exists. -/
def isAlive (a : Arena) (h : Handle) : Bool := (a.entity? h).isSome

/-- The usages of a handle. -/
def usings (a : Arena) (h : Handle) : Nat :=
  match a.slot? h with
  | some slot => slot.usings
  | none => 0

/-- The group of a living entity. -/
def group? (a : Arena) (h : Handle) : Option Nat := (a.entity? h).map Entity.group

/-- The memory of a living memory device. -/
def memory? (a : Arena) (h : Handle) : Option Memory := a.entity? h >>= Entity.memory?

/-- The handle of the living entity in a slot. -/
def resolve (a : Arena) (index : Nat) : Option Handle := do
  let slot ← a.slots[index]?
  let entity ← slot.entity
  some ⟨index, slot.generation, entity.kind⟩

/-- The living components of one type on a part, in order. -/
def components (a : Arena) (part : Handle) (typeName : String) : List Handle :=
  match a.entity? part with
  | some entity =>
    entity.components.filter fun c => (a.entity? c).map Entity.typeName == some typeName
  | none => []

/-- The `n`th living component of one type on a part. -/
def component? (a : Arena) (part : Handle) (typeName : String) (n : Nat) : Option Handle :=
  (a.components part typeName)[n]?

/-- How many entities are alive. -/
def size (a : Arena) : Nat := a.slots.countP fun slot => slot.entity.isSome

-- =============================================================== changes

/-- Changes the slot of a handle, while it is of its generation. -/
def modify (a : Arena) (h : Handle) (f : Slot → Slot) : Arena :=
  match a.slot? h with
  | some slot => { a with slots := a.slots.set h.index (f slot) }
  | none => a

/-- Changes a living entity. -/
def modifyEntity (a : Arena) (h : Handle) (f : Entity → Entity) : Arena :=
  a.modify h fun slot => { slot with entity := slot.entity.map f }

/-- Replaces the memory of a living memory device. -/
def setMemory (a : Arena) (h : Handle) (m : Memory) : Arena :=
  a.modifyEntity h fun e => e.withMemory m

/-- Puts an entity into the next slot to be reused, or into a new
one. -/
def insert (a : Arena) (e : Entity) : Handle × Arena :=
  match a.free with
  | [] =>
    (⟨a.slots.length, 0, e.kind⟩, { a with slots := a.slots ++ [⟨0, 0, some e⟩] })
  | index :: free =>
    let generation := match a.slots[index]? with
      | some slot => slot.generation
      | none => 0
    (⟨index, generation, e.kind⟩,
      { slots := a.slots.set index ⟨generation, 0, some e⟩, free })

/-- Recycles a slot that has no entity and no usages, unless that has
been done. -/
def recycle (a : Arena) (index : Nat) : Arena :=
  match a.slots[index]? with
  | some slot =>
    if slot.entity.isNone ∧ slot.usings = 0 ∧ index ∉ a.free then
      { slots := a.slots.set index { slot with generation := slot.generation + 1 }
        free := index :: a.free }
    else a
  | none => a

-- ================================================================ usages

/-- Adds a usage of a handle. -/
def retain (a : Arena) (h : Handle) : Arena :=
  a.modify h fun slot => { slot with usings := slot.usings + 1 }

/-- Drops a usage of a handle. -/
def release (a : Arena) (h : Handle) : Arena :=
  match a.slot? h with
  | some _ =>
    (a.modify h fun slot => { slot with usings := slot.usings - 1 }).recycle h.index
  | none => a

/-- Adds the usage that storing a value takes. -/
def retainValue (a : Arena) : Value → Arena
  | .entity h => a.retain h
  | _ => a

/-- Drops the usage that a stored value took. -/
def releaseValue (a : Arena) : Value → Arena
  | .entity h => a.release h
  | _ => a

/-- Drops the usages of several values in turn. -/
def releaseAll (a : Arena) (vs : List Value) : Arena := vs.foldl releaseValue a

/-- Accounts for a value stored in place of another. -/
def exchange (a : Arena) (stored : Value) (displaced : Option Value) : Arena :=
  (a.retainValue stored).releaseAll displaced.toList

-- ============================================================== entities

/-- Creates a part in a group. -/
def spawn (a : Arena) (group : Nat) : Handle × Arena := a.insert ⟨group, .part []⟩

/-- Creates a component on a living part. -/
def attach (a : Arena) (part : Handle) (typeName : String) (memory : Option Memory) :
    Except Fault (Handle × Arena) :=
  match a.entity? part with
  | some ⟨group, .part _⟩ =>
    let (h, a) := a.insert ⟨group, .component typeName part memory⟩
    .ok (h, a.modifyEntity part fun e =>
      match e.role with
      | .part components => { e with role := .part (components ++ [h]) }
      | .component .. => e)
  | _ => .error (.of .nullParameter "PART DOES NOT EXIST")

/-- Takes a living entity out of its slot. -/
def take (a : Arena) (h : Handle) : Option (Entity × Arena) :=
  (a.entity? h).map fun e => (e, a.modify h fun slot => { slot with entity := none })

/-- Destroys an entity, then what it has for components in the same way, so
many levels down. What its memory held is released. -/
def destroyWithin : (depth : Nat) → Arena → Handle → Arena
  | 0, a, _ => a
  | depth + 1, a, h =>
    match a.take h with
    | some (e, a) =>
      (e.components.foldl (destroyWithin depth) (a.releaseAll e.values)).recycle h.index
    | none => a

/-- Destroys an entity and its components. On each level an entity is taken
out, so there are no more levels than there are entities. -/
def destroy (a : Arena) (h : Handle) : Arena := destroyWithin a.size a h

-- ================================================================= sweep

/-- Sweeps the memory in a slot; gives back the values removed. -/
def sweepSlot (alive : Handle → Bool) (slot : Slot) : List Value × Slot :=
  match slot.entity with
  | some e =>
    match e.memory? with
    | some m =>
      let (removed, m) := m.sweep alive
      (removed, { slot with entity := some (e.withMemory m) })
    | none => ([], slot)
  | none => ([], slot)

/-- Clears handles to entities that are gone out of all memory
components and releases them. Gives back how many there were. -/
def sweepMemory (a : Arena) : Nat × Arena :=
  let swept := a.slots.map (sweepSlot a.isAlive)
  let removed := swept.flatMap Prod.fst
  (removed.length, { a with slots := swept.map Prod.snd }.releaseAll removed)

end Arena

end TickScript
