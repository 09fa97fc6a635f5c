/-
What a sweep does, cell by cell.

A sweep of a memory empties the cells that hold handles to entities that
are gone and leaves the others (`Memory.sweep_cells`), and gives back as
many values as there were such cells. That is so although it goes through
the cells one by one and keeps its books in between.

A sweep of all memories in an arena decides who is gone before it releases
anything, and releasing does not change who is alive. So the same holds of
all cells of all memories at once (`Arena.sweepMemory_swept`), and all else
about the entities is as it was (`Arena.Swept`).
-/
import TickScript.Proofs.Arena.Balance
import TickScript.Proofs.Arena.Entities

namespace TickScript

-- ============================================================== memories

namespace Memory

variable {alive : Handle → Bool} {m : Memory}

/-- What is left of a cell after a sweep. -/
def emptied (alive : Handle → Bool) (cell : Option Value) : Option Value :=
  if isDead alive cell then none else cell

/-- After a sweep nothing dead is left in a cell. -/
theorem isDead_emptied (cell : Option Value) : isDead alive (emptied alive cell) = false := by
  unfold emptied
  split
  next => rfl
  next hdead => exact Bool.eq_false_iff.2 hdead

/-- A dead cell is emptied. -/
theorem emptied_of_dead {cell : Option Value} (h : isDead alive cell = true) :
    emptied alive cell = none := if_pos h

/-- Any other cell is left. -/
theorem emptied_of_not_dead {cell : Option Value} (h : ¬ isDead alive cell = true) :
    emptied alive cell = cell := if_neg h

/-- A cell is vacated by itself. -/
theorem cells_vacate (i : Nat) : (m.vacate i).2.cells = m.cells.set i none := by
  unfold vacate
  simp only
  split <;> rfl

/-- The cells that were looked at are swept, and no others. -/
theorem sweepAt_cells (is : List Nat) : ∀ (m : Memory) (j : Nat),
    (sweepAt alive is m).2.cells[j]?
      = if j ∈ is then (m.cells[j]?).map (emptied alive) else m.cells[j]? := by
  induction is with
  | nil => intro m j; simp [sweepAt]
  | cons i is ih =>
      intro m j
      unfold sweepAt
      split
      next hdead =>
        show (sweepAt alive is (m.vacate i).2).2.cells[j]? = _
        rw [ih, cells_vacate]
        by_cases hji : j = i
        · -- the cell is empty by now, so another look makes no difference
          subst hji
          cases hcell : m.cells[j]? with
          | none =>
              rw [hcell] at hdead
              cases hdead
          | some cell =>
              rw [hcell, Option.join_some] at hdead
              have hlt : j < m.cells.length := (List.getElem?_eq_some_iff.1 hcell).1
              rw [List.getElem?_set_self hlt, if_pos List.mem_cons_self, Option.map_some,
                Option.map_some, emptied_of_dead hdead]
              split <;> rfl
        · rw [List.getElem?_set_ne (Ne.symm hji)]
          simp [hji]
      next hdead =>
        rw [ih]
        by_cases hji : j = i
        · subst hji
          rw [if_pos List.mem_cons_self]
          cases hcell : m.cells[j]? with
          | none => simp
          | some cell =>
              rw [hcell, Option.join_some] at hdead
              rw [Option.map_some, emptied_of_not_dead hdead]
              split <;> rfl
        · simp [hji]

/-- A sweep goes through all cells, so each is swept once. -/
theorem sweep_cells (m : Memory) (alive : Handle → Bool) :
    (m.sweep alive).2.cells = m.cells.map (emptied alive) := by
  refine List.ext_getElem? fun j => ?_
  unfold sweep
  rw [sweepAt_cells, List.getElem?_map]
  by_cases hj : j < m.cells.length
  · have hmem : j ∈ List.range m.size := List.mem_range.2 hj
    rw [if_pos hmem]
  · rw [List.getElem?_eq_none (Nat.not_lt.1 hj)]
    split <;> rfl

/-- What is held is dead or left. -/
theorem countP_isDead (alive : Handle → Bool) (cells : List (Option Value)) :
    cells.countP (isDead alive) + ((cells.map (emptied alive)).filterMap fun cell => cell).length
      = (cells.filterMap fun cell => cell).length := by
  induction cells with
  | nil => rfl
  | cons cell cells ih =>
      by_cases hdead : isDead alive cell = true
      · cases cell with
        | none => cases hdead
        | some v =>
            simp only [List.countP_cons, List.map_cons, hdead, emptied_of_dead hdead,
              List.filterMap_cons, List.length_cons, if_true]
            omega
      · rw [List.countP_cons, List.map_cons, if_neg hdead, emptied_of_not_dead hdead]
        cases cell with
        | none => exact ih
        | some v =>
            simp only [List.filterMap_cons, List.length_cons]
            omega

/-- What a sweep gives back is as much as was dead. -/
theorem length_sweep (m : Memory) (alive : Handle → Bool) :
    (m.sweep alive).1.length = m.cells.countP (isDead alive) := by
  have hperm := (values_sweep (m := m) alive).length_eq
  have hcount := countP_isDead alive m.cells
  unfold values at hperm
  rw [List.length_append, sweep_cells] at hperm
  omega

end Memory

-- ================================================================= slots

/-- The cells of the memory in a slot, if it has one. -/
def Slot.cells (slot : Slot) : List (Option Value) :=
  match slot.entity >>= Entity.memory? with
  | some m => m.cells
  | none => []

/-- The cells of all memories. -/
def Arena.cells (a : Arena) : List (Option Value) := a.slots.flatMap Slot.cells

/-- The cells of a slot are those of its entity. -/
theorem Slot.cells_of_entity {slot slot' : Slot} (h : slot'.entity = slot.entity) :
    slot'.cells = slot.cells := by
  unfold cells
  rw [h]

/-- A memory that is put in is there, if the entity is a memory device. -/
theorem Entity.memory?_withMemory {e : Entity} {m : Memory} (h : e.memory? = some m) (m' : Memory) :
    (e.withMemory m').memory? = some m' := by
  obtain ⟨group, role⟩ := e
  cases role with
  | part components => cases h
  | component typeName parent memory =>
      cases h
      rfl

/-- An entity without a memory cannot be given one. -/
theorem Entity.withMemory_of_none {e : Entity} (h : e.memory? = none) (m : Memory) :
    e.withMemory m = e := by
  obtain ⟨group, role⟩ := e
  cases role with
  | part components => rfl
  | component typeName parent memory =>
      cases h
      rfl

/-- The cells of a slot are swept. Its entity is the same but for that, and
as long as it has one, so is its generation. -/
structure Slot.Swept (alive : Handle → Bool) (slot slot' : Slot) : Prop where
  gone : slot.entity = none → slot'.entity = none
  entity : ∀ e, slot.entity = some e →
    slot'.generation = slot.generation ∧ ∃ m, slot'.entity = some (e.withMemory m)
  cells : slot'.cells = slot.cells.map (Memory.emptied alive)

namespace Arena

variable {a a₁ a₂ a' : Arena} {alive : Handle → Bool}

/-- Sweeping one slot empties its dead cells, and gives back as many values. -/
theorem sweepSlot_swept (alive : Handle → Bool) (slot : Slot) :
    slot.Swept alive (sweepSlot alive slot).2
      ∧ (sweepSlot alive slot).1.length = slot.cells.countP (Memory.isDead alive) := by
  unfold sweepSlot
  split
  next e he =>
    split
    next m hm =>
      have hcells : slot.cells = m.cells := by simp [Slot.cells, he, hm]
      refine ⟨⟨fun hnone => ?_, fun e' he' => ?_, ?_⟩, ?_⟩
      · rw [he] at hnone
        cases hnone
      · rw [he] at he'
        cases he'
        exact ⟨rfl, _, rfl⟩
      · show Slot.cells { slot with entity := some (e.withMemory (m.sweep alive).2) } = _
        rw [hcells, ← Memory.sweep_cells]
        simp [Slot.cells, Entity.memory?_withMemory hm]
      · rw [hcells]
        exact m.length_sweep alive
    next hm =>
      have hcells : slot.cells = [] := by simp [Slot.cells, he, hm]
      refine ⟨⟨fun hnone => hnone, fun e' he' => ⟨rfl, ?_⟩, ?_⟩, ?_⟩
      · rw [he] at he'
        cases he'
        exact ⟨.empty 0, by rw [he, Entity.withMemory_of_none hm]⟩
      · rw [hcells]
        rfl
      · rw [hcells]
        rfl
  next hnone =>
    have hcells : slot.cells = [] := by simp [Slot.cells, hnone]
    refine ⟨⟨fun h => h, fun e he => ?_, ?_⟩, ?_⟩
    · rw [hnone] at he
      cases he
    · rw [hcells]
      rfl
    · rw [hcells]
      rfl

-- ================================================================ arenas

/-- All memories are swept, and no entity is another than it was. -/
structure Swept (alive : Handle → Bool) (a a' : Arena) : Prop where
  length : a'.slots.length = a.slots.length
  slot : ∀ {i : Nat} {slot : Slot}, a.slots[i]? = some slot →
    ∃ slot', a'.slots[i]? = some slot' ∧ slot.Swept alive slot'

/-- What is done to the cells of each slot is done to all cells. -/
theorem cells_of_slots {f : Option Value → Option Value}
    (hlength : a'.slots.length = a.slots.length)
    (hslots : ∀ {i : Nat} {slot : Slot}, a.slots[i]? = some slot →
      ∃ slot' : Slot, a'.slots[i]? = some slot' ∧ slot'.cells = slot.cells.map f) :
    a'.cells = a.cells.map f := by
  have hcells : a'.slots.map Slot.cells = a.slots.map fun slot => slot.cells.map f := by
    refine List.ext_getElem? fun i => ?_
    rw [List.getElem?_map, List.getElem?_map]
    cases hslot : a.slots[i]? with
    | none =>
        rw [List.getElem?_eq_none_iff, ← hlength, ← List.getElem?_eq_none_iff] at hslot
        simp only [hslot, Option.map_none]
    | some slot =>
        obtain ⟨slot', hslot', hswept⟩ := hslots hslot
        rw [hslot', Option.map_some, Option.map_some, hswept]
  unfold cells
  rw [List.flatMap_def, hcells, List.map_flatMap, List.flatMap_def]

/-- The same entities have the same cells. -/
theorem SameEntities.cells (hs : SameEntities a a') : a'.cells = a.cells := by
  rw [← List.map_id a.cells]
  refine cells_of_slots hs.length fun {i slot} hslot => ?_
  obtain ⟨slot', hslot', hentity, -⟩ := hs.slot hslot
  exact ⟨slot', hslot', by rw [Slot.cells_of_entity hentity, List.map_id]⟩

/-- Slot by slot, so over all cells. -/
theorem Swept.cells (hs : Swept alive a a') : a'.cells = a.cells.map (Memory.emptied alive) := by
  refine cells_of_slots hs.length fun {i slot} hslot => ?_
  obtain ⟨slot', hslot', hswept⟩ := hs.slot hslot
  exact ⟨slot', hslot', hswept.cells⟩

/-- Usages may change before a sweep and after it. -/
theorem Swept.around (hbefore : SameEntities a a₁) (hs : Swept alive a₁ a₂)
    (hafter : SameEntities a₂ a') : Swept alive a a' := by
  refine ⟨hafter.length.trans (hs.length.trans hbefore.length), fun {i slot} hslot => ?_⟩
  obtain ⟨slot₁, hslot₁, hentity, hgen⟩ := hbefore.slot hslot
  obtain ⟨slot₂, hslot₂, hswept⟩ := hs.slot hslot₁
  obtain ⟨slot', hslot', hentity', hgen'⟩ := hafter.slot hslot₂
  refine ⟨slot', hslot', fun hnone => ?_, fun e he => ?_, ?_⟩
  · rw [hentity']
    exact hswept.gone (hentity.trans hnone)
  · obtain ⟨hsame, m, hm⟩ := hswept.entity e (hentity.trans he)
    refine ⟨?_, m, hentity'.trans hm⟩
    rw [hgen' (by simp [hm]), hsame, hgen (by simp [he])]
  · rw [Slot.cells_of_entity hentity', hswept.cells, Slot.cells_of_entity hentity]

/-- A sweep leaves alive who is alive, and no one else. -/
theorem Swept.isAlive (hs : Swept alive a a') : a'.isAlive = a.isAlive := by
  funext h
  rw [Bool.eq_iff_iff, isAlive_iff, isAlive_iff]
  constructor
  · rintro ⟨slot', e', hslot', he'⟩
    obtain ⟨hindex', hgen'⟩ := slot?_eq_some_iff.1 hslot'
    have hlt : h.index < a.slots.length := by
      rw [← hs.length]
      exact (List.getElem?_eq_some_iff.1 hindex').1
    have hindex : a.slots[h.index]? = some a.slots[h.index] := List.getElem?_eq_getElem hlt
    obtain ⟨other, hother, hswept⟩ := hs.slot hindex
    rw [hindex'] at hother
    cases hother
    cases hentity : a.slots[h.index].entity with
    | none =>
        rw [hswept.gone hentity] at he'
        cases he'
    | some e =>
        have hgen := (hswept.entity e hentity).1
        exact ⟨_, e, slot?_eq_some_iff.2 ⟨hindex, hgen.symm.trans hgen'⟩, hentity⟩
  · rintro ⟨slot, e, hslot, he⟩
    obtain ⟨hindex, hgen⟩ := slot?_eq_some_iff.1 hslot
    obtain ⟨slot', hslot', hswept⟩ := hs.slot hindex
    obtain ⟨hsame, m, hm⟩ := hswept.entity e he
    exact ⟨slot', _, slot?_eq_some_iff.2 ⟨hslot', hsame.trans hgen⟩, hm⟩

/-- All slots are swept by who was alive at the start, and the values that
were removed are released after that. -/
theorem sweepMemory_swept (a : Arena) :
    a.Swept a.isAlive a.sweepMemory.2
      ∧ a.sweepMemory.1 = a.cells.countP (Memory.isDead a.isAlive) := by
  constructor
  · refine .around (.refl a) ⟨?_, fun {i slot} hslot => ?_⟩ (.releaseAll _)
    · simp
    · exact ⟨(sweepSlot a.isAlive slot).2, by simp [hslot], (sweepSlot_swept a.isAlive slot).1⟩
  · show ((a.slots.map (sweepSlot a.isAlive)).flatMap Prod.fst).length = _
    unfold Arena.cells
    rw [List.length_flatMap, List.countP_flatMap, List.map_map]
    refine congrArg List.sum (List.map_congr_left fun slot _ => ?_)
    exact (sweepSlot_swept a.isAlive slot).2

end Arena

end TickScript
