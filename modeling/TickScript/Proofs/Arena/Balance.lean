/-
The balance of usages between the arena and those outside it.

`Balanced a outside` counts two sorts of places together: those outside
the arena, whose handles are given, and the cells of memory components,
which the arena finds itself. Moving a value into or out of a memory
changes both the cells and the usages, and only the two changes together
keep the balance; so these come as one lemma each (`Balanced.fillMemory`,
`Balanced.emptyMemory`). What hosts do to entities keeps it outright.
-/
import TickScript.Proofs.Arena.Destroy
import TickScript.Proofs.Except

namespace TickScript

open List (Perm)

-- ================================================================ memory

namespace Memory

variable {m : Memory} {i : Nat}

/-- What a cell holds changes places with what it held. -/
theorem values_set (c : Option Value) (hi : i < m.cells.length) :
    Perm (m.cells[i]?.join.toList ++ { m with cells := m.cells.set i c }.values)
      (c.toList ++ m.values) := by
  have hperm := (cons_set_perm (y := c) (List.getElem?_eq_getElem hi)).filterMap fun cell => cell
  rw [List.getElem?_eq_getElem hi]
  cases hold : m.cells[i] <;> cases c <;> simpa [values, hold] using hperm

/-- A cell that is filled gives up what it held. -/
theorem values_fill (v : Value) (hi : i < m.cells.length) :
    Perm ((m.fill i v).1.toList ++ (m.fill i v).2.values) (v :: m.values) := by
  have hcells : (m.fill i v).2.values = { m with cells := m.cells.set i (some v) }.values := by
    simp only [fill]
    split <;> rfl
  rw [hcells]
  exact values_set (some v) hi

/-- A cell that is emptied gives up what it held. -/
theorem values_vacate : Perm ((m.vacate i).1.toList ++ (m.vacate i).2.values) m.values := by
  have hcells : (m.vacate i).2.values = { m with cells := m.cells.set i none }.values := by
    simp only [vacate]
    split <;> rfl
  rw [hcells]
  by_cases hi : i < m.cells.length
  · exact values_set none hi
  · have hnone : m.cells[i]? = none := List.getElem?_eq_none (by omega)
    have hset : m.cells.set i none = m.cells := List.set_eq_of_length_le (by omega)
    rw [hset]
    simp [vacate, hnone]

/-- What a sweep of some cells gives back has gone out of the memory. -/
theorem values_sweepAt (alive : Handle → Bool) (is : List Nat) :
    ∀ m : Memory, Perm ((sweepAt alive is m).1 ++ (sweepAt alive is m).2.values) m.values := by
  induction is with
  | nil => intro m; exact .refl _
  | cons i is ih =>
      intro m
      unfold sweepAt
      split
      next =>
        calc
          Perm _ ((m.vacate i).1.toList ++ ((sweepAt alive is (m.vacate i).2).1
              ++ (sweepAt alive is (m.vacate i).2).2.values)) := by
            rw [List.append_assoc]
          Perm _ ((m.vacate i).1.toList ++ (m.vacate i).2.values) :=
            (ih (m.vacate i).2).append_left _
          Perm _ m.values := values_vacate
      next => exact ih m

/-- A sweep gives back what it removes. -/
theorem values_sweep (alive : Handle → Bool) :
    Perm ((m.sweep alive).1 ++ (m.sweep alive).2.values) m.values :=
  values_sweepAt alive _ m

@[simp] theorem values_empty (size : Nat) : (empty size).values = [] := by
  simp [empty, values]

/-- An address that is taken names a cell. -/
theorem lt_of_index {addr : Int64} (h : m.index addr = .ok i) : i < m.cells.length := by
  unfold index at h
  split at h
  next hrange =>
    cases h
    unfold size at hrange
    omega
  next => cases h

/-- Storing a value displaces what the cell held. -/
theorem values_of_set {addr : Int64} {v : Value} {old : Option Value} {m' : Memory}
    (h : m.set addr v = .ok (old, m')) : Perm (old.toList ++ m'.values) (v :: m.values) := by
  obtain ⟨i, hindex, h⟩ := bind_eq_ok.1 h
  cases h
  exact values_fill v (lt_of_index hindex)

/-- Clearing a cell gives back what it held. -/
theorem values_of_clear {addr : Int64} {old : Option Value} {m' : Memory}
    (h : m.clear addr = .ok (old, m')) : Perm (old.toList ++ m'.values) m.values := by
  obtain ⟨i, hindex, h⟩ := bind_eq_ok.1 h
  cases h
  exact values_vacate

end Memory

-- ================================================================ arenas

/-- The usages are right for the handles outside the arena and those in
the memories of its living components. -/
def Balanced (a : Arena) (outside : List Handle) : Prop := Tally a (outside ++ a.stored)

namespace Balanced

open Arena

variable {a : Arena} {h : Handle} {outside outside' : List Handle}

theorem empty : Balanced .empty [] where
  usings hslot := by simp [Arena.empty] at hslot
  current hmem := by simp [Arena.empty, stored] at hmem
  reusable hmem := by simp [Arena.empty] at hmem
  distinct := List.nodup_nil

theorem perm (hb : Balanced a outside) (hperm : Perm outside outside') : Balanced a outside' :=
  Tally.perm hb (hperm.append_right _)

/-- A slot that is recycled holds nothing. -/
theorem recycle (hb : Balanced a outside) (i : Nat) : Balanced (a.recycle i) outside := by
  unfold Balanced
  rw [stored_recycle]
  exact Tally.recycle hb i

/-- Places outside give their values up. -/
theorem releaseAll {vs : List Value} (hb : Balanced a (handlesOf vs ++ outside)) :
    Balanced (a.releaseAll vs) outside := by
  unfold Balanced at hb ⊢
  rw [stored_releaseAll]
  rw [List.append_assoc] at hb
  exact hb.releaseAll

/-- A place outside takes a value and gives up what it held. -/
theorem exchange {v : Value} {old : Option Value} (hb : Balanced a outside)
    (halive : ∀ h, v = .entity h → a.isAlive h)
    (hperm : Perm (v.handle?.toList ++ outside) (handlesOf old.toList ++ outside')) :
    Balanced (a.exchange v old) outside' := by
  unfold Balanced at hb ⊢
  rw [stored_exchange]
  refine hb.exchange halive ?_
  rw [← List.append_assoc, ← List.append_assoc]
  exact hperm.append_right _

-- -------------------------------------------------------------- entities

/-- An entity may change in all but its values. -/
theorem modifyEntity {f : Entity → Entity} (hb : Balanced a outside)
    (hf : ∀ e, (f e).values = e.values) : Balanced (a.modifyEntity h f) outside := by
  have hstored : (a.modifyEntity h f).stored = a.stored := by
    refine stored_modify fun slot => ?_
    unfold Slot.stored
    cases slot.entity with
    | none => rfl
    | some e => exact congrArg handlesOf (hf e)
  unfold Balanced
  rw [hstored]
  refine Tally.modify_entity hb (fun _ => rfl) (fun _ => rfl) fun slot hnone => ?_
  simp only [hnone, Option.map_none]

/-- A new entity has nothing in its memory, and its slot no usages. -/
theorem insert {e : Entity} (hb : Balanced a outside) (he : e.values = []) :
    Balanced (a.insert e).2 outside := by
  have ht : Tally a (outside ++ a.stored) := hb
  unfold Arena.insert
  split
  next hfree =>
    have hstored : (⟨a.slots ++ [⟨0, 0, some e⟩], a.free⟩ : Arena).stored = a.stored := by
      simp [stored, Slot.stored, he]
    unfold Balanced
    rw [hstored]
    exact ht.append rfl
  next i free hfree =>
    obtain ⟨old, hold, hnone, hzero⟩ := ht.reusable (hfree ▸ List.mem_cons_self)
    have hdistinct := ht.distinct
    rw [hfree, List.nodup_cons] at hdistinct
    have hempty : Slot.stored ⟨old.generation, 0, some e⟩ = old.stored := by
      simp [Slot.stored, he, hnone]
    simp only [hold]
    unfold Balanced
    rw [stored_set_same hold hempty]
    refine ht.set hold ?_ (fun _ _ => rfl) (fun g hg hgi => ?_) (fun g hg _ => hg)
      (fun hi => absurd hi hdistinct.1) (fun j hj _ => ?_) hdistinct.2
    · rw [← ht.usings hold, hzero]
    · show old.generation = g.generation
      exact ht.generation_eq hold hg hgi
    · exact hfree ▸ List.mem_cons_of_mem i hj

theorem spawn (hb : Balanced a outside) (group : Nat) : Balanced (a.spawn group).2 outside :=
  hb.insert rfl

/-- A component comes with nothing in its memory. -/
theorem attach {part : Handle} {typeName : String} {memory : Option Memory} {a' : Arena}
    (hb : Balanced a outside) (hmemory : ∀ m, memory = some m → m.values = [])
    (hattach : a.attach part typeName memory = .ok (h, a')) : Balanced a' outside := by
  unfold Arena.attach at hattach
  split at hattach
  next group components hpart =>
    cases hattach
    have hvalues : Entity.values ⟨group, .component typeName part memory⟩ = [] := by
      cases memory with
      | none => rfl
      | some m => exact hmemory m rfl
    refine (hb.insert hvalues).modifyEntity fun e => ?_
    split
    next hrole => simp [Entity.values, Entity.memory?, hrole]
    next => rfl
  next => cases hattach

-- ----------------------------------------------------------- destruction

/-- The handles in the memory of an entity that is taken out are no
longer stored, and still counted. -/
theorem take {e : Entity} {a' : Arena} (hb : Balanced a outside)
    (htake : a.take h = some (e, a')) : Balanced a' (handlesOf e.values ++ outside) := by
  obtain ⟨e', he, heq⟩ := Option.map_eq_some_iff.1 htake
  cases heq
  obtain ⟨slot, hslot, hentity⟩ := Option.bind_eq_some_iff.1 he
  have hindex := (slot?_eq_some_iff.1 hslot).1
  have htally : Tally (a.modify h fun slot => { slot with entity := none })
      (outside ++ a.stored) :=
    Tally.modify_entity hb (fun _ => rfl) (fun _ => rfl) fun _ _ => rfl
  refine htally.perm ?_
  rw [modify_eq _ hslot]
  have hperm := stored_set { slot with entity := none } hindex
  have hold : slot.stored = handlesOf e.values := by simp [Slot.stored, hentity]
  have hnew : Slot.stored { slot with entity := none } = [] := rfl
  rw [hold, hnew, List.nil_append] at hperm
  calc
    Perm (outside ++ a.stored) (outside ++ (handlesOf e.values ++ _)) :=
      (hperm.symm).append_left _
    Perm _ _ := List.perm_append_comm_assoc ..
    Perm _ _ := by rw [List.append_assoc]

/-- A memory may hold a handle to itself or to its own part: what it held
is released before the slots are looked at. -/
theorem destroy (hb : Balanced a outside) (h : Handle) : Balanced (a.destroy h) outside :=
  destroy_invariant (ι := List Handle) (P := fun outside a => Balanced a outside)
    (fun outside _ _ _ _ hb htake => ⟨outside, (hb.take htake).releaseAll, fun _ hb => hb.recycle _⟩)
    hb h

-- --------------------------------------------------------------- memories

/-- What the old memory held goes, and what the new one holds comes. -/
theorem stored_setMemory {m : Memory} (m' : Memory) (hm : a.memory? h = some m) :
    Perm (handlesOf m.values ++ (a.setMemory h m').stored)
      (handlesOf m'.values ++ a.stored) := by
  obtain ⟨e, he, hmem⟩ := Option.bind_eq_some_iff.1 hm
  obtain ⟨slot, hslot, hentity⟩ := Option.bind_eq_some_iff.1 he
  have hindex := (slot?_eq_some_iff.1 hslot).1
  have hold : slot.stored = handlesOf m.values := by
    simp [Slot.stored, hentity, Entity.values, hmem]
  have hnew : Slot.stored { slot with entity := slot.entity.map fun e => e.withMemory m' }
      = handlesOf m'.values := by
    obtain ⟨group, role⟩ := e
    cases role with
    | part components => cases hmem
    | component typeName parent memory =>
        cases hmem
        simp [Slot.stored, hentity, Entity.values, Entity.withMemory, Entity.memory?]
  unfold Arena.setMemory Arena.modifyEntity
  rw [modify_eq _ hslot, ← hold, ← hnew]
  exact stored_set _ hindex

/-- What comes in and goes out of a memory comes in and goes out of what
is stored. -/
theorem stored_refill {m m' : Memory} {into out : List Value} (hm : a.memory? h = some m)
    (hperm : Perm (out ++ m'.values) (into ++ m.values)) :
    Perm (handlesOf into ++ (outside ++ a.stored))
      (handlesOf out ++ (outside ++ (a.setMemory h m').stored)) := by
  have hcells := handlesOf_perm hperm
  have hstored := stored_setMemory m' hm
  rw [List.perm_iff_count] at hcells hstored ⊢
  intro g
  have hcells := hcells g
  have hstored := hstored g
  simp only [handlesOf_append, List.count_append] at hcells hstored ⊢
  omega

theorem isAlive_setMemory (m : Memory) (g : Handle) :
    (a.setMemory h m).isAlive g = a.isAlive g := by
  unfold Arena.setMemory Arena.modifyEntity
  apply isAlive_modify
  · intro slot
    rfl
  · intro slot
    exact Option.isSome_map

/-- Whether counts are right for some handles does not depend on what is in a
memory. -/
theorem tally_setMemory {hs : List Handle} (m : Memory) (ht : Tally a hs) :
    Tally (a.setMemory h m) hs :=
  ht.modify_entity (fun _ => rfl) (fun _ => rfl) fun _ hnone => by simp only [hnone, Option.map_none]

/-- A cell of a component's memory takes a value and gives up what it
held. -/
theorem fillMemory {m m' : Memory} {v : Value} {old : Option Value} (hb : Balanced a outside)
    (hm : a.memory? h = some m) (halive : ∀ g, v = .entity g → a.isAlive g)
    (hperm : Perm (old.toList ++ m'.values) (v :: m.values)) :
    Balanced ((a.setMemory h m').exchange v old) outside := by
  unfold Balanced
  rw [stored_exchange]
  refine (tally_setMemory m' hb).exchange (fun g hg => ?_) ?_
  · rw [isAlive_setMemory]
    exact halive g hg
  · have hrefill : Perm (handlesOf [v] ++ (outside ++ a.stored)) _ := stored_refill hm hperm
    rw [handlesOf_cons, handlesOf_nil, List.append_nil] at hrefill
    exact hrefill

/-- A cell of a component's memory gives up what it held. -/
theorem emptyMemory {m m' : Memory} {old : Option Value} (hb : Balanced a outside)
    (hm : a.memory? h = some m) (hperm : Perm (old.toList ++ m'.values) m.values) :
    Balanced ((a.setMemory h m').releaseAll old.toList) outside := by
  unfold Balanced
  rw [stored_releaseAll]
  have hrefill : Perm (handlesOf [] ++ (outside ++ a.stored)) _ := stored_refill hm hperm
  exact ((tally_setMemory m' hb).perm hrefill).releaseAll

-- ----------------------------------------------------------------- sweeps

/-- What a sweep of a slot gives back was stored there. -/
theorem stored_sweepSlot (alive : Handle → Bool) (slot : Slot) :
    Perm (handlesOf (sweepSlot alive slot).1 ++ (sweepSlot alive slot).2.stored) slot.stored := by
  unfold sweepSlot
  split
  next e hentity =>
    split
    next m hm =>
      have hold : slot.stored = handlesOf m.values := by
        simp [Slot.stored, hentity, Entity.values, hm]
      have hnew : handlesOf (e.withMemory (m.sweep alive).2).values
          = handlesOf (m.sweep alive).2.values := by
        obtain ⟨group, role⟩ := e
        cases role with
        | part components => cases hm
        | component typeName parent memory =>
            cases hm
            rfl
      show Perm (handlesOf (m.sweep alive).1
        ++ handlesOf (e.withMemory (m.sweep alive).2).values) _
      rw [hnew, hold, ← handlesOf_append]
      exact handlesOf_perm (Memory.values_sweep alive)
    next => exact .refl _
  next => exact .refl _

/-- So what a sweep of all slots gives back was stored in them. -/
theorem stored_sweepSlots (alive : Handle → Bool) (slots : List Slot) :
    Perm (handlesOf ((slots.map (sweepSlot alive)).flatMap Prod.fst)
        ++ (slots.map fun slot => (sweepSlot alive slot).2).flatMap Slot.stored)
      (slots.flatMap Slot.stored) := by
  induction slots with
  | nil => exact .refl _
  | cons slot slots ih =>
      have hslot := stored_sweepSlot alive slot
      rw [List.perm_iff_count] at ih hslot ⊢
      intro g
      have ih := ih g
      have hslot := hslot g
      simp only [List.map_cons, List.flatMap_cons, handlesOf_append, List.count_append]
        at ih hslot ⊢
      omega

/-- What is swept out of all memories is released. -/
theorem sweepMemory (hb : Balanced a outside) : Balanced a.sweepMemory.2 outside := by
  have htally : Tally ⟨a.slots.map fun slot => (sweepSlot a.isAlive slot).2, a.free⟩
      (outside ++ a.stored) := by
    refine Tally.map hb (fun slot => ?_) (fun slot => ?_) fun slot hnone => ?_
    · unfold sweepSlot
      split
      next => split <;> rfl
      next => rfl
    · unfold sweepSlot
      split
      next => split <;> rfl
      next => rfl
    · simp only [sweepSlot, hnone]
  have hperm := stored_sweepSlots a.isAlive a.slots
  unfold Arena.sweepMemory Balanced
  simp only [List.map_map, Function.comp_def]
  rw [stored_releaseAll]
  refine (htally.perm ?_).releaseAll
  rw [List.perm_iff_count] at hperm ⊢
  intro g
  have hperm := hperm g
  simp only [List.count_append, stored] at hperm ⊢
  omega

end Balanced

end TickScript
