/-
Arenas with some memories veiled.

`a.veil hidden` is the arena with nothing in the memories of the slots that
are hidden. All else is as it was, so whatever does not look into a hidden
memory finds the same there (`isAlive_veil`, `resolve_veil`,
`components_veil`, and `memory?_veil` for the memories in sight). Changes
that are not made to a hidden memory can be made before or after the veil
is drawn: to usages, to any slot, and to a memory in sight. So drawing the
veil is a likeness, and it shows what is in sight.
-/
import TickScript.Proofs.Arena.Likeness

namespace TickScript

/-- The entity, with nothing in its memory if that is hidden. -/
def Entity.veil (hidden : Bool) (e : Entity) : Entity :=
  if hidden then e.withMemory (.empty 0) else e

def Slot.veil (hidden : Bool) (slot : Slot) : Slot :=
  { slot with entity := slot.entity.map (Entity.veil hidden) }

/-- The arena with nothing in the memories of hidden slots. -/
def Arena.veil (a : Arena) (hidden : Nat → Bool) : Arena :=
  { a with slots := a.slots.mapIdx fun i slot => slot.veil (hidden i) }

-- ============================================================== entities

namespace Entity

variable (e : Entity) (b : Bool)

/-- Other memory makes no difference to what an entity is. -/
theorem withMemory_spec (m : Memory) :
    (e.withMemory m).group = e.group ∧ (e.withMemory m).kind = e.kind
      ∧ (e.withMemory m).typeName = e.typeName ∧ (e.withMemory m).components = e.components := by
  obtain ⟨group, role⟩ := e
  cases role with
  | part components => exact ⟨rfl, rfl, rfl, rfl⟩
  | component typeName parent memory => cases memory <;> exact ⟨rfl, rfl, rfl, rfl⟩

/-- Of two memories put in, the second stays. -/
theorem withMemory_withMemory (m m' : Memory) :
    (e.withMemory m).withMemory m' = e.withMemory m' := by
  obtain ⟨group, role⟩ := e
  cases role with
  | part components => rfl
  | component typeName parent memory => cases memory <;> rfl

/-- The veil is drawn over memories alone. -/
theorem veil_spec : (e.veil b).group = e.group ∧ (e.veil b).kind = e.kind
    ∧ (e.veil b).typeName = e.typeName ∧ (e.veil b).components = e.components := by
  unfold veil
  split
  · exact e.withMemory_spec _
  · exact ⟨rfl, rfl, rfl, rfl⟩

@[simp] theorem group_veil : (e.veil b).group = e.group := (e.veil_spec b).1

@[simp] theorem kind_veil : (e.veil b).kind = e.kind := (e.veil_spec b).2.1

/-- Nor is its type, whose methods it answers to. -/
@[simp] theorem typeName_veil : (e.veil b).typeName = e.typeName := (e.veil_spec b).2.2.1

/-- The components of a part are found through the veil, since only their
types are asked for. -/
@[simp] theorem components_veil : (e.veil b).components = e.components := (e.veil_spec b).2.2.2

/-- What is in sight is as it is. -/
theorem veil_false : veil false = id := rfl

end Entity

theorem Slot.veil_false : Slot.veil false = id := by
  funext slot
  show { slot with entity := slot.entity.map id } = slot
  rw [Option.map_id, id]

namespace Arena

variable {a : Arena} {hidden : Nat → Bool} {h : Handle}

-- ================================================================ lookup

/-- The veil lies on each slot by itself. -/
theorem getElem?_veil (i : Nat) :
    (a.veil hidden).slots[i]? = (a.slots[i]?).map (Slot.veil (hidden i)) :=
  List.getElem?_mapIdx

/-- Generations are in sight, so a handle finds its slot or not as before. -/
theorem slot?_veil : (a.veil hidden).slot? h = (a.slot? h).map (Slot.veil (hidden h.index)) := by
  unfold slot?
  rw [getElem?_veil]
  cases a.slots[h.index]? with
  | none => rfl
  | some slot =>
      show (some (slot.veil (hidden h.index))).filter (fun s => s.generation == h.generation) = _
      rw [Option.filter_some, Option.filter_some]
      show (if slot.generation == h.generation then _ else _) = _
      split <;> rfl

/-- A handle refers to the same entity, with its memory hidden or not. -/
theorem entity?_veil :
    (a.veil hidden).entity? h = (a.entity? h).map (Entity.veil (hidden h.index)) := by
  unfold entity?
  rw [slot?_veil]
  cases a.slot? h <;> rfl

/-- Whether an entity exists is never hidden. -/
theorem isAlive_veil : (a.veil hidden).isAlive = a.isAlive := by
  funext g
  unfold isAlive
  rw [entity?_veil]
  exact Option.isSome_map

/-- Nor is the group it is in. -/
theorem group?_veil : (a.veil hidden).group? h = a.group? h := by
  unfold group?
  rw [entity?_veil]
  cases a.entity? h <;> simp

theorem typeName_veil :
    ((a.veil hidden).entity? h).map Entity.typeName = (a.entity? h).map Entity.typeName := by
  rw [entity?_veil]
  cases a.entity? h <;> simp

/-- A number from a script is taken for the same handle. -/
theorem resolve_veil : (a.veil hidden).resolve = a.resolve := by
  funext i
  unfold resolve
  rw [getElem?_veil]
  cases a.slots[i]? with
  | none => rfl
  | some slot =>
      show (do let entity ← slot.entity.map (Entity.veil (hidden i))
               some (⟨i, slot.generation, entity.kind⟩ : Handle)) = _
      cases hentity : slot.entity <;> simp [hentity]

theorem components_veil (typeName : String) :
    (a.veil hidden).components h typeName = a.components h typeName := by
  unfold components
  simp only [typeName_veil]
  rw [entity?_veil]
  cases a.entity? h <;> simp

/-- A memory in sight is as it is. -/
theorem memory?_veil (hsight : hidden h.index = false) :
    (a.veil hidden).memory? h = a.memory? h := by
  unfold memory?
  rw [entity?_veil, hsight, Entity.veil_false, Option.map_id, id]

-- =============================================================== changes

/-- Putting something into a slot and drawing the veil may change places. -/
theorem veil_set (i : Nat) (slot : Slot) (free : List Nat) :
    (⟨a.slots.set i slot, free⟩ : Arena).veil hidden
      = ⟨(a.veil hidden).slots.set i (slot.veil (hidden i)), free⟩ := by
  have hslots : (a.slots.set i slot).mapIdx (fun i slot => slot.veil (hidden i))
      = (a.veil hidden).slots.set i (slot.veil (hidden i)) := by
    refine List.ext_getElem? fun j => ?_
    rw [List.getElem?_mapIdx, List.getElem?_set, List.getElem?_set, getElem?_veil]
    have hlength : (a.veil hidden).slots.length = a.slots.length := List.length_mapIdx
    rw [hlength]
    by_cases hij : i = j
    · subst hij
      by_cases hi : i < a.slots.length <;> simp [hi]
    · simp [hij]
  exact congrArg (fun slots => (⟨slots, free⟩ : Arena)) hslots

/-- A change to a slot that has nothing to do with what is hidden. -/
theorem modify_veil {f : Slot → Slot}
    (hf : ∀ slot : Slot, f (slot.veil (hidden h.index)) = (f slot).veil (hidden h.index)) :
    (a.veil hidden).modify h f = (a.modify h f).veil hidden := by
  unfold modify
  rw [slot?_veil]
  cases a.slot? h with
  | none => rfl
  | some slot =>
      simp only [Option.map_some]
      rw [hf]
      exact (veil_set h.index (f slot) a.free).symm

/-- Whether a slot is unused does not depend on what is hidden. -/
theorem recycle_veil (i : Nat) : (a.veil hidden).recycle i = (a.recycle i).veil hidden := by
  unfold recycle
  rw [getElem?_veil]
  cases a.slots[i]? with
  | none => rfl
  | some slot =>
      have hnone : (slot.veil (hidden i)).entity.isNone = slot.entity.isNone := Option.isNone_map
      simp only [Option.map_some]
      rw [hnone]
      show (if slot.entity.isNone ∧ slot.usings = 0 ∧ i ∉ a.free then _ else _) = _
      split
      · exact (veil_set i { slot with generation := slot.generation + 1 } (i :: a.free)).symm
      · rfl

/-- Usages go down, and slots are recycled, in the same way. -/
theorem release_veil : (a.veil hidden).release h = (a.release h).veil hidden := by
  unfold release
  rw [slot?_veil]
  cases a.slot? h with
  | none => rfl
  | some slot =>
      have hdrop : (a.veil hidden).modify h (fun slot => { slot with usings := slot.usings - 1 })
          = (a.modify h fun slot => { slot with usings := slot.usings - 1 }).veil hidden :=
        modify_veil fun _ => rfl
      simp only [Option.map_some]
      rw [hdrop, recycle_veil]

theorem retainValue_veil (v : Value) :
    (a.veil hidden).retainValue v = (a.retainValue v).veil hidden := by
  cases v with
  | entity g => exact modify_veil fun _ => rfl
  | _ => rfl

theorem releaseValue_veil (v : Value) :
    (a.veil hidden).releaseValue v = (a.releaseValue v).veil hidden := by
  cases v with
  | entity g => exact release_veil
  | _ => rfl

/-- Releasing and drawing the veil change places for each value in turn. -/
theorem releaseAll_veil (vs : List Value) :
    ∀ {a : Arena}, (a.veil hidden).releaseAll vs = (a.releaseAll vs).veil hidden := by
  induction vs with
  | nil => exact rfl
  | cons v vs ih =>
      intro a
      show ((a.veil hidden).releaseValue v).releaseAll vs = _
      rw [releaseValue_veil]
      exact ih

theorem exchange_veil (v : Value) (old : Option Value) :
    (a.veil hidden).exchange v old = (a.exchange v old).veil hidden := by
  unfold exchange
  rw [retainValue_veil, releaseAll_veil]

/-- What is put into a hidden memory is hidden. -/
theorem veil_setMemory (hhidden : hidden h.index = true) (m : Memory) :
    (a.setMemory h m).veil hidden = a.veil hidden := by
  have hblank : ∀ slot : Slot,
      Slot.veil true { slot with entity := slot.entity.map fun e => e.withMemory m }
        = slot.veil true := by
    intro slot
    have hentity : ∀ e : Entity, (e.withMemory m).veil true = e.veil true := fun e =>
      e.withMemory_withMemory m _
    simp [Slot.veil, Function.comp_def, hentity]
  cases hslot : a.slot? h with
  | none =>
      unfold setMemory modifyEntity
      rw [modify_eq_self _ hslot]
  | some slot =>
      have hindex : (a.veil hidden).slots[h.index]? = some (slot.veil true) := by
        rw [getElem?_veil, (slot?_eq_some_iff.1 hslot).1, hhidden, Option.map_some]
      unfold setMemory modifyEntity
      rw [modify_eq _ hslot]
      show (⟨a.slots.set h.index _, a.free⟩ : Arena).veil hidden = _
      rw [veil_set, hhidden, hblank]
      obtain ⟨hlt, hget⟩ := List.getElem?_eq_some_iff.1 hindex
      rw [← hget, List.set_getElem_self]
      rfl

/-- A write in sight is seen. -/
theorem setMemory_veil (hsight : hidden h.index = false) (m : Memory) :
    (a.veil hidden).setMemory h m = (a.setMemory h m).veil hidden := by
  refine modify_veil fun slot => ?_
  rw [hsight, Slot.veil_false]
  rfl

end Arena

-- ============================================================== likeness

/-- Arenas look the same behind the veil. -/
theorem Arena.veil_likeness (hidden : Nat → Bool) : Likeness fun a b => b = a.veil hidden where
  isAlive := by
    rintro a _ rfl
    exact isAlive_veil
  resolve := by
    rintro a _ rfl
    exact resolve_veil
  group? := by
    rintro a _ rfl h
    exact group?_veil
  typeName := by
    rintro a _ rfl h
    exact typeName_veil
  exchange := by
    rintro a _ rfl v old
    exact exchange_veil v old
  releaseAll := by
    rintro a _ rfl vs
    exact releaseAll_veil vs

/-- The veil shows what is in sight. -/
theorem Arena.veil_shows {hidden : Nat → Bool} {h : Handle} (hsight : hidden h.index = false) :
    Shows (fun a b => b = a.veil hidden) h where
  memory? := by
    rintro a _ rfl
    exact memory?_veil hsight
  setMemory := by
    rintro a _ rfl m
    exact setMemory_veil hsight m

/-- What is listed on a part is no matter of memories. -/
theorem Arena.veil_lists (hidden : Nat → Bool) (part : Handle) :
    Lists (fun a b => b = a.veil hidden) part := by
  rintro a _ rfl typeName
  exact components_veil typeName

end TickScript
