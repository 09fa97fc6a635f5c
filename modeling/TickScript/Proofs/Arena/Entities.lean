/-
Usages come and go; entities stay.

Retaining and releasing handles changes how often slots are used, and may
recycle slots that have no entity. Neither touches an entity, and a slot
that has one keeps its generation (`Arena.SameEntities`). So whatever is
looked up by a handle or a number is found as before: who is alive does not
depend on how often anything is used.
-/
import TickScript.Proofs.Arena.Handles

namespace TickScript.Arena

variable {a a' a'' : Arena} {h : Handle} {slot slot' : Slot} {i : Nat}

/-- Nothing is put into a memory that is gone. -/
theorem setMemory_of_dead (hdead : a.entity? h = none) (m : Memory) : a.setMemory h m = a := by
  unfold setMemory modifyEntity
  cases hslot : a.slot? h with
  | none => exact modify_eq_self _ hslot
  | some slot =>
      have hentity : slot.entity = none := by
        unfold entity? at hdead
        rw [hslot] at hdead
        exact hdead
      obtain ⟨hlt, hget⟩ := List.getElem?_eq_some_iff.1 (slot?_eq_some_iff.1 hslot).1
      have hsame : { slot with entity := slot.entity.map fun e => e.withMemory m } = slot := by
        rw [hentity, Option.map_none, ← hentity]
      rw [modify_eq _ hslot, hsame, ← hget, List.set_getElem_self]

/-- Each slot has the entity it had, and the same generation while it has
one. -/
structure SameEntities (a a' : Arena) : Prop where
  length : a'.slots.length = a.slots.length
  slot : ∀ {i : Nat} {slot : Slot}, a.slots[i]? = some slot → ∃ slot' : Slot,
    a'.slots[i]? = some slot' ∧ slot'.entity = slot.entity
      ∧ (slot.entity ≠ none → slot'.generation = slot.generation)

namespace SameEntities

theorem refl (a : Arena) : SameEntities a a := ⟨rfl, fun {_ slot} h => ⟨slot, h, rfl, fun _ => rfl⟩⟩

theorem trans (h : SameEntities a a') (h' : SameEntities a' a'') : SameEntities a a'' := by
  refine ⟨h'.length.trans h.length, fun {i slot} hslot => ?_⟩
  obtain ⟨slot', hslot', hentity, hgen⟩ := h.slot hslot
  obtain ⟨slot'', hslot'', hentity', hgen'⟩ := h'.slot hslot'
  refine ⟨slot'', hslot'', hentity'.trans hentity, fun he => ?_⟩
  exact (hgen' (hentity ▸ he)).trans (hgen he)

/-- One slot changes. -/
theorem set {free : List Nat} (hslot : a.slots[i]? = some slot)
    (hentity : slot'.entity = slot.entity)
    (hgen : slot.entity ≠ none → slot'.generation = slot.generation) :
    SameEntities a ⟨a.slots.set i slot', free⟩ := by
  have hlt : i < a.slots.length := (List.getElem?_eq_some_iff.1 hslot).1
  refine ⟨List.length_set, fun {j other} hother => ?_⟩
  by_cases hj : i = j
  · subst hj
    rw [hslot] at hother
    cases hother
    exact ⟨slot', List.getElem?_set_self hlt, hentity, hgen⟩
  · refine ⟨other, ?_, rfl, fun _ => rfl⟩
    show (a.slots.set i slot')[j]? = some other
    rw [List.getElem?_set_ne hj]
    exact hother

/-- A slot may change in its usages. -/
theorem modify {f : Slot → Slot} (hentity : ∀ slot, (f slot).entity = slot.entity)
    (hgen : ∀ slot, (f slot).generation = slot.generation) : SameEntities a (a.modify h f) := by
  cases hslot : a.slot? h with
  | none =>
      rw [modify_eq_self f hslot]
      exact .refl a
  | some slot =>
      rw [modify_eq f hslot]
      exact .set (slot?_eq_some_iff.1 hslot).1 (hentity slot) fun _ => hgen slot

/-- Only a slot without an entity moves on to its next generation. -/
theorem recycle (i : Nat) : SameEntities a (a.recycle i) := by
  unfold Arena.recycle
  split
  next slot hslot =>
    split
    next hunused =>
      refine .set hslot rfl fun he => ?_
      exact absurd (Option.isNone_iff_eq_none.1 hunused.1) he
    next => exact .refl a
  next => exact .refl a

/-- A usage that is dropped may leave a slot to be recycled. -/
theorem release (h : Handle) : SameEntities a (a.release h) := by
  unfold Arena.release
  split
  next =>
    have hdrop : SameEntities a
        (a.modify h fun slot => { slot with usings := slot.usings - 1 }) :=
      .modify (fun _ => rfl) fun _ => rfl
    exact hdrop.trans (recycle h.index)
  next => exact .refl a

theorem retainValue (v : Value) : SameEntities a (a.retainValue v) := by
  cases v with
  | entity h => exact modify (fun _ => rfl) fun _ => rfl
  | _ => exact .refl a

/-- What holds no handle takes no usage. -/
theorem releaseValue (v : Value) : SameEntities a (a.releaseValue v) := by
  cases v with
  | entity h => exact release h
  | _ => exact .refl a

theorem releaseAll (vs : List Value) : ∀ {a : Arena}, SameEntities a (a.releaseAll vs) := by
  induction vs with
  | nil => exact fun {a} => .refl a
  | cons v vs ih => exact (releaseValue v).trans ih

/-- Storing one value in place of another moves usages only. -/
theorem exchange (v : Value) (old : Option Value) : SameEntities a (a.exchange v old) :=
  (retainValue v).trans (releaseAll old.toList)

-- ================================================================ lookup

/-- The slot as it was before. -/
theorem before (hs : SameEntities a a') (hslot' : a'.slots[i]? = some slot') :
    ∃ slot, a.slots[i]? = some slot ∧ slot'.entity = slot.entity
      ∧ (slot.entity ≠ none → slot'.generation = slot.generation) := by
  have hlt : i < a.slots.length := by
    rw [← hs.length]
    exact (List.getElem?_eq_some_iff.1 hslot').1
  have hslot : a.slots[i]? = some a.slots[i] := List.getElem?_eq_getElem hlt
  obtain ⟨other, hother, hsame⟩ := hs.slot hslot
  rw [hslot'] at hother
  cases hother
  exact ⟨a.slots[i], hslot, hsame⟩

/-- A handle finds what it found before, by the generation of the slot that it
is in. -/
theorem entity? (hs : SameEntities a a') (h : Handle) : a'.entity? h = a.entity? h := by
  refine Option.ext fun e => ?_
  rw [entity?_eq_some_iff, entity?_eq_some_iff]
  constructor
  · rintro ⟨slot', hslot', hgen, he⟩
    obtain ⟨slot, hslot, hentity, hgen'⟩ := hs.before hslot'
    rw [hentity] at he
    exact ⟨slot, hslot, (hgen' (by simp [he])).symm.trans hgen, he⟩
  · rintro ⟨slot, hslot, hgen, he⟩
    obtain ⟨slot', hslot', hentity, hgen'⟩ := hs.slot hslot
    exact ⟨slot', hslot', (hgen' (by simp [he])).trans hgen, hentity.trans he⟩

/-- Who exists does not change. -/
theorem isAlive (hs : SameEntities a a') : a'.isAlive = a.isAlive := by
  funext h
  unfold Arena.isAlive
  rw [hs.entity? h]

/-- Which handle a number stands for does not change. -/
theorem resolve (hs : SameEntities a a') : a'.resolve = a.resolve := by
  funext i
  refine Option.ext fun g => ?_
  rw [resolve_eq_some_iff, resolve_eq_some_iff]
  constructor
  · rintro ⟨slot', e, hslot', he, rfl⟩
    obtain ⟨slot, hslot, hentity, hgen⟩ := hs.before hslot'
    rw [hentity] at he
    rw [hgen (by simp [he])]
    exact ⟨slot, e, hslot, he, rfl⟩
  · rintro ⟨slot, e, hslot, he, rfl⟩
    obtain ⟨slot', hslot', hentity, hgen⟩ := hs.slot hslot
    rw [← hgen (by simp [he])]
    exact ⟨slot', e, hslot', hentity.trans he, rfl⟩

/-- Neither arena comes first: a slot without an entity is left open on both
sides. -/
theorem symm (hs : SameEntities a a') : SameEntities a' a := by
  refine ⟨hs.length.symm, fun {i slot'} hslot' => ?_⟩
  obtain ⟨slot, hslot, hentity, hgen⟩ := hs.before hslot'
  exact ⟨slot, hslot, hentity.symm, fun he => (hgen (hentity ▸ he)).symm⟩

-- ============================================================== memories

/-- One slot gets the same entity in both. -/
theorem both {b : Arena} {free free' : List Nat} (hs : SameEntities a b)
    (hentity : slot'.entity = slot.entity) (hgen : slot'.generation = slot.generation) :
    SameEntities ⟨a.slots.set i slot, free⟩ ⟨b.slots.set i slot', free'⟩ := by
  have hlength : (b.slots.set i slot').length = (a.slots.set i slot).length := by
    rw [List.length_set, List.length_set, hs.length]
  refine ⟨hlength, fun {j other} hother => ?_⟩
  change (a.slots.set i slot)[j]? = some other at hother
  by_cases hj : i = j
  · subst hj
    have hlt : i < a.slots.length := by
      rw [← List.length_set]
      exact (List.getElem?_eq_some_iff.1 hother).1
    rw [List.getElem?_set_self hlt] at hother
    cases hother
    exact ⟨slot', List.getElem?_set_self (hs.length.symm ▸ hlt), hentity, fun _ => hgen⟩
  · rw [List.getElem?_set_ne hj] at hother
    obtain ⟨other', hother', hsame⟩ := hs.slot hother
    refine ⟨other', ?_, hsame⟩
    show (b.slots.set i slot')[j]? = some other'
    rw [List.getElem?_set_ne hj]
    exact hother'

/-- The memory of an entity is replaced in both. -/
theorem setMemory {b : Arena} (hs : SameEntities a b) (h : Handle) (m : Memory) :
    SameEntities (a.setMemory h m) (b.setMemory h m) := by
  cases he : a.entity? h with
  | none =>
      rw [setMemory_of_dead he, setMemory_of_dead ((hs.entity? h).trans he)]
      exact hs
  | some e =>
      obtain ⟨slot, hslot, hgen, hentity⟩ := entity?_eq_some_iff.1 he
      obtain ⟨slot', hslot', hgen', hentity'⟩ := entity?_eq_some_iff.1 ((hs.entity? h).trans he)
      unfold Arena.setMemory modifyEntity
      rw [modify_eq _ (slot?_eq_some_iff.2 ⟨hslot, hgen⟩),
        modify_eq _ (slot?_eq_some_iff.2 ⟨hslot', hgen'⟩)]
      refine hs.both ?_ (hgen'.trans hgen.symm)
      show slot'.entity.map _ = slot.entity.map _
      rw [hentity, hentity']

end SameEntities

end TickScript.Arena
