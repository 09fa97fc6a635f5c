/-
No slot is lost.

A slot that has neither an entity nor usages is in the list of those to be
reused (`Arena.Listed`). This is the half of `Arena.Orderly` that says which
slots are listed, not that those in the list are unused. By itself it is
kept by every change of an arena, whatever handle is retained or released,
stale ones included: a slot loses its entity or its last usage only in an
operation that goes on to recycle it.

What processors do to an arena are three such changes, made in turn
(`Arena.Work`).
-/
import TickScript.Proofs.Arena.Slots

namespace TickScript.Arena

variable {a a' a'' : Arena} {h : Handle} {slot slot' : Slot} {i : Nat} {pending : List Nat}

/-- Slots that are unused are to be reused, but for some that are still to
be looked at. -/
def Listed (a : Arena) (pending : List Nat) : Prop :=
  ∀ i slot, a.slots[i]? = some slot → slot.Unused → i ∈ a.free ∨ i ∈ pending

namespace Listed

/-- An arena without slots has none to lose. -/
theorem empty : Listed .empty [] := fun _ _ hslot => by cases hslot

/-- One slot changes; it is unused after that only if it is listed. -/
theorem set {free pending' : List Nat} (hl : Listed a pending)
    (hnew : slot'.Unused → i ∈ free ∨ i ∈ pending')
    (hothers : ∀ j, j ≠ i → j ∈ a.free ∨ j ∈ pending → j ∈ free ∨ j ∈ pending') :
    Listed ⟨a.slots.set i slot', free⟩ pending' := by
  intro j other hother hunused
  change (a.slots.set i slot')[j]? = some other at hother
  by_cases hji : j = i
  · subst hji
    obtain ⟨hlt, hget⟩ := List.getElem?_eq_some_iff.1 hother
    rw [List.getElem_set_self] at hget
    exact hnew (hget ▸ hunused)
  · rw [List.getElem?_set_ne (Ne.symm hji)] at hother
    exact hothers j hji (hl j other hother hunused)

/-- A change of one slot after which it is still to be looked at. -/
theorem modify (hl : Listed a pending) (f : Slot → Slot) :
    Listed (a.modify h f) (h.index :: pending) := by
  have hmore : ∀ {j}, j ∈ a.free ∨ j ∈ pending → j ∈ a.free ∨ j ∈ h.index :: pending := fun hj =>
    hj.imp_right fun hmem => List.mem_cons_of_mem _ hmem
  cases hslot : a.slot? h with
  | none =>
      rw [modify_eq_self f hslot]
      exact fun j other hother hunused => hmore (hl j other hother hunused)
  | some slot =>
      rw [modify_eq f hslot]
      exact hl.set (fun _ => .inr List.mem_cons_self) fun j _ hj => hmore hj

/-- A change that does not make a slot unused. -/
theorem modify_same {f : Slot → Slot} (hl : Listed a pending)
    (hf : ∀ slot, (f slot).Unused → slot.Unused) : Listed (a.modify h f) pending := by
  cases hslot : a.slot? h with
  | none =>
      rw [modify_eq_self f hslot]
      exact hl
  | some slot =>
      rw [modify_eq f hslot]
      have hindex := (slot?_eq_some_iff.1 hslot).1
      exact hl.set (fun hunused => hl _ _ hindex (hf slot hunused)) fun _ _ hj => hj

/-- A change of an entity leaves its slot with one. -/
theorem modifyEntity (hl : Listed a pending) (f : Entity → Entity) :
    Listed (a.modifyEntity h f) pending :=
  hl.modify_same fun slot => by simp [Slot.Unused]

/-- Recycling looks at a slot that is pending. -/
theorem recycle (hl : Listed a (i :: pending)) : Listed (a.recycle i) pending := by
  have hrest : ∀ j, j ≠ i → j ∈ a.free ∨ j ∈ i :: pending → j ∈ a.free ∨ j ∈ pending :=
    fun j hji hj => hj.imp_right fun hmem => List.mem_of_ne_of_mem hji hmem
  unfold Arena.recycle
  split
  next slot hslot =>
    split
    next =>
      refine hl.set (fun _ => .inl List.mem_cons_self) fun j hji hj => ?_
      exact (hrest j hji hj).imp_left fun hmem => List.mem_cons_of_mem i hmem
    next hcond =>
      intro j other hother hunused
      by_cases hji : j = i
      · subst hji
        rw [hslot] at hother
        cases hother
        by_cases hmem : j ∈ a.free
        · exact .inl hmem
        · exact absurd ⟨Option.isNone_iff_eq_none.2 hunused.1, hunused.2, hmem⟩ hcond
      · exact hrest j hji (hl j other hother hunused)
  next hnone =>
    intro j other hother hunused
    refine hrest j ?_ (hl j other hother hunused)
    rintro rfl
    rw [hnone] at hother
    cases hother

-- ================================================================ usages

theorem retainValue (hl : Listed a pending) (v : Value) : Listed (a.retainValue v) pending := by
  cases v with
  | entity h => exact hl.modify_same fun slot hunused => absurd hunused.2 (Nat.succ_ne_zero _)
  | _ => exact hl

/-- A slot that loses its last usage is recycled, if it has no entity. -/
theorem releaseValue (hl : Listed a pending) (v : Value) : Listed (a.releaseValue v) pending := by
  cases v with
  | entity h =>
      show Listed (a.release h) pending
      unfold Arena.release
      split
      next => exact (hl.modify _).recycle
      next => exact hl
  | _ => exact hl

theorem releaseAll (vs : List Value) : ∀ {a : Arena}, Listed a pending →
    Listed (a.releaseAll vs) pending := by
  induction vs with
  | nil => exact fun hl => hl
  | cons v vs ih => exact fun hl => ih (hl.releaseValue v)

-- ============================================================== entities

/-- The slot of a new entity is not unused. -/
theorem insert (hl : Listed a []) (e : Entity) : Listed (a.insert e).2 [] := by
  unfold Arena.insert
  split
  next hfree =>
    intro i slot hslot hunused
    change (a.slots ++ [⟨0, 0, some e⟩])[i]? = some slot at hslot
    rw [List.getElem?_append] at hslot
    split at hslot
    next => exact hl i slot hslot hunused
    next =>
      rw [List.mem_singleton.1 (List.mem_of_getElem? hslot)] at hunused
      cases hunused.1
  next i free hfree =>
    refine hl.set (fun hunused => by cases hunused.1) fun j hji hj => hj.imp_left fun hmem => ?_
    rw [hfree] at hmem
    exact List.mem_of_ne_of_mem hji hmem

/-- A component is put into a slot like any entity, and its part keeps its
own. -/
theorem attach {part : Handle} {typeName : String} {memory : Option Memory} (hl : Listed a [])
    (hattach : a.attach part typeName memory = .ok (h, a')) : Listed a' [] := by
  unfold Arena.attach at hattach
  split at hattach
  next =>
    cases hattach
    exact (hl.insert _).modifyEntity _
  next => cases hattach

/-- An entity that is taken out leaves its slot to be looked at. -/
theorem take {e : Entity} (hl : Listed a pending) (htake : a.take h = some (e, a')) :
    Listed a' (h.index :: pending) := by
  obtain ⟨e', -, heq⟩ := Option.map_eq_some_iff.1 htake
  cases heq
  exact hl.modify _

/-- On every level one more slot is left to be looked at, until the entity's
components are gone. -/
theorem destroy (hl : Listed a pending) (h : Handle) : Listed (a.destroy h) pending :=
  destroy_invariant (P := fun pending a => Listed a pending)
    (fun pending _ h _ _ hl htake =>
      ⟨h.index :: pending, releaseAll _ (hl.take htake), fun _ hl => hl.recycle⟩)
    hl h

/-- A sweep leaves entities in place, and its releases recycle. -/
theorem sweepMemory (hl : Listed a pending) : Listed a.sweepMemory.2 pending := by
  refine releaseAll _ fun i slot' hslot' hunused => ?_
  simp only [List.map_map, List.getElem?_map] at hslot'
  obtain ⟨slot, hslot, rfl⟩ := Option.map_eq_some_iff.1 hslot'
  exact hl i slot hslot (unused_of_sweepSlot hunused)

end Listed

-- ================================================================== work

/-- What processors do to an arena: usages come and go, and memories are
written to. -/
inductive Work (a : Arena) : Arena → Prop where
  | none : Work a a
  | retain {a' : Arena} (before : Work a a') (v : Value) : Work a (a'.retainValue v)
  | release {a' : Arena} (before : Work a a') (v : Value) : Work a (a'.releaseValue v)
  | write {a' : Arena} (before : Work a a') (h : Handle) (m : Memory) : Work a (a'.setMemory h m)

namespace Work

/-- Work after work is work. -/
theorem trans (hw : Work a a') (hw' : Work a' a'') : Work a a'' := by
  induction hw' with
  | none => exact hw
  | retain _ v ih => exact ih.retain v
  | release _ v ih => exact ih.release v
  | write _ h m ih => exact ih.write h m

theorem releaseAll (vs : List Value) : ∀ {a' : Arena}, Work a a' → Work a (a'.releaseAll vs) := by
  induction vs with
  | nil => exact fun hw => hw
  | cons v vs ih => exact fun hw => ih (hw.release v)

/-- To store one value in place of another is to retain and to release. -/
theorem exchange (hw : Work a a') (v : Value) (old : Option Value) : Work a (a'.exchange v old) :=
  (hw.retain v).releaseAll old.toList

/-- Work loses no slot. -/
theorem listed (hw : Work a a') (hl : Listed a pending) : Listed a' pending := by
  induction hw with
  | none => exact hl
  | retain _ v ih => exact ih.retainValue v
  | release _ v ih => exact ih.releaseValue v
  | write _ h m ih => exact ih.modifyEntity _

end Work

end TickScript.Arena
