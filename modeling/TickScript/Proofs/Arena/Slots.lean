/-
What becomes of the slots of an arena.

# Settling

All changes but the making of entities only take things away: entities
go or stay what they are, slots that are done with are recycled, and a
recycled slot waits among those to be reused. `Settles given a a'` says so, slot
by slot; entities that stay keep the handles that they kept, and may be
given some. It is transitive, since a slot is recycled at most once while
it waits, so it holds of a destruction or a sweep as a whole.

# The slots to be reused

`Orderly a pending` says that these are exactly the slots without an
entity and without usages, each listed once, but for some that are still
to be looked at. Taking an entity out leaves its slot pending and recycling
settles it, with any number of releases in between, of which one may have
recycled the slot before.
-/
import TickScript.Proofs.Arena.Balance

namespace TickScript

/-- An entity of the same kind and type. -/
structure Entity.Same (e e' : Entity) : Prop where
  kind : e'.kind = e.kind
  typeName : e'.typeName = e.typeName

theorem Entity.Same.refl (e : Entity) : e.Same e := ⟨rfl, rfl⟩

theorem Entity.Same.trans {e e' e'' : Entity} (h : e.Same e') (h' : e'.Same e'') :
    e.Same e'' :=
  ⟨h'.kind.trans h.kind, h'.typeName.trans h.typeName⟩

/-- The handles that an entity keeps: to its components, and in its
memory. -/
def Entity.kept (e : Entity) : List Handle := e.components ++ handlesOf e.values

/-- The same entity, which keeps no handles but those it kept and some
that it was given. -/
structure Entity.Remains (given : List Handle) (e e' : Entity) : Prop extends e.Same e' where
  kept : ∀ h ∈ e'.kept, h ∈ e.kept ∨ h ∈ given

theorem Entity.Remains.refl {given : List Handle} (e : Entity) : e.Remains given e :=
  ⟨.refl e, fun _ hh => .inl hh⟩

/-- What an entity is given on the way it may keep to the end. -/
theorem Entity.Remains.trans {given : List Handle} {e e' e'' : Entity} (h : e.Remains given e')
    (h' : e'.Remains given e'') : e.Remains given e'' :=
  ⟨h.toSame.trans h'.toSame, fun g hg => (h'.kept g hg).elim (h.kept g) .inr⟩

/-- Memory that is replaced holds what it is given. -/
theorem Entity.remains_withMemory {given : List Handle} (e : Entity) {m : Memory}
    (hgiven : ∀ h ∈ handlesOf m.values, h ∈ handlesOf e.values ∨ h ∈ given) :
    e.Remains given (e.withMemory m) := by
  obtain ⟨group, role⟩ := e
  cases role with
  | part components => exact .refl _
  | component typeName parent memory =>
      cases memory with
      | none => exact .refl _
      | some old => exact ⟨⟨rfl, rfl⟩, hgiven⟩

/-- A slot without an entity and without usages. -/
def Slot.Unused (slot : Slot) : Prop := slot.entity = none ∧ slot.usings = 0

namespace Arena

variable {a a' a'' : Arena} {h : Handle} {slot slot' : Slot} {i : Nat} {given : List Handle}

-- ============================================================== settling

/-- What one slot may become, and whether it then waits to be reused. -/
structure SlotSettles (given : List Handle) (i : Nat) (free free' : List Nat)
    (slot slot' : Slot) : Prop where
  entity : ∀ e', slot'.entity = some e' →
    ∃ e : Entity, slot.entity = some e ∧ e.Remains given e'
  generation : (slot'.generation = slot.generation ∧ (i ∈ free' ↔ i ∈ free))
    ∨ (slot'.generation = slot.generation + 1 ∧ i ∉ free ∧ i ∈ free')

/-- Entities go or stay, and each slot is recycled at most once. -/
structure Settles (given : List Handle) (a a' : Arena) : Prop where
  length : a'.slots.length = a.slots.length
  slot : ∀ {i slot}, a.slots[i]? = some slot →
    ∃ slot', a'.slots[i]? = some slot' ∧ SlotSettles given i a.free a'.free slot slot'

/-- A slot that nothing is done to has settled. -/
theorem SlotSettles.refl (i : Nat) (free : List Nat) (slot : Slot) :
    SlotSettles given i free free slot slot :=
  ⟨fun e' he' => ⟨e', he', .refl e'⟩, .inl ⟨rfl, Iff.rfl⟩⟩

theorem Settles.refl (a : Arena) : Settles given a a :=
  ⟨rfl, fun {i slot} hslot => ⟨slot, hslot, .refl i a.free slot⟩⟩

/-- A slot that was recycled in one part waits in the other, so it is not
recycled twice. -/
theorem Settles.trans (h : Settles given a a') (h' : Settles given a' a'') :
    Settles given a a'' := by
  refine ⟨h'.length.trans h.length, fun {i slot} hslot => ?_⟩
  obtain ⟨slot', hslot', hfirst⟩ := h.slot hslot
  obtain ⟨slot'', hslot'', hsecond⟩ := h'.slot hslot'
  refine ⟨slot'', hslot'', fun e'' he'' => ?_, ?_⟩
  · obtain ⟨e', he', hsame'⟩ := hsecond.entity e'' he''
    obtain ⟨e, he, hsame⟩ := hfirst.entity e' he'
    exact ⟨e, he, hsame.trans hsame'⟩
  · -- a slot that the first change recycled waits, so the second does not
    rcases hfirst.generation with ⟨hgen, hfree⟩ | ⟨hgen, hused, hfree⟩
    · rw [← hgen, ← hfree]
      exact hsecond.generation
    · rcases hsecond.generation with ⟨hgen', hfree'⟩ | ⟨-, hused', -⟩
      · exact .inr ⟨hgen'.trans hgen, hused, hfree'.2 hfree⟩
      · exact absurd hfree hused'

/-- The slot as it was before. -/
theorem Settles.before (h : Settles given a a') (hslot' : a'.slots[i]? = some slot') :
    ∃ slot, a.slots[i]? = some slot ∧ SlotSettles given i a.free a'.free slot slot' := by
  have hlt : i < a.slots.length := by
    rw [← h.length]
    exact (List.getElem?_eq_some_iff.1 hslot').1
  have hslot : a.slots[i]? = some a.slots[i] := List.getElem?_eq_getElem hlt
  obtain ⟨other, hother, hsettles⟩ := h.slot hslot
  rw [hslot'] at hother
  cases hother
  exact ⟨a.slots[i], hslot, hsettles⟩

/-- A change of one slot, the others waiting or not as they did. -/
theorem Settles.set {free : List Nat} (hslot : a.slots[i]? = some slot)
    (hsettles : SlotSettles given i a.free free slot slot')
    (hothers : ∀ j, j ≠ i → (j ∈ free ↔ j ∈ a.free)) :
    Settles given a ⟨a.slots.set i slot', free⟩ := by
  have hlt : i < a.slots.length := (List.getElem?_eq_some_iff.1 hslot).1
  refine ⟨List.length_set, fun {j other} hother => ?_⟩
  by_cases hj : j = i
  · subst hj
    rw [hslot] at hother
    cases hother
    exact ⟨slot', List.getElem?_set_self hlt, hsettles⟩
  · refine ⟨other, ?_, fun e he => ⟨e, he, .refl e⟩, .inl ⟨rfl, hothers j hj⟩⟩
    show (a.slots.set i slot')[j]? = some other
    rw [List.getElem?_set_ne (Ne.symm hj)]
    exact hother

/-- A slot may change in its usages, and its entity may go or stay. -/
theorem settles_modify {f : Slot → Slot}
    (hgeneration : ∀ slot, (f slot).generation = slot.generation)
    (hentity : ∀ slot e', (f slot).entity = some e' →
      ∃ e : Entity, slot.entity = some e ∧ e.Remains given e') :
    Settles given a (a.modify h f) := by
  cases hslot : a.slot? h with
  | none =>
      rw [modify_eq_self f hslot]
      exact .refl a
  | some slot =>
      rw [modify_eq f hslot]
      have hindex := (slot?_eq_some_iff.1 hslot).1
      exact .set hindex ⟨hentity slot, .inl ⟨hgeneration slot, Iff.rfl⟩⟩ fun _ _ => Iff.rfl

theorem free_modify (a : Arena) (h : Handle) (f : Slot → Slot) : (a.modify h f).free = a.free := by
  unfold modify
  split <;> rfl

/-- An entity may be changed to one that remains. -/
theorem settles_modifyEntity {f : Entity → Entity}
    (hf : ∀ e : Entity, e.Remains given (f e)) :
    Settles given a (a.modifyEntity h f) := by
  refine settles_modify (fun _ => rfl) fun slot e' he' => ?_
  obtain ⟨e, he, rfl⟩ := Option.map_eq_some_iff.1 he'
  exact ⟨e, he, hf e⟩

/-- A memory that is replaced is given what the new one holds. -/
theorem settles_setMemory {m : Memory} (hgiven : ∀ g ∈ handlesOf m.values, g ∈ given) :
    Settles given a (a.setMemory h m) :=
  settles_modifyEntity fun e => e.remains_withMemory fun g hg => .inr (hgiven g hg)

theorem settles_retain : Settles given a (a.retain h) :=
  settles_modify (fun _ => rfl) fun _ e he => ⟨e, he, .refl e⟩

/-- Only a slot that does not wait is recycled, and it waits after that. -/
theorem settles_recycle (i : Nat) : Settles given a (a.recycle i) := by
  unfold recycle
  split
  next slot hslot =>
    split
    next hcond =>
      obtain ⟨-, -, hused⟩ := hcond
      refine .set hslot ⟨fun e he => ⟨e, he, .refl e⟩, .inr ⟨rfl, hused, List.mem_cons_self⟩⟩ ?_
      intro j hj
      rw [List.mem_cons]
      exact ⟨fun h => h.resolve_left hj, .inr⟩
    next => exact .refl a
  next => exact .refl a

/-- Dropping a usage is a change of the slot, and may recycle it. -/
theorem settles_release : Settles given a (a.release h) := by
  unfold release
  split
  next =>
    have hdrop : Settles given a (a.modify h fun slot => { slot with usings := slot.usings - 1 }) :=
      settles_modify (fun _ => rfl) fun _ e he => ⟨e, he, .refl e⟩
    exact hdrop.trans (settles_recycle _)
  next => exact .refl a

theorem settles_retainValue (v : Value) : Settles given a (a.retainValue v) := by
  cases v with
  | entity h => exact settles_retain
  | _ => exact .refl a

theorem settles_releaseValue (v : Value) : Settles given a (a.releaseValue v) := by
  cases v with
  | entity h => exact settles_release
  | _ => exact .refl a

theorem settles_releaseAll (vs : List Value) :
    ∀ {a : Arena}, Settles given a (a.releaseAll vs) := by
  induction vs with
  | nil => intro a; exact .refl a
  | cons v vs ih =>
      intro a
      exact (settles_releaseValue v).trans ih

/-- Storing one value in place of another moves usages only. -/
theorem settles_exchange (v : Value) (old : Option Value) : Settles given a (a.exchange v old) :=
  (settles_retainValue v).trans (settles_releaseAll _)

/-- The entity goes, and its slot is left as it is otherwise. -/
theorem settles_take {e : Entity} (htake : a.take h = some (e, a')) : Settles given a a' := by
  obtain ⟨e', -, heq⟩ := Option.map_eq_some_iff.1 htake
  cases heq
  exact settles_modify (fun _ => rfl) fun _ _ he => by cases he

/-- What is destroyed goes, and on every level what was in the way of
recycling. -/
theorem settles_destroy (h : Handle) : Settles given a (a.destroy h) :=
  destroy_invariant (i := ()) (P := fun _ b => Settles given a b)
    (fun _ _ _ _ _ hs htake =>
      ⟨(), (hs.trans (settles_take htake)).trans (settles_releaseAll _),
        fun _ hs => hs.trans (settles_recycle _)⟩)
    (.refl a) h

/-- A sweep of a slot leaves its entity what it is. -/
theorem sweepSlot_entity {alive : Handle → Bool} {e' : Entity}
    (h : (sweepSlot alive slot).2.entity = some e') :
    ∃ e : Entity, slot.entity = some e ∧ e.Remains given e' := by
  unfold sweepSlot at h
  split at h
  next e he =>
    split at h
    next m hm =>
      cases h
      refine ⟨e, he, e.remains_withMemory fun g hg => .inl ?_⟩
      have hvalues : e.values = m.values := by simp [Entity.values, hm]
      have hperm := handlesOf_perm (Memory.values_sweep (m := m) alive)
      rw [handlesOf_append] at hperm
      rw [hvalues]
      exact hperm.mem_iff.1 (List.mem_append_right _ hg)
    next => exact ⟨e', h, .refl e'⟩
  next => exact ⟨e', h, .refl e'⟩

/-- A sweep of a slot does not recycle it; only a release does. -/
theorem sweepSlot_generation (alive : Handle → Bool) (slot : Slot) :
    (sweepSlot alive slot).2.generation = slot.generation := by
  unfold sweepSlot
  split
  next => split <;> rfl
  next => rfl

/-- A sweep leaves no slot unused that was not. -/
theorem unused_of_sweepSlot {alive : Handle → Bool} (h : (sweepSlot alive slot).2.Unused) :
    slot.Unused := by
  unfold sweepSlot at h
  split at h
  next e he =>
    split at h
    next => cases h.1
    next => exact h
  next => exact h

/-- A sweep leaves entities what they are, and its releases settle. -/
theorem settles_sweepMemory : Settles given a a.sweepMemory.2 := by
  have hswept : Settles given a
      { a with slots := (a.slots.map (sweepSlot a.isAlive)).map Prod.snd } := by
    refine ⟨by simp, fun {i slot} hslot => ?_⟩
    refine ⟨(sweepSlot a.isAlive slot).2, by simp [hslot], fun e' he' => sweepSlot_entity he', ?_⟩
    exact .inl ⟨sweepSlot_generation _ slot, Iff.rfl⟩
  exact hswept.trans (settles_releaseAll _)

-- ===================================================== slots to be reused

/-- The slots to be reused are those without an entity and without
usages, but for some that are still to be looked at. -/
structure Orderly (a : Arena) (pending : List Nat) : Prop where
  distinct : a.free.Nodup
  unused : ∀ {i}, i ∈ a.free → ∃ slot, a.slots[i]? = some slot ∧ slot.Unused
  listed : ∀ {i slot}, a.slots[i]? = some slot → slot.Unused → i ∈ a.free ∨ i ∈ pending

namespace Orderly

variable {pending : List Nat}

theorem empty : Orderly .empty [] where
  distinct := List.nodup_nil
  unused hi := by cases hi
  listed hslot := by cases hslot

/-- A slot that waits to be reused is without entity and usages. -/
theorem unused_of_mem (ho : Orderly a pending) (hslot : a.slots[i]? = some slot)
    (hi : i ∈ a.free) : slot.Unused := by
  obtain ⟨other, hother, hunused⟩ := ho.unused hi
  rw [hslot] at hother
  cases hother
  exact hunused

/-- The slot of a living entity does not wait to be reused. -/
theorem not_mem_of_entity {e : Entity} (ho : Orderly a pending) (hslot : a.slots[i]? = some slot)
    (he : slot.entity = some e) : i ∉ a.free := by
  intro hi
  have hnone := (ho.unused_of_mem hslot hi).1
  rw [he] at hnone
  cases hnone

/-- More slots may be left to be looked at. -/
theorem mono {more : List Nat} (ho : Orderly a pending) (hsub : ∀ i ∈ pending, i ∈ more) :
    Orderly a more where
  distinct := ho.distinct
  unused := ho.unused
  listed hslot hunused := (ho.listed hslot hunused).imp_right (hsub _)

/-- A change of one slot, which is unused after it if it waits. -/
theorem set (ho : Orderly a pending) (hslot : a.slots[i]? = some slot)
    (hwaits : i ∈ a.free → slot'.Unused)
    (hlisted : slot'.Unused → i ∈ a.free ∨ i ∈ pending) :
    Orderly ⟨a.slots.set i slot', a.free⟩ pending := by
  have hlt : i < a.slots.length := (List.getElem?_eq_some_iff.1 hslot).1
  have hself : (a.slots.set i slot')[i]? = some slot' := List.getElem?_set_self hlt
  have hother : ∀ {j}, j ≠ i → (a.slots.set i slot')[j]? = a.slots[j]? := fun hj =>
    List.getElem?_set_ne (Ne.symm hj)
  refine ⟨ho.distinct, fun {j} hj => ?_, fun {j other} hj hunused => ?_⟩
  · by_cases hji : j = i
    · subst hji
      exact ⟨slot', hself, hwaits hj⟩
    · obtain ⟨other, hslot', hunused⟩ := ho.unused hj
      exact ⟨other, (hother hji).trans hslot', hunused⟩
  · by_cases hji : j = i
    · subst hji
      change (a.slots.set j slot')[j]? = some other at hj
      rw [hself] at hj
      cases hj
      exact hlisted hunused
    · change (a.slots.set i slot')[j]? = some other at hj
      rw [hother hji] at hj
      exact ho.listed hj hunused

/-- A change of one slot after which it is still to be looked at. -/
theorem modify {f : Slot → Slot} (ho : Orderly a pending)
    (hwaits : ∀ slot, slot.Unused → (f slot).Unused) :
    Orderly (a.modify h f) (h.index :: pending) := by
  have hmore : Orderly a (h.index :: pending) := ho.mono fun _ hi => List.mem_cons_of_mem _ hi
  cases hslot : a.slot? h with
  | none =>
      rw [modify_eq_self f hslot]
      exact hmore
  | some slot =>
      rw [modify_eq f hslot]
      have hindex := (slot?_eq_some_iff.1 hslot).1
      refine hmore.set hindex (fun hi => ?_) fun _ => .inr List.mem_cons_self
      exact hwaits slot (ho.unused_of_mem hindex hi)

/-- A change that leaves a slot as unused as it was. -/
theorem modify_same {f : Slot → Slot} (ho : Orderly a pending)
    (hsame : ∀ slot, (f slot).Unused ↔ slot.Unused) : Orderly (a.modify h f) pending := by
  cases hslot : a.slot? h with
  | none =>
      rw [modify_eq_self f hslot]
      exact ho
  | some slot =>
      rw [modify_eq f hslot]
      have hindex := (slot?_eq_some_iff.1 hslot).1
      refine ho.set hindex (fun hi => ?_) fun hunused => ?_
      · exact (hsame slot).2 (ho.unused_of_mem hindex hi)
      · exact ho.listed hindex ((hsame slot).1 hunused)

/-- A change of an entity leaves its slot with one. -/
theorem modifyEntity (ho : Orderly a pending) (f : Entity → Entity) :
    Orderly (a.modifyEntity h f) pending :=
  ho.modify_same fun slot => by simp [Slot.Unused]

/-- A usage is added to a slot that does not wait. -/
theorem retain (ho : Orderly a pending)
    (hused : ∀ {slot}, a.slot? h = some slot → h.index ∉ a.free) :
    Orderly (a.retain h) pending := by
  unfold Arena.retain
  cases hslot : a.slot? h with
  | none =>
      rw [modify_eq_self _ hslot]
      exact ho
  | some slot =>
      rw [modify_eq _ hslot]
      refine ho.set (slot?_eq_some_iff.1 hslot).1 (fun hi => absurd hi (hused hslot))
        fun hunused => ?_
      have hzero : slot.usings + 1 = 0 := hunused.2
      omega

/-- Recycling looks at a slot that is pending. -/
theorem recycle (ho : Orderly a (i :: pending)) : Orderly (a.recycle i) pending := by
  -- all unused slots but this one are listed already
  have hrest : ∀ {j other}, j ≠ i → a.slots[j]? = some other → other.Unused →
      j ∈ a.free ∨ j ∈ pending := fun hj hother hunused =>
    (ho.listed hother hunused).imp_right fun hmem => List.mem_of_ne_of_mem hj hmem
  unfold Arena.recycle
  split
  next slot hslot =>
    split
    next hcond =>
      obtain ⟨hnone, hzero, hnew⟩ := hcond
      have hunused : Slot.Unused { slot with generation := slot.generation + 1 } :=
        ⟨Option.isNone_iff_eq_none.1 hnone, hzero⟩
      have hset := ho.set hslot (fun _ => hunused) fun _ => .inr List.mem_cons_self
      refine ⟨List.nodup_cons.2 ⟨hnew, ho.distinct⟩, fun {j} hj => ?_,
        fun {j other} hother hj => ?_⟩
      · by_cases hji : j = i
        · subst hji
          have hlt : j < a.slots.length := (List.getElem?_eq_some_iff.1 hslot).1
          exact ⟨_, List.getElem?_set_self hlt, hunused⟩
        · exact hset.unused (List.mem_of_ne_of_mem hji hj)
      · by_cases hji : j = i
        · subst hji
          exact .inl List.mem_cons_self
        · change (a.slots.set i _)[j]? = some other at hother
          rw [List.getElem?_set_ne (Ne.symm hji)] at hother
          exact (hrest hji hother hj).imp_left fun hmem => List.mem_cons_of_mem i hmem
    next hcond =>
      refine ⟨ho.distinct, ho.unused, fun {j other} hother hunused => ?_⟩
      by_cases hji : j = i
      · subst hji
        rw [hslot] at hother
        cases hother
        by_cases hmem : j ∈ a.free
        · exact .inl hmem
        · exact absurd ⟨Option.isNone_iff_eq_none.2 hunused.1, hunused.2, hmem⟩ hcond
      · exact hrest hji hother hunused
  next hnone =>
    refine ⟨ho.distinct, ho.unused, fun {j other} hother hunused => hrest ?_ hother hunused⟩
    rintro rfl
    rw [hnone] at hother
    cases hother

/-- The slot whose usage goes is looked at once, whether it was pending or
not. -/
theorem release (ho : Orderly a pending) : Orderly (a.release h) pending := by
  unfold Arena.release
  split
  next =>
    refine recycle (ho.modify fun slot hunused => ⟨hunused.1, ?_⟩)
    show slot.usings - 1 = 0
    rw [hunused.2]
  next => exact ho

theorem releaseValue (ho : Orderly a pending) (v : Value) :
    Orderly (a.releaseValue v) pending := by
  cases v with
  | entity h => exact ho.release
  | _ => exact ho

/-- Of several releases each looks at its own slot. -/
theorem releaseAll (vs : List Value) : ∀ {a : Arena}, Orderly a pending →
    Orderly (a.releaseAll vs) pending := by
  induction vs with
  | nil => intro a ho; exact ho
  | cons v vs ih =>
      intro a ho
      exact ih (ho.releaseValue v)

/-- An entity that is taken out leaves its slot to be looked at. -/
theorem take {e : Entity} (ho : Orderly a pending) (htake : a.take h = some (e, a')) :
    Orderly a' (h.index :: pending) := by
  obtain ⟨e', -, heq⟩ := Option.map_eq_some_iff.1 htake
  cases heq
  exact ho.modify fun slot hunused => ⟨rfl, hunused.2⟩

/-- On every level one more slot is left to be looked at, until the entity's
components are gone. -/
theorem destroy (ho : Orderly a pending) (h : Handle) : Orderly (a.destroy h) pending :=
  destroy_invariant (P := fun pending a => Orderly a pending)
    (fun pending _ h _ _ ho htake =>
      ⟨h.index :: pending, releaseAll _ (ho.take htake), fun _ ho => ho.recycle⟩)
    ho h

/-- The memories are swept with every entity in place, and the releases are
orderly. -/
theorem sweepMemory (ho : Orderly a pending) : Orderly a.sweepMemory.2 pending := by
  refine releaseAll _ ⟨ho.distinct, fun {i} hi => ?_, fun {i slot'} hslot' hunused => ?_⟩
  · obtain ⟨slot, hslot, hunused⟩ := ho.unused hi
    refine ⟨(sweepSlot a.isAlive slot).2, by simp [hslot], ?_⟩
    simpa only [sweepSlot, hunused.1] using hunused
  · simp only [List.map_map, List.getElem?_map] at hslot'
    obtain ⟨slot, hslot, rfl⟩ := Option.map_eq_some_iff.1 hslot'
    exact ho.listed hslot (unused_of_sweepSlot hunused)

/-- A new entity is put into a slot that waits, or into a new one. -/
theorem insert (ho : Orderly a []) (e : Entity) : Orderly (a.insert e).2 [] := by
  unfold Arena.insert
  split
  next hfree =>
    refine ⟨?_, fun {i} hi => ?_, fun {i slot} hslot hunused => ?_⟩
    · show a.free.Nodup
      exact ho.distinct
    · change i ∈ a.free at hi
      rw [hfree] at hi
      cases hi
    · change (a.slots ++ [⟨0, 0, some e⟩])[i]? = some slot at hslot
      rw [List.getElem?_append] at hslot
      split at hslot
      next => exact ho.listed hslot hunused
      next =>
        rw [List.mem_singleton.1 (List.mem_of_getElem? hslot)] at hunused
        cases hunused.1
  next i free hfree =>
    have hdistinct := ho.distinct
    rw [hfree, List.nodup_cons] at hdistinct
    obtain ⟨slot, hslot, -⟩ := ho.unused (hfree ▸ List.mem_cons_self)
    have hlt : i < a.slots.length := (List.getElem?_eq_some_iff.1 hslot).1
    refine ⟨hdistinct.2, fun {j} hj => ?_, fun {j other} hother hunused => ?_⟩
    · have hji : j ≠ i := fun heq => hdistinct.1 (heq ▸ hj)
      obtain ⟨other, hother, hunused⟩ := ho.unused (hfree ▸ List.mem_cons_of_mem i hj)
      exact ⟨other, (List.getElem?_set_ne (Ne.symm hji)).trans hother, hunused⟩
    · by_cases hji : j = i
      · subst hji
        change (a.slots.set j _)[j]? = some other at hother
        rw [List.getElem?_set_self hlt] at hother
        cases hother
        cases hunused.1
      · change (a.slots.set i _)[j]? = some other at hother
        rw [List.getElem?_set_ne (Ne.symm hji)] at hother
        refine (ho.listed hother hunused).imp_left fun hmem => ?_
        rw [hfree] at hmem
        exact List.mem_of_ne_of_mem hji hmem

end Orderly

end Arena

end TickScript
