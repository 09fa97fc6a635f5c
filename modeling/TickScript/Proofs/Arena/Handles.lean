/-
Handles, and what they are good for while no generation wraps.

# Following

A slot's generation is a 32-bit number, so it may wrap. While none does,
`Follows a a'` holds of all changes, those that make entities included: a
slot that keeps its generation keeps its entity or loses it, unless it
waited to be reused. That is what makes handles safe. A handle that was
issued (`Arena.Issued`) is never ahead of its slot, and while it is level
with it, the slot is in use and holds an entity of the handle's kind or
none. Both are stable: an issued handle stays issued, and a dead one
stays dead.

# Operations

All that is done to an arena from outside (`Arena.Op`) puts an entity into
a slot or only settles slots, or does the one and then the other. So each
operation leads on to an arena that follows.
-/
import TickScript.Proofs.Arena.Slots

namespace TickScript

namespace Arena

variable {a a' a'' : Arena} {h : Handle} {slot slot' : Slot} {i : Nat} {given : List Handle}

-- ============================================================= following

/-- No slot's generation is lower than it was. -/
def Unwrapped (a a' : Arena) : Prop :=
  ∀ (i : Nat) (slot slot' : Slot), a.slots[i]? = some slot → a'.slots[i]? = some slot' →
    slot.generation ≤ slot'.generation

theorem unwrapped_iff :
    Unwrapped a a' ↔ ∀ p ∈ a.slots.zip a'.slots, p.1.generation ≤ p.2.generation := by
  constructor
  · rintro h ⟨slot, slot'⟩ hmem
    obtain ⟨i, hi⟩ := List.mem_iff_getElem?.1 hmem
    obtain ⟨hslot, hslot'⟩ := List.getElem?_zip_eq_some.1 hi
    exact h i slot slot' hslot hslot'
  · intro h i slot slot' hslot hslot'
    exact h (slot, slot') (List.mem_of_getElem? (List.getElem?_zip_eq_some.2 ⟨hslot, hslot'⟩))

instance : Decidable (Unwrapped a a') := decidable_of_iff _ unwrapped_iff.symm

/-- A slot moves on to later generations; while it stays at one and does
not wait to be reused, its entity goes or stays what it is. -/
structure Follows (a a' : Arena) : Prop where
  slot : ∀ {i slot}, a.slots[i]? = some slot →
    ∃ slot', a'.slots[i]? = some slot' ∧ slot.generation ≤ slot'.generation
      ∧ (slot'.generation = slot.generation → i ∉ a.free →
          i ∉ a'.free ∧ ∀ e', slot'.entity = some e' → ∃ e, slot.entity = some e ∧ e.Same e')

theorem Follows.refl (a : Arena) : Follows a a :=
  ⟨fun {_ slot} hslot => ⟨slot, hslot, UInt32.le_refl _, fun _ hused =>
    ⟨hused, fun e he => ⟨e, he, .refl e⟩⟩⟩⟩

theorem Follows.trans (h : Follows a a') (h' : Follows a' a'') : Follows a a'' := by
  refine ⟨fun {i slot} hslot => ?_⟩
  obtain ⟨slot', hslot', hle, hkept⟩ := h.slot hslot
  obtain ⟨slot'', hslot'', hle', hkept'⟩ := h'.slot hslot'
  refine ⟨slot'', hslot'', UInt32.le_trans hle hle', fun hsame hused => ?_⟩
  -- a slot that comes back to its generation was at it all the time
  have hmiddle : slot'.generation = slot.generation :=
    UInt32.le_antisymm (hsame ▸ hle') hle
  obtain ⟨hused', hentity⟩ := hkept hmiddle hused
  obtain ⟨hused'', hentity'⟩ := hkept' (hsame.trans hmiddle.symm) hused'
  refine ⟨hused'', fun e'' he'' => ?_⟩
  obtain ⟨e', he', hsecond⟩ := hentity' e'' he''
  obtain ⟨e, he, hfirst⟩ := hentity e' he'
  exact ⟨e, he, hfirst.trans hsecond⟩

theorem next_ne (g : UInt32) : g + 1 ≠ g := by
  intro h
  have hnat := congrArg UInt32.toNat h
  have hlt := g.toNat_lt
  rw [UInt32.toNat_add] at hnat
  simp only [UInt32.toNat_one] at hnat
  omega

/-- Settling, with no generation wrapped. -/
theorem Settles.follows (h : Settles given a a') (hwrap : Unwrapped a a') : Follows a a' := by
  refine ⟨fun {i slot} hslot => ?_⟩
  obtain ⟨slot', hslot', hsettles⟩ := h.slot hslot
  refine ⟨slot', hslot', hwrap i slot slot' hslot hslot', fun hsame hused => ?_⟩
  rcases hsettles.generation with ⟨-, hfree⟩ | ⟨hgen, -, -⟩
  · refine ⟨fun hmem => hused (hfree.1 hmem), fun e' he' => ?_⟩
    obtain ⟨e, he, hremains⟩ := hsettles.entity e' he'
    exact ⟨e, he, hremains.toSame⟩
  · exact absurd (hgen.symm.trans hsame) (next_ne _)

/-- What is known of the slot that a new entity is put into. -/
theorem insert_cases (ho : Orderly a []) (e : Entity) :
    (a.free = [] ∧ a.insert e = (⟨a.slots.length, 0, e.kind⟩,
        { a with slots := a.slots ++ [⟨0, 0, some e⟩] }))
      ∨ ∃ i free slot, a.free = i :: free ∧ i ∉ free ∧ a.slots[i]? = some slot ∧ slot.Unused
          ∧ a.insert e = (⟨i, slot.generation, e.kind⟩,
              ⟨a.slots.set i ⟨slot.generation, 0, some e⟩, free⟩) := by
  cases hfree : a.free with
  | nil => exact .inl ⟨rfl, by simp [insert, hfree]⟩
  | cons i free =>
      have hmem : i ∈ a.free := hfree ▸ List.mem_cons_self
      obtain ⟨slot, hslot, hunused⟩ := ho.unused hmem
      have hdistinct := ho.distinct
      rw [hfree, List.nodup_cons] at hdistinct
      exact .inr ⟨i, free, slot, rfl, hdistinct.1, hslot, hunused, by simp [insert, hfree, hslot]⟩

theorem follows_insert (ho : Orderly a []) (e : Entity) : Follows a (a.insert e).2 := by
  refine ⟨fun {j slot} hslot => ?_⟩
  rcases insert_cases ho e with ⟨hfree, heq⟩ | ⟨i, free, old, hfree, hnew, hold, -, heq⟩
  · rw [heq]
    refine ⟨slot, ?_, UInt32.le_refl _, fun _ hused => ⟨hused, fun e' he' => ⟨e', he', .refl e'⟩⟩⟩
    show (a.slots ++ _)[j]? = some slot
    rw [List.getElem?_append_left (List.getElem?_eq_some_iff.1 hslot).1]
    exact hslot
  · rw [heq]
    have hlt : i < a.slots.length := (List.getElem?_eq_some_iff.1 hold).1
    by_cases hji : j = i
    · -- the slot waited, so nothing is said of its entity
      subst hji
      rw [hold] at hslot
      cases hslot
      refine ⟨_, List.getElem?_set_self hlt, UInt32.le_refl _, fun _ hused => ?_⟩
      exact absurd (hfree ▸ List.mem_cons_self) hused
    · refine ⟨slot, (List.getElem?_set_ne (Ne.symm hji)).trans hslot, UInt32.le_refl _,
        fun _ hused => ⟨fun hmem => hused ?_, fun e' he' => ⟨e', he', .refl e'⟩⟩⟩
      rw [hfree]
      exact List.mem_cons_of_mem i hmem

-- =============================================================== handles

/-- A handle that the arena has issued: it is to a slot there is and not
of a later generation; if it is of the present one, the slot is in use,
and its entity, if there is one, is of the handle's kind. -/
def Issued (a : Arena) (h : Handle) : Prop :=
  ∃ slot, a.slots[h.index]? = some slot ∧ h.generation ≤ slot.generation
    ∧ (slot.generation = h.generation →
        h.index ∉ a.free ∧ ∀ e, slot.entity = some e → e.kind = h.kind)

theorem entity?_eq_some_iff {e : Entity} :
    a.entity? h = some e ↔ ∃ slot, a.slots[h.index]? = some slot
      ∧ slot.generation = h.generation ∧ slot.entity = some e := by
  unfold entity?
  rw [Option.bind_eq_bind, Option.bind_eq_some_iff]
  constructor
  · rintro ⟨slot, hslot, he⟩
    obtain ⟨hindex, hgen⟩ := slot?_eq_some_iff.1 hslot
    exact ⟨slot, hindex, hgen, he⟩
  · rintro ⟨slot, hindex, hgen, he⟩
    exact ⟨slot, slot?_eq_some_iff.2 ⟨hindex, hgen⟩, he⟩

theorem resolve_eq_some_iff : a.resolve i = some h ↔
    ∃ slot e, a.slots[i]? = some slot ∧ slot.entity = some e
      ∧ h = ⟨i, slot.generation, e.kind⟩ := by
  unfold resolve
  simp only [Option.bind_eq_bind, Option.bind_eq_some_iff, Option.some.injEq]
  constructor
  · rintro ⟨slot, hslot, e, he, heq⟩
    exact ⟨slot, e, hslot, he, heq.symm⟩
  · rintro ⟨slot, e, hslot, he, heq⟩
    exact ⟨slot, hslot, e, he, heq.symm⟩

/-- The handle of a living entity is one that was issued. -/
theorem issued_of_entity {e : Entity} {pending : List Nat} (ho : Orderly a pending)
    (hslot : a.slots[i]? = some slot) (he : slot.entity = some e) :
    a.Issued ⟨i, slot.generation, e.kind⟩ := by
  refine ⟨slot, hslot, UInt32.le_refl _, fun _ => ⟨ho.not_mem_of_entity hslot he, ?_⟩⟩
  intro e' he'
  rw [he] at he'
  cases he'
  rfl

namespace Issued

/-- A living entity is of the kind of its handle. -/
theorem kind_eq {e : Entity} (hi : a.Issued h) (he : a.entity? h = some e) :
    e.kind = h.kind := by
  obtain ⟨slot, hslot, -, hcurrent⟩ := hi
  obtain ⟨slot', hslot', hgen, he⟩ := entity?_eq_some_iff.1 he
  rw [hslot] at hslot'
  cases hslot'
  exact (hcurrent hgen).2 e he

/-- The slot of an issued handle, while it is of the handle's generation,
does not wait to be reused. -/
theorem used (hi : a.Issued h) (hslot : a.slot? h = some slot) : h.index ∉ a.free := by
  obtain ⟨slot', hslot', -, hcurrent⟩ := hi
  obtain ⟨hindex, hgen⟩ := slot?_eq_some_iff.1 hslot
  rw [hslot'] at hindex
  cases hindex
  exact (hcurrent hgen).1

/-- What was issued stays so. -/
theorem follows (hi : a.Issued h) (hfollows : Follows a a') : a'.Issued h := by
  obtain ⟨slot, hslot, hle, hcurrent⟩ := hi
  obtain ⟨slot', hslot', hle', hkept⟩ := hfollows.slot hslot
  refine ⟨slot', hslot', UInt32.le_trans hle hle', fun hsame => ?_⟩
  have hlevel : slot.generation = h.generation :=
    UInt32.le_antisymm (hsame ▸ hle') hle
  obtain ⟨hused, hkind⟩ := hcurrent hlevel
  obtain ⟨hused', hentity⟩ := hkept (hsame.trans hlevel.symm) hused
  refine ⟨hused', fun e' he' => ?_⟩
  obtain ⟨e, he, hsame⟩ := hentity e' he'
  rw [hsame.kind]
  exact hkind e he

/-- An entity that an issued handle refers to was there before. -/
theorem entity_before {e' : Entity} (hi : a.Issued h) (hfollows : Follows a a')
    (he' : a'.entity? h = some e') : ∃ e, a.entity? h = some e ∧ e.Same e' := by
  obtain ⟨slot, hslot, hle, hcurrent⟩ := hi
  obtain ⟨slot', hslot', hle', hkept⟩ := hfollows.slot hslot
  obtain ⟨other, hother, hgen, he'⟩ := entity?_eq_some_iff.1 he'
  rw [hslot'] at hother
  cases hother
  have hlevel : slot.generation = h.generation :=
    UInt32.le_antisymm (hgen ▸ hle') hle
  obtain ⟨-, hentity⟩ := hkept (hgen.trans hlevel.symm) (hcurrent hlevel).1
  obtain ⟨e, he, hsame⟩ := hentity e' he'
  exact ⟨e, entity?_eq_some_iff.2 ⟨slot, hslot, hlevel, he⟩, hsame⟩

/-- A handle that is once dead stays so. -/
theorem dead_stays (hi : a.Issued h) (hfollows : Follows a a') (hdead : a.isAlive h = false) :
    a'.isAlive h = false := by
  cases he' : a'.entity? h with
  | none => simp [isAlive, he']
  | some e' =>
      obtain ⟨e, he, -⟩ := hi.entity_before hfollows he'
      simp [isAlive, he] at hdead

/-- No earlier handle is the one of a new entity. -/
theorem ne_insert (hi : a.Issued h) (ho : Orderly a []) (e : Entity) :
    h ≠ (a.insert e).1 := by
  obtain ⟨slot, hslot, -, hcurrent⟩ := hi
  rcases insert_cases ho e with ⟨-, heq⟩ | ⟨i, free, old, hfree, -, hold, -, heq⟩
  · rw [heq]
    rintro rfl
    have hlt := (List.getElem?_eq_some_iff.1 hslot).1
    exact absurd hlt (Nat.lt_irrefl _)
  · rw [heq]
    rintro rfl
    rw [hold] at hslot
    cases hslot
    exact (hcurrent rfl).1 (hfree ▸ List.mem_cons_self)

end Issued

/-- The new entity is in the slot of its handle. -/
theorem entity?_insert (ho : Orderly a []) (e : Entity) :
    (a.insert e).2.entity? (a.insert e).1 = some e := by
  refine entity?_eq_some_iff.2 ?_
  rcases insert_cases ho e with ⟨-, heq⟩ | ⟨i, free, old, hfree, -, hold, -, heq⟩
  · rw [heq]
    exact ⟨⟨0, 0, some e⟩, List.getElem?_concat_length, rfl, rfl⟩
  · rw [heq]
    have hlt : i < a.slots.length := (List.getElem?_eq_some_iff.1 hold).1
    exact ⟨_, List.getElem?_set_self hlt, rfl, rfl⟩

theorem insert_kind (e : Entity) : (a.insert e).1.kind = e.kind := by
  unfold insert
  split <;> rfl

/-- The handle of a new entity is issued. -/
theorem issued_insert (ho : Orderly a []) (e : Entity) :
    (a.insert e).2.Issued (a.insert e).1 := by
  obtain ⟨slot, hslot, hgen, he⟩ := entity?_eq_some_iff.1 (entity?_insert ho e)
  have hissued := issued_of_entity (ho.insert e) hslot he
  rw [hgen, ← insert_kind e] at hissued
  exact hissued

-- ============================================================ operations

/-- What is done to an arena from outside. -/
inductive Op where
  | spawn (group : Nat)
  | attach (part : Handle) (typeName : String) (memory : Option Memory)
  | destroy (h : Handle)
  | retain (h : Handle)
  | release (h : Handle)
  | retainValue (v : Value)
  | releaseValue (v : Value)
  /-- Replaces what a memory device holds. -/
  | write (device : Handle) (m : Memory)
  | sweepMemory

namespace Op

/-- Carries out an operation; gives back the handle of the entity it
makes, if it makes one. -/
def apply (a : Arena) : Op → Option Handle × Arena
  | spawn group => (some (a.spawn group).1, (a.spawn group).2)
  | attach part typeName memory =>
    match a.attach part typeName memory with
    | .ok (h, a) => (some h, a)
    | .error _ => (none, a)
  | destroy h => (none, a.destroy h)
  | retain h => (none, a.retain h)
  | release h => (none, a.release h)
  | retainValue v => (none, a.retainValue v)
  | releaseValue v => (none, a.releaseValue v)
  | write device m => (none, a.setMemory device m)
  | sweepMemory => (none, a.sweepMemory.2)

/-- The handle that an operation adds a usage of. -/
def retained? : Op → Option Handle
  | retain h => some h
  | retainValue v => v.handle?
  | _ => none

/-- The handles that an operation gives the arena to keep. -/
def supplied : Op → List Handle
  | attach _ _ memory => memory.toList.flatMap fun m => handlesOf m.values
  | write _ m => handlesOf m.values
  | _ => []

/-- The operation makes an entity, or only settles slots. -/
theorem apply_cases (op : Op) (a : Arena) :
    (∃ e a', op.apply a = (some (a.insert e).1, a') ∧ (∀ h ∈ e.kept, h ∈ op.supplied)
        ∧ Settles [(a.insert e).1] (a.insert e).2 a' ∧ a'.free = (a.insert e).2.free)
      ∨ ∃ a', op.apply a = (none, a') ∧ Settles op.supplied a a' := by
  cases op with
  | spawn group =>
      refine .inl ⟨_, _, rfl, fun h hh => ?_, .refl _, rfl⟩
      cases hh
  | attach part typeName memory =>
      simp only [apply]
      split
      next h a' hattach =>
        unfold Arena.attach at hattach
        split at hattach
        next group components hpart =>
          cases hattach
          refine .inl ⟨_, _, rfl, fun h hh => ?_, settles_modifyEntity fun e => ?_, ?_⟩
          · cases memory with
            | none => cases hh
            | some m =>
                change h ∈ handlesOf m.values at hh
                simpa [supplied] using hh
          · -- a part that gets a component stays a part
            obtain ⟨group, role⟩ := e
            cases role with
            | part components =>
                refine ⟨⟨rfl, rfl⟩, fun h hh => ?_⟩
                change h ∈ (components ++ [_]) ++ [] at hh
                rw [List.append_nil, List.mem_append] at hh
                exact hh.imp_left fun hh => List.mem_append_left _ hh
            | component typeName parent memory => exact .refl _
          · exact free_modify _ part _
        next => cases hattach
      next => exact .inr ⟨a, rfl, .refl a⟩
  | destroy h => exact .inr ⟨_, rfl, settles_destroy h⟩
  | retain h => exact .inr ⟨_, rfl, settles_retain⟩
  | release h => exact .inr ⟨_, rfl, settles_release⟩
  | retainValue v => exact .inr ⟨_, rfl, settles_retainValue v⟩
  | releaseValue v => exact .inr ⟨_, rfl, settles_releaseValue v⟩
  | write device m => exact .inr ⟨_, rfl, settles_setMemory fun _ hg => hg⟩
  | sweepMemory => exact .inr ⟨_, rfl, settles_sweepMemory⟩

/-- The slots to be reused stay in order, if what is retained was
issued. -/
theorem apply_orderly (op : Op) (ho : Orderly a [])
    (hretained : ∀ h, op.retained? = some h → a.Issued h) : Orderly (op.apply a).2 [] := by
  have hretain : ∀ h, op.retained? = some h → Orderly (a.retain h) [] := fun h heq =>
    ho.retain fun hslot => (hretained h heq).used hslot
  cases op with
  | spawn group => exact ho.insert _
  | attach part typeName memory =>
      simp only [apply]
      split
      next h a' hattach =>
        unfold Arena.attach at hattach
        split at hattach
        next =>
          cases hattach
          exact (ho.insert _).modifyEntity _
        next => cases hattach
      next => exact ho
  | destroy h => exact ho.destroy h
  | retain h => exact hretain h rfl
  | release h => exact ho.release
  | retainValue v =>
      cases v with
      | entity h => exact hretain h rfl
      | _ => exact ho
  | releaseValue v => exact ho.releaseValue v
  | write device m => exact ho.modifyEntity _
  | sweepMemory => exact ho.sweepMemory

end Op

/-- Settling that recycles nothing leaves the generations alone. -/
theorem Settles.generation_eq (h : Settles given a a') (hfree : a'.free = a.free)
    (hslot : a.slots[i]? = some slot) (hslot' : a'.slots[i]? = some slot') :
    slot'.generation = slot.generation := by
  obtain ⟨other, hother, hsettles⟩ := h.slot hslot
  rw [hslot'] at hother
  cases hother
  rcases hsettles.generation with ⟨hgen, -⟩ | ⟨-, hused, hwaits⟩
  · exact hgen
  · exact absurd (hfree ▸ hwaits) hused

theorem Settles.unwrapped_of_free (h : Settles given a a') (hfree : a'.free = a.free) :
    Unwrapped a a' := fun _ _ _ hslot hslot' =>
  UInt32.le_of_eq (h.generation_eq hfree hslot hslot').symm

/-- Every operation leads on, while no generation wraps. -/
theorem Op.apply_follows (op : Op) (ho : Orderly a []) (hwrap : Unwrapped a (op.apply a).2) :
    Follows a (op.apply a).2 := by
  rcases op.apply_cases a with ⟨e, a', heq, -, hsettles, hfree⟩ | ⟨a', heq, hsettles⟩
  · rw [heq]
    exact (follows_insert ho e).trans (hsettles.follows (hsettles.unwrapped_of_free hfree))
  · rw [heq] at hwrap ⊢
    exact hsettles.follows hwrap

-- =========================================================== resolution

/-- A living entity was there before the slots settled. -/
theorem Settles.resolve_before {pending : List Nat} (hsettles : Settles given a a')
    (ho : Orderly a' pending) (h' : a'.resolve i = some h) : a.resolve i = some h := by
  obtain ⟨slot', e', hslot', he', rfl⟩ := resolve_eq_some_iff.1 h'
  obtain ⟨slot, hslot, hsettle⟩ := hsettles.before hslot'
  obtain ⟨e, he, hsame⟩ := hsettle.entity e' he'
  rcases hsettle.generation with ⟨hgen, -⟩ | ⟨-, -, hwaits⟩
  · rw [hgen, hsame.kind]
    exact resolve_eq_some_iff.2 ⟨slot, e, hslot, he, rfl⟩
  · exact absurd hwaits (ho.not_mem_of_entity hslot' he')

/-- A slot is the one of the new entity or as it was before. -/
theorem insert_slot (ho : Orderly a []) (e : Entity)
    (hslot : (a.insert e).2.slots[i]? = some slot) :
    (i = (a.insert e).1.index ∧ slot = ⟨(a.insert e).1.generation, 0, some e⟩)
      ∨ a.slots[i]? = some slot := by
  rcases insert_cases ho e with ⟨-, heq⟩ | ⟨j, free, old, -, -, hold, -, heq⟩
  · rw [heq] at hslot ⊢
    change (a.slots ++ _)[i]? = some slot at hslot
    rw [List.getElem?_append] at hslot
    split at hslot
    next => exact .inr hslot
    next hge =>
      obtain ⟨hlt, hnew⟩ := List.getElem?_eq_some_iff.1 hslot
      simp only [List.length_singleton] at hlt
      rw [List.getElem_singleton] at hnew
      have hi : i = a.slots.length := by omega
      exact .inl ⟨hi, hnew.symm⟩
  · rw [heq] at hslot ⊢
    change (a.slots.set j _)[i]? = some slot at hslot
    by_cases hij : i = j
    · subst hij
      rw [List.getElem?_set_self (List.getElem?_eq_some_iff.1 hold).1] at hslot
      cases hslot
      exact .inl ⟨rfl, rfl⟩
    · rw [List.getElem?_set_ne (Ne.symm hij)] at hslot
      exact .inr hslot

/-- The handle of a new entity is of the generation that its slot had,
or that slots start with. -/
theorem insert_generation (ho : Orderly a []) (e : Entity) :
    (∃ old, a.slots[(a.insert e).1.index]? = some old
        ∧ (a.insert e).1.generation = old.generation)
      ∨ ((a.insert e).1.index = a.slots.length ∧ (a.insert e).1.generation = 0) := by
  rcases insert_cases ho e with ⟨-, heq⟩ | ⟨j, free, old, -, -, hold, -, heq⟩
  · rw [heq]
    exact .inr ⟨rfl, rfl⟩
  · rw [heq]
    exact .inl ⟨old, hold, rfl⟩

theorem length_insert (e : Entity) : a.slots.length ≤ (a.insert e).2.slots.length := by
  unfold insert
  split
  next => simp
  next => simp

/-- A living entity is the new one or was there before. -/
theorem resolve_insert (ho : Orderly a []) (e : Entity)
    (h' : (a.insert e).2.resolve i = some h) : h = (a.insert e).1 ∨ a.resolve i = some h := by
  obtain ⟨slot, e', hslot, he', rfl⟩ := resolve_eq_some_iff.1 h'
  rcases insert_slot ho e hslot with ⟨rfl, rfl⟩ | hold
  · cases he'
    rw [← insert_kind e]
    exact .inl rfl
  · exact .inr (resolve_eq_some_iff.2 ⟨slot, e', hold, he', rfl⟩)

end Arena

end TickScript
