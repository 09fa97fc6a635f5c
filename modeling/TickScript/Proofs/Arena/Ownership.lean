/-
Parts own their components.

# Looking up after a change

What a handle refers to after a change of the arena is said for each
change, and for every handle, whether it was issued or not. Two handles
that `Meet` are of one slot and generation, so they refer to the same
entity, if to any. Making an entity changes what its handle refers to
(`entity?_insert_iff`), taking one out empties it, and usages make no
difference at all. A destruction is several of these in turn, with slots
recycled in between, and still comes to one equation
(`entity?_destroy`).

# Owning

A part lists the components that were attached to it, also those that are
gone by now; their slots may hold components of other parts. `Owned` says
that this does no harm. A living component is on the list of its parent,
which is alive, and what is alive on a part's list has that part for its
parent. So a part that is destroyed takes its own components along and no
others. The lists are in the order of the handles issued, since a component
is listed when its handle is issued, and that is how the components of a
part come to be in the order in which they were attached.
-/
import Mathlib.Data.List.Perm.Subperm
import TickScript.Proofs.Arena.Ledger
import TickScript.Proofs.Arena.Sweep

namespace TickScript

/-- Two handles of one slot and generation. -/
def Handle.Meets (g h : Handle) : Prop := g.index = h.index ∧ g.generation = h.generation

instance (g h : Handle) : Decidable (g.Meets h) := inferInstanceAs (Decidable (_ ∧ _))

namespace Entity

variable (e : Entity) (m : Memory)

/-- Other memory makes no difference to where an entity belongs. -/
theorem withMemory_belongs : (e.withMemory m).group = e.group
    ∧ (e.withMemory m).parent? = e.parent? ∧ (e.withMemory m).components = e.components := by
  obtain ⟨group, role⟩ := e
  cases role with
  | part components => exact ⟨rfl, rfl, rfl⟩
  | component typeName parent memory => cases memory <;> exact ⟨rfl, rfl, rfl⟩

/-- What has components is a part, and has no parent. -/
theorem parent?_of_mem {e : Entity} {c : Handle} (h : c ∈ e.components) :
    e.kind = .part ∧ e.parent? = none := by
  obtain ⟨group, role⟩ := e
  cases role with
  | part components => exact ⟨rfl, rfl⟩
  | component typeName parent memory => cases h

end Entity

namespace Arena

variable {a a' : Arena} {g h : Handle} {e : Entity}

-- ================================================================ lookup

theorem entity?_congr (hmeets : g.Meets h) : a.entity? g = a.entity? h := by
  unfold entity? slot?
  rw [hmeets.1, hmeets.2]

/-- A change of what is in the slot of a handle. -/
theorem entity?_modify (f : Slot → Slot) (change : Option Entity → Option Entity)
    (hgeneration : ∀ slot, (f slot).generation = slot.generation)
    (hentity : ∀ slot, (f slot).entity = change slot.entity) (hnone : change none = none)
    (g : Handle) :
    (a.modify h f).entity? g = if g.Meets h then change (a.entity? g) else a.entity? g := by
  cases hslot : a.slot? h with
  | none =>
      have hdead : a.entity? h = none := by
        unfold entity?
        rw [hslot]
        rfl
      rw [modify_eq_self f hslot]
      split
      next hmeets => rw [entity?_congr hmeets, hdead, hnone]
      next => rfl
  | some slot =>
      obtain ⟨hindex, hgen⟩ := slot?_eq_some_iff.1 hslot
      have hlt : h.index < a.slots.length := (List.getElem?_eq_some_iff.1 hindex).1
      rw [modify_eq f hslot]
      by_cases hsame : g.index = h.index
      · -- the slot is the one that changes, and its generation decides
        unfold entity? slot?
        rw [hsame, hindex]
        simp only [List.getElem?_set_self hlt, Option.filter_some, hgeneration, beq_iff_eq]
        by_cases hlevel : slot.generation = g.generation
        · have hmeets : g.Meets h := ⟨hsame, hlevel.symm.trans hgen⟩
          rw [if_pos hlevel, if_pos hmeets, if_pos hlevel]
          exact hentity slot
        · have hmeets : ¬ g.Meets h := fun hmeets => hlevel (hgen.trans hmeets.2.symm)
          rw [if_neg hlevel, if_neg hmeets, if_neg hlevel]
      · have hmeets : ¬ g.Meets h := fun hmeets => hsame hmeets.1
        unfold entity? slot?
        rw [if_neg hmeets, List.getElem?_set_ne (Ne.symm hsame)]

theorem entity?_modifyEntity (f : Entity → Entity) (g : Handle) :
    (a.modifyEntity h f).entity? g
      = if g.Meets h then (a.entity? g).map f else a.entity? g :=
  entity?_modify (fun slot => { slot with entity := slot.entity.map f }) (Option.map f)
    (fun _ => rfl) (fun _ => rfl) rfl g

theorem take_of_alive (he : a.entity? h = some e) :
    a.take h = some (e, a.modify h fun slot => { slot with entity := none }) :=
  congrArg (Option.map _) he

theorem entity?_take (htake : a.take h = some (e, a')) (g : Handle) :
    a'.entity? g = if g.Meets h then none else a.entity? g := by
  obtain ⟨e', -, heq⟩ := Option.map_eq_some_iff.1 htake
  cases heq
  exact entity?_modify (fun slot => { slot with entity := none }) (fun _ => none)
    (fun _ => rfl) (fun _ => rfl) rfl g

/-- A new entity is what its handle refers to, and no other handle refers
to anything else than before. -/
theorem entity?_insert_iff (ho : Orderly a []) (e : Entity) (g : Handle) :
    (a.insert e).2.entity? g
      = if g.Meets (a.insert e).1 then some e else a.entity? g := by
  split
  next hmeets => rw [entity?_congr hmeets, entity?_insert ho e]
  next hmeets =>
    refine Option.ext fun e' => ?_
    rw [entity?_eq_some_iff, entity?_eq_some_iff]
    constructor
    · rintro ⟨slot, hslot, hgen, he⟩
      rcases insert_slot ho e hslot with ⟨hindex, rfl⟩ | hold
      · exact absurd ⟨hindex, hgen.symm⟩ hmeets
      · exact ⟨slot, hold, hgen, he⟩
    · rintro ⟨slot, hslot, hgen, he⟩
      -- the slot has an entity, so it is not the one that is reused
      rcases insert_cases ho e with ⟨-, heq⟩ | ⟨i, free, old, -, -, hold, hunused, heq⟩
      · rw [heq]
        refine ⟨slot, ?_, hgen, he⟩
        show (a.slots ++ _)[g.index]? = some slot
        rw [List.getElem?_append_left (List.getElem?_eq_some_iff.1 hslot).1]
        exact hslot
      · rw [heq]
        have hne : i ≠ g.index := by
          rintro rfl
          rw [hold] at hslot
          cases hslot
          rw [hunused.1] at he
          cases he
        exact ⟨slot, (List.getElem?_set_ne hne).trans hslot, hgen, he⟩

theorem destroy_of_dead (he : a.entity? h = none) : a.destroy h = a := by
  have htake : a.take h = none := Option.map_eq_none_iff.2 he
  rw [destroy_eq, htake]

/-- What a handle refers to has no components, if it lives at all. -/
def Leaf (a : Arena) (h : Handle) : Prop := ∀ e, a.entity? h = some e → e.components = []

/-- Taking out entities makes no new lists. -/
theorem Leaf.of_taken {gone : Prop} [Decidable gone] (hl : a.Leaf h)
    (htaken : a'.entity? h = if gone then none else a.entity? h) : a'.Leaf h := by
  intro e he
  rw [htaken] at he
  split at he
  next => cases he
  next => exact hl e he

/-- Destroying what has no components takes out nothing else. -/
theorem Leaf.entity?_destroy (hl : a.Leaf h) (g : Handle) :
    (a.destroy h).entity? g = if g.Meets h then none else a.entity? g := by
  cases he : a.entity? h with
  | none =>
      rw [destroy_of_dead he]
      split
      next hmeets => rw [entity?_congr hmeets, he]
      next => rfl
  | some e =>
      rw [destroy_eq, take_of_alive he]
      simp only [hl e he, List.foldl_nil]
      rw [(SameEntities.recycle _).entity?, (SameEntities.releaseAll _).entity?,
        entity?_take (take_of_alive he)]

theorem entity?_destroyEach (hs : List Handle) (g : Handle) : ∀ {a : Arena},
    (∀ h ∈ hs, a.Leaf h) →
    (hs.foldl destroy a).entity? g = if ∃ h ∈ hs, g.Meets h then none else a.entity? g := by
  induction hs with
  | nil => exact fun _ => by simp
  | cons h hs ih =>
      intro a hleaf
      have hfirst := (hleaf h List.mem_cons_self).entity?_destroy
      have hrest : ∀ c ∈ hs, (a.destroy h).Leaf c := fun c hc =>
        (hleaf c (List.mem_cons_of_mem _ hc)).of_taken (hfirst c)
      rw [List.foldl_cons, ih hrest, hfirst]
      by_cases hmet : ∃ h ∈ hs, g.Meets h
      · obtain ⟨c, hc, hmeets⟩ := hmet
        rw [if_pos ⟨c, hc, hmeets⟩, if_pos ⟨c, List.mem_cons_of_mem h hc, hmeets⟩]
      · simp only [hmet, if_false, List.mem_cons, exists_eq_or_imp, or_false]

/-- A destruction takes out the entity and all that is on its list, when
nothing there has a list of its own. -/
theorem entity?_destroy (he : a.entity? h = some e) (hleaf : ∀ c ∈ e.components, a.Leaf c)
    (g : Handle) :
    (a.destroy h).entity? g
      = if g.Meets h ∨ ∃ c ∈ e.components, g.Meets c then none else a.entity? g := by
  have hreleased : ∀ g, ((a.modify h fun slot => { slot with entity := none }).releaseAll
      e.values).entity? g = if g.Meets h then none else a.entity? g := fun g =>
    ((SameEntities.releaseAll _).entity? g).trans (entity?_take (take_of_alive he) g)
  rw [destroy_eq, take_of_alive he]
  simp only
  rw [(SameEntities.recycle _).entity?,
    entity?_destroyEach _ _ fun c hc => (hleaf c hc).of_taken (hreleased c), hreleased]
  by_cases hmeets : g.Meets h
  · simp [hmeets]
  · simp [hmeets]

/-- A sweep leaves every handle its entity, with other memory at most. -/
theorem Swept.entity? {alive : Handle → Bool} (hs : Swept alive a a') (g : Handle) :
    ∃ m, a'.entity? g = (a.entity? g).map (Entity.withMemory · m) := by
  cases he : a.entity? g with
  | none =>
      refine ⟨.empty 0, ?_⟩
      have hdead : a'.isAlive g = false := by
        rw [hs.isAlive]
        simp [Arena.isAlive, he]
      simpa [Arena.isAlive] using hdead
  | some e =>
      obtain ⟨slot, hslot, hgen, hentity⟩ := entity?_eq_some_iff.1 he
      obtain ⟨slot', hslot', hswept⟩ := hs.slot hslot
      obtain ⟨hsame, m, hm⟩ := hswept.entity e hentity
      exact ⟨m, entity?_eq_some_iff.2 ⟨slot', hslot', hsame.trans hgen, hm⟩⟩

/-- No handle that was issued meets the one of a new entity. -/
theorem Issued.not_meets_insert (hi : a.Issued h) (ho : Orderly a []) (e : Entity) :
    ¬ h.Meets (a.insert e).1 := by
  obtain ⟨slot, hslot, -, hcurrent⟩ := hi
  rintro ⟨hindex, hgen⟩
  rcases insert_cases ho e with ⟨-, heq⟩ | ⟨i, free, old, hfree, -, hold, -, heq⟩
  · rw [heq] at hindex
    have hlt := (List.getElem?_eq_some_iff.1 hslot).1
    have hlength : h.index = a.slots.length := hindex
    omega
  · rw [heq] at hindex hgen
    change h.index = i at hindex
    subst hindex
    rw [hold] at hslot
    cases hslot
    exact (hcurrent hgen.symm).1 (hfree ▸ List.mem_cons_self)

/-- Issued handles that meet are the same while their entity lives. -/
theorem Issued.eq_of_meets (hg : a.Issued g) (hh : a.Issued h) (hmeets : g.Meets h)
    (he : a.entity? h = some e) : g = h := by
  have hkind := hh.kind_eq he
  rw [← entity?_congr hmeets] at he
  obtain ⟨index, generation, kind⟩ := g
  obtain ⟨index', generation', kind'⟩ := h
  obtain ⟨rfl, rfl⟩ := hmeets
  have hsame : kind = kind' := (hg.kind_eq he).symm.trans hkind
  rw [hsame]

-- ============================================================ operations

/-- The handles that an operation is asked to act on. -/
def Op.subjects : Op → List Handle
  | attach part _ _ => [part]
  | destroy h | retain h | release h | write h _ => [h]
  | retainValue v | releaseValue v => v.handle?.toList
  | spawn _ | sweepMemory => []

/-- Puts an entity into a slot and its handle on the list of a part. -/
def insertOn (a : Arena) (part : Handle) (e : Entity) : Handle × Arena :=
  ((a.insert e).1, (a.insert e).2.modifyEntity part fun owner =>
    match owner.role with
    | .part components => { owner with role := .part (components ++ [(a.insert e).1]) }
    | .component .. => owner)

/-- Nothing becomes of any entity but that its memory is replaced. -/
def Refitted (a a' : Arena) : Prop :=
  ∀ g, ∃ m, a'.entity? g = (a.entity? g).map (Entity.withMemory · m)

theorem SameEntities.refitted (hs : SameEntities a a') : Refitted a a' := by
  intro g
  cases he : a.entity? g with
  | none => exact ⟨.empty 0, (hs.entity? g).trans he⟩
  | some e =>
      refine ⟨(e.memory?.getD (.empty 0)), ?_⟩
      rw [hs.entity? g, he, Option.map_some]
      obtain ⟨group, role⟩ := e
      cases role with
      | part components => rfl
      | component typeName parent memory => cases memory <;> rfl

theorem refitted_setMemory (h : Handle) (m : Memory) : Refitted a (a.setMemory h m) := by
  intro g
  by_cases hmeets : g.Meets h
  · exact ⟨m, by rw [setMemory, entity?_modifyEntity, if_pos hmeets]⟩
  · obtain ⟨m', hm'⟩ := (SameEntities.refl a).refitted g
    exact ⟨m', by rw [setMemory, entity?_modifyEntity, if_neg hmeets, ← hm']⟩

/-- A component is attached to a living part, or not at all. -/
theorem attach_cases (a : Arena) (part : Handle) (typeName : String) (memory : Option Memory) :
    (∃ group components, a.entity? part = some ⟨group, .part components⟩
        ∧ a.attach part typeName memory
          = .ok (a.insertOn part ⟨group, .component typeName part memory⟩))
      ∨ ((a.entity? part).map Entity.kind ≠ some .part
        ∧ a.attach part typeName memory = .error (.of .nullParameter "PART DOES NOT EXIST")) := by
  unfold attach
  split
  next group components hpart => exact .inl ⟨group, components, hpart, rfl⟩
  next hother =>
    refine .inr ⟨fun hkind => ?_, rfl⟩
    obtain ⟨⟨group, role⟩, he, hkind⟩ := Option.map_eq_some_iff.1 hkind
    cases role with
    | part components => exact hother group components he
    | component typeName parent memory => cases hkind

/-- What is found after that: the new entity, the part with a longer list,
and all else as it was. -/
theorem entity?_insertOn {part : Handle} {group : Nat} {components : List Handle}
    (ho : Orderly a []) (hpart : a.Issued part)
    (he : a.entity? part = some ⟨group, .part components⟩) (e : Entity) (g : Handle) :
    (a.insertOn part e).2.entity? g
      = if g.Meets (a.insertOn part e).1 then some e
        else if g.Meets part then some ⟨group, .part (components ++ [(a.insertOn part e).1])⟩
        else a.entity? g := by
  have hnew := hpart.not_meets_insert ho e
  show ((a.insert e).2.modifyEntity part _).entity? g = if g.Meets (a.insert e).1 then _ else _
  rw [entity?_modifyEntity, entity?_insert_iff ho]
  by_cases hmeets : g.Meets part
  · -- the part was there before, so its handle is not the new one
    have hother : ¬ g.Meets (a.insert e).1 := fun hg =>
      hnew ⟨hmeets.1.symm.trans hg.1, hmeets.2.symm.trans hg.2⟩
    rw [if_pos hmeets, if_neg hother, if_neg hother, if_pos hmeets, entity?_congr hmeets, he]
    rfl
  · rw [if_neg hmeets, if_neg hmeets]

end Arena

namespace Ledger

variable {l l' : Ledger}

/-- The ledgers of arenas that are worked on through handles that they have
issued. -/
inductive Reachable : Ledger → Prop where
  | start : Reachable start
  | step {l : Ledger} (before : Reachable l) (op : Arena.Op)
      (known : ∀ h ∈ op.subjects, h ∈ l.issued) : Reachable (l.enter op)

theorem Reachable.run (h : Reachable l) : Run Ledger.start l := by
  induction h with
  | start => exact .refl _
  | step _ op known ih =>
      refine ih.step op fun h hh => known h ?_
      cases op with
      | retain g =>
          cases hh
          exact List.mem_singleton_self _
      | retainValue v => exact Option.mem_toList.2 hh
      | _ => cases hh

-- ================================================================ owning

/-- Living components are on the lists of their parents, which are alive and
in the same group. A part's list is in the order of issue, and what is alive
on it belongs to the part. -/
structure Owned (l : Ledger) : Prop where
  component : ∀ {c e p}, c ∈ l.issued → l.arena.entity? c = some e → e.parent? = some p →
    p ∈ l.issued ∧ ∃ part, l.arena.entity? p = some part ∧ part.group = e.group
      ∧ c ∈ part.components
  part : ∀ {p part}, p ∈ l.issued → l.arena.entity? p = some part →
    part.components.Sublist l.issued.reverse
      ∧ ∀ c ∈ part.components, ∀ e, l.arena.entity? c = some e → e.parent? = some p

theorem owned_start : Owned start where
  component hc := by cases hc
  part hp := by cases hp

/-- What is on a part's list was issued. -/
theorem Owned.issued_of_mem {p c : Handle} {part : Entity} (ho : Owned l) (hp : p ∈ l.issued)
    (hpart : l.arena.entity? p = some part) (hc : c ∈ part.components) : c ∈ l.issued :=
  List.mem_reverse.1 ((ho.part hp hpart).1.subset hc)

/-- What is on a part's list has no list of its own. -/
theorem Owned.leaf_of_mem {p c : Handle} {part : Entity} (ho : Owned l) (hp : p ∈ l.issued)
    (hpart : l.arena.entity? p = some part) (hc : c ∈ part.components) : l.arena.Leaf c := by
  intro e he
  have hchild := (ho.part hp hpart).2 c hc e he
  refine List.eq_nil_iff_forall_not_mem.2 fun d hd => ?_
  rw [(Entity.parent?_of_mem hd).2] at hchild
  cases hchild

/-- Nothing is owned by another when memories are replaced. -/
theorem Owned.refit (ho : Owned l) (hissued : l'.issued = l.issued)
    (hrefitted : Arena.Refitted l.arena l'.arena) : Owned l' := by
  have hbefore : ∀ {g e'}, l'.arena.entity? g = some e' → ∃ e, l.arena.entity? g = some e
      ∧ e'.group = e.group ∧ e'.parent? = e.parent? ∧ e'.components = e.components := by
    intro g e' he'
    obtain ⟨m, hm⟩ := hrefitted g
    rw [hm] at he'
    obtain ⟨e, he, rfl⟩ := Option.map_eq_some_iff.1 he'
    exact ⟨e, he, e.withMemory_belongs m⟩
  refine ⟨fun {c e' p} hc he' hparent => ?_, fun {p part'} hp hpart' => ?_⟩
  · rw [hissued] at hc ⊢
    obtain ⟨e, he, hgroup, hsame, -⟩ := hbefore he'
    rw [hsame] at hparent
    obtain ⟨hp, part, hpart, hpartGroup, hmem⟩ := ho.component hc he hparent
    obtain ⟨m, hm⟩ := hrefitted p
    rw [hpart, Option.map_some] at hm
    obtain ⟨hgroup', -, hcomponents⟩ := part.withMemory_belongs m
    refine ⟨hp, _, hm, ?_, ?_⟩
    · rw [hgroup', hpartGroup, hgroup]
    · rw [hcomponents]
      exact hmem
  · rw [hissued] at hp ⊢
    obtain ⟨part, hpart, -, -, hcomponents⟩ := hbefore hpart'
    obtain ⟨hsublist, halive⟩ := ho.part hp hpart
    rw [hcomponents]
    refine ⟨hsublist, fun c hc e' he' => ?_⟩
    obtain ⟨e, he, -, hsame, -⟩ := hbefore he'
    rw [hsame]
    exact halive c hc e he

/-- A destruction leaves no component without its parent. -/
theorem Owned.destroy {h : Handle} (ho : Owned l) (hh : h ∈ l.issued)
    (hissued : l'.issued = l.issued) (harena : l'.arena = l.arena.destroy h) : Owned l' := by
  cases hdoomed : l.arena.entity? h with
  | none =>
      refine ho.refit hissued ?_
      rw [harena, Arena.destroy_of_dead hdoomed]
      exact (Arena.SameEntities.refl _).refitted
  | some doomed =>
      have hlookup : ∀ g, l'.arena.entity? g = if g.Meets h ∨ ∃ c ∈ doomed.components, g.Meets c
          then none else l.arena.entity? g := by
        rw [harena]
        exact Arena.entity?_destroy hdoomed fun c hc => ho.leaf_of_mem hh hdoomed hc
      have hbefore : ∀ {g e}, l'.arena.entity? g = some e → l.arena.entity? g = some e
          ∧ ¬(g.Meets h ∨ ∃ c ∈ doomed.components, g.Meets c) := by
        intro g e he
        rw [hlookup] at he
        split at he
        next => cases he
        next hspared => exact ⟨he, hspared⟩
      refine ⟨fun {c e p} hc he hparent => ?_, fun {p part} hp hpart => ?_⟩
      · rw [hissued] at hc ⊢
        obtain ⟨he, hspared⟩ := hbefore he
        obtain ⟨hp, part, hpart, hgroup, hmem⟩ := ho.component hc he hparent
        refine ⟨hp, part, ?_, hgroup, hmem⟩
        rw [hlookup, if_neg]
        · exact hpart
        rintro (hmeets | ⟨d, hd, hmeets⟩)
        · -- the parent is destroyed, so the component is too
          rw [Arena.entity?_congr hmeets, hdoomed] at hpart
          cases hpart
          exact hspared (.inr ⟨c, hmem, rfl, rfl⟩)
        · -- the parent would be a component itself
          rw [Arena.entity?_congr hmeets] at hpart
          rw [ho.leaf_of_mem hh hdoomed hd part hpart] at hmem
          cases hmem
      · rw [hissued] at hp ⊢
        obtain ⟨hsublist, halive⟩ := ho.part hp (hbefore hpart).1
        exact ⟨hsublist, fun c hc e he => halive c hc e (hbefore he).1⟩

/-- What is on a part's list is no part. -/
theorem Owned.not_part_of_mem {p c : Handle} {part e : Entity} (ho : Owned l) (hp : p ∈ l.issued)
    (hpart : l.arena.entity? p = some part) (hc : c ∈ part.components)
    (he : l.arena.entity? c = some e) : e.kind ≠ .part := by
  have hparent := (ho.part hp hpart).2 c hc e he
  obtain ⟨group, role⟩ := e
  cases role with
  | part components => cases hparent
  | component typeName parent memory => exact fun h => by cases h

/-- A new entity has an empty list. If it has a parent, that is a living
part, on whose list it is put; all else stays as it was. -/
theorem Owned.add {h : Handle} {e : Entity} (ho : Owned l) (hissued : l'.issued = h :: l.issued)
    (hnew : l'.arena.entity? h = some e) (hempty : e.components = [])
    (hparent : ∀ p, e.parent? = some p → p ∈ l.issued
      ∧ ∃ components, l.arena.entity? p = some ⟨e.group, .part components⟩
        ∧ l'.arena.entity? p = some ⟨e.group, .part (components ++ [h])⟩)
    (hold : ∀ g ∈ l.issued, e.parent? ≠ some g → l'.arena.entity? g = l.arena.entity? g) :
    Owned l' := by
  refine ⟨fun {c f p} hc hf hfparent => ?_, fun {p part} hp hpart => ?_⟩
  · rw [hissued] at hc ⊢
    rcases List.mem_cons.1 hc with rfl | hc
    · rw [hnew] at hf
      cases hf
      obtain ⟨hp, components, -, hp'⟩ := hparent p hfparent
      exact ⟨List.mem_cons_of_mem _ hp, _, hp', rfl, List.mem_append_right _ List.mem_cons_self⟩
    · have hnot : e.parent? ≠ some c := by
        intro heq
        obtain ⟨-, components, -, hc'⟩ := hparent c heq
        rw [hc'] at hf
        cases hf
        cases hfparent
      rw [hold c hc hnot] at hf
      obtain ⟨hp, part, hpart, hgroup, hmem⟩ := ho.component hc hf hfparent
      refine ⟨List.mem_cons_of_mem _ hp, ?_⟩
      by_cases heq : e.parent? = some p
      · obtain ⟨-, components, hp, hp'⟩ := hparent p heq
        rw [hp] at hpart
        cases hpart
        exact ⟨_, hp', hgroup, List.mem_append_left _ hmem⟩
      · exact ⟨part, (hold p hp heq).trans hpart, hgroup, hmem⟩
  · rw [hissued] at hp ⊢
    rw [List.reverse_cons]
    rcases List.mem_cons.1 hp with rfl | hp
    · rw [hnew] at hpart
      cases hpart
      rw [hempty]
      exact ⟨List.nil_sublist _, fun c hc => by cases hc⟩
    · -- what was on a list before is no part, so it is not the one that changes
      have hkept : ∀ {old}, l.arena.entity? p = some old → ∀ c ∈ old.components,
          l'.arena.entity? c = l.arena.entity? c := by
        intro old hpold c hc
        refine hold c (ho.issued_of_mem hp hpold hc) fun heq => ?_
        obtain ⟨-, components, hc', -⟩ := hparent c heq
        exact ho.not_part_of_mem hp hpold hc hc' rfl
      by_cases heq : e.parent? = some p
      · obtain ⟨-, components, hpold, hp'⟩ := hparent p heq
        rw [hp'] at hpart
        cases hpart
        obtain ⟨hsublist, halive⟩ := ho.part hp hpold
        refine ⟨hsublist.append (List.Sublist.refl [h]), fun c hc f hf => ?_⟩
        rcases List.mem_append.1 hc with hc | hc
        · rw [hkept hpold c hc] at hf
          exact halive c hc f hf
        · rw [List.mem_singleton.1 hc, hnew] at hf
          cases hf
          exact heq
      · rw [hold p hp heq] at hpart
        obtain ⟨hsublist, halive⟩ := ho.part hp hpart
        refine ⟨hsublist.trans (List.sublist_append_left _ _), fun c hc f hf => ?_⟩
        rw [hkept hpart c hc] at hf
        exact halive c hc f hf

/-- Every operation on issued handles keeps the order of things. -/
theorem Owned.enter (ho : Owned l) (hok : Ok l) (op : Arena.Op)
    (hknown : ∀ h ∈ op.subjects, h ∈ l.issued) : Owned (l.enter op) := by
  cases op with
  | spawn group =>
      have hlookup := Arena.entity?_insert_iff hok.orderly ⟨group, .part []⟩
      refine ho.add rfl ((hlookup _).trans (if_pos ⟨rfl, rfl⟩)) rfl (fun p hp => by cases hp) ?_
      intro g hg _
      exact (hlookup g).trans (if_neg ((hok.issued g hg).not_meets_insert hok.orderly _))
  | attach part typeName memory =>
      have hpart : part ∈ l.issued := hknown part (List.mem_singleton_self part)
      rcases l.arena.attach_cases part typeName memory with
        ⟨group, components, he, hattach⟩ | ⟨-, hattach⟩
      · have happly : (Arena.Op.attach part typeName memory).apply l.arena
            = (some (l.arena.insertOn part ⟨group, .component typeName part memory⟩).1,
                (l.arena.insertOn part ⟨group, .component typeName part memory⟩).2) := by
          simp only [Arena.Op.apply, hattach]
        have hlookup := Arena.entity?_insertOn hok.orderly (hok.issued part hpart) he
          ⟨group, .component typeName part memory⟩
        have hfresh : ∀ g ∈ l.issued,
            ¬ g.Meets (l.arena.insertOn part ⟨group, .component typeName part memory⟩).1 :=
          fun g hg => (hok.issued g hg).not_meets_insert hok.orderly _
        unfold Ledger.enter
        rw [happly]
        refine ho.add rfl ((hlookup _).trans (if_pos ⟨rfl, rfl⟩)) rfl (fun p hp => ?_) ?_
        · cases hp
          refine ⟨hpart, components, he, ?_⟩
          exact (hlookup part).trans ((if_neg (hfresh part hpart)).trans (if_pos ⟨rfl, rfl⟩))
        · intro g hg hother
          have hmeets : ¬ g.Meets part := fun hmeets => hother
            (congrArg some ((hok.issued g hg).eq_of_meets (hok.issued part hpart) hmeets he).symm)
          exact (hlookup g).trans ((if_neg (hfresh g hg)).trans (if_neg hmeets))
      · have happly : (Arena.Op.attach part typeName memory).apply l.arena = (none, l.arena) := by
          simp only [Arena.Op.apply, hattach]
        unfold Ledger.enter
        rw [happly]
        exact ho.refit rfl (Arena.SameEntities.refl _).refitted
  | destroy h => exact ho.destroy (hknown h (List.mem_singleton_self h)) rfl rfl
  | retain h => exact ho.refit rfl (Arena.SameEntities.retainValue (.entity h)).refitted
  | release h => exact ho.refit rfl (Arena.SameEntities.release h).refitted
  | retainValue v => exact ho.refit rfl (Arena.SameEntities.retainValue v).refitted
  | releaseValue v => exact ho.refit rfl (Arena.SameEntities.releaseValue v).refitted
  | write device m => exact ho.refit rfl (Arena.refitted_setMemory device m)
  | sweepMemory => exact ho.refit rfl l.arena.sweepMemory_swept.1.entity?

/-- A run keeps it, while no generation wraps. -/
theorem Reachable.owned (h : Reachable l) (hbound : ∀ i, l.recycled.count i < UInt32.size) :
    Owned l := by
  induction h with
  | start => exact owned_start
  | @step l before op known ih =>
      have hless : ∀ i, l.recycled.count i < UInt32.size := fun i =>
        Nat.lt_of_le_of_lt (count_le_enter l op i) (hbound i)
      exact (ih hless).enter (ok_start.run before.run hless).1 op known

-- ============================================================= ownership

/-- Whether a handle is to a living component of a type on a part. -/
def isOn (a : Arena) (part : Handle) (typeName : String) (c : Handle) : Bool :=
  (a.entity? c).any fun e => e.parent? = some part ∧ e.typeName = typeName

/-- A component is on the list of its parent once. -/
theorem Owned.count_eq_one {c p : Handle} {part : Entity} (ho : Owned l) (hok : Ok l)
    (hp : p ∈ l.issued) (hpart : l.arena.entity? p = some part) (hc : c ∈ part.components) :
    part.components.count c = 1 := by
  have hdistinct : part.components.Nodup :=
    (ho.part hp hpart).1.nodup (List.nodup_reverse.2 hok.distinct)
  exact List.count_eq_one_of_mem hdistinct hc

/-- The living components of a part are in the order of issue. -/
theorem Owned.components_eq {p : Handle} (ho : Owned l) (hok : Ok l) (hp : p ∈ l.issued)
    (typeName : String) :
    l.arena.components p typeName = l.issued.reverse.filter (isOn l.arena p typeName) := by
  have hlisted : ∀ c ∈ l.issued, isOn l.arena p typeName c → ∃ part,
      l.arena.entity? p = some part ∧ c ∈ part.components := by
    intro c hc hon
    obtain ⟨e, he, hbelongs⟩ := (Option.any_eq_true _ _).1 hon
    obtain ⟨-, part, hpart, -, hmem⟩ := ho.component hc he (of_decide_eq_true hbelongs).1
    exact ⟨part, hpart, hmem⟩
  cases hpart : l.arena.entity? p with
  | none =>
      have hnone : l.issued.reverse.filter (isOn l.arena p typeName) = [] := by
        refine List.filter_eq_nil_iff.2 fun c hc hon => ?_
        obtain ⟨part, hpart', -⟩ := hlisted c (List.mem_reverse.1 hc) hon
        rw [hpart] at hpart'
        cases hpart'
      unfold Arena.components
      rw [hpart, hnone]
  | some part =>
      obtain ⟨hsublist, halive⟩ := ho.part hp hpart
      -- what is alive on the list belongs to the part, so only its type is asked for
      have hfilter : l.arena.components p typeName
          = part.components.filter (isOn l.arena p typeName) := by
        unfold Arena.components
        rw [hpart]
        refine List.filter_congr fun c hc => ?_
        unfold isOn
        cases he : l.arena.entity? c with
        | none => rfl
        | some e => simp [halive c hc e he, beq_eq_decide]
      rw [hfilter]
      refine (hsublist.filter _).eq_of_length_le (List.Nodup.length_le_of_subset ?_ ?_)
      · exact (List.nodup_reverse.2 hok.distinct).filter _
      · intro c hc
        obtain ⟨hc, hon⟩ := List.mem_filter.1 hc
        obtain ⟨part', hpart', hmem⟩ := hlisted c (List.mem_reverse.1 hc) hon
        rw [hpart] at hpart'
        cases hpart'
        exact List.mem_filter.2 ⟨hmem, hon⟩

/-- A destruction takes out the entity and what has it for a parent, and
nothing else. -/
theorem Owned.entity?_destroy {h g : Handle} (ho : Owned l) (hok : Ok l) (hh : h ∈ l.issued)
    (hg : g ∈ l.issued) :
    (l.arena.destroy h).entity? g
      = if g = h ∨ (l.arena.entity? g).bind Entity.parent? = some h then none
        else l.arena.entity? g := by
  cases he : l.arena.entity? g with
  | none =>
      -- what is gone stays so
      have hgone : (l.arena.destroy h).entity? g = none := by
        cases hdoomed : l.arena.entity? h with
        | none => rw [Arena.destroy_of_dead hdoomed, he]
        | some doomed =>
            rw [Arena.entity?_destroy hdoomed fun c hc => ho.leaf_of_mem hh hdoomed hc, he]
            split <;> rfl
      rw [hgone]
      split <;> rfl
  | some e =>
      cases hdoomed : l.arena.entity? h with
      | none =>
          have hspared : ¬(g = h ∨ (some e).bind Entity.parent? = some h) := by
            rintro (rfl | hparent)
            · rw [he] at hdoomed
              cases hdoomed
            · obtain ⟨-, part, hpart, -⟩ := ho.component hg he hparent
              rw [hdoomed] at hpart
              cases hpart
          rw [Arena.destroy_of_dead hdoomed, he, if_neg hspared]
      | some doomed =>
          have hsame : (g.Meets h ∨ ∃ c ∈ doomed.components, g.Meets c)
              ↔ g = h ∨ (some e).bind Entity.parent? = some h := by
            constructor
            · rintro (hmeets | ⟨c, hc, hmeets⟩)
              · exact .inl ((hok.issued g hg).eq_of_meets (hok.issued h hh) hmeets hdoomed)
              · have hissued := ho.issued_of_mem hh hdoomed hc
                have halive := (Arena.entity?_congr hmeets).symm.trans he
                have heq := (hok.issued g hg).eq_of_meets (hok.issued c hissued) hmeets halive
                exact .inr ((ho.part hh hdoomed).2 g (heq ▸ hc) e he)
            · rintro (rfl | hparent)
              · exact .inl ⟨rfl, rfl⟩
              · obtain ⟨-, part, hpart, -, hmem⟩ := ho.component hg he hparent
                rw [hdoomed] at hpart
                cases hpart
                exact .inr ⟨g, hmem, rfl, rfl⟩
          rw [Arena.entity?_destroy hdoomed fun c hc => ho.leaf_of_mem hh hdoomed hc, he]
          simp only [hsame]

/-- Parts own their components. While no slot is recycled `2 ^ 32` times, a
living component has a living part of its group for its parent and is on
its list once. The components of a type on a part are the living ones that
were attached to it, in the order in which their handles were issued. To
what is no living part nothing is attached, and nothing changes. An entity
that is destroyed takes along what has it for a parent; every other entity
is left as it was. -/
theorem parts_own_components (hreachable : Reachable l)
    (hbound : ∀ i, l.recycled.count i < UInt32.size) :
    (∀ c ∈ l.issued, ∀ e, l.arena.entity? c = some e → e.kind = .component →
        ∃ p part, e.parent? = some p ∧ l.arena.entity? p = some part ∧ part.kind = .part
          ∧ part.group = e.group ∧ part.components.count c = 1)
      ∧ (∀ p ∈ l.issued, ∀ typeName, l.arena.components p typeName
          = l.issued.reverse.filter (isOn l.arena p typeName))
      ∧ (∀ p typeName memory,
          (l.arena.attach p typeName memory = .error (.of .nullParameter "PART DOES NOT EXIST")
              ↔ (l.arena.entity? p).map Entity.kind ≠ some .part)
            ∧ ((l.arena.entity? p).map Entity.kind ≠ some .part →
                (Arena.Op.attach p typeName memory).apply l.arena = (none, l.arena)))
      ∧ ∀ h ∈ l.issued, ∀ g ∈ l.issued, (l.arena.destroy h).entity? g
          = if g = h ∨ (l.arena.entity? g).bind Entity.parent? = some h then none
            else l.arena.entity? g := by
  obtain ⟨hok, -⟩ := ok_start.run hreachable.run hbound
  have ho := hreachable.owned hbound
  refine ⟨fun c hc e he hkind => ?_, fun p hp typeName => ho.components_eq hok hp typeName,
    fun p typeName memory => ?_, fun h hh g hg => ho.entity?_destroy hok hh hg⟩
  · obtain ⟨p, hparent⟩ : ∃ p, e.parent? = some p := by
      obtain ⟨group, role⟩ := e
      cases role with
      | part components => cases hkind
      | component typeName parent memory => exact ⟨parent, rfl⟩
    obtain ⟨hp, part, hpart, hgroup, hmem⟩ := ho.component hc he hparent
    exact ⟨p, part, hparent, hpart, (Entity.parent?_of_mem hmem).1, hgroup,
      ho.count_eq_one hok hp hpart hmem⟩
  · rcases l.arena.attach_cases p typeName memory with
      ⟨group, components, he, hattach⟩ | ⟨hkind, hattach⟩
    · rw [hattach, he]
      exact ⟨⟨fun h => (nomatch h), fun hkind => absurd rfl hkind⟩, fun hkind => absurd rfl hkind⟩
    · exact ⟨⟨fun _ => hkind, fun _ => hattach⟩, fun _ => by simp only [Arena.Op.apply, hattach]⟩

/-- A part with a memory and a lamp, and a second part that is held in the
memory. The lamp is destroyed, and its slot goes to a lamp on the second
part. -/
def relit : Ledger :=
  let made := (start.enter (.spawn 1)).enter (.spawn 2)
  let held := made.enter (.attach ⟨0, 0, .part⟩ Entity.memoryType
    (some ⟨[some (.entity ⟨1, 0, .part⟩)], 0, none, none⟩))
  let lit := (held.enter (.retain ⟨1, 0, .part⟩)).enter (.attach ⟨0, 0, .part⟩ "lamp" none)
  (lit.enter (.destroy ⟨3, 0, .component⟩)).enter (.attach ⟨1, 0, .part⟩ "lamp" none)

theorem reachable_relit : Reachable relit := by
  have hfirst : Reachable (start.enter (.spawn 1)) := .step .start _ (by simp [Arena.Op.subjects])
  have hsecond := hfirst.step (.spawn 2) (by simp [Arena.Op.subjects])
  have hheld := hsecond.step (.attach ⟨0, 0, .part⟩ Entity.memoryType
    (some ⟨[some (.entity ⟨1, 0, .part⟩)], 0, none, none⟩)) (by decide)
  have hretain := hheld.step (.retain ⟨1, 0, .part⟩) (by decide)
  have hlit := hretain.step (.attach ⟨0, 0, .part⟩ "lamp" none) (by decide)
  have hout := hlit.step (.destroy ⟨3, 0, .component⟩) (by decide)
  exact hout.step (.attach ⟨1, 0, .part⟩ "lamp" none) (by decide)

/-- The first part still lists the slot of the second part's lamp. It does
not take that lamp along. -/
theorem parts_own_components_relit :
    ((relit.arena.entity? ⟨0, 0, .part⟩).map Entity.components
        = some [⟨2, 0, .component⟩, ⟨3, 0, .component⟩])
      ∧ relit.arena.components ⟨0, 0, .part⟩ "lamp" = []
      ∧ relit.arena.components ⟨1, 0, .part⟩ "lamp" = [⟨3, 1, .component⟩]
      ∧ relit.arena.attach ⟨3, 0, .component⟩ "lamp" none
          = .error (.of .nullParameter "PART DOES NOT EXIST")
      ∧ (relit.arena.destroy ⟨0, 0, .part⟩).entity? ⟨2, 0, .component⟩ = none
      ∧ (relit.arena.destroy ⟨0, 0, .part⟩).entity? ⟨3, 1, .component⟩
          = relit.arena.entity? ⟨3, 1, .component⟩ := by
  have hrecycled : relit.recycled = [3] := by decide
  have hbound : ∀ i, relit.recycled.count i < UInt32.size := fun i => by
    rw [hrecycled]
    exact Nat.lt_of_le_of_lt List.count_le_length (by decide)
  obtain ⟨-, hcomponents, hattach, hdestroy⟩ := parts_own_components reachable_relit hbound
  refine ⟨by decide, (hcomponents _ (by decide) _).trans (by decide),
    (hcomponents _ (by decide) _).trans (by decide), (hattach _ _ _).1.2 (by decide), ?_, ?_⟩
  · rw [hdestroy _ (by decide) _ (by decide), if_pos (by decide)]
  · rw [hdestroy _ (by decide) _ (by decide), if_neg (by decide)]

end Ledger

end TickScript
