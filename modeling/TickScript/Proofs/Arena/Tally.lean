/-
Usage counts of the arena.

# The tally

`Tally a hs` says that the arena's usage counts are right for the handles
`hs`: each slot has as many usages as there are handles to it in `hs`,
each of these handles is of its slot's generation, and the slots to be
reused are distinct and empty, with no usages. The handles stand for the
places that hold them, one for each place, so their order is immaterial
(`Tally.perm`).

Every change of usages is one of two: a place takes a handle to a living
entity (`Tally.retain`), or a place gives one up (`Tally.release`). A
handle that is given up has a usage to drop, since it is one of those
counted, so no release finds a count at zero. A slot moves on to its next
generation only while no handle to it is counted (`Tally.recycle`).

# Where the handles are

Some places are in the arena itself: the memories of living components,
whose handles are `Arena.stored`. `Balanced a outside` is the tally of
these and of the handles held elsewhere. Destroying an entity turns the
handles of its memory loose and then releases them, so it keeps the
balance; so do the other changes that entities go through.
-/
import Mathlib.Data.List.Perm.Basic
import TickScript.Arena

namespace TickScript

open List (Perm)

-- ================================================================ places

/-- Two lists that differ in one place, each beside what the other has
there, hold the same. -/
theorem cons_set_perm {α : Type} {l : List α} {i : Nat} {x y : α} (h : l[i]? = some x) :
    Perm (x :: l.set i y) (y :: l) := by
  obtain ⟨hi, rfl⟩ := List.getElem?_eq_some_iff.1 h
  have hset : Perm (l.set i y) (y :: l.eraseIdx i) := List.set_perm_cons_eraseIdx hi y
  have hself : Perm (l[i] :: l.eraseIdx i) l := List.getElem_cons_eraseIdx_perm hi
  calc
    Perm (l[i] :: l.set i y) (l[i] :: y :: l.eraseIdx i) := hset.cons _
    Perm _ (y :: l[i] :: l.eraseIdx i) := .swap ..
    Perm _ (y :: l) := hself.cons _

/-- What comes in and goes out at one place comes in and goes out of all
places. -/
theorem perm_within {α : Type} {into out old new : List α} (h : Perm (into ++ old) (out ++ new))
    (before after : List α) :
    Perm (into ++ (before ++ old ++ after)) (out ++ (before ++ new ++ after)) := by
  have hmove : ∀ xs ys : List α,
      Perm (xs ++ (before ++ ys ++ after)) (before ++ (xs ++ ys ++ after)) := by
    intro xs ys
    rw [List.append_assoc before, List.append_assoc xs]
    exact List.perm_append_comm_assoc ..
  calc
    Perm (into ++ (before ++ old ++ after)) (before ++ (into ++ old ++ after)) := hmove ..
    Perm _ (before ++ (out ++ new ++ after)) := (h.append_right after).append_left before
    Perm _ (out ++ (before ++ new ++ after)) := (hmove ..).symm

/-- The handles among some values. -/
def handlesOf (vs : List Value) : List Handle := vs.filterMap Value.handle?

@[simp] theorem handlesOf_nil : handlesOf [] = [] := rfl

@[simp] theorem handlesOf_cons (v : Value) (vs : List Value) :
    handlesOf (v :: vs) = v.handle?.toList ++ handlesOf vs := by
  unfold handlesOf
  cases h : v.handle? <;> simp [h]

@[simp] theorem handlesOf_append (vs ws : List Value) :
    handlesOf (vs ++ ws) = handlesOf vs ++ handlesOf ws := List.filterMap_append

/-- The order of the values does not matter to how often each handle is among
them. -/
theorem handlesOf_perm {vs ws : List Value} (h : Perm vs ws) :
    Perm (handlesOf vs) (handlesOf ws) := h.filterMap _

/-- How many of some handles are to a slot. -/
def usagesOf (hs : List Handle) (i : Nat) : Nat := hs.countP fun h => h.index = i

/-- One more handle to a slot is one more usage. -/
theorem usagesOf_cons_self (h : Handle) (hs : List Handle) :
    usagesOf (h :: hs) h.index = usagesOf hs h.index + 1 := by
  simp [usagesOf]

/-- A handle to another slot is none. -/
theorem usagesOf_cons_ne {h : Handle} {i : Nat} (hs : List Handle) (hi : i ≠ h.index) :
    usagesOf (h :: hs) i = usagesOf hs i := by
  simp [usagesOf, Ne.symm hi]

/-- A slot that a handle is to has a usage. -/
theorem usagesOf_pos {h : Handle} {hs : List Handle} (hmem : h ∈ hs) :
    0 < usagesOf hs h.index :=
  List.countP_pos_iff.2 ⟨h, hmem, by simp⟩

/-- The handles that a component's memory holds. -/
def Slot.stored (slot : Slot) : List Handle :=
  match slot.entity with
  | some e => handlesOf e.values
  | none => []

/-- The handles that the memories of living components hold. -/
def Arena.stored (a : Arena) : List Handle := a.slots.flatMap Slot.stored

namespace Arena

-- =========================================================== single slots

variable {a : Arena} {h : Handle} {slot : Slot}

/-- A handle finds its slot while that is of its generation. -/
theorem slot?_eq_some_iff :
    a.slot? h = some slot
      ↔ a.slots[h.index]? = some slot ∧ slot.generation = h.generation := by
  simp [slot?, Option.filter_eq_some_iff]

/-- The slot that is found changes in place. -/
theorem modify_eq (f : Slot → Slot) (hslot : a.slot? h = some slot) :
    a.modify h f = { a with slots := a.slots.set h.index (f slot) } := by
  simp [modify, hslot]

/-- A stale handle changes nothing. -/
theorem modify_eq_self (f : Slot → Slot) (hslot : a.slot? h = none) : a.modify h f = a := by
  simp [modify, hslot]

/-- The slot of a living entity. -/
theorem isAlive_iff : a.isAlive h ↔ ∃ slot e, a.slot? h = some slot ∧ slot.entity = some e := by
  simp [isAlive, entity?, Option.isSome_iff_exists, Option.bind_eq_some_iff]
  tauto

/-- Who is alive depends on which slots are filled, not on what with. -/
theorem isAlive_modify {f : Slot → Slot} (hgeneration : ∀ slot, (f slot).generation = slot.generation)
    (hentity : ∀ slot, (f slot).entity.isSome = slot.entity.isSome) (g : Handle) :
    (a.modify h f).isAlive g = a.isAlive g := by
  cases hslot : a.slot? h with
  | none => rw [modify_eq_self f hslot]
  | some slot =>
      have hindex := (slot?_eq_some_iff.1 hslot).1
      have hlt : h.index < a.slots.length := (List.getElem?_eq_some_iff.1 hindex).1
      rw [modify_eq f hslot]
      unfold isAlive entity? slot?
      by_cases hi : h.index = g.index
      · rw [← hi, List.getElem?_set_self hlt, hindex]
        by_cases hgen : slot.generation = g.generation <;>
          simp [Option.filter, hgeneration, hentity, hgen]
      · rw [List.getElem?_set_ne hi]

/-- Other slots stay as they are, whatever becomes of one. -/
theorem stored_set {i : Nat} (slot' : Slot) (hslot : a.slots[i]? = some slot) :
    Perm (slot.stored ++ ({ a with slots := a.slots.set i slot' } : Arena).stored)
      (slot'.stored ++ a.stored) := by
  have hperm := (cons_set_perm (y := slot') hslot).flatMap_right Slot.stored
  rw [List.flatMap_cons, List.flatMap_cons] at hperm
  exact hperm

/-- A slot that holds the same handles as before changes nothing about
those stored. -/
theorem stored_set_same {i : Nat} {slot' : Slot} (hslot : a.slots[i]? = some slot)
    (hsame : slot'.stored = slot.stored) (free : List Nat) :
    (⟨a.slots.set i slot', free⟩ : Arena).stored = a.stored := by
  obtain ⟨hi, rfl⟩ := List.getElem?_eq_some_iff.1 hslot
  have hmap : (a.slots.set i slot').map Slot.stored = a.slots.map Slot.stored := by
    have hi' : i < (a.slots.map Slot.stored).length := by simpa using hi
    rw [List.map_set, hsame, ← List.getElem_map Slot.stored (h := hi'), List.set_getElem_self]
  unfold stored
  rw [List.flatMap_def, List.flatMap_def, hmap]

theorem stored_modify {f : Slot → Slot} (hf : ∀ slot, (f slot).stored = slot.stored) :
    (a.modify h f).stored = a.stored := by
  cases hslot : a.slot? h with
  | none => rw [modify_eq_self f hslot]
  | some slot =>
      rw [modify_eq f hslot]
      exact stored_set_same (slot?_eq_some_iff.1 hslot).1 (hf slot) _

theorem stored_recycle (i : Nat) : (a.recycle i).stored = a.stored := by
  unfold recycle
  split
  next slot hslot =>
    split
    next =>
      have hsame : Slot.stored { slot with generation := slot.generation + 1 } = slot.stored := rfl
      exact stored_set_same hslot hsame _
    next => rfl
  next => rfl

theorem stored_retainValue (v : Value) : (a.retainValue v).stored = a.stored := by
  cases v with
  | entity h => exact stored_modify fun _ => rfl
  | _ => rfl

theorem stored_releaseValue (v : Value) : (a.releaseValue v).stored = a.stored := by
  cases v with
  | entity h =>
      show (a.release h).stored = _
      unfold release
      split
      next =>
        rw [stored_recycle]
        exact stored_modify fun _ => rfl
      next => rfl
  | _ => rfl

/-- Usages may change; what memories hold does not. -/
theorem stored_releaseAll (vs : List Value) : (a.releaseAll vs).stored = a.stored := by
  unfold releaseAll
  induction vs generalizing a with
  | nil => rfl
  | cons v vs ih => rw [List.foldl_cons, ih, stored_releaseValue]

theorem stored_exchange (v : Value) (old : Option Value) :
    (a.exchange v old).stored = a.stored := by
  unfold exchange
  rw [stored_releaseAll, stored_retainValue]

end Arena

-- ================================================================= tally

/-- The usage counts of an arena are right for the handles: one handle
for each place that holds it. -/
structure Tally (a : Arena) (hs : List Handle) : Prop where
  usings : ∀ {i slot}, a.slots[i]? = some slot → slot.usings = usagesOf hs i
  current : ∀ {h}, h ∈ hs → ∃ slot, a.slot? h = some slot
  reusable : ∀ {i}, i ∈ a.free →
    ∃ slot, a.slots[i]? = some slot ∧ slot.entity = none ∧ slot.usings = 0
  distinct : a.free.Nodup

namespace Tally

open Arena

variable {a : Arena} {h : Handle} {hs hs' : List Handle} {slot : Slot}

theorem perm (ht : Tally a hs) (hperm : Perm hs hs') : Tally a hs' where
  usings hslot := (ht.usings hslot).trans (hperm.countP_eq _)
  current hmem := ht.current (hperm.mem_iff.2 hmem)
  reusable := ht.reusable
  distinct := ht.distinct

/-- A slot that is to be reused has no entity and no usages. -/
theorem unused {i : Nat} (ht : Tally a hs) (hslot : a.slots[i]? = some slot)
    (hfree : i ∈ a.free) : slot.entity = none ∧ slot.usings = 0 := by
  obtain ⟨slot', hslot', hunused⟩ := ht.reusable hfree
  rw [hslot] at hslot'
  cases hslot'
  exact hunused

/-- A handle that is counted is of its slot's generation, and its slot
has a usage and is in use. -/
theorem held (ht : Tally a hs) (hmem : h ∈ hs) :
    ∃ slot, a.slot? h = some slot ∧ 0 < slot.usings ∧ h.index ∉ a.free := by
  obtain ⟨slot, hslot⟩ := ht.current hmem
  have hindex := (slot?_eq_some_iff.1 hslot).1
  have hpos : 0 < slot.usings := by
    rw [ht.usings hindex]
    exact usagesOf_pos hmem
  refine ⟨slot, hslot, hpos, fun hfree => ?_⟩
  have hzero := (ht.unused hindex hfree).2
  omega

/-- A counted handle to a slot is of the slot's generation. -/
theorem generation_eq {i : Nat} (ht : Tally a hs) (hslot : a.slots[i]? = some slot)
    (hmem : h ∈ hs) (hi : h.index = i) : slot.generation = h.generation := by
  obtain ⟨slot', hslot'⟩ := ht.current hmem
  obtain ⟨hindex, hgen⟩ := slot?_eq_some_iff.1 hslot'
  rw [hi, hslot] at hindex
  cases hindex
  exact hgen

/-- What a change of one slot, and of those to be reused, must do to keep
the tally, for handles that may differ in those to that slot. -/
theorem set {i : Nat} {slot' : Slot} {free : List Nat} (ht : Tally a hs)
    (hslot : a.slots[i]? = some slot)
    (husings : slot'.usings = usagesOf hs' i)
    (hothers : ∀ j, j ≠ i → usagesOf hs' j = usagesOf hs j)
    (hcurrent : ∀ g ∈ hs', g.index = i → slot'.generation = g.generation)
    (hrest : ∀ g ∈ hs', g.index ≠ i → g ∈ hs)
    (hfree : i ∈ free → slot'.entity = none ∧ slot'.usings = 0)
    (hkept : ∀ j ∈ free, j ≠ i → j ∈ a.free) (hdistinct : free.Nodup) :
    Tally ⟨a.slots.set i slot', free⟩ hs' := by
  have hlt : i < a.slots.length := (List.getElem?_eq_some_iff.1 hslot).1
  have hself : (a.slots.set i slot')[i]? = some slot' := List.getElem?_set_self hlt
  have hother : ∀ {j}, j ≠ i → (a.slots.set i slot')[j]? = a.slots[j]? := fun hj =>
    List.getElem?_set_ne (Ne.symm hj)
  refine ⟨fun {j other} hj => ?_, fun {g} hg => ?_, fun {j} hj => ?_, hdistinct⟩
  · by_cases hji : j = i
    · rw [hji, hself] at hj
      cases hj
      rw [hji]
      exact husings
    · rw [hother hji] at hj
      rw [hothers j hji]
      exact ht.usings hj
  · by_cases hgi : g.index = i
    · refine ⟨slot', slot?_eq_some_iff.2 ⟨?_, hcurrent g hg hgi⟩⟩
      rw [hgi]
      exact hself
    · obtain ⟨old, hold⟩ := ht.current (hrest g hg hgi)
      obtain ⟨hindex, hgen⟩ := slot?_eq_some_iff.1 hold
      exact ⟨old, slot?_eq_some_iff.2 ⟨(hother hgi).trans hindex, hgen⟩⟩
  · by_cases hji : j = i
    · rw [hji]
      exact ⟨slot', hself, hfree (hji ▸ hj)⟩
    · rw [hother hji]
      exact ht.reusable (hkept j hj hji)

/-- What a change of the slot of a handle must do to keep the tally. -/
theorem modify {f : Slot → Slot} (ht : Tally a hs) (hslot : a.slot? h = some slot)
    (hgeneration : (f slot).generation = slot.generation)
    (husings : (f slot).usings = usagesOf hs' h.index)
    (hothers : ∀ i, i ≠ h.index → usagesOf hs' i = usagesOf hs i)
    (hcurrent : ∀ g ∈ hs', g = h ∨ g ∈ hs)
    (hfree : h.index ∈ a.free → (f slot).entity = none ∧ (f slot).usings = 0) :
    Tally (a.modify h f) hs' := by
  obtain ⟨hindex, hgen⟩ := slot?_eq_some_iff.1 hslot
  rw [modify_eq f hslot]
  refine ht.set hindex husings hothers (fun g hg hgi => ?_) (fun g hg hgi => ?_) hfree
    (fun _ hj _ => hj) ht.distinct
  · rw [hgeneration]
    rcases hcurrent g hg with rfl | hg
    · exact hgen
    · exact ht.generation_eq hindex hg hgi
  · exact (hcurrent g hg).resolve_left fun heq => hgi (congrArg Handle.index heq)

/-- A change of the entity in a slot that is not to be reused leaves the
tally. -/
theorem modify_entity {f : Slot → Slot} (ht : Tally a hs)
    (hgeneration : ∀ slot, (f slot).generation = slot.generation)
    (husings : ∀ slot, (f slot).usings = slot.usings)
    (hempty : ∀ slot, slot.entity = none → (f slot).entity = none) :
    Tally (a.modify h f) hs := by
  cases hslot : a.slot? h with
  | none =>
      rw [modify_eq_self f hslot]
      exact ht
  | some slot =>
      have hindex := (slot?_eq_some_iff.1 hslot).1
      refine ht.modify hslot (hgeneration slot) ?_ (fun _ _ => rfl) (fun g hg => .inr hg) ?_
      · rw [husings slot]
        exact ht.usings hindex
      · intro hfree
        obtain ⟨hnone, hzero⟩ := ht.unused hindex hfree
        exact ⟨hempty slot hnone, (husings slot).trans hzero⟩

-- ---------------------------------------------------------------- usages

/-- A place takes a handle to a living entity. -/
theorem retain (ht : Tally a hs) (halive : a.isAlive h) : Tally (a.retain h) (h :: hs) := by
  obtain ⟨slot, e, hslot, hentity⟩ := isAlive_iff.1 halive
  have hindex := (slot?_eq_some_iff.1 hslot).1
  refine ht.modify hslot rfl ?_ (fun i hi => usagesOf_cons_ne hs hi)
    (fun g hg => List.mem_cons.1 hg) fun hfree => ?_
  · rw [usagesOf_cons_self, ← ht.usings hindex]
  · have hnone := (ht.unused hindex hfree).1
    rw [hentity] at hnone
    cases hnone

/-- A slot is recycled only while no handle to it is counted. -/
theorem recycle (ht : Tally a hs) (i : Nat) : Tally (a.recycle i) hs := by
  unfold Arena.recycle
  split
  next slot hslot =>
    split
    next hcond =>
      obtain ⟨hnone, hzero, hnew⟩ := hcond
      have husings := ht.usings hslot
      refine ht.set hslot husings (fun _ _ => rfl) (fun g hg hgi => ?_) (fun g hg _ => hg)
        (fun _ => ⟨Option.isNone_iff_eq_none.1 hnone, hzero⟩)
        (fun j hj hji => List.mem_of_ne_of_mem hji hj) (List.nodup_cons.2 ⟨hnew, ht.distinct⟩)
      have hpos := usagesOf_pos hg
      rw [hgi] at hpos
      omega
    next => exact ht
  next => exact ht

/-- A place gives a handle up. Its slot has a usage to drop. -/
theorem release (ht : Tally a (h :: hs)) : Tally (a.release h) hs := by
  obtain ⟨slot, hslot, hpos, hused⟩ := ht.held List.mem_cons_self
  have hindex := (slot?_eq_some_iff.1 hslot).1
  unfold Arena.release
  rw [hslot]
  refine (ht.modify hslot rfl ?_ (fun i hi => (usagesOf_cons_ne hs hi).symm)
    (fun g hg => .inr (List.mem_cons_of_mem h hg)) fun hfree => absurd hfree hused).recycle _
  have husings := ht.usings hindex
  rw [usagesOf_cons_self] at husings
  simp only
  omega

/-- A value that is stored is counted, if it is a handle to what is alive. -/
theorem retainValue {v : Value} (ht : Tally a hs) (halive : ∀ h, v = .entity h → a.isAlive h) :
    Tally (a.retainValue v) (v.handle?.toList ++ hs) := by
  cases v with
  | entity h => exact ht.retain (halive h rfl)
  | _ => exact ht

/-- A value that is given up is no longer counted. -/
theorem releaseValue {v : Value} (ht : Tally a (v.handle?.toList ++ hs)) :
    Tally (a.releaseValue v) hs := by
  cases v with
  | entity h => exact release ht
  | _ => exact ht

/-- Several places give their values up. -/
theorem releaseAll : ∀ {vs : List Value} {a : Arena}, Tally a (handlesOf vs ++ hs) →
    Tally (a.releaseAll vs) hs
  | [], _, ht => ht
  | v :: vs, a, ht => by
      rw [handlesOf_cons, List.append_assoc] at ht
      have hrest : Tally ((a.releaseValue v).releaseAll vs) hs := releaseAll ht.releaseValue
      exact hrest

/-- One place takes a value and gives up what it held. -/
theorem exchange {v : Value} {old : Option Value} (ht : Tally a hs)
    (halive : ∀ h, v = .entity h → a.isAlive h)
    (hperm : Perm (v.handle?.toList ++ hs) (handlesOf old.toList ++ hs')) :
    Tally (a.exchange v old) hs' :=
  releaseAll ((ht.retainValue halive).perm hperm)

-- -------------------------------------------------------------- new slots

/-- All counted handles are to slots there are. -/
theorem index_lt (ht : Tally a hs) (hmem : h ∈ hs) : h.index < a.slots.length := by
  obtain ⟨slot, hslot⟩ := ht.current hmem
  exact (List.getElem?_eq_some_iff.1 (slot?_eq_some_iff.1 hslot).1).1

/-- A new slot starts without usages. -/
theorem append (ht : Tally a hs) {new : Slot} (hnew : new.usings = 0) :
    Tally ⟨a.slots ++ [new], a.free⟩ hs := by
  have hold : ∀ {i : Nat} {slot}, a.slots[i]? = some slot → (a.slots ++ [new])[i]? = some slot :=
    fun hslot => by
      rw [List.getElem?_append_left (List.getElem?_eq_some_iff.1 hslot).1]
      exact hslot
  refine ⟨fun {i slot} hslot => ?_, fun {g} hg => ?_, fun {i} hi => ?_, ht.distinct⟩
  · by_cases hi : i < a.slots.length
    · rw [List.getElem?_append_left hi] at hslot
      exact ht.usings hslot
    · obtain ⟨hlt, heq⟩ := List.getElem?_eq_some_iff.1 hslot
      have hi' : i = a.slots.length := by
        rw [List.length_append, List.length_singleton] at hlt
        omega
      subst hi'
      rw [List.getElem_concat_length rfl] at heq
      subst heq
      rw [hnew]
      refine (List.countP_eq_zero.2 fun g hg => ?_).symm
      have hlt := ht.index_lt hg
      simp only [decide_eq_true_eq]
      omega
  · obtain ⟨slot, hslot⟩ := ht.current hg
    obtain ⟨hindex, hgen⟩ := slot?_eq_some_iff.1 hslot
    exact ⟨slot, slot?_eq_some_iff.2 ⟨hold hindex, hgen⟩⟩
  · obtain ⟨slot, hslot, hempty⟩ := ht.reusable hi
    exact ⟨slot, hold hslot, hempty⟩

/-- A change of every slot at once that leaves usages, generations and
empty slots as they are. -/
theorem map {f : Slot → Slot} (ht : Tally a hs)
    (hgeneration : ∀ slot, (f slot).generation = slot.generation)
    (husings : ∀ slot, (f slot).usings = slot.usings)
    (hempty : ∀ slot, slot.entity = none → (f slot).entity = none) :
    Tally ⟨a.slots.map f, a.free⟩ hs := by
  have hmap : ∀ {i : Nat} {slot}, a.slots[i]? = some slot →
      (a.slots.map f)[i]? = some (f slot) := fun hslot => by
    rw [List.getElem?_map, hslot, Option.map_some]
  refine ⟨fun {i slot} hslot => ?_, fun {g} hg => ?_, fun {i} hi => ?_, ht.distinct⟩
  · rw [List.getElem?_map] at hslot
    obtain ⟨old, hold, rfl⟩ := Option.map_eq_some_iff.1 hslot
    rw [husings]
    exact ht.usings hold
  · obtain ⟨slot, hslot⟩ := ht.current hg
    obtain ⟨hindex, hgen⟩ := slot?_eq_some_iff.1 hslot
    exact ⟨f slot, slot?_eq_some_iff.2 ⟨hmap hindex, (hgeneration slot).trans hgen⟩⟩
  · obtain ⟨slot, hslot, hnone, hzero⟩ := ht.reusable hi
    exact ⟨f slot, hmap hslot, hempty slot hnone, (husings slot).trans hzero⟩

end Tally

end TickScript
