/-
Handles never alias.

A ledger is an arena with a record of the handles it has issued and of
the slots it has recycled, one entry for each time. A slot's generation is
the number of its entries, as far as 32 bits go. So while no slot has
`2 ^ 32` of them no generation wraps, each arena of a run follows the one
before, and what is known of issued handles applies to the whole run.
-/
import Mathlib.Data.List.Nodup
import TickScript.Proofs.Arena.Handles

namespace TickScript

/-- An arena with what it has done. -/
structure Ledger where
  arena : Arena
  /-- The handles issued, the latest first. -/
  issued : List Handle
  /-- The slots recycled, each as often as that was done. -/
  recycled : List Nat

namespace Ledger

/-- An arena without entities. -/
def start : Ledger := ⟨.empty, [], []⟩

/-- The slots that were not to be reused and are now. -/
def newlyFree (a a' : Arena) : List Nat := a'.free.filter fun i => i ∉ a.free

/-- Carries out an operation and notes what it did. -/
def enter (l : Ledger) (op : Arena.Op) : Ledger :=
  { arena := (op.apply l.arena).2
    issued := (op.apply l.arena).1.toList ++ l.issued
    recycled := newlyFree l.arena (op.apply l.arena).2 ++ l.recycled }

/-- Operations in turn. Handles may be stale; those retained are handles
that the arena has issued. -/
inductive Run : Ledger → Ledger → Prop where
  | refl (l : Ledger) : Run l l
  | step {l l' : Ledger} (run : Run l l') (op : Arena.Op)
      (known : ∀ h, op.retained? = some h → h ∈ l'.issued) : Run l (l'.enter op)

/-- What holds of a ledger while no generation has wrapped. -/
structure Ok (l : Ledger) : Prop where
  orderly : l.arena.Orderly []
  issued : ∀ h ∈ l.issued, l.arena.Issued h
  distinct : l.issued.Nodup
  living : ∀ {i h}, l.arena.resolve i = some h → h ∈ l.issued
  counted : ∀ {i slot}, l.arena.slots[i]? = some slot →
    slot.generation = UInt32.ofNat (l.recycled.count i)
  within : ∀ i ∈ l.recycled, i < l.arena.slots.length

variable {l l' : Ledger}

theorem ok_start : Ok start where
  orderly := .empty
  issued h hh := by cases hh
  distinct := List.nodup_nil
  living h := by cases h
  counted hslot := by cases hslot
  within i hi := by cases hi

/-- Entries are never taken out. -/
theorem count_le_enter (l : Ledger) (op : Arena.Op) (i : Nat) :
    l.recycled.count i ≤ (l.enter op).recycled.count i := by
  show _ ≤ (newlyFree _ _ ++ l.recycled).count i
  rw [List.count_append]
  omega

theorem Run.count_le (hrun : Run l l') (i : Nat) : l.recycled.count i ≤ l'.recycled.count i := by
  induction hrun with
  | refl => exact Nat.le_refl _
  | step _ op _ ih => exact Nat.le_trans ih (count_le_enter _ op i)

-- ================================================================ counts

/-- A slot is recycled once if it now waits and did not. -/
theorem count_newlyFree {a a' : Arena} {i : Nat} (hdistinct : a'.free.Nodup) :
    (newlyFree a a').count i = if i ∈ a'.free ∧ i ∉ a.free then 1 else 0 := by
  have hmem : i ∈ newlyFree a a' ↔ i ∈ a'.free ∧ i ∉ a.free := by simp [newlyFree]
  split
  next h => exact List.count_eq_one_of_mem (hdistinct.filter _) (hmem.2 h)
  next h => exact List.count_eq_zero.2 fun hi => h (hmem.1 hi)

/-- The generation of a slot moves on as often as the slot is
recycled. -/
theorem generation_settles {a a' : Arena} {i n : Nat} {slot slot' : Slot} {given : List Handle}
    (hdistinct : a'.free.Nodup) (hsettles : Arena.SlotSettles given i a.free a'.free slot slot')
    (hcounted : slot.generation = UInt32.ofNat n) :
    slot'.generation = UInt32.ofNat ((newlyFree a a').count i + n) := by
  rw [count_newlyFree hdistinct]
  rcases hsettles.generation with ⟨hgen, hfree⟩ | ⟨hgen, hused, hwaits⟩
  · have hnew : ¬(i ∈ a'.free ∧ i ∉ a.free) := fun h => h.2 (hfree.1 h.1)
    rw [if_neg hnew, Nat.zero_add, hgen]
    exact hcounted
  · rw [if_pos ⟨hwaits, hused⟩, hgen, hcounted, UInt32.ofNat_add, UInt32.add_comm]
    rfl

/-- Nothing is recycled while an entity is put into a slot. -/
theorem newlyFree_insert {a a' : Arena} {e : Entity} (ho : a.Orderly [])
    (hfree : a'.free = (a.insert e).2.free) : newlyFree a a' = [] := by
  refine List.filter_eq_nil_iff.2 fun i hi => ?_
  rw [hfree] at hi
  rcases Arena.insert_cases ho e with ⟨-, heq⟩ | ⟨j, free, old, hold, -, -, -, heq⟩
  · rw [heq] at hi
    simpa using hi
  · rw [heq] at hi
    have hmem : i ∈ a.free := hold ▸ List.mem_cons_of_mem j hi
    simpa using hmem

-- ================================================================== runs

/-- The counts give the generations also when an entity is made. -/
theorem Ok.insert_counted (hok : Ok l) (e : Entity) {i : Nat} {slot : Slot}
    (hslot : (l.arena.insert e).2.slots[i]? = some slot) :
    slot.generation = UInt32.ofNat (l.recycled.count i) := by
  rcases Arena.insert_slot hok.orderly e hslot with ⟨rfl, rfl⟩ | hold
  · rcases Arena.insert_generation hok.orderly e with ⟨old, hold, hgen⟩ | ⟨hindex, hgen⟩
    · exact hgen.trans (hok.counted hold)
    · -- a new slot has no entries
      have hzero : l.recycled.count (l.arena.insert e).1.index = 0 := by
        refine List.count_eq_zero.2 fun hi => ?_
        have hlt := hok.within _ hi
        omega
      rw [hzero]
      exact hgen
  · exact hok.counted hold

/-- What an operation enters: a new handle, or none. -/
theorem enter_cases (l : Ledger) (op : Arena.Op) :
    (∃ e, (l.enter op).issued = (l.arena.insert e).1 :: l.issued
        ∧ Arena.Settles [(l.arena.insert e).1] (l.arena.insert e).2 (l.enter op).arena
        ∧ (l.enter op).arena.free = (l.arena.insert e).2.free)
      ∨ ((l.enter op).issued = l.issued
        ∧ Arena.Settles op.supplied l.arena (l.enter op).arena) := by
  unfold enter
  rcases op.apply_cases l.arena with ⟨e, a', heq, -, hsettles, hfree⟩ | ⟨a', heq, hsettles⟩
  · rw [heq]
    exact .inl ⟨e, rfl, hsettles, hfree⟩
  · rw [heq]
    exact .inr ⟨rfl, hsettles⟩

/-- Slots are never taken away. -/
theorem length_enter (l : Ledger) (op : Arena.Op) :
    l.arena.slots.length ≤ (l.enter op).arena.slots.length := by
  rcases l.enter_cases op with ⟨e, -, hsettles, -⟩ | ⟨-, hsettles⟩
  · rw [hsettles.length]
    exact Arena.length_insert e
  · exact Nat.le_of_eq hsettles.length.symm

/-- The counts still give the generations after an operation. -/
theorem Ok.enter_counted (hok : Ok l) (op : Arena.Op) (ho : (l.enter op).arena.Orderly [])
    {i : Nat} {slot : Slot} (hslot : (l.enter op).arena.slots[i]? = some slot) :
    slot.generation = UInt32.ofNat ((l.enter op).recycled.count i) := by
  have hcount : (l.enter op).recycled.count i
      = (newlyFree l.arena (l.enter op).arena).count i + l.recycled.count i := List.count_append
  rw [hcount]
  rcases l.enter_cases op with ⟨e, -, hsettles, hfree⟩ | ⟨-, hsettles⟩
  · obtain ⟨middle, hmiddle, hsettle⟩ := hsettles.before hslot
    have hgen := generation_settles ho.distinct hsettle (hok.insert_counted e hmiddle)
    have hnone : (newlyFree (l.arena.insert e).2 (l.enter op).arena).count i = 0 := by
      rw [count_newlyFree ho.distinct, if_neg]
      rw [hfree]
      exact fun h => h.2 h.1
    rw [hnone] at hgen
    rw [newlyFree_insert hok.orderly hfree]
    exact hgen
  · obtain ⟨old, hold, hsettle⟩ := hsettles.before hslot
    exact generation_settles ho.distinct hsettle (hok.counted hold)

/-- While no slot has been recycled too often, no generation wraps. -/
theorem Ok.unwrapped (hok : Ok l) (op : Arena.Op) (ho : (l.enter op).arena.Orderly [])
    (hbound : ∀ i, (l.enter op).recycled.count i < UInt32.size) :
    Arena.Unwrapped l.arena (l.enter op).arena := by
  intro i slot slot' hslot hslot'
  have hmore := count_le_enter l op i
  have hless := hbound i
  rw [hok.counted hslot, hok.enter_counted op ho hslot', UInt32.le_iff_toNat_le,
    UInt32.toNat_ofNat_of_lt' (by omega), UInt32.toNat_ofNat_of_lt' hless]
  exact hmore

/-- All handles on record stay issued, with the new one. -/
theorem Ok.enter_issued (hok : Ok l) (op : Arena.Op)
    (hfollows : Arena.Follows l.arena (l.enter op).arena) {h : Handle}
    (hh : h ∈ (l.enter op).issued) : (l.enter op).arena.Issued h := by
  rcases l.enter_cases op with ⟨e, hissued, hsettles, hfree⟩ | ⟨hissued, -⟩
  · rw [hissued] at hh
    rcases List.mem_cons.1 hh with rfl | hh
    · exact (Arena.issued_insert hok.orderly e).follows
        (hsettles.follows (hsettles.unwrapped_of_free hfree))
    · exact (hok.issued h hh).follows hfollows
  · rw [hissued] at hh
    exact (hok.issued h hh).follows hfollows

/-- A new handle is none of those on record. -/
theorem Ok.enter_distinct (hok : Ok l) (op : Arena.Op) : (l.enter op).issued.Nodup := by
  rcases l.enter_cases op with ⟨e, hissued, -, -⟩ | ⟨hissued, -⟩
  · rw [hissued, List.nodup_cons]
    exact ⟨fun hmem => (hok.issued _ hmem).ne_insert hok.orderly e rfl, hok.distinct⟩
  · rw [hissued]
    exact hok.distinct

/-- What is alive is on record. -/
theorem Ok.enter_living (hok : Ok l) (op : Arena.Op) (ho : (l.enter op).arena.Orderly [])
    {i : Nat} {h : Handle} (hresolve : (l.enter op).arena.resolve i = some h) :
    h ∈ (l.enter op).issued := by
  rcases l.enter_cases op with ⟨e, hissued, hsettles, -⟩ | ⟨hissued, hsettles⟩
  · rw [hissued]
    have hmiddle := hsettles.resolve_before ho hresolve
    rcases Arena.resolve_insert hok.orderly e hmiddle with rfl | hbefore
    · exact List.mem_cons_self
    · exact List.mem_cons_of_mem _ (hok.living hbefore)
  · rw [hissued]
    exact hok.living (hsettles.resolve_before ho hresolve)

/-- An operation keeps all of it, and leads the arena on. -/
theorem Ok.enter (hok : Ok l) (op : Arena.Op)
    (hknown : ∀ h, op.retained? = some h → h ∈ l.issued)
    (hbound : ∀ i, (l.enter op).recycled.count i < UInt32.size) :
    Ok (l.enter op) ∧ Arena.Follows l.arena (l.enter op).arena := by
  have horderly : (l.enter op).arena.Orderly [] :=
    op.apply_orderly hok.orderly fun h hh => hok.issued h (hknown h hh)
  have hfollows : Arena.Follows l.arena (l.enter op).arena :=
    op.apply_follows hok.orderly (hok.unwrapped op horderly hbound)
  refine ⟨⟨horderly, fun _ hh => hok.enter_issued op hfollows hh, hok.enter_distinct op,
    hok.enter_living op horderly, hok.enter_counted op horderly, fun i hi => ?_⟩, hfollows⟩
  rcases List.mem_append.1 hi with hi | hi
  · obtain ⟨slot, hslot, -⟩ := horderly.unused (List.mem_of_mem_filter hi)
    exact (List.getElem?_eq_some_iff.1 hslot).1
  · exact Nat.lt_of_lt_of_le (hok.within i hi) (length_enter l op)

/-- A run keeps all of it. -/
theorem Ok.run (hok : Ok l) (hrun : Run l l')
    (hbound : ∀ i, l'.recycled.count i < UInt32.size) :
    Ok l' ∧ Arena.Follows l.arena l'.arena := by
  induction hrun with
  | refl => exact ⟨hok, .refl _⟩
  | @step middle _ op known ih =>
      have hbefore : ∀ i, middle.recycled.count i < UInt32.size := fun i =>
        Nat.lt_of_le_of_lt (count_le_enter middle op i) (hbound i)
      obtain ⟨hmiddle, hfollows⟩ := ih hbefore
      obtain ⟨hok', hfollows'⟩ := hmiddle.enter op known hbound
      exact ⟨hok', hfollows.trans hfollows'⟩

/-- A handle resolves from its index as long as it is alive, and nothing
else resolves. -/
theorem Ok.resolve_iff (hok : Ok l) (i : Nat) (h : Handle) :
    l.arena.resolve i = some h ↔ h ∈ l.issued ∧ l.arena.isAlive h ∧ h.index = i := by
  constructor
  · intro hresolve
    refine ⟨hok.living hresolve, ?_⟩
    obtain ⟨slot, e, hslot, he, rfl⟩ := Arena.resolve_eq_some_iff.1 hresolve
    have hentity : l.arena.entity? ⟨i, slot.generation, e.kind⟩ = some e :=
      Arena.entity?_eq_some_iff.2 ⟨slot, hslot, rfl, he⟩
    exact ⟨by simp [Arena.isAlive, hentity], rfl⟩
  · rintro ⟨hmem, halive, rfl⟩
    obtain ⟨e, hentity⟩ := Option.isSome_iff_exists.1 halive
    have hkind := (hok.issued h hmem).kind_eq hentity
    obtain ⟨slot, hslot, hgen, he⟩ := Arena.entity?_eq_some_iff.1 hentity
    refine Arena.resolve_eq_some_iff.2 ⟨slot, e, hslot, he, ?_⟩
    rw [hgen, hkind]

theorem Ok.mem_free_iff (hok : Ok l) (i : Nat) :
    i ∈ l.arena.free ↔ ∃ slot, l.arena.slots[i]? = some slot
      ∧ slot.entity = none ∧ slot.usings = 0 := by
  constructor
  · exact fun hi => hok.orderly.unused hi
  · rintro ⟨slot, hslot, hunused⟩
    exact (hok.orderly.listed hslot hunused).resolve_right List.not_mem_nil

/-- An entity is put into a slot only when the slot has no entity and no
usages left. -/
theorem Ok.reuse (hok : Ok l) {op : Arena.Op} {h : Handle} (hmade : (op.apply l.arena).1 = some h)
    {slot : Slot} (hslot : l.arena.slots[h.index]? = some slot) :
    slot.entity = none ∧ slot.usings = 0 := by
  rcases op.apply_cases l.arena with ⟨e, a', heq, -, -, -⟩ | ⟨a', heq, -⟩
  · rw [heq] at hmade
    cases hmade
    rcases Arena.insert_cases hok.orderly e with
      ⟨-, hins⟩ | ⟨i, free, old, -, -, hold, hunused, hins⟩
    · rw [hins] at hslot
      exact absurd (List.getElem?_eq_some_iff.1 hslot).1 (Nat.lt_irrefl _)
    · rw [hins] at hslot
      change l.arena.slots[i]? = some slot at hslot
      rw [hold] at hslot
      cases hslot
      exact hunused
  · rw [heq] at hmade
    cases hmade

/-- Handles never alias. In a run from the empty arena in which no slot is
recycled `2 ^ 32` times, no two handles issued are the same, one that is
once dead stays so, an index resolves to the handle of what is alive in
its slot, and the slots to be reused are those without an entity and
without usages, each listed once; no other slot is reused. -/
theorem handles_never_alias (hbefore : Run start l) (hrun : Run l l')
    (hbound : ∀ i, l'.recycled.count i < UInt32.size) :
    l'.issued.Nodup
      ∧ (∀ h ∈ l.issued, l.arena.isAlive h = false → l'.arena.isAlive h = false)
      ∧ (∀ i h, l'.arena.resolve i = some h ↔ h ∈ l'.issued ∧ l'.arena.isAlive h ∧ h.index = i)
      ∧ l'.arena.free.Nodup
      ∧ (∀ i, i ∈ l'.arena.free ↔ ∃ slot, l'.arena.slots[i]? = some slot
          ∧ slot.entity = none ∧ slot.usings = 0)
      ∧ ∀ op h slot, (Arena.Op.apply l'.arena op).1 = some h →
          l'.arena.slots[h.index]? = some slot → slot.entity = none ∧ slot.usings = 0 := by
  have hless : ∀ i, l.recycled.count i < UInt32.size := fun i =>
    Nat.lt_of_le_of_lt (hrun.count_le i) (hbound i)
  obtain ⟨hok, -⟩ := ok_start.run hbefore hless
  obtain ⟨hok', hfollows⟩ := hok.run hrun hbound
  refine ⟨hok'.distinct, fun h hh hdead => ?_, hok'.resolve_iff, hok'.orderly.distinct,
    hok'.mem_free_iff, fun _ _ _ hmade hslot => hok'.reuse hmade hslot⟩
  exact (hok.issued h hh).dead_stays hfollows hdead

/-- A part with a memory on it that holds the part, destroyed. The part's
slot is recycled when the memory is given up, in the middle of its
destruction. -/
def felled : Ledger :=
  let part : Handle := ⟨0, 0, .part⟩
  let made := start.enter (.spawn 1)
  let held := made.enter (.attach part Entity.memoryType (some ⟨[some (.entity part)], 0, none, none⟩))
  (held.enter (.retain part)).enter (.destroy part)

/-- Two more parts in the same slots, after a release too many. -/
def reborn : Ledger :=
  ((felled.enter (.release ⟨0, 0, .part⟩)).enter (.spawn 1)).enter (.spawn 2)

theorem run_felled : Run start felled := by
  have hspawn : Run start (start.enter (.spawn 1)) :=
    .step (.refl _) _ (by simp [Arena.Op.retained?])
  have hattach := hspawn.step (.attach ⟨0, 0, .part⟩ Entity.memoryType
    (some ⟨[some (.entity ⟨0, 0, .part⟩)], 0, none, none⟩)) (by simp [Arena.Op.retained?])
  have hretain := hattach.step (.retain ⟨0, 0, .part⟩) fun h hh => by
    cases hh
    decide
  exact hretain.step (.destroy ⟨0, 0, .part⟩) (by simp [Arena.Op.retained?])

theorem run_reborn : Run felled reborn := by
  have hrelease : Run felled (felled.enter (.release ⟨0, 0, .part⟩)) :=
    .step (.refl _) _ (by simp [Arena.Op.retained?])
  have hspawn := hrelease.step (.spawn 1) (by simp [Arena.Op.retained?])
  exact hspawn.step (.spawn 2) (by simp [Arena.Op.retained?])

/-- Both slots are in use again, and the old handles stay dead. -/
theorem handles_never_alias_reborn :
    reborn.issued = [⟨0, 1, .part⟩, ⟨1, 1, .part⟩, ⟨1, 0, .component⟩, ⟨0, 0, .part⟩]
      ∧ reborn.recycled = [1, 0] ∧ reborn.issued.Nodup
      ∧ reborn.arena.isAlive ⟨0, 0, .part⟩ = false
      ∧ reborn.arena.resolve 0 = some ⟨0, 1, .part⟩ ∧ reborn.arena.free.Nodup := by
  have hrecycled : reborn.recycled = [1, 0] := by decide
  have hbound : ∀ i, reborn.recycled.count i < UInt32.size := fun i => by
    rw [hrecycled]
    exact Nat.lt_of_le_of_lt List.count_le_length (by decide)
  obtain ⟨hnodup, hdead, hresolve, hfree, -⟩ :=
    handles_never_alias run_felled run_reborn hbound
  exact ⟨by decide, hrecycled, hnodup, hdead ⟨0, 0, .part⟩ (by decide) (by decide),
    (hresolve 0 _).2 (by decide), hfree⟩

end Ledger

end TickScript
