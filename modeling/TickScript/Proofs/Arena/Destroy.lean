/-
Destroying goes all the way down.

An entity is destroyed together with its components, and a component in the
same way. Nothing in the arena itself keeps the handles on the list of a
component from being handles of parts: when a generation has wrapped, a
stale handle on the list of a part may be the handle of any entity. So
nothing but the number of entities bounds how far down a destruction goes.

Every level takes an entity out of the arena, and nothing else that a
destruction does changes how many there are. Hence as many levels are
enough as there are entities, and `Arena.destroy` is what it is meant to be,
the recursion without a bound (`Arena.destroy_eq`).

What a destruction preserves follows from one principle
(`Arena.destroy_invariant`). An invariant that taking an entity out breaks
must be restored when the slot of the entity is looked at again, whatever
has happened to other slots in between.
-/
import TickScript.Proofs.Arena.Tally

namespace TickScript

namespace Arena

variable {a a' : Arena} {h : Handle} {e : Entity}

-- ======================================================== living entities

/-- A slot that keeps its entity, or one in its place, does not count. -/
theorem size_set {i : Nat} {slot slot' : Slot} {free : List Nat} (hslot : a.slots[i]? = some slot)
    (hsame : slot'.entity.isSome = slot.entity.isSome) :
    size { slots := a.slots.set i slot', free } = a.size := by
  obtain ⟨hlt, hget⟩ := List.getElem?_eq_some_iff.1 hslot
  have hold : slot.entity.isSome → 0 < a.slots.countP fun slot => slot.entity.isSome := fun hsome =>
    List.countP_pos_iff.2 ⟨slot, List.mem_of_getElem? hslot, hsome⟩
  unfold size
  simp only [List.countP_set hlt, hget, hsame]
  split
  next hsome =>
    have := hold hsome
    omega
  next => rfl

theorem size_modify {f : Slot → Slot}
    (hf : ∀ slot, (f slot).entity.isSome = slot.entity.isSome) : (a.modify h f).size = a.size := by
  cases hslot : a.slot? h with
  | none => rw [modify_eq_self f hslot]
  | some slot =>
      rw [modify_eq f hslot]
      exact size_set (slot?_eq_some_iff.1 hslot).1 (hf slot)

theorem size_recycle (i : Nat) : (a.recycle i).size = a.size := by
  unfold recycle
  split
  next slot hslot =>
    split
    next => exact size_set hslot rfl
    next => rfl
  next => rfl

theorem size_releaseValue (v : Value) : (a.releaseValue v).size = a.size := by
  cases v with
  | entity h =>
      show (a.release h).size = a.size
      unfold release
      split
      next => exact (size_recycle _).trans (size_modify fun _ => rfl)
      next => rfl
  | _ => rfl

theorem size_releaseAll (vs : List Value) : ∀ {a : Arena}, (a.releaseAll vs).size = a.size := by
  induction vs with
  | nil => exact rfl
  | cons v vs ih =>
      intro a
      exact ih.trans (size_releaseValue v)

/-- An entity that is taken out is missing afterwards. -/
theorem size_take (htake : a.take h = some (e, a')) : a'.size + 1 = a.size := by
  obtain ⟨e', he, heq⟩ := Option.map_eq_some_iff.1 htake
  cases heq
  obtain ⟨slot, hslot, hentity⟩ := Option.bind_eq_some_iff.1 he
  have hindex := (slot?_eq_some_iff.1 hslot).1
  obtain ⟨hlt, hget⟩ := List.getElem?_eq_some_iff.1 hindex
  have hpos : 0 < a.slots.countP fun slot => slot.entity.isSome :=
    List.countP_pos_iff.2 ⟨slot, List.mem_of_getElem? hindex, by rw [hentity]; rfl⟩
  rw [modify_eq _ hslot]
  unfold size
  simp only [List.countP_set hlt, hget, hentity, Option.isSome_some, Option.isSome_none, if_true]
  simp only [Bool.false_eq_true, if_false]
  omega

/-- A destruction makes no entities. -/
theorem size_destroyWithin_le : ∀ (depth : Nat) {a : Arena} {h : Handle},
    (destroyWithin depth a h).size ≤ a.size
  | 0, _, _ => Nat.le_refl _
  | depth + 1, a, h => by
      unfold destroyWithin
      split
      next e a' htake =>
        rw [size_recycle]
        have hreleased : (a'.releaseAll e.values).size ≤ a.size := by
          rw [size_releaseAll, ← size_take htake]
          exact Nat.le_succ _
        exact List.foldlRecOn (motive := fun b : Arena => b.size ≤ a.size) _ _ hreleased
          fun b hb c _ => Nat.le_trans (size_destroyWithin_le depth) hb
      next => exact Nat.le_refl _

-- ============================================================= recursion

/-- There is nothing to take out of an arena without entities. -/
theorem take_of_size (hsize : a.size = 0) (h : Handle) : a.take h = none := by
  cases htake : a.take h with
  | none => rfl
  | some r =>
      have hless := size_take htake
      omega

/-- Destroying several entities goes the same in another way, if destroying
one does in every arena with no more entities. -/
theorem foldl_destroyWithin_eq {depth bound : Nat} {f : Arena → Handle → Arena}
    (hone : ∀ {b : Arena} {c : Handle}, b.size ≤ bound → destroyWithin depth b c = f b c)
    (hs : List Handle) : ∀ {b : Arena}, b.size ≤ bound →
      hs.foldl (destroyWithin depth) b = hs.foldl f b := by
  induction hs with
  | nil => exact fun _ => rfl
  | cons c hs ih =>
      intro b hb
      rw [List.foldl_cons, List.foldl_cons, ← hone hb]
      exact ih (Nat.le_trans (size_destroyWithin_le depth) hb)

/-- As many levels as there are entities are enough. -/
theorem destroyWithin_eq : ∀ {depth depth' : Nat} {a : Arena} {h : Handle},
    a.size ≤ depth → a.size ≤ depth' → destroyWithin depth a h = destroyWithin depth' a h
  | 0, 0, _, _, _, _ => rfl
  | 0, depth' + 1, a, h, hdepth, _ => by
      simp only [destroyWithin, take_of_size (Nat.le_zero.1 hdepth)]
  | depth + 1, 0, a, h, _, hdepth' => by
      simp only [destroyWithin, take_of_size (Nat.le_zero.1 hdepth')]
  | depth + 1, depth' + 1, a, h, hdepth, hdepth' => by
      simp only [destroyWithin]
      split
      next e a' htake =>
        have hless := size_take htake
        have hone : ∀ {b : Arena} {c : Handle}, b.size ≤ a'.size →
            destroyWithin depth b c = destroyWithin depth' b c := fun hb =>
          destroyWithin_eq (by omega) (by omega)
        rw [foldl_destroyWithin_eq hone _ (Nat.le_of_eq (size_releaseAll _))]
      next => rfl

/-- Destroying an entity takes it out, releases what its memory held,
destroys its components one after the other, and then recycles its slot if
that has no usages. -/
theorem destroy_eq (a : Arena) (h : Handle) : a.destroy h = match a.take h with
    | some (e, a') => (e.components.foldl destroy (a'.releaseAll e.values)).recycle h.index
    | none => a := by
  cases htake : a.take h with
  | none =>
      unfold destroy
      cases a.size with
      | zero => rfl
      | succ depth => simp only [destroyWithin, htake]
  | some r =>
      obtain ⟨e, a'⟩ := r
      have hless := size_take htake
      unfold destroy
      rw [← hless]
      simp only [destroyWithin, htake]
      rw [foldl_destroyWithin_eq (fun hb => destroyWithin_eq hb (Nat.le_refl _)) _
        (Nat.le_of_eq (size_releaseAll _))]

/-- What a destruction preserves, if it is preserved by all that happens to
one entity: with the entity taken out and its memory released, something
holds that recycling the slot turns back. -/
theorem destroy_invariant {ι : Type} {P : ι → Arena → Prop}
    (hentity : ∀ i a h e a', P i a → a.take h = some (e, a') →
      ∃ j, P j (a'.releaseAll e.values) ∧ ∀ b, P j b → P i (b.recycle h.index))
    {i : ι} (ha : P i a) (h : Handle) : P i (a.destroy h) := by
  have hwithin : ∀ (depth : Nat) {i : ι} {a : Arena} {h : Handle}, P i a →
      P i (destroyWithin depth a h) := by
    intro depth
    induction depth with
    | zero => exact fun ha => ha
    | succ depth ih =>
        intro i a h ha
        unfold destroyWithin
        split
        next e a' htake =>
          obtain ⟨j, hreleased, hrecycle⟩ := hentity i a h e a' ha htake
          exact hrecycle _ (List.foldlRecOn (motive := P j) _ _ hreleased fun b hb c _ => ih hb)
        next => exact ha
  exact hwithin a.size ha

end Arena

end TickScript
