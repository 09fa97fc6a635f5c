/-
Arenas in which no handle is made up.

Entities keep handles: a part those to its components, a memory those in
its cells. In a sound arena every handle that is kept was issued, and the
slots to be reused are in order. What is done to an arena from outside
keeps it sound as long as only issued handles are put into it and no
generation wraps (`Arena.Run.sound`).
-/
import TickScript.Proofs.Arena.Handles

namespace TickScript

namespace Arena

variable {a a' a'' : Arena} {h : Handle} {i : Nat} {given : List Handle}

-- ================================================================== kept

/-- A living entity keeps the handle. -/
def Keeps (a : Arena) (h : Handle) : Prop :=
  ∃ (i : Nat) (slot : Slot) (e : Entity),
    a.slots[i]? = some slot ∧ slot.entity = some e ∧ h ∈ e.kept

/-- Slots that settle keep nothing new but what they are given. -/
theorem Settles.keeps (hsettles : Settles given a a') (hkeeps : a'.Keeps h) :
    a.Keeps h ∨ h ∈ given := by
  obtain ⟨i, slot', e', hslot', he', hmem⟩ := hkeeps
  obtain ⟨slot, hslot, hsettle⟩ := hsettles.before hslot'
  obtain ⟨e, he, hremains⟩ := hsettle.entity e' he'
  exact (hremains.kept h hmem).imp_left fun hold => ⟨i, slot, e, hslot, he, hold⟩

/-- A living memory keeps the handles in it. -/
theorem keeps_memory {g : Handle} {m : Memory} (hm : a.memory? g = some m)
    (hh : h ∈ handlesOf m.values) : a.Keeps h := by
  obtain ⟨e, he, hm⟩ := Option.bind_eq_some_iff.1 hm
  obtain ⟨slot, hslot, -, he⟩ := entity?_eq_some_iff.1 he
  refine ⟨g.index, slot, e, hslot, he, List.mem_append_right _ ?_⟩
  simpa [Entity.values, hm] using hh

/-- A living part keeps the handles to its components. -/
theorem keeps_component {part : Handle} {typeName : String} {n : Nat}
    (hfound : a.component? part typeName n = some h) : a.Keeps h := by
  have hmem : h ∈ a.components part typeName := List.mem_of_getElem? hfound
  unfold components at hmem
  split at hmem
  next e he =>
    obtain ⟨slot, hslot, -, he⟩ := entity?_eq_some_iff.1 he
    exact ⟨part.index, slot, e, hslot, he, List.mem_append_left _ (List.mem_filter.1 hmem).1⟩
  next => cases hmem

/-- A new entity adds the handles that it keeps. -/
theorem keeps_insert (ho : Orderly a []) {e : Entity} (hkeeps : (a.insert e).2.Keeps h) :
    a.Keeps h ∨ h ∈ e.kept := by
  obtain ⟨i, slot, e', hslot, he', hmem⟩ := hkeeps
  rcases insert_slot ho e hslot with ⟨-, rfl⟩ | hold
  · cases he'
    exact .inr hmem
  · exact .inl ⟨i, slot, e', hold, he', hmem⟩

-- ================================================== changes in two parts

/-- Writing to a memory frees no slot. -/
theorem free_setMemory (a : Arena) (h : Handle) (m : Memory) : (a.setMemory h m).free = a.free :=
  a.free_modify h _

theorem free_retainValue (a : Arena) (v : Value) : (a.retainValue v).free = a.free := by
  cases v with
  | entity h => exact a.free_modify h _
  | _ => rfl

/-- Generations do not wrap after a change that leaves them alone. -/
theorem Unwrapped.after (hwrap : Unwrapped a a'') (h : Settles given a a')
    (hfree : a'.free = a.free) : Unwrapped a' a'' := by
  intro i slot' slot'' hslot' hslot''
  obtain ⟨slot, hslot, -⟩ := h.before hslot'
  rw [h.generation_eq hfree hslot hslot']
  exact hwrap i slot slot'' hslot hslot''

/-- Generations did not wrap before a change that leaves them alone. -/
theorem Unwrapped.until (hwrap : Unwrapped a a'') (h : Settles given a' a'')
    (hfree : a''.free = a'.free) : Unwrapped a a' := by
  intro i slot slot' hslot hslot'
  obtain ⟨slot'', hslot'', -⟩ := h.slot hslot'
  rw [← h.generation_eq hfree hslot' hslot'']
  exact hwrap i slot slot'' hslot hslot''

/-- The generation of a slot; a slot that is yet to be made is at the
first. -/
def generationAt (a : Arena) (i : Nat) : UInt32 := (a.slots[i]?).elim 0 Slot.generation

/-- No slot was moved on through all its generations but one. -/
def Brief (a a' : Arena) : Prop :=
  ∀ (i : Nat) (slot' : Slot), a'.slots[i]? = some slot' → slot'.generation + 1 ≠ a.generationAt i

/-- A generation goes up by one, or wraps. -/
theorem toNat_next_le (g : UInt32) : (g + 1).toNat ≤ g.toNat + 1 := by
  rw [UInt32.toNat_add]
  exact Nat.mod_le _ _

/-- Without a wrap it goes up. -/
theorem le_next {g : UInt32} (h : g + 1 ≠ 0) : g ≤ g + 1 := by
  rw [UInt32.le_iff_toNat_le]
  have hlt := g.toNat_lt
  have hne : (g + 1).toNat ≠ 0 := fun hzero => h (UInt32.toNat_inj.1 hzero)
  rw [UInt32.toNat_add] at hne ⊢
  simp only [UInt32.toNat_one] at hne ⊢
  omega

theorem le_of_le_next {g g' : UInt32} (h : g ≤ g' + 1) (hne : g' + 1 ≠ g) : g ≤ g' := by
  rw [UInt32.le_iff_toNat_le] at h ⊢
  have hne' : (g' + 1).toNat ≠ g.toNat := fun heq => hne (UInt32.toNat_inj.1 heq)
  have hle := toNat_next_le g'
  omega

/-- If no generation wraps over a brief change and one that settles, it
does in neither. -/
theorem Unwrapped.split (hwrap : Unwrapped a a'') (hbrief : Brief a a')
    (h : Settles given a' a'') : Unwrapped a a' ∧ Unwrapped a' a'' := by
  constructor
  · intro i slot slot' hslot hslot'
    obtain ⟨slot'', hslot'', hsettles⟩ := h.slot hslot'
    have hle := hwrap i slot slot'' hslot hslot''
    rcases hsettles.generation with ⟨hgen, -⟩ | ⟨hgen, -, -⟩
    · exact hgen ▸ hle
    · have hne := hbrief i slot' hslot'
      rw [generationAt, hslot] at hne
      exact le_of_le_next (hgen ▸ hle) hne
  · intro i slot' slot'' hslot' hslot''
    obtain ⟨other, hother, hsettles⟩ := h.slot hslot'
    rw [hslot''] at hother
    cases hother
    rcases hsettles.generation with ⟨hgen, -⟩ | ⟨hgen, -, -⟩
    · exact UInt32.le_of_eq hgen.symm
    · rw [hgen]
      refine le_next fun hzero => hbrief i slot' hslot' ?_
      -- the slot would be back at the first generation, where it had started
      unfold generationAt
      cases hslot : a.slots[i]? with
      | none => exact hzero
      | some slot =>
          have hle := hwrap i slot slot'' hslot hslot''
          rw [hgen, hzero] at hle
          rw [hzero]
          exact (UInt32.le_zero_iff.1 hle).symm

-- ============================================================= soundness

/-- The slots to be reused are in order, and all handles that are kept
were issued. -/
structure Sound (a : Arena) : Prop where
  orderly : a.Orderly []
  kept : ∀ {h}, a.Keeps h → a.Issued h

namespace Sound

theorem empty : Sound .empty where
  orderly := .empty
  kept := by
    rintro h ⟨i, slot, e, hslot, -⟩
    cases hslot

/-- Slots settle, and what is kept from then on was issued before. -/
theorem settles (hs : a.Sound) (hsettles : Settles given a a') (ho : a'.Orderly [])
    (hgiven : ∀ g ∈ given, a.Issued g) (hwrap : Unwrapped a a') : a'.Sound ∧ Follows a a' := by
  have hfollows := hsettles.follows hwrap
  refine ⟨⟨ho, fun {g} hkeeps => ?_⟩, hfollows⟩
  rcases hsettles.keeps hkeeps with hold | hnew
  · exact (hs.kept hold).follows hfollows
  · exact (hgiven g hnew).follows hfollows

/-- A new entity keeps issued handles, as those before it do. -/
theorem insert (hs : a.Sound) {e : Entity} (he : ∀ g ∈ e.kept, a.Issued g) :
    (a.insert e).2.Sound := by
  have hfollows := follows_insert hs.orderly e
  refine ⟨hs.orderly.insert e, fun {g} hkeeps => ?_⟩
  rcases keeps_insert hs.orderly hkeeps with hold | hnew
  · exact (hs.kept hold).follows hfollows
  · exact (he g hnew).follows hfollows

/-- The handle of a living entity was issued. -/
theorem resolve (hs : a.Sound) (hresolve : a.resolve i = some h) : a.Issued h := by
  obtain ⟨slot, e, hslot, he, rfl⟩ := resolve_eq_some_iff.1 hresolve
  exact issued_of_entity hs.orderly hslot he

/-- Usages of values move from one to another. -/
theorem exchange (hs : a.Sound) {v : Value} (old : Option Value)
    (hv : ∀ g, v = .entity g → a.Issued g) (hwrap : Unwrapped a (a.exchange v old)) :
    (a.exchange v old).Sound ∧ Follows a (a.exchange v old) := by
  have hretain : (a.retainValue v).Orderly [] := by
    cases v with
    | entity g => exact hs.orderly.retain fun hslot => (hv g rfl).used hslot
    | _ => exact hs.orderly
  have hsettles : Settles [] a (a.exchange v old) := settles_exchange v old
  exact hs.settles hsettles (.releaseAll _ hretain) (fun g hg => by cases hg) hwrap

theorem releaseAll (hs : a.Sound) (vs : List Value) (hwrap : Unwrapped a (a.releaseAll vs)) :
    (a.releaseAll vs).Sound ∧ Follows a (a.releaseAll vs) := by
  have hsettles : Settles [] a (a.releaseAll vs) := settles_releaseAll vs
  exact hs.settles hsettles (.releaseAll vs hs.orderly) (fun g hg => by cases hg) hwrap

/-- A memory is given other contents. -/
theorem setMemory (hs : a.Sound) {m : Memory} (hm : ∀ g ∈ handlesOf m.values, a.Issued g) :
    (a.setMemory h m).Sound ∧ Follows a (a.setMemory h m) := by
  have hsettles : Settles (handlesOf m.values) a (a.setMemory h m) :=
    settles_setMemory fun _ hg => hg
  exact hs.settles hsettles (hs.orderly.modifyEntity _) hm
    (hsettles.unwrapped_of_free (a.free_setMemory h m))

end Sound

-- ================================================================== runs

/-- All handles that an operation puts into the arena or adds a usage
of. -/
def Op.handles (op : Op) : List Handle := op.retained?.toList ++ op.supplied

/-- An operation with issued handles keeps the arena sound. -/
theorem Sound.apply (hs : a.Sound) (op : Op) (hknown : ∀ g ∈ op.handles, a.Issued g)
    (hwrap : Unwrapped a (op.apply a).2) :
    (op.apply a).2.Sound ∧ Follows a (op.apply a).2 := by
  have hretained : ∀ g, op.retained? = some g → a.Issued g := fun g hg =>
    hknown g (List.mem_append_left _ (by simp [hg]))
  have hsupplied : ∀ g ∈ op.supplied, a.Issued g := fun g hg =>
    hknown g (List.mem_append_right _ hg)
  have horderly := op.apply_orderly hs.orderly hretained
  rcases op.apply_cases a with ⟨e, a', heq, he, hsettles, hfree⟩ | ⟨a', heq, hsettles⟩
  · rw [heq] at horderly ⊢
    have hmade := hs.insert fun g hg => hsupplied g (he g hg)
    have hhandle : ∀ g ∈ [(a.insert e).1], (a.insert e).2.Issued g := fun g hg => by
      rw [List.mem_singleton.1 hg]
      exact issued_insert hs.orderly e
    obtain ⟨hsound, hfollows⟩ :=
      hmade.settles hsettles horderly hhandle (hsettles.unwrapped_of_free hfree)
    exact ⟨hsound, (follows_insert hs.orderly e).trans hfollows⟩
  · rw [heq] at horderly hwrap ⊢
    exact hs.settles hsettles horderly hsupplied hwrap

/-- Operations in turn, with issued handles and without a generation that
wraps. -/
inductive Run (a : Arena) : Arena → Prop where
  | refl : Run a a
  | step {a' : Arena} (run : Run a a') (op : Op) (known : ∀ g ∈ op.handles, a'.Issued g)
      (steady : Unwrapped a' (op.apply a').2) : Run a (op.apply a').2

/-- A run keeps the arena sound. -/
theorem Run.sound (hrun : Run a a') (hs : a.Sound) : a'.Sound ∧ Follows a a' := by
  induction hrun with
  | refl => exact ⟨hs, .refl a⟩
  | step _ op known steady ih =>
      obtain ⟨hsound, hfollows⟩ := ih
      obtain ⟨hsound', hfollows'⟩ := hsound.apply op known steady
      exact ⟨hsound', hfollows.trans hfollows'⟩

end Arena

end TickScript
