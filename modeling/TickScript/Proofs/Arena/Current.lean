/-
Handles that are held keep their meaning, even if generations wrap.

A handle is current (`Arena.Current`) if it is of its slot's present
generation and the slot does not wait to be reused. Balanced usages make all
handles current that are held. What such a handle is to does not change in
one go: whatever is alive under it after an operation was alive before and
is of the same kind and type (`Arena.Spares`).

Unlike `Arena.Follows` this asks nothing of the generations, but it is not
transitive either: in between somebody has to hold on to the handle. What
processors do is an exception (`Arena.Work`). They make no entities, so
however much they do, each slot is recycled once at most, and all of it
counts as one operation.
-/
import TickScript.Proofs.Arena.Handles
import TickScript.Proofs.Arena.Listed

namespace TickScript

namespace Arena

variable {a a' : Arena} {h : Handle} {given given' : List Handle}

-- ============================================================== settling

theorem Settles.mono (hsettles : Settles given a a') (hsub : given ⊆ given') :
    Settles given' a a' := by
  refine ⟨hsettles.length, fun hslot => ?_⟩
  obtain ⟨slot', hslot', hentity, hgeneration⟩ := hsettles.slot hslot
  refine ⟨slot', hslot', fun e' he' => ?_, hgeneration⟩
  obtain ⟨e, he, hremains⟩ := hentity e' he'
  exact ⟨e, he, hremains.toSame, fun g hg => (hremains.kept g hg).imp_right fun hin => hsub hin⟩

/-- All that processors do to an arena settles it. -/
theorem Work.settles (hw : Work a a') : ∃ given, Settles given a a' := by
  induction hw with
  | none => exact ⟨[], .refl a⟩
  | retain _ v ih =>
      obtain ⟨given, hsettles⟩ := ih
      exact ⟨given, hsettles.trans (settles_retainValue v)⟩
  | release _ v ih =>
      obtain ⟨given, hsettles⟩ := ih
      exact ⟨given, hsettles.trans (settles_releaseValue v)⟩
  | write _ h m ih =>
      obtain ⟨given, hsettles⟩ := ih
      refine ⟨given ++ handlesOf m.values, ?_⟩
      exact (hsettles.mono (List.subset_append_left ..)).trans
        (settles_setMemory fun _ hg => List.mem_append_right _ hg)

/-- An entity under a handle of the present generation was there before
slots settled. -/
theorem Settles.entity_before {slot : Slot} {e' : Entity} (hsettles : Settles given a a')
    (hslot : a.slot? h = some slot) (he' : a'.entity? h = some e') :
    ∃ e, a.entity? h = some e ∧ e.Same e' := by
  obtain ⟨hindex, hgen⟩ := slot?_eq_some_iff.1 hslot
  obtain ⟨slot', hindex', hgen', hentity'⟩ := entity?_eq_some_iff.1 he'
  obtain ⟨other, hother, hsettled⟩ := hsettles.slot hindex
  rw [hindex'] at hother
  cases hother
  obtain ⟨e, he, hremains⟩ := hsettled.entity e' hentity'
  exact ⟨e, entity?_eq_some_iff.2 ⟨slot, hindex, hgen, he⟩, hremains.toSame⟩

-- =============================================================== current

/-- A handle of its slot's present generation, the slot being in use. -/
def Current (a : Arena) (h : Handle) : Prop := (∃ slot, a.slot? h = some slot) ∧ h.index ∉ a.free

/-- Under a current handle there is no entity that was not there. -/
def Spares (a a' : Arena) : Prop :=
  ∀ h e', a.Current h → a'.entity? h = some e' → ∃ e, a.entity? h = some e ∧ e.Same e'

theorem Settles.spares (hsettles : Settles given a a') : Spares a a' := by
  intro h e' hcurrent he'
  obtain ⟨slot, hslot⟩ := hcurrent.1
  exact hsettles.entity_before hslot he'

theorem Work.spares (hw : Work a a') : Spares a a' := by
  obtain ⟨given, hsettles⟩ := hw.settles
  exact hsettles.spares

/-- A new entity goes into another slot than that of a current handle. -/
theorem Current.slot?_insert (hcurrent : a.Current h) (e : Entity) :
    (a.insert e).2.slot? h = a.slot? h := by
  obtain ⟨⟨slot, hslot⟩, hused⟩ := hcurrent
  obtain ⟨hindex, hgen⟩ := slot?_eq_some_iff.1 hslot
  rw [hslot, slot?_eq_some_iff]
  refine ⟨?_, hgen⟩
  unfold insert
  split
  next => exact (List.getElem?_append_left (List.getElem?_eq_some_iff.1 hindex).1).trans hindex
  next i free hfree =>
    have hne : i ≠ h.index := by
      rintro rfl
      exact hused (hfree ▸ List.mem_cons_self)
    exact (List.getElem?_set_ne hne).trans hindex

/-- No operation puts an entity under a current handle. -/
theorem Op.spares (op : Op) (a : Arena) : Spares a (op.apply a).2 := by
  rcases op.apply_cases a with ⟨e, a', heq, -, hsettles, -⟩ | ⟨a', heq, hsettles⟩
  · rw [heq]
    intro h e' hcurrent he'
    obtain ⟨slot, hslot⟩ := hcurrent.1
    have hinserted := (hcurrent.slot?_insert e).trans hslot
    obtain ⟨e₀, he₀, hsame⟩ := hsettles.entity_before hinserted he'
    refine ⟨e₀, ?_, hsame⟩
    rw [entity?, hcurrent.slot?_insert e] at he₀
    exact he₀
  · rw [heq]
    exact hsettles.spares

end Arena

/-- A handle that is held is current. -/
theorem Balanced.current {a : Arena} {h : Handle} {outside : List Handle}
    (hb : Balanced a outside) (hmem : h ∈ outside) : a.Current h := by
  obtain ⟨slot, hslot, -, hused⟩ := Tally.held hb (List.mem_append_left _ hmem)
  exact ⟨⟨slot, hslot⟩, hused⟩

end TickScript
