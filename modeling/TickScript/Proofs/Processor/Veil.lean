/-
Scripts cannot look behind the veil.

# Sight

The part that a processor is mounted on sees the entities of its own group,
and those of groups with antennas if its own has one (`World.sees`). A world
as it is seen from there has nothing in the memories out of sight
(`World.seenFrom`).

# Instructions

Every access to a memory goes through `Scene.reach`, which yields only what
is in sight. So an instruction does the same if the memories out of sight
are emptied (`Instruction.execute_veil`).
-/
import TickScript.Proofs.Arena.Veil
import TickScript.Proofs.Processor.Faults
import TickScript.Proofs.Processor.Likeness

namespace TickScript

-- ================================================================= sight

namespace World

variable {w : World} {hidden : Nat → Bool}

/-- Whether a part, if there is one, can connect to the entity in a slot. -/
def sees (w : World) (this : Option Handle) (i : Nat) : Bool :=
  this.any fun part => (w.arena.resolve i).any fun h => w.canConnect part h

/-- The world with nothing in the memories of hidden slots. -/
def veil (w : World) (hidden : Nat → Bool) : World := { w with arena := w.arena.veil hidden }

/-- Whether what is in a slot is out of sight. -/
def hides (w : World) (this : Option Handle) (i : Nat) : Bool := !w.sees this i

/-- The world as it is seen from a part: with nothing in the memories that
the part cannot connect to. -/
def seenFrom (w : World) (this : Option Handle) : World := w.veil (w.hides this)

/-- Permission goes by groups, which are in sight. -/
theorem canConnect_veil (source target : Handle) :
    (w.veil hidden).canConnect source target = w.canConnect source target := by
  have hgroup : ∀ h, (w.veil hidden).arena.group? h = w.arena.group? h := fun _ => Arena.group?_veil
  unfold canConnect
  rw [hgroup, hgroup]
  rfl

/-- So what a part sees is the same behind the veil. -/
theorem sees_veil (this : Option Handle) : (w.veil hidden).sees this = w.sees this := by
  have hresolve : (w.veil hidden).arena.resolve = w.arena.resolve := Arena.resolve_veil
  funext i
  unfold sees
  simp only [canConnect_veil, hresolve]

/-- What is alive is seen in its slot, if it can be connected to. -/
theorem sees_of_entity? {h : Handle} {e : Entity} (he : w.arena.entity? h = some e)
    (this : Option Handle) :
    w.sees this h.index = this.any fun part => w.canConnect part h := by
  obtain ⟨slot, hslot, hgen, hentity⟩ := Arena.entity?_eq_some_iff.1 he
  have hresolve : w.arena.resolve h.index = some ⟨h.index, h.generation, e.kind⟩ :=
    Arena.resolve_eq_some_iff.2 ⟨slot, e, hslot, hentity, by rw [hgen]⟩
  unfold sees
  rw [hresolve]
  rfl

/-- From a part that cannot connect to a memory, it makes no difference what
is put there. -/
theorem seenFrom_setMemory {h : Handle} {this : Option Handle}
    (hreach : ∀ part, this = some part → w.canConnect part h = false) (m : Memory) :
    World.seenFrom { w with arena := w.arena.setMemory h m } this = w.seenFrom this := by
  have hsees : World.sees { w with arena := w.arena.setMemory h m } this = w.sees this := by
    have hall : World.veil { w with arena := w.arena.setMemory h m } (fun _ => true)
        = w.veil fun _ => true :=
      congrArg (fun arena => { w with arena }) (Arena.veil_setMemory rfl m)
    rw [← sees_veil this, hall, sees_veil]
  have hveil : (w.arena.setMemory h m).veil (w.hides this) = w.arena.veil (w.hides this) := by
    cases hentity : w.arena.entity? h with
    | none => rw [Arena.setMemory_of_dead hentity]
    | some e =>
        refine Arena.veil_setMemory ?_ m
        unfold hides
        rw [sees_of_entity? hentity]
        cases this with
        | none => rfl
        | some part =>
            show (!w.canConnect part h) = true
            rw [hreach part rfl]
            rfl
  unfold seenFrom hides
  rw [hsees]
  exact congrArg (fun arena => { w with arena }) hveil

end World

namespace Scene

/-- The scene with nothing in the memories of hidden slots. -/
def veil (s : Scene) (hidden : Nat → Bool) : Scene := { s with world := s.world.veil hidden }

variable {s : Scene} {hidden : Nat → Bool} {id : VarId}

-- ================================================================= screen

/-- The methods are the standard ones, and all that the processor sees is
hidden, or none of it is. -/
structure Screens (hidden : Nat → Bool) (b : Bool) (s : Scene) : Prop where
  registry : s.world.registry = .standard
  seen : ∀ i, s.world.sees s.proc.this i → hidden i = b

/-- What is out of sight is hidden, and nothing else. -/
theorem Screens.hides (hregistry : s.world.registry = .standard) :
    Screens (s.world.hides s.proc.this) false s :=
  ⟨hregistry, fun i hi => by rw [World.hides, hi]; rfl⟩

/-- What a processor reaches it sees. -/
theorem Screens.reach {b : Bool} {h : Handle} (hs : Screens hidden b s)
    (hreach : s.reach id = .ok h) : hidden h.index = b := by
  obtain ⟨var, this, -, -, halive, hthis, hconnect⟩ := reach_eq_ok hreach
  obtain ⟨e, he⟩ := Option.isSome_iff_exists.1 halive
  refine hs.seen h.index ?_
  rw [World.sees_of_entity? he, hthis]
  exact hconnect

end Scene

-- ============================================================== likeness

/-- The likeness of scenes that differ only in what is in hidden memories. -/
def Likeness.veil (hidden : Nat → Bool) : Likeness where
  backdrop := Eq
  arena a b := b = a.veil hidden
  legacyVar := by
    rintro x _ rfl
    rfl
  arenas := Arena.veil_likeness hidden

namespace Scene

variable {s t : Scene} {hidden : Nat → Bool}

/-- A scene and the same one behind the veil are alike. -/
theorem alike_veil (s : Scene) (hidden : Nat → Bool) :
    (Likeness.veil hidden).Alike s (s.veil hidden) :=
  ⟨_, _, rfl, rfl, rfl⟩

/-- And there is no other scene like it. -/
theorem eq_veil (h : (Likeness.veil hidden).Alike s t) : t = s.veil hidden := by
  obtain ⟨_, _, rfl, rfl, rfl⟩ := h
  rfl

theorem veil_reads (hidden : Nat → Bool) (o : Operand) : (Likeness.veil hidden).Reads o := by
  refine Likeness.reads_of_draws ?_ ?_ o
  · rintro x _ rfl
    rfl
  · rintro x _ rfl draws
    rfl

/-- The veil is not noticed on what is in sight. -/
theorem Screens.holds (hs : Screens hidden false s) : (Likeness.veil hidden).Holds s where
  shows hreach := Arena.veil_shows (hs.reach hreach)
  calls {_ h} hreach {_ _ m} hfind a b hab args := by
    rw [hs.registry] at hfind
    exact Method.invoke_agrees fun _ => Standard.action_agrees (Registry.standard_methods hfind)
      (Arena.veil_likeness hidden) (Arena.veil_shows (hs.reach hreach)) (Arena.veil_lists hidden h)
      hab

theorem time_veil (op : TimeOp) :
    Agree (Likeness.veil hidden).Alike (s.time op) ((s.veil hidden).time op) := by
  cases op with
  | framesSinceLaunch dest | secondsSinceLaunch dest | deltaTime dest =>
      exact assign_alike (s.alike_veil hidden)
  | wait ticks => exact wait_alike (s.alike_veil hidden) (veil_reads hidden ticks)

end Scene

/-- An instruction does the same if nothing is in the memories that are out
of sight. -/
theorem Instruction.execute_veil {i : Instruction} {s : Scene} {hidden : Nat → Bool}
    (hs : s.Screens hidden false) :
    i.execute (s.veil hidden) = (i.execute s).map fun r => (r.1, r.2.veil hidden) := by
  have hagree := i.execute_alike (s.alike_veil hidden) (fun o _ => Scene.veil_reads hidden o)
    (fun op _ => Scene.time_veil op) hs.holds
  exact hagree.eq_map_beside fun _ _ => Scene.eq_veil

end TickScript
