/-
Component variables hold components of their type.

A component variable is declared for a type of components, and what is
stored in it is checked. In every state that a host reaches, a living entity
in such a variable is of its type (`Host.Reachable.restricted`), and so it is
before every line of a tick (`Host.Scenes.guarded`). This is so for any number
of entities made and destroyed in the meantime: generations may wrap.

# From one state to the next

All handles in variables are held, so they are current as usages are
balanced. A single change spares what they are to (`Arena.Spares`), and
after it usages are balanced again. For the lines of a tick both facts come
from what instructions do (`Scene.Effect`): the one variable that a line
may store into is checked, and for the others the line counts as one change.
-/
import TickScript.Proofs.Arena.Current
import TickScript.Proofs.Host.Sweep
import TickScript.Proofs.Processor.Typed

namespace TickScript

open Arena (Spares)
open List (Perm)

-- ============================================================= variables

/-- A living entity in the variable is of the type that the variable is
restricted to. -/
def Variable.Restricted (a : Arena) (v : Variable) : Prop :=
  ∀ {typeName h e}, v.component = some typeName → v.value = some (.entity h) →
    a.entity? h = some e → e.typeName = typeName

/-- This holds of all variables. -/
def Storage.Restricted (a : Arena) (s : Storage) : Prop := ∀ v ∈ s.vars, v.Restricted a

section

variable {a a' : Arena} {p p' : Processor} {others : List Handle}

/-- A change that spares what is held leaves variables as they are. -/
theorem Storage.Restricted.spared (hr : p.vars.Restricted a)
    (hb : Balanced a (p.held ++ others)) (hspares : Spares a a') : p.vars.Restricted a' := by
  intro v hv typeName h e' hcomponent hvalue he'
  have hheld : h ∈ p.held :=
    List.mem_append_left _ (mem_handlesOf.2 (List.mem_filterMap.2 ⟨v, hv, hvalue⟩))
  obtain ⟨e, he, hsame⟩ := hspares h e' (hb.current (List.mem_append_left _ hheld)) he'
  exact hsame.typeName.trans (hr v hv hcomponent hvalue he)

/-- A sweep only empties variables. -/
theorem Storage.Restricted.swept {alive : Handle → Bool} (hr : p.vars.Restricted a)
    (hswept : p.Swept alive p') : p'.vars.Restricted a := by
  intro v' hv' typeName h e hcomponent hvalue he
  rw [hswept.vars] at hv'
  obtain ⟨v, hv, rfl⟩ := List.mem_map.1 hv'
  simp only [Memory.emptied] at hvalue
  split at hvalue
  next => cases hvalue
  next => exact hr v hv hcomponent hvalue he

theorem Storage.restricted_swept {alive : Handle → Bool} {ps ps' : List Processor}
    (hswept : List.Forall₂ (Processor.Swept alive) ps ps') (hr : ∀ p ∈ ps, p.vars.Restricted a) :
    ∀ p ∈ ps', p.vars.Restricted a := by
  induction hswept with
  | nil => exact hr
  | cons hp _ ih =>
      obtain ⟨hfirst, hrest⟩ := List.forall_mem_cons.1 hr
      exact List.forall_mem_cons.2 ⟨hfirst.swept hp, ih hrest⟩

end

-- ================================================================= lines

namespace Scene

variable {s s' : Scene} {id : VarId} {v : Value} {others : List Handle}

/-- A memory that is replaced is no variable. -/
theorem setDevice_vars (target : Option Handle) (m : Memory) :
    (s.setDevice target m).proc.vars = s.proc.vars := by
  cases target <;> rfl

theorem withArena_vars (a : Arena) : (s.withArena a).proc.vars = s.proc.vars := rfl

/-- What is stored is checked. The other variables may have been looked at
in an earlier arena. -/
theorem store_restricted {a : Arena} (hr : s.proc.vars.Restricted a)
    (hb : Balanced a (s.proc.held ++ others)) (hspares : Spares a s'.world.arena)
    (hstore : s.store id v = .ok s') : s'.proc.vars.Restricted s'.world.arena := by
  have hsettles := store_settles hstore
  have hold := hr.spared hb hspares
  obtain ⟨var, -, -, hcheck, rfl⟩ := store_eq_ok hstore
  intro var' hvar' typeName h e' hcomponent hvalue he'
  rcases List.mem_or_eq_of_mem_set hvar' with hmem | rfl
  · exact hold var' hmem hcomponent hvalue he'
  · cases hvalue
    unfold checkType at hcheck
    rw [show var.component = some typeName from hcomponent] at hcheck
    simp only at hcheck
    split at hcheck
    next hwanted =>
      obtain ⟨e, he, htype⟩ := Option.map_eq_some_iff.1 hwanted
      obtain ⟨slot, hslot, -⟩ := Option.bind_eq_some_iff.1 he
      obtain ⟨e₀, he₀, hsame⟩ := hsettles.entity_before hslot he'
      cases he.symm.trans he₀
      exact hsame.typeName.trans htype
    next => cases hcheck

/-- An instruction leaves variables with what they are restricted to. -/
theorem Effect.restricted {i : Instruction} (heffect : Effect i s s')
    (hregistry : s.world.registry = .standard) (hb : Balanced s.world.arena (s.proc.held ++ others))
    (hr : s.proc.vars.Restricted s.world.arena) : s'.proc.vars.Restricted s'.world.arena := by
  have hspares := (heffect.work hregistry).spares
  cases heffect with
  | quiet same =>
      rw [same.vars]
      exact hr.spared hb hspares
  | store before _ _ stored after =>
      rw [after.vars, after.arena]
      rw [after.arena] at hspares
      rw [← before.vars] at hr
      rw [Processor.held, ← before.vars, ← before.memory] at hb
      exact store_restricted hr hb hspares stored
  | @fill s₁ target m m' addr v old before device filled known =>
      have hvars : (s₁.setDevice target m').proc.vars = s.proc.vars :=
        (setDevice_vars target m').trans before.vars
      rw [withArena_vars, hvars]
      exact hr.spared hb hspares
  | @vacate s₁ target m m' addr old before device emptied =>
      have hvars : (s₁.setDevice target m').proc.vars = s.proc.vars :=
        (setDevice_vars target m').trans before.vars
      rw [withArena_vars, hvars]
      exact hr.spared hb hspares
  | @call s₁ s' h typeName name method args result arena before _ _ _ _ stored =>
      rcases stored with rfl | ⟨id, v, -, -, stored⟩
      · rw [withArena_vars, before.vars]
        exact hr.spared hb hspares
      · rw [← before.vars] at hr
        rw [Processor.held, ← before.vars, ← before.memory] at hb
        have hcalled : (s₁.withArena arena).proc.vars.Restricted s.world.arena := hr
        exact store_restricted hcalled hb hspares stored

/-- The script is well formed, usages are balanced, and variables hold what
they are restricted to. -/
structure Guarded (others : List Handle) (s : Scene) : Prop where
  sound : Sound s
  balance : Balanced s.world.arena (s.proc.held ++ others)
  restricted : s.proc.vars.Restricted s.world.arena

/-- Nothing else matters if variables and entities stay as they are. -/
theorem Guarded.keeps (hs : Guarded others s) (hkeeps : Keeps s s')
    (hvars : s'.proc.vars = s.proc.vars) (harena : s'.world.arena = s.world.arena) :
    Guarded others s' := by
  refine ⟨hkeeps.sound hs.sound, hkeeps.balance others hs.balance, ?_⟩
  rw [hvars, harena]
  exact hs.restricted

/-- A line keeps this. -/
theorem Guarded.step (hs : Guarded others s) : Guarded others s.step := by
  obtain ⟨s₁, hexecuted, hstep⟩ := s.step_cases
  have hguarded : Guarded others s₁ := by
    rcases hexecuted with rfl | ⟨i, signal, hi, hexecute⟩
    · exact hs
    · have hkeeps := execute_keeps hs.sound hi hexecute
      refine ⟨hkeeps.sound hs.sound, hkeeps.balance others hs.balance, ?_⟩
      exact (Instruction.execute_effect hexecute).restricted hs.sound.registry hs.balance
        hs.restricted
  rcases hstep with ⟨line, heq⟩ | ⟨fault, heq⟩
  · rw [heq]
    refine hguarded.keeps ((goTo_keeps line).trans completeAtEnd_keeps) ?_ ?_ <;>
      unfold completeAtEnd <;> split <;> rfl
  · rw [heq]
    exact hguarded.keeps (fail_keeps fault) rfl rfl

/-- Every line of a tick leaves a scene guarded. -/
theorem Guarded.lines {n : Nat} (hlines : Lines s n s') (hs : Guarded others s) :
    Guarded others s' := by
  induction hlines with
  | none => exact hs
  | step _ _ ih => exact ih.step

theorem Guarded.aged (hs : Guarded others s) : Guarded others s.aged :=
  ⟨⟨hs.sound.registry, hs.sound.proc⟩, hs.balance, hs.restricted⟩

theorem Guarded.tick (hs : Guarded others s) : Guarded others s.tick.2 := by
  cases hstatus : s.proc.status with
  | waiting n =>
      rw [tick_waiting hstatus]
      exact ⟨⟨hs.sound.registry, hs.sound.proc⟩, hs.balance, hs.restricted⟩
  | running =>
      obtain ⟨n, s', -, hlines, htick⟩ := tick_running hstatus
      rw [htick]
      exact hs.aged.lines hlines
  | stopped | completed | halted =>
      rw [tick_final (by rw [hstatus]; rfl)]
      exact hs.aged

-- ============================================================ processors

/-- Parts are declared without a restriction. -/
theorem declareParts_plain : ∀ {parts : List (String × Handle)} {s : Scene},
    (∀ v ∈ s.proc.vars.vars, v.component = none) →
    ∀ v ∈ (s.declareParts parts).2.proc.vars.vars, v.component = none
  | [], _, hs => hs
  | (name, part) :: parts, s, hs => by
      unfold declareParts
      split
      next s' hdeclare =>
        refine declareParts_plain fun v hv => ?_
        unfold declarePart at hdeclare
        split at hdeclare
        next =>
          obtain ⟨⟨id, vars⟩, hadd, hstore⟩ := bind_eq_ok.1 hdeclare
          obtain ⟨var, hget, -, -, rfl⟩ := store_eq_ok hstore
          cases (Storage.get?_add hadd).symm.trans hget
          obtain ⟨-, rfl⟩ := Storage.add_eq_ok hadd
          rcases List.mem_or_eq_of_mem_set hv with hold | rfl
          · rcases List.mem_append.1 hold with hold | hnew
            · exact hs v hold
            · cases List.mem_singleton.1 hnew
              rfl
          · rfl
        next => cases hdeclare
      next => exact hs

/-- A script that was just loaded has no entities in component variables. -/
theorem load_restricted (source : String) (a : Arena) :
    (s.load source).2.proc.vars.Restricted a := by
  have hplain : ∀ v ∈ (s.reset.declareParts s.reset.proc.parts).2.proc.vars.vars,
      v.component = none := declareParts_plain fun v hv => by cases hv
  unfold load
  simp only
  split
  next fault s' heq =>
    rw [heq] at hplain
    intro v hv typeName h e hcomponent
    rw [hplain v hv] at hcomponent
    cases hcomponent
  next s' heq =>
    rw [heq] at hplain
    intro v hv typeName h e hcomponent hvalue
    obtain ⟨added, hadded, hdeclared⟩ := compile_adds source s'.proc.vars s'.world.registry
    change v ∈ (compile source s'.proc.vars s'.world.registry).vars.vars at hv
    rw [hadded] at hv
    rcases List.mem_append.1 hv with hv | hv
    · rw [hplain v hv] at hcomponent
      cases hcomponent
    · exact absurd hvalue (hdeclared v hv).plain

/-- Whatever is done with a processor, its variables hold what they are
restricted to. -/
theorem Act.restricted (hact : Act s s') (hs : Guarded others s) :
    s'.proc.vars.Restricted s'.world.arena := by
  cases hact with
  | mount | interrupt | feed => exact hs.restricted
  | @connect name part proc made =>
      obtain ⟨name', -, made⟩ := bind_eq_ok.1 made
      split at made
      next => cases made
      next =>
        cases made
        exact hs.restricted
  | load source => exact load_restricted source _
  | tick => exact hs.tick.restricted
  | sweep =>
      have hspared := hs.restricted.spared hs.balance ((Act.sweep s).work hs.sound.registry).spares
      exact hspared.swept (s.proc.sweep_swept s.world.arena).1

end Scene

-- ================================================================= hosts

namespace Host

variable {h h' : Host} {p : Processor}

/-- The variables of all processors hold what they are restricted to. -/
def Restricted (h : Host) : Prop := ∀ p ∈ h.procs, p.vars.Restricted h.world.arena

/-- What the other processors hold makes up the balance. -/
theorem Ok.balance_of_mem (hok : Ok h) (hp : p ∈ h.procs) :
    ∃ others, Balanced h.world.arena (p.held ++ others) := by
  obtain ⟨before, after, heq⟩ := List.append_of_mem hp
  have hbalance := hok.balance
  rw [heq] at hbalance
  exact ⟨_, hbalance.perm (List.perm_middle.flatMap_right _)⟩

/-- What one processor holds is held, and the others hold the rest. -/
theorem Ok.guarded (hok : Ok h) (hr : h.Restricted) (hp : p ∈ h.procs) :
    ∃ others, Scene.Guarded others ⟨p, h.world⟩ := by
  obtain ⟨others, hbalance⟩ := hok.balance_of_mem hp
  exact ⟨others, ⟨hok.registry, hok.procs p hp⟩, hbalance, hr p hp⟩

/-- A change of the world that spares what is held. -/
theorem Restricted.spared (hr : h.Restricted) (hok : Ok h) {world : World}
    (hspares : Spares h.world.arena world.arena) : Restricted { h with world } := by
  intro p hp
  obtain ⟨others, hbalance⟩ := hok.balance_of_mem hp
  exact (hr p hp).spared hbalance hspares

theorem Restricted.perm {procs : List Processor} (hr : h.Restricted) (hperm : Perm h.procs procs) :
    Restricted { h with procs } :=
  fun p hp => hr p (hperm.mem_iff.2 hp)

/-- A collector empties variables. -/
theorem Restricted.collect {chosen others : List Processor} (hr : h.Restricted) (hok : Ok h)
    (given : Perm h.procs (chosen ++ others)) :
    Restricted ⟨(Collector.collect h.world chosen).2.2,
      (Collector.collect h.world chosen).2.1 ++ others⟩ := by
  have hspares : Spares h.world.arena (Collector.collect h.world chosen).2.2.arena := by
    obtain ⟨handles, hsettles⟩ := (Collector.sweepAll_work chosen h.world.arena).settles
    exact (hsettles.trans Arena.settles_sweepMemory).spares
  have hold : ∀ p ∈ chosen ++ others,
      p.vars.Restricted (Collector.collect h.world chosen).2.2.arena :=
    (hr.spared hok hspares).perm given
  obtain ⟨hchosen, hothers⟩ := List.forall_mem_append.1 hold
  have hswept := (Collector.collect_swept h.world chosen).1
  exact List.forall_mem_append.2 ⟨Storage.restricted_swept hswept hchosen, hothers⟩

/-- No step of a host puts other entities into component variables. -/
theorem Step.restricted (hstep : Step h h') (hok : Ok h) (hr : h.Restricted) :
    h'.Restricted := by
  cases hstep with
  | spawn _ group => exact hr.spared hok (Arena.Op.spares (.spawn group) h.world.arena)
  | @attachMemory _ part device size world made =>
      obtain ⟨⟨component, arena⟩, hattach, made⟩ := bind_eq_ok.1 made
      cases made
      have hspares := Arena.Op.spares (.attach part Entity.memoryType (some (.empty size)))
        h.world.arena
      simp only [Arena.Op.apply, hattach] at hspares
      exact hr.spared hok hspares
  | @attach _ part component typeName arena made =>
      have hspares := Arena.Op.spares (.attach part typeName none) h.world.arena
      simp only [Arena.Op.apply, made] at hspares
      exact hr.spared hok hspares
  | destroy _ entity => exact hr.spared hok (Arena.Op.spares (.destroy entity) h.world.arena)
  | addAntenna _ group =>
      unfold World.addAntenna
      split <;> exact hr
  | removeAntenna | worldTick | write => exact hr
  | build _ config =>
      intro p hp
      rcases List.mem_cons.1 hp with rfl | hp
      · intro v hv
        cases hv
      · exact hr p hp
  | @act world world' before after proc proc' act =>
      have hold := hr.spared hok (act.work hok.registry).spares
      obtain ⟨others, hguarded⟩ := hok.guarded hr (List.mem_append_right _ List.mem_cons_self)
      intro p hp
      rcases List.mem_append.1 hp with hp | hp
      · exact hold p (List.mem_append_left _ hp)
      · rcases List.mem_cons.1 hp with rfl | hp
        · exact act.restricted hguarded
        · exact hold p (List.mem_append_right _ (List.mem_cons_of_mem _ hp))
  | collect given => exact hr.collect hok given
  | collectorTick collector given =>
      unfold Collector.tick
      split
      · exact hr.perm given
      · exact hr.collect hok given

/-- In every state that a host reaches, living entities in component variables
are of the types that these are restricted to. -/
theorem Reachable.restricted (hreach : Reachable h) : h.Restricted := by
  induction hreach with
  | start => exact fun p hp => by cases hp
  | step reached step ih => exact step.restricted reached.ok ih

/-- The scenes of a host: its processors as it leaves them, and before each
line of a tick. -/
inductive Scenes (h : Host) : Scene → Prop where
  | between {p : Processor} (member : p ∈ h.procs) : Scenes h ⟨p, h.world⟩
  | during {p : Processor} {n : Nat} {s : Scene} (member : p ∈ h.procs)
      (lines : Scene.Lines (Scene.aged ⟨p, h.world⟩) n s) : Scenes h s

/-- Every scene that a host brings about is guarded. -/
theorem Scenes.guarded {s : Scene} (hreach : Reachable h) (hscene : h.Scenes s) :
    ∃ others, Scene.Guarded others s := by
  cases hscene with
  | between member => exact hreach.ok.guarded hreach.restricted member
  | during member lines =>
      obtain ⟨others, hguarded⟩ := hreach.ok.guarded hreach.restricted member
      exact ⟨others, hguarded.aged.lines lines⟩

end Host

end TickScript
