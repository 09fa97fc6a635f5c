/-
Usages are balanced in every state that a host can bring about.

A host owns a world and any number of processors. It makes entities and
destroys them, through handles that may be stale, sets processors up and
loads and ticks them in any order, and sweeps any of them, alone or with
a collector (`Host.Step`). It never touches usages itself.

In every state it reaches, the usages of a slot are as many as the places
that hold a handle to it, and each of these handles is of the slot's
present generation. So the slot of a handle that is held has a usage left
to release, and is not among those to be reused.
-/
import TickScript.Proofs.Processor.Load

namespace TickScript

open List (Perm)

-- ================================================================= hosts

/-- A world and the processors that run in it. -/
structure Host where
  world : World
  procs : List Processor

/-- What a host does with one processor. -/
inductive Scene.Act : Scene → Scene → Prop where
  | mount (s : Scene) (part : Handle) : Act s { s with proc := s.proc.mount part }
  | connect {s : Scene} {name : String} {part : Handle} {proc : Processor}
      (made : s.proc.connect name part = .ok proc) : Act s { s with proc }
  | load (s : Scene) (source : String) : Act s (s.load source).2
  | tick (s : Scene) : Act s s.tick.2
  | interrupt (s : Scene) : Act s { s with proc := s.proc.interrupt }
  | feed (s : Scene) (text : String) : Act s { s with proc := s.proc.feed text }
  | sweep (s : Scene) : Act s s.swept

namespace Host

/-- What a host does. -/
inductive Step : Host → Host → Prop where
  | spawn (h : Host) (group : Nat) : Step h { h with world := (h.world.spawn group).2 }
  | attachMemory {h : Host} {part device : Handle} {size : Nat} {world : World}
      (made : h.world.attachMemory part size = .ok (device, world)) : Step h { h with world }
  | attach {h : Host} {part component : Handle} {typeName : String} {arena : Arena}
      (made : h.world.arena.attach part typeName none = .ok (component, arena)) :
      Step h { h with world := { h.world with arena } }
  | destroy (h : Host) (entity : Handle) :
      Step h { h with world := { h.world with arena := h.world.arena.destroy entity } }
  | addAntenna (h : Host) (group : Nat) : Step h { h with world := h.world.addAntenna group }
  | removeAntenna (h : Host) (group : Nat) :
      Step h { h with world := h.world.removeAntenna group }
  | worldTick (h : Host) : Step h { h with world := h.world.tick }
  | write (h : Host) (text : String) :
      Step h { h with world := { h.world with console := h.world.console.feed text } }
  | build (h : Host) (config : Config) : Step h { h with procs := .ofConfig config :: h.procs }
  | act {world world' : World} {before after : List Processor} {proc proc' : Processor}
      (act : Scene.Act ⟨proc, world⟩ ⟨proc', world'⟩) :
      Step ⟨world, before ++ proc :: after⟩ ⟨world', before ++ proc' :: after⟩
  /-- A collector is given some of the processors, in any order. -/
  | collect {h : Host} {chosen others : List Processor} (given : Perm h.procs (chosen ++ others)) :
      Step h ⟨(Collector.collect h.world chosen).2.2,
        (Collector.collect h.world chosen).2.1 ++ others⟩
  | collectorTick {h : Host} {chosen others : List Processor} (collector : Collector)
      (given : Perm h.procs (chosen ++ others)) :
      Step h ⟨(collector.tick h.world chosen).2.2.2,
        (collector.tick h.world chosen).2.2.1 ++ others⟩

/-- The states a host reaches from a world without entities, with the
standard methods. -/
inductive Reachable : Host → Prop where
  | start {world : World} (empty : world.arena = .empty) (standard : world.registry = .standard) :
      Reachable ⟨world, []⟩
  | step {h h' : Host} (reached : Reachable h) (step : Step h h') : Reachable h'

/-- The handles in all places: the variables and local memories of the
processors, and the memories of living components. -/
def held (h : Host) : List Handle := h.procs.flatMap Processor.held ++ h.world.arena.stored

-- ============================================================= invariant

/-- What holds in every state a host reaches. -/
structure Ok (h : Host) : Prop where
  registry : h.world.registry = .standard
  procs : ∀ p ∈ h.procs, p.WellFormed
  balance : Balanced h.world.arena (h.procs.flatMap Processor.held)

variable {h h' : Host}

/-- A change of the world that keeps the balance. -/
theorem Ok.withWorld {world : World} (hok : Ok h) (hregistry : world.registry = h.world.registry)
    (hbalance : ∀ {outside}, Balanced h.world.arena outside → Balanced world.arena outside) :
    Ok { h with world } where
  registry := hregistry.trans hok.registry
  procs := hok.procs
  balance := hbalance hok.balance

/-- The order of the processors does not matter. -/
theorem Ok.perm {procs : List Processor} (hok : Ok h) (hperm : Perm h.procs procs) :
    Ok { h with procs } where
  registry := hok.registry
  procs p hp := hok.procs p (hperm.mem_iff.2 hp)
  balance := hok.balance.perm (hperm.flatMap_right _)

end Host

-- ============================================================ processors

theorem Processor.wellFormed_ofConfig (config : Config) : (ofConfig config).WellFormed := by
  intro i hi
  cases hi

/-- A new processor holds nothing. -/
theorem Processor.held_ofConfig (config : Config) : (ofConfig config).held = [] := by
  show handlesOf [] ++ handlesOf (Memory.empty _).values = []
  rw [Memory.values_empty]
  rfl

/-- What is done with a processor keeps its script well formed and the
usages balanced. -/
theorem Scene.Act.keeps {s s' : Scene} (hact : Act s s') (hs : Sound s) :
    Sound s' ∧ KeepsBalance s s' := by
  have hsame : ∀ {s' : Scene}, Keeps s s' → Sound s' ∧ KeepsBalance s s' := fun hkeeps =>
    ⟨hkeeps.sound hs, hkeeps.balance⟩
  cases hact with
  | mount part => exact hsame (keeps_of_eq rfl rfl rfl rfl)
  | @connect name part proc made =>
      obtain ⟨name', -, made⟩ := bind_eq_ok.1 made
      split at made
      next => cases made
      next =>
        cases made
        exact hsame (keeps_of_eq rfl rfl rfl rfl)
  | load source => exact ⟨load_sound source hs.registry, load_balance source⟩
  | tick => exact hsame (tick_keeps hs)
  | interrupt => exact hsame (keeps_of_eq rfl rfl rfl rfl)
  | feed text => exact hsame (keeps_of_eq rfl rfl rfl rfl)
  | sweep => exact hsame s.swept_does.toKeeps

namespace Collector

/-- A sweep leaves scripts and kinds, so they stay well formed. -/
theorem sweepAll_wellFormed : ∀ {ps : List Processor} {a : Arena},
    (∀ p ∈ ps, p.WellFormed) → ∀ p ∈ (sweepAll a ps).2.1, p.WellFormed
  | [], _, _ => by simp [sweepAll]
  | p :: ps, a, hps => by
      intro q hq
      rcases List.mem_cons.1 hq with rfl | hq
      · intro i hi
        have hkinds := p.vars.kinds_sweep a.isAlive
        show i.WellFormed (p.vars.sweep a.isAlive).2.kinds p.script.size
        rw [hkinds]
        exact hps p List.mem_cons_self i hi
      · exact sweepAll_wellFormed (fun r hr => hps r (List.mem_cons_of_mem p hr)) q hq

/-- Sweeping processors in turn keeps the balance. -/
theorem sweepAll_balance : ∀ {ps : List Processor} {a : Arena} {others : List Handle},
    Balanced a (ps.flatMap Processor.held ++ others) →
    Balanced (sweepAll a ps).2.2 ((sweepAll a ps).2.1.flatMap Processor.held ++ others)
  | [], _, _, hb => hb
  | p :: ps, a, others, hb => by
      rw [List.flatMap_cons, List.append_assoc] at hb
      -- what the swept processor still holds counts as held by others
      have hfirst := (Processor.sweep_balance hb).perm (List.perm_append_comm_assoc ..)
      have hrest := (sweepAll_balance hfirst).perm (List.perm_append_comm_assoc ..)
      show Balanced _ (((p.sweep a).2.1 :: (sweepAll (p.sweep a).2.2 ps).2.1).flatMap _ ++ others)
      rw [List.flatMap_cons, List.append_assoc]
      exact hrest

end Collector

namespace Host

variable {h h' : Host}

-- ================================================================= steps

/-- Collecting among some processors leaves the others. -/
theorem Ok.collect {chosen others : List Processor} (hok : Ok h)
    (given : Perm h.procs (chosen ++ others)) :
    Ok ⟨(Collector.collect h.world chosen).2.2,
      (Collector.collect h.world chosen).2.1 ++ others⟩ := by
  have hprocs : ∀ p ∈ chosen ++ others, p.WellFormed := fun p hp =>
    hok.procs p (given.mem_iff.2 hp)
  have hbalance := hok.balance.perm (given.flatMap_right _)
  rw [List.flatMap_append] at hbalance
  refine ⟨hok.registry, fun p hp => ?_, ?_⟩
  · rcases List.mem_append.1 hp with hp | hp
    · exact Collector.sweepAll_wellFormed
        (fun q hq => hprocs q (List.mem_append_left _ hq)) p hp
    · exact hprocs p (List.mem_append_right _ hp)
  · simp only [List.flatMap_append]
    exact (Collector.sweepAll_balance hbalance).sweepMemory

/-- Every step keeps the invariant. -/
theorem Step.ok (hstep : Step h h') (hok : Ok h) : Ok h' := by
  cases hstep with
  | spawn _ group => exact hok.withWorld rfl fun hb => hb.spawn group
  | @attachMemory _ part device size world made =>
      obtain ⟨⟨component, arena⟩, hattach, made⟩ := bind_eq_ok.1 made
      cases made
      refine hok.withWorld rfl fun hb => hb.attach (fun m hm => ?_) hattach
      cases hm
      exact Memory.values_empty size
  | attach made => exact hok.withWorld rfl fun hb => hb.attach (fun m hm => by cases hm) made
  | destroy _ entity => exact hok.withWorld rfl fun hb => hb.destroy entity
  | addAntenna _ group =>
      refine hok.withWorld ?_ ?_ <;> unfold World.addAntenna <;> split
      · rfl
      · rfl
      · exact fun hb => hb
      · exact fun hb => hb
  | removeAntenna _ group => exact hok.withWorld rfl fun hb => hb
  | worldTick => exact hok.withWorld rfl fun hb => hb
  | write _ text => exact hok.withWorld rfl fun hb => hb
  | build _ config =>
      refine ⟨hok.registry, fun p hp => ?_, ?_⟩
      · rcases List.mem_cons.1 hp with rfl | hp
        · exact Processor.wellFormed_ofConfig config
        · exact hok.procs p hp
      · show Balanced _ ((Processor.ofConfig config).held ++ _)
        rw [Processor.held_ofConfig]
        exact hok.balance
  | @act world world' before after proc proc' act =>
      have hmiddle : Perm (before ++ proc :: after) (proc :: (before ++ after)) :=
        List.perm_middle
      have hfront := hok.perm hmiddle
      obtain ⟨hsound, hbalance⟩ :=
        act.keeps ⟨hfront.registry, hfront.procs proc List.mem_cons_self⟩
      have hafter : Ok ⟨world', proc' :: (before ++ after)⟩ := by
        refine ⟨hsound.registry, fun p hp => ?_, hbalance _ hfront.balance⟩
        rcases List.mem_cons.1 hp with rfl | hp
        · exact hsound.proc
        · exact hfront.procs p (List.mem_cons_of_mem proc hp)
      exact hafter.perm List.perm_middle.symm
  | collect given => exact hok.collect given
  | @collectorTick _ chosen others collector given =>
      unfold Collector.tick
      split
      · exact hok.perm given
      · exact hok.collect given

/-- In every state a host reaches, usages are balanced. -/
theorem Reachable.ok (hreach : Reachable h) : Ok h := by
  induction hreach with
  | @start world empty standard =>
      refine ⟨standard, fun p hp => (by cases hp), ?_⟩
      show Balanced world.arena []
      rw [empty]
      exact .empty
  | step _ step ih => exact step.ok ih

/-- In every state a host reaches, a slot has as many usages as there are
places that hold a handle to it. Each such handle is of the slot's
present generation; the slot has a usage to release, and is not to be
reused. -/
theorem usings_eq_held (hreach : Reachable h) :
    (∀ i slot, h.world.arena.slots[i]? = some slot → slot.usings = usagesOf h.held i)
      ∧ ∀ g ∈ h.held, ∃ slot, h.world.arena.slots[g.index]? = some slot
          ∧ slot.generation = g.generation ∧ 0 < slot.usings
          ∧ g.index ∉ h.world.arena.free := by
  have htally : Tally h.world.arena h.held := hreach.ok.balance
  refine ⟨fun i slot hslot => htally.usings hslot, fun g hg => ?_⟩
  obtain ⟨slot, hslot, hpos, hused⟩ := htally.held hg
  obtain ⟨hindex, hgen⟩ := Arena.slot?_eq_some_iff.1 hslot
  exact ⟨slot, hindex, hgen, hpos, hused⟩

/-- Puts handles to its part and to a memory on the part into that
memory. -/
def hoard : String :=
  "comp create(\"m\", \"memory\")\ncomp this.get_component(\"memory\", 0) m\n" ++
    "memory m.set(0, this)\nmemory m.set(1, m)"

/-- A world with one part, which has a memory of two cells. -/
def furnished : World :=
  let world := ((World.start (.start 0) ⟨0⟩).spawn 1).2
  match world.attachMemory ⟨0, 0, .part⟩ 2 with
  | .ok (_, world) => world
  | .error _ => world

/-- The hoarding script after one tick. -/
def hoarding : Scene :=
  (Scene.load ⟨(Processor.ofConfig .standard).mount ⟨0, 0, .part⟩, furnished⟩ hoard).2.tick.2

/-- The host after the part was destroyed with the memory on it. -/
def hoarded : Host :=
  ⟨{ hoarding.world with arena := hoarding.world.arena.destroy ⟨0, 0, .part⟩ }, [hoarding.proc]⟩

/-- A host with a single processor acts on it. -/
theorem Reachable.alone {s s' : Scene} (hreach : Reachable ⟨s.world, [s.proc]⟩)
    (hact : Scene.Act s s') : Reachable ⟨s'.world, [s'.proc]⟩ :=
  hreach.step (@Step.act s.world s'.world [] [] s.proc s'.proc hact)

theorem reachable_hoarded : Reachable hoarded := by
  have hstart : Reachable ⟨.start (.start 0) ⟨0⟩, []⟩ := .start rfl rfl
  have hspawn := hstart.step (.spawn _ 1)
  have hattach : Reachable ⟨furnished, []⟩ :=
    hspawn.step (@Step.attachMemory _ ⟨0, 0, .part⟩ ⟨1, 0, .component⟩ 2 furnished rfl)
  have hbuild : Reachable ⟨furnished, [.ofConfig .standard]⟩ :=
    hattach.step (.build _ .standard)
  have hmount : Reachable ⟨furnished, [(Processor.ofConfig .standard).mount ⟨0, 0, .part⟩]⟩ :=
    Reachable.alone (s := ⟨.ofConfig .standard, furnished⟩) hbuild (.mount _ ⟨0, 0, .part⟩)
  have hload := Reachable.alone (s := ⟨_, furnished⟩) hmount (.load _ hoard)
  have htick : Reachable ⟨hoarding.world, [hoarding.proc]⟩ := hload.alone (.tick _)
  have hdestroy := htick.step (.destroy ⟨hoarding.world, [hoarding.proc]⟩ ⟨0, 0, .part⟩)
  simp only at hdestroy
  exact hdestroy

/-- The variables of the script still hold the part and the memory, once
each; what the memory held is released. -/
theorem usings_eq_held_hoarded :
    hoarded.held = [⟨0, 0, .part⟩, ⟨1, 0, .component⟩]
      ∧ hoarded.world.arena.slots.map Slot.usings = [1, 1]
      ∧ ∀ g ∈ hoarded.held, ∃ slot, hoarded.world.arena.slots[g.index]? = some slot
          ∧ slot.generation = g.generation := by
  have hrun : hoarded.held = [⟨0, 0, .part⟩, ⟨1, 0, .component⟩]
      ∧ hoarded.world.arena.slots.map Slot.usings = [1, 1] := by
    decide +kernel
  refine ⟨hrun.1, hrun.2, fun g hg => ?_⟩
  obtain ⟨slot, hslot, hgeneration, -⟩ := (usings_eq_held reachable_hoarded).2 g hg
  exact ⟨slot, hslot, hgeneration⟩

end Host

end TickScript
