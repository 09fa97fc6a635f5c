/-
A collector that is given all processors finds every dead reference, and
only these.

# Slots

In every state that a host reaches, a slot without an entity and without
usages waits to be reused (`Host.Reachable.listed`): nothing that a host or
a processor does loses a slot.

# Places

A place is a variable, a cell of a local memory or a cell of a memory
component (`Host.places`). The processors are swept one after the other, and
then the memory components. Each of these sweeps releases what it finds, and
that may recycle slots, but it never changes who is alive. So all of them
agree about what is dead, and together they empty just the places with dead
handles.

What is held after that is alive. As usages are balanced, a slot without an
entity has none left, so it waits to be reused.
-/
import Mathlib.Data.List.Forall2
import TickScript.Proofs.Arena.Listed
import TickScript.Proofs.Arena.Sweep
import TickScript.Proofs.Host.Balance
import TickScript.Proofs.Processor.Fair
import TickScript.Proofs.Processor.Frame
import TickScript.Proofs.Processor.InPlace

namespace TickScript

open Arena (Work Listed)
open List (Perm)

-- ================================================================== work

namespace Scene

variable {s s' : Scene}

/-- What is quiet does not touch the arena. -/
theorem Quiet.work (h : Quiet s s') : Work s.world.arena s'.world.arena := by
  rw [h.arena]
  exact .none

/-- Storing a value moves usages. -/
theorem store_work {id : VarId} {v : Value} (h : s.store id v = .ok s') :
    Work s.world.arena s'.world.arena := by
  obtain ⟨var, -, -, -, rfl⟩ := store_eq_ok h
  exact Work.none.exchange v var.value

/-- A device that is replaced is a memory of the arena, or the local one,
which is not in it. -/
theorem setDevice_work (target : Option Handle) (m : Memory) :
    Work s.world.arena (s.setDevice target m).world.arena := by
  cases target with
  | none => exact .none
  | some h => exact Work.none.write h m

/-- A standard method moves usages and writes to a memory at most. -/
theorem action_work {typeName name : String} {m : Method} {a a' : Arena} {h : Handle}
    {args : List Value} {result : Option Value}
    (hfound : Registry.standard.find? typeName name = some m)
    (haction : m.action a h args = .ok (result, a')) : Work a a' := by
  rcases InPlace.standard_actions hfound with ⟨-, hset, -⟩ | ⟨-, hclear, -⟩ | ⟨-, -, hlooking⟩
  · rw [hset] at haction
    obtain ⟨addr, v, m', m'', old, -, -, -, -, rfl⟩ := Standard.memorySetValue_eq_ok haction
    exact (Work.none.write h m'').exchange v old
  · rw [hclear] at haction
    obtain ⟨addr, -, haction⟩ := bind_eq_ok.1 haction
    obtain ⟨m', -, haction⟩ := bind_eq_ok.1 haction
    obtain ⟨⟨old, m''⟩, -, haction⟩ := bind_eq_ok.1 haction
    cases haction
    exact (Work.none.write h m'').releaseAll old.toList
  · rw [hlooking _ _ _ _ _ haction]
    exact .none

/-- What an instruction does to the arena is work. -/
theorem Effect.work {i : Instruction} (h : Effect i s s')
    (hregistry : s.world.registry = .standard) : Work s.world.arena s'.world.arena := by
  cases h with
  | quiet same => exact same.work
  | store before _ _ stored after => exact (before.work.trans (store_work stored)).trans after.work
  | @fill s₁ target m m' addr v old before device filled known =>
      exact (before.work.trans (setDevice_work target m')).exchange v old
  | @vacate s₁ target m m' addr old before device emptied =>
      exact (before.work.trans (setDevice_work target m')).releaseAll old.toList
  | call before _ _ found invoked stored =>
      rw [before.registry, hregistry] at found
      obtain ⟨args', -, haction⟩ := Method.invoke_eq_ok invoked
      have hcalled := before.work.trans (action_work found haction)
      rcases stored with rfl | ⟨id, v, -, -, stored⟩
      · exact hcalled
      · exact hcalled.trans (store_work stored)

/-- A step is the work of one instruction, or none. -/
theorem step_work (hregistry : s.world.registry = .standard) :
    Work s.world.arena s.step.world.arena := by
  obtain ⟨s₁, hexecuted, hstep⟩ := s.step_cases
  have hwork : Work s.world.arena s₁.world.arena := by
    rcases hexecuted with rfl | ⟨i, signal, -, hexecute⟩
    · exact .none
    · exact (Instruction.execute_effect hexecute).work hregistry
  rcases hstep with ⟨line, heq⟩ | ⟨fault, heq⟩
  · rw [heq, completeAtEnd_world]
    exact hwork
  · rw [heq]
    exact hwork

theorem Lines.work {n : Nat} (h : Lines s n s') (hregistry : s.world.registry = .standard) :
    Work s.world.arena s'.world.arena := by
  induction h with
  | none => exact .none
  | step before _ ih =>
      obtain ⟨ids, hwrites⟩ := before.writes
      exact ih.trans (step_work (hwrites.registry.trans hregistry))

/-- A tick does the work of its lines. -/
theorem tick_work (hregistry : s.world.registry = .standard) :
    Work s.world.arena s.tick.2.world.arena := by
  cases hstatus : s.proc.status with
  | waiting n =>
      rw [tick_waiting hstatus]
      exact .none
  | running =>
      obtain ⟨n, s', -, hlines, htick⟩ := tick_running hstatus
      rw [htick]
      exact hlines.work hregistry
  | stopped | completed | halted =>
      rw [tick_final (by rw [hstatus]; rfl)]
      exact .none

theorem declareParts_work : ∀ {parts : List (String × Handle)} {s : Scene},
    Work s.world.arena (s.declareParts parts).2.world.arena
  | [], s => .none
  | (name, part) :: parts, s => by
      unfold declareParts
      split
      next s' h =>
        unfold declarePart at h
        split at h
        next =>
          obtain ⟨⟨id, vars⟩, -, h⟩ := bind_eq_ok.1 h
          exact (store_work h).trans declareParts_work
        next => cases h
      next => exact .none

/-- Loading releases what the variables before held, and declares parts. -/
theorem load_work (source : String) : Work s.world.arena (s.load source).2.world.arena := by
  have hreset : Work s.world.arena s.reset.world.arena :=
    (Work.none.releaseAll s.proc.vars.values).releaseAll s.proc.memory.values
  have hdeclared : Work s.world.arena (s.reset.declareParts s.reset.proc.parts).2.world.arena :=
    hreset.trans declareParts_work
  unfold load
  simp only
  split
  next fault s' h =>
    rw [h] at hdeclared
    exact hdeclared
  next s' h =>
    rw [h] at hdeclared
    exact hdeclared

/-- Whatever is done with a processor, what it does to the arena is work. -/
theorem Act.work (hact : Act s s') (hregistry : s.world.registry = .standard) :
    Work s.world.arena s'.world.arena := by
  cases hact with
  | mount | connect | interrupt | feed => exact .none
  | load source => exact load_work source
  | tick => exact tick_work hregistry
  | sweep => exact Work.none.releaseAll _

end Scene

-- ================================================================= slots

/-- Sweeping processors only releases. -/
theorem Collector.sweepAll_work : ∀ (ps : List Processor) (a : Arena),
    Work a (sweepAll a ps).2.2
  | [], _ => .none
  | p :: ps, a => (Work.none.releaseAll _).trans (sweepAll_work ps (p.sweep a).2.2)

/-- A collection leaves every slot to be found that it left unused. -/
theorem Collector.collect_listed {w : World} (ps : List Processor) (hl : Listed w.arena []) :
    Listed (collect w ps).2.2.arena [] :=
  ((sweepAll_work ps w.arena).listed hl).sweepMemory

namespace Host

variable {h h' : Host}

/-- No step loses a slot. -/
theorem Step.listed (hstep : Step h h') (hok : Ok h) (hl : Listed h.world.arena []) :
    Listed h'.world.arena [] := by
  cases hstep with
  | spawn _ group => exact hl.insert _
  | attachMemory made =>
      obtain ⟨⟨component, arena⟩, hattach, made⟩ := bind_eq_ok.1 made
      cases made
      exact hl.attach hattach
  | attach made => exact hl.attach made
  | destroy _ entity => exact hl.destroy entity
  | addAntenna _ group =>
      unfold World.addAntenna
      split <;> exact hl
  | removeAntenna | worldTick | write | build => exact hl
  | act act => exact (act.work hok.registry).listed hl
  | @collect _ chosen others given => exact Collector.collect_listed chosen hl
  | @collectorTick _ chosen others collector given =>
      unfold Collector.tick
      split
      · exact hl
      · exact Collector.collect_listed chosen hl

/-- In every state that a host reaches, all unused slots wait to be
reused. -/
theorem Reachable.listed (hreach : Reachable h) : Listed h.world.arena [] := by
  induction hreach with
  | @start world empty standard =>
      show Listed world.arena []
      rw [empty]
      exact .empty
  | step reached step ih => exact step.listed reached.ok ih

end Host

-- ================================================================ places

/-- The places of a processor: its variables and the cells of its local
memory. -/
def Processor.places (p : Processor) : List (Option Value) :=
  p.vars.vars.map Variable.value ++ p.memory.cells

/-- The places of all processors and memory components. -/
def Host.places (h : Host) : List (Option Value) :=
  h.procs.flatMap Processor.places ++ h.world.arena.cells

/-- The places of a processor are swept, and all else about it is as it
was. -/
structure Processor.Swept (alive : Handle → Bool) (p p' : Processor) : Prop where
  rest : p' = { p with vars := p'.vars, memory := p'.memory }
  vars : p'.vars = { p.vars with
    vars := p.vars.vars.map fun v => { v with value := Memory.emptied alive v.value } }
  cells : p'.memory.cells = p.memory.cells.map (Memory.emptied alive)

/-- The places of a processor are its variables and cells, so they are emptied
as these are. -/
theorem Processor.Swept.places {alive : Handle → Bool} {p p' : Processor} (h : p.Swept alive p') :
    p'.places = p.places.map (Memory.emptied alive) := by
  unfold Processor.places
  rw [h.vars, h.cells, List.map_append, List.map_map, List.map_map]
  rfl

-- ================================================================ sweeps

/-- The storage of a processor is swept variable by variable. -/
theorem Storage.sweep_eq (s : Storage) (alive : Handle → Bool) :
    (s.sweep alive).2 = { s with
        vars := s.vars.map fun v => { v with value := Memory.emptied alive v.value } }
      ∧ (s.sweep alive).1.length = (s.vars.map Variable.value).countP (Memory.isDead alive) := by
  have hvars : (s.sweep alive).2 = { s with
      vars := s.vars.map fun v => { v with value := Memory.emptied alive v.value } } := by
    refine congrArg (fun vars => { s with vars }) (List.map_congr_left fun v _ => ?_)
    unfold Memory.emptied
    split
    next => rfl
    next => rfl
  refine ⟨hvars, ?_⟩
  have hperm := (s.values_sweep alive).length_eq
  have hcount := Memory.countP_isDead alive (s.vars.map Variable.value)
  rw [hvars, List.length_append] at hperm
  have hleft : Storage.values { s with
        vars := s.vars.map fun v => { v with value := Memory.emptied alive v.value } }
      = ((s.vars.map Variable.value).map (Memory.emptied alive)).filterMap fun cell => cell := by
    simp only [Storage.values, List.filterMap_map, List.map_map, Function.comp_def]
  have hheld : s.values = (s.vars.map Variable.value).filterMap fun cell => cell := by
    simp only [Storage.values, List.filterMap_map, Function.comp_def]
  rw [hleft, hheld] at hperm
  omega

/-- Variables are swept first and the local memory after them, by the same
arena. -/
theorem Processor.sweep_swept (p : Processor) (a : Arena) :
    p.Swept a.isAlive (p.sweep a).2.1
      ∧ (p.sweep a).1 = p.places.countP (Memory.isDead a.isAlive)
      ∧ a.SameEntities (p.sweep a).2.2 := by
  obtain ⟨hvars, hcount⟩ := p.vars.sweep_eq a.isAlive
  refine ⟨⟨rfl, hvars, p.memory.sweep_cells a.isAlive⟩, ?_, .releaseAll _⟩
  show ((p.vars.sweep a.isAlive).1 ++ (p.memory.sweep a.isAlive).1).length = _
  unfold places
  rw [List.length_append, List.countP_append, hcount, Memory.length_sweep]

/-- The processors agree about who is alive, although each sweep releases
what it found before the next one begins. -/
theorem Collector.sweepAll_swept : ∀ (ps : List Processor) (a : Arena),
    List.Forall₂ (Processor.Swept a.isAlive) ps (sweepAll a ps).2.1
      ∧ (sweepAll a ps).1 = (ps.flatMap Processor.places).countP (Memory.isDead a.isAlive)
      ∧ a.SameEntities (sweepAll a ps).2.2
  | [], a => ⟨.nil, rfl, .refl a⟩
  | p :: ps, a => by
      obtain ⟨hswept, hcount, hsame⟩ := p.sweep_swept a
      obtain ⟨hsweptAll, hcountAll, hsameAll⟩ := sweepAll_swept ps (p.sweep a).2.2
      rw [hsame.isAlive] at hsweptAll hcountAll
      refine ⟨.cons hswept hsweptAll, ?_, hsame.trans hsameAll⟩
      show (p.sweep a).1 + (sweepAll (p.sweep a).2.2 ps).1 = _
      rw [hcount, hcountAll, List.flatMap_cons, List.countP_append]

/-- The processors come first and the memory components last, all by who was
alive before. -/
theorem Collector.collect_swept (w : World) (ps : List Processor) :
    List.Forall₂ (Processor.Swept w.arena.isAlive) ps (collect w ps).2.1
      ∧ w.arena.Swept w.arena.isAlive (collect w ps).2.2.arena
      ∧ (collect w ps).1 = (Host.places ⟨w, ps⟩).countP (Memory.isDead w.arena.isAlive) := by
  obtain ⟨hprocs, hcount, hsame⟩ := sweepAll_swept ps w.arena
  obtain ⟨hmemories, hcount'⟩ := (sweepAll w.arena ps).2.2.sweepMemory_swept
  rw [hsame.isAlive] at hmemories hcount'
  refine ⟨hprocs, .around hsame hmemories (.refl _), ?_⟩
  show (sweepAll w.arena ps).1 + (sweepAll w.arena ps).2.2.sweepMemory.1 = _
  unfold Host.places
  rw [hcount, hcount', hsame.cells, List.countP_append]

namespace Host

variable {h : Host}

/-- The host after a collector was given its processors in some order. -/
def collected (h : Host) (ps : List Processor) : Host :=
  ⟨(Collector.collect h.world ps).2.2, (Collector.collect h.world ps).2.1⟩

/-- After a collection the places are those before, with the dead ones
emptied. -/
theorem places_collected (ps : List Processor) :
    (h.collected ps).places
      = (Host.places ⟨h.world, ps⟩).map (Memory.emptied h.world.arena.isAlive) := by
  obtain ⟨hprocs, harena, -⟩ := Collector.collect_swept h.world ps
  have hplaces : ∀ {ps ps' : List Processor},
      List.Forall₂ (Processor.Swept h.world.arena.isAlive) ps ps' →
      ps'.flatMap Processor.places
        = (ps.flatMap Processor.places).map (Memory.emptied h.world.arena.isAlive) := by
    intro ps ps' hswept
    induction hswept with
    | nil => rfl
    | cons hp _ ih => rw [List.flatMap_cons, List.flatMap_cons, List.map_append, ih, hp.places]
  show (Collector.collect h.world ps).2.1.flatMap Processor.places
    ++ (Collector.collect h.world ps).2.2.arena.cells = _
  unfold places
  rw [hplaces hprocs, harena.cells, List.map_append]

/-- A handle that is held is in a place. -/
theorem mem_places_of_held {g : Handle} (hg : g ∈ h.held) : some (.entity g) ∈ h.places := by
  unfold held at hg
  unfold places
  rcases List.mem_append.1 hg with hg | hg
  · obtain ⟨p, hp, hg⟩ := List.mem_flatMap.1 hg
    refine List.mem_append_left _ (List.mem_flatMap.2 ⟨p, hp, ?_⟩)
    unfold Processor.places
    rcases List.mem_append.1 hg with hg | hg
    · obtain ⟨v, hv, hvalue⟩ := List.mem_filterMap.1 (mem_handlesOf.1 hg)
      exact List.mem_append_left _ (List.mem_map.2 ⟨v, hv, hvalue⟩)
    · obtain ⟨cell, hcell, rfl⟩ := List.mem_filterMap.1 (mem_handlesOf.1 hg)
      exact List.mem_append_right _ hcell
  · obtain ⟨slot, hslot, hg⟩ := List.mem_flatMap.1 hg
    refine List.mem_append_right _ (List.mem_flatMap.2 ⟨slot, hslot, ?_⟩)
    unfold Slot.stored at hg
    split at hg
    next e he =>
      unfold Entity.values at hg
      split at hg
      next m hm =>
        obtain ⟨cell, hcell, rfl⟩ := List.mem_filterMap.1 (mem_handlesOf.1 hg)
        have hcells : slot.cells = m.cells := by simp [Slot.cells, he, hm]
        rw [hcells]
        exact hcell
      next => cases hg
    next => cases hg

/-- If all handles that are held are alive, then a slot without an entity has
no usages. -/
theorem Ok.usings_eq_zero {i : Nat} {slot : Slot} (hok : Ok h)
    (halive : ∀ g ∈ h.held, h.world.arena.isAlive g) (hslot : h.world.arena.slots[i]? = some slot)
    (hnone : slot.entity = none) : slot.usings = 0 := by
  have htally : Tally h.world.arena h.held := hok.balance
  rw [htally.usings hslot]
  refine List.countP_eq_zero.2 fun g hg hi => ?_
  obtain ⟨slot', e, hslot', he⟩ := Arena.isAlive_iff.1 (halive g hg)
  have hindex := (Arena.slot?_eq_some_iff.1 hslot').1
  rw [of_decide_eq_true hi, hslot] at hindex
  cases hindex
  rw [hnone] at he
  cases he

/-- A collector that is given all processors is complete and precise.

In every state that a host reaches, give its processors to a collector, in
any order. Then no place holds a dead handle any more: no variable, no cell
of a local memory and none of a memory component. Places that held something
else hold what they held, and so do processors and entities in all else. As
many places held a dead handle as the collector says. Who was alive is
alive, and no one else. And a slot without an entity has no usages and waits
to be reused. -/
theorem collect_exact {ps : List Processor} (hreach : Reachable h) (hall : Perm h.procs ps) :
    (∀ cell ∈ (h.collected ps).places,
        Memory.isDead (h.collected ps).world.arena.isAlive cell = false)
      ∧ List.Forall₂ (Processor.Swept h.world.arena.isAlive) ps (h.collected ps).procs
      ∧ h.world.arena.Swept h.world.arena.isAlive (h.collected ps).world.arena
      ∧ (Collector.collect h.world ps).1
          = (Host.places ⟨h.world, ps⟩).countP (Memory.isDead h.world.arena.isAlive)
      ∧ (h.collected ps).world.arena.isAlive = h.world.arena.isAlive
      ∧ ∀ i slot, (h.collected ps).world.arena.slots[i]? = some slot → slot.entity = none →
          slot.usings = 0 ∧ i ∈ (h.collected ps).world.arena.free := by
  obtain ⟨hprocs, harena, hcount⟩ := Collector.collect_swept h.world ps
  have halive : (h.collected ps).world.arena.isAlive = h.world.arena.isAlive := harena.isAlive
  have hliving : ∀ cell ∈ (h.collected ps).places,
      Memory.isDead (h.collected ps).world.arena.isAlive cell = false := by
    intro cell hcell
    rw [places_collected] at hcell
    obtain ⟨before, -, rfl⟩ := List.mem_map.1 hcell
    rw [halive]
    exact Memory.isDead_emptied before
  refine ⟨hliving, hprocs, harena, hcount, halive, fun i slot hslot hnone => ?_⟩
  have hok : Ok (h.collected ps) := by
    have hgiven : Perm h.procs (ps ++ []) := by
      rw [List.append_nil]
      exact hall
    have hok := hreach.ok.collect hgiven
    rw [List.append_nil] at hok
    exact hok
  have hheld : ∀ g ∈ (h.collected ps).held, (h.collected ps).world.arena.isAlive g := by
    intro g hg
    simpa [Memory.isDead] using hliving _ (mem_places_of_held hg)
  have hzero := hok.usings_eq_zero hheld hslot hnone
  have hlisted := Collector.collect_listed ps hreach.listed i slot hslot ⟨hnone, hzero⟩
  exact ⟨hzero, hlisted.resolve_right List.not_mem_nil⟩

/-- Puts handles to the two memories on its part into the first of them. -/
def pairUp : String :=
  "comp create(\"m\", \"memory\")\ncomp this.get_component(\"memory\", 0) m\n" ++
    "comp create(\"n\", \"memory\")\ncomp this.get_component(\"memory\", 1) n\n" ++
    "memory m.set(0, m)\nmemory m.set(1, n)"

/-- A world with one part, which has a memory of two cells and one of one
cell. -/
def paired : World :=
  match furnished.attachMemory ⟨0, 0, .part⟩ 1 with
  | .ok (_, world) => world
  | .error _ => furnished

/-- A script on a part of a world, after one tick. -/
def run (world : World) (part : Handle) (source : String) : Scene :=
  (Scene.load ⟨(Processor.ofConfig .standard).mount part, world⟩ source).2.tick.2

/-- The pairing script after one tick. -/
def pairing : Scene := run paired ⟨0, 0, .part⟩ pairUp

/-- The host after the second memory was destroyed. -/
def parted : Host :=
  ⟨{ pairing.world with arena := pairing.world.arena.destroy ⟨2, 0, .component⟩ }, [pairing.proc]⟩

theorem Reachable.run {world : World} (hreach : Reachable ⟨world, []⟩) (part : Handle)
    (source : String) :
    Reachable ⟨(run world part source).world, [(run world part source).proc]⟩ := by
  have hbuild : Reachable ⟨world, [.ofConfig .standard]⟩ := hreach.step (.build _ .standard)
  have hmount : Reachable ⟨world, [(Processor.ofConfig .standard).mount part]⟩ :=
    Reachable.alone (s := ⟨.ofConfig .standard, world⟩) hbuild (.mount _ part)
  have hload := Reachable.alone (s := ⟨_, world⟩) hmount (.load _ source)
  exact hload.alone (.tick _)

/-- A host with a single processor destroys an entity. -/
theorem Reachable.destroyed {s : Scene} (hreach : Reachable ⟨s.world, [s.proc]⟩)
    (entity : Handle) :
    Reachable ⟨{ s.world with arena := s.world.arena.destroy entity }, [s.proc]⟩ :=
  hreach.step (.destroy _ entity)

/-- The host with the gone memory is one that can be reached. -/
theorem reachable_parted : Reachable parted := by
  have hstart : Reachable ⟨.start (.start 0) ⟨0⟩, []⟩ := .start rfl rfl
  have hspawn := hstart.step (.spawn _ 1)
  have hfirst : Reachable ⟨furnished, []⟩ :=
    hspawn.step (@Step.attachMemory _ ⟨0, 0, .part⟩ ⟨1, 0, .component⟩ 2 furnished rfl)
  have hsecond : Reachable ⟨paired, []⟩ :=
    hfirst.step (@Step.attachMemory _ ⟨0, 0, .part⟩ ⟨2, 0, .component⟩ 1 paired rfl)
  have hrun := hsecond.run ⟨0, 0, .part⟩ pairUp
  unfold parted pairing
  exact hrun.destroyed ⟨2, 0, .component⟩

/-- A variable and a cell of the memory that is left refer to the memory that
is gone. They are emptied, three other places are not, and the slot can be
reused. -/
theorem collect_exact_parted :
    parted.places.countP (Memory.isDead parted.world.arena.isAlive) = 2
      ∧ (Collector.collect parted.world parted.procs).1 = 2
      ∧ (parted.collected parted.procs).held
          = [⟨0, 0, .part⟩, ⟨1, 0, .component⟩, ⟨1, 0, .component⟩]
      ∧ 2 ∉ parted.world.arena.free ∧ 2 ∈ (parted.collected parted.procs).world.arena.free := by
  have hrun : parted.places.countP (Memory.isDead parted.world.arena.isAlive) = 2
      ∧ (parted.collected parted.procs).held
          = [⟨0, 0, .part⟩, ⟨1, 0, .component⟩, ⟨1, 0, .component⟩]
      ∧ 2 ∉ parted.world.arena.free
      ∧ ((parted.collected parted.procs).world.arena.slots[2]?).any
          fun slot => slot.entity.isNone := by
    decide +kernel
  obtain ⟨hdead, hheld, hwaits, hgone⟩ := hrun
  obtain ⟨-, -, -, hcount, -, hfree⟩ := collect_exact reachable_parted (.refl parted.procs)
  refine ⟨hdead, hcount.trans hdead, hheld, hwaits, ?_⟩
  cases hslot : (parted.collected parted.procs).world.arena.slots[2]? with
  | none =>
      rw [hslot] at hgone
      cases hgone
  | some slot =>
      rw [hslot] at hgone
      exact (hfree 2 slot hslot (Option.isNone_iff_eq_none.1 hgone)).2

end Host

end TickScript
