/-
A processor neither learns nor changes what is out of its reach.

# Changing nothing

Let a veil hide what is in sight. Behind it nothing happens to any entity
(`Scene.Confined`), since a memory that is written to is a hidden one. What
is out of sight was never hidden, so it is as it was. And with everything
hidden, the same says that ticks change nothing about entities but what is
in memories: whatever is in sight stays in sight.

# Learning nothing

So an instruction does the same if the memories out of sight are emptied,
and so does the next one: ticks commute with the veil over what is out of
sight (`Scene.play_veil`). Two worlds that look the same from the part are
one world behind that veil, and ticks cannot tell them apart.
-/
import TickScript.Proofs.Processor.Atomic
import TickScript.Proofs.Processor.Bisimulation
import TickScript.Proofs.Processor.Veil

namespace TickScript

namespace Scene

variable {s s' : Scene} {hidden : Nat → Bool} {id : VarId} {v : Value} {target : Option Handle}

-- =============================================================== confined

/-- Nothing has changed about any entity but what is in hidden memories, and
the processor sees as far as it did. -/
structure Confined (hidden : Nat → Bool) (s s' : Scene) : Prop where
  this : s'.proc.this = s.proc.this
  antennas : s'.world.antennas = s.world.antennas
  registry : s'.world.registry = s.world.registry
  entities : (s.world.arena.veil hidden).SameEntities (s'.world.arena.veil hidden)

namespace Confined

variable {s'' : Scene}

theorem refl (s : Scene) : Confined hidden s s := ⟨rfl, rfl, rfl, .refl _⟩

/-- What is hidden is the same from step to step. -/
theorem trans (h : Confined hidden s s') (h' : Confined hidden s' s'') : Confined hidden s s'' where
  this := h'.this.trans h.this
  antennas := h'.antennas.trans h.antennas
  registry := h'.registry.trans h.registry
  entities := h.entities.trans h'.entities

/-- Only the processor has changed, or what is in the world beside entities. -/
theorem of_eq (hthis : s'.proc.this = s.proc.this)
    (hantennas : s'.world.antennas = s.world.antennas)
    (hregistry : s'.world.registry = s.world.registry) (harena : s'.world.arena = s.world.arena) :
    Confined hidden s s' :=
  ⟨hthis, hantennas, hregistry, harena ▸ .refl _⟩

/-- Usages have changed. -/
theorem withArena {arena : Arena}
    (h : (s.world.arena.veil hidden).SameEntities (arena.veil hidden)) :
    Confined hidden s (s.withArena arena) := ⟨rfl, rfl, rfl, h⟩

/-- Random draws are no change to an entity. -/
theorem of_untouched (h : Untouched s s') : Confined hidden s s' := by
  obtain ⟨draws, rfl⟩ := h
  exact of_eq rfl rfl rfl rfl

/-- Storing moves usages, and those are no part of an entity. -/
theorem exchange (v : Value) (old : Option Value) :
    Confined hidden s (s.withArena (s.world.arena.exchange v old)) := by
  refine withArena ?_
  rw [← Arena.exchange_veil]
  exact .exchange v old

theorem releaseAll (vs : List Value) :
    Confined hidden s (s.withArena (s.world.arena.releaseAll vs)) := by
  refine withArena ?_
  rw [← Arena.releaseAll_veil]
  exact .releaseAll vs

/-- A memory that is hidden may be replaced, and so may the local one. -/
theorem setDevice {target : Option Handle} (m : Memory)
    (hhidden : ∀ h, target = some h → hidden h.index = true) :
    Confined hidden s (s.setDevice target m) := by
  cases target with
  | none => exact of_eq rfl rfl rfl rfl
  | some h =>
      refine withArena ?_
      rw [Arena.veil_setMemory (hhidden h rfl)]
      exact .refl _

/-- A variable belongs to the processor; what is stored in it takes a usage. -/
theorem store (h : s.store id v = .ok s') : Confined hidden s s' := by
  obtain ⟨var, -, -, -, rfl⟩ := store_eq_ok h
  exact (exchange v var.value).trans (of_eq rfl rfl rfl rfl)

/-- The value is converted, and then stored. -/
theorem assign (h : s.assign id v = .ok s') : Confined hidden s s' := by
  obtain ⟨w, hstore, -⟩ := assign_eq_ok h
  exact store hstore

-- ------------------------------------------------------------------ sight

/-- Permission goes by groups, which do not change. -/
theorem canConnect (h : Confined hidden s s') (source target : Handle) :
    s'.world.canConnect source target = s.world.canConnect source target := by
  have hgroup : ∀ g, s'.world.arena.group? g = s.world.arena.group? g := by
    intro g
    have hveil : ∀ a : Arena, (a.veil hidden).group? g = a.group? g := fun _ => Arena.group?_veil
    rw [← hveil s'.world.arena, ← hveil s.world.arena]
    unfold Arena.group?
    rw [h.entities.entity?]
  unfold World.canConnect
  rw [hgroup, hgroup, h.antennas]

/-- So what the processor sees does not change either. -/
theorem sees (h : Confined hidden s s') :
    s'.world.sees s'.proc.this = s.world.sees s.proc.this := by
  have hresolve : s'.world.arena.resolve = s.world.arena.resolve := by
    have hveil : ∀ a : Arena, (a.veil hidden).resolve = a.resolve := fun _ => Arena.resolve_veil
    rw [← hveil s'.world.arena, ← hveil s.world.arena]
    exact h.entities.resolve
  funext i
  unfold World.sees
  rw [h.this, hresolve]
  simp only [h.canConnect]

end Confined

/-- What is seen is hidden, or not, as before. -/
theorem Screens.confined {b : Bool} {hidden' : Nat → Bool} (hs : Screens hidden b s)
    (h : Confined hidden' s s') : Screens hidden b s' where
  registry := h.registry.trans hs.registry
  seen i hi := hs.seen i (h.sees ▸ hi)

/-- What is seen can be hidden altogether. -/
theorem Screens.all {b : Bool} (hs : Screens hidden b s) : Screens (fun _ => true) true s :=
  ⟨hs.registry, fun _ _ => rfl⟩

-- ------------------------------------------------- confined instructions

namespace Confined

theorem time {op : TimeOp} (h : s.time op = .ok s') : Confined hidden s s' := by
  cases op with
  | framesSinceLaunch dest | secondsSinceLaunch dest | deltaTime dest => exact .assign h
  | wait ticks =>
      obtain ⟨⟨v, s₁⟩, hv, h⟩ := bind_eq_ok.1 h
      obtain ⟨n, -, h⟩ := bind_eq_ok.1 h
      simp only at h
      split at h
      next =>
        cases h
        have hread : Confined hidden s s₁ := .of_untouched (.read hv)
        exact hread.trans (.of_eq rfl rfl rfl rfl)
      next => cases h

theorem console {op : ConsoleOp} (h : s.console op = .ok s') : Confined hidden s s' := by
  cases op with
  | read | write =>
      cases h
      exact .of_eq rfl rfl rfl rfl
  | clear stream => cases stream <;> cases h <;> exact .of_eq rfl rfl rfl rfl
  | filter => cases h
  | push args =>
      obtain ⟨⟨vs, s₁⟩, hvs, h⟩ := bind_eq_ok.1 h
      cases h
      have hread : Confined hidden s s₁ := .of_untouched (.readAll hvs)
      exact hread.trans (.of_eq rfl rfl rfl rfl)
  | canPop probe dest =>
      obtain ⟨ready, -, h⟩ := bind_eq_ok.1 h
      exact .store h
  | pop target =>
      cases target with
      | char dest =>
          simp only [Scene.console, popChar] at h
          split at h
          next => cases h
          next =>
            obtain ⟨s₁, hstore, h⟩ := bind_eq_ok.1 h
            cases h
            have hstored : Confined hidden s s₁ := .store hstore
            exact hstored.trans (.of_eq rfl rfl rfl rfl)
      | number dest =>
          simp only [Scene.console, popNumber] at h
          split at h
          next => cases h
          next =>
            obtain ⟨var, -, h⟩ := bind_eq_ok.1 h
            split at h
            next =>
              obtain ⟨v, -, h⟩ := bind_eq_ok.1 h
              obtain ⟨s₁, hassign, h⟩ := bind_eq_ok.1 h
              cases h
              have hassigned : Confined hidden s s₁ := .assign hassign
              exact hassigned.trans (.of_eq rfl rfl rfl rfl)
            next => cases h

/-- A memory that is written to was reached, so it was in sight and is hidden.
-/
theorem memory {op : MemoryOp} (hhidden : ∀ h, target = some h → hidden h.index = true)
    (h : s.memory target op = .ok s') : Confined hidden s s' := by
  have haddress : ∀ {o : Operand} {n : Int64} {s₁ : Scene}, s.readAddress o = .ok (n, s₁) →
      Confined hidden s s₁ := fun hread => .of_untouched (.readAddress hread)
  cases op with
  | get addr dest =>
      obtain ⟨⟨n, s₁⟩, hn, h⟩ := bind_eq_ok.1 h
      obtain ⟨m, -, h⟩ := bind_eq_ok.1 h
      obtain ⟨cell, -, h⟩ := bind_eq_ok.1 h
      cases cell with
      | none => cases h
      | some w => exact (haddress hn).trans (.assign h)
  | getType addr dest | isNull addr dest =>
      obtain ⟨⟨n, s₁⟩, hn, h⟩ := bind_eq_ok.1 h
      obtain ⟨m, -, h⟩ := bind_eq_ok.1 h
      obtain ⟨_, -, h⟩ := bind_eq_ok.1 h
      exact (haddress hn).trans (.store h)
  | set addr value =>
      obtain ⟨⟨n, s₁⟩, hn, h⟩ := bind_eq_ok.1 h
      obtain ⟨⟨w, s₂⟩, hw, h⟩ := bind_eq_ok.1 h
      obtain ⟨m, -, h⟩ := bind_eq_ok.1 h
      obtain ⟨⟨old, m'⟩, -, h⟩ := bind_eq_ok.1 h
      cases h
      have hread : Confined hidden s s₂ := (haddress hn).trans (.of_untouched (.read hw))
      exact (hread.trans (.setDevice m' hhidden)).trans (.exchange w old)
  | clear addr =>
      obtain ⟨⟨n, s₁⟩, hn, h⟩ := bind_eq_ok.1 h
      obtain ⟨m, -, h⟩ := bind_eq_ok.1 h
      obtain ⟨⟨old, m'⟩, -, h⟩ := bind_eq_ok.1 h
      cases h
      exact ((haddress hn).trans (.setDevice m' hhidden)).trans (.releaseAll old.toList)

/-- A method that writes does so to the memory that it is called on. -/
theorem action {typeName name : String} {m : Method} {h : Handle} {args : List Value}
    {result : Option Value} {arena : Arena}
    (hfound : Registry.standard.find? typeName name = some m) (hhidden : hidden h.index = true)
    (haction : m.action s.world.arena h args = .ok (result, arena)) :
    Confined hidden s (s.withArena arena) := by
  have htarget : ∀ g, some h = some g → hidden g.index = true := by
    rintro g ⟨⟩
    exact hhidden
  rcases InPlace.standard_actions hfound with ⟨-, hset, -⟩ | ⟨-, hclear, -⟩ | ⟨-, -, hlooking⟩
  · rw [hset] at haction
    obtain ⟨addr, v, m', m'', old, -, -, -, -, rfl⟩ := Standard.memorySetValue_eq_ok haction
    exact (Confined.setDevice m'' htarget).trans (.exchange v old)
  · rw [hclear] at haction
    obtain ⟨addr, -, haction⟩ := bind_eq_ok.1 haction
    obtain ⟨m', -, haction⟩ := bind_eq_ok.1 haction
    obtain ⟨⟨old, m''⟩, -, haction⟩ := bind_eq_ok.1 haction
    cases haction
    exact (Confined.setDevice m'' htarget).trans (.releaseAll old.toList)
  · rw [hlooking _ _ _ _ _ haction]
    exact .refl s

/-- Methods are called on what was reached. -/
theorem call {target : VarId} {method : String} {args : List Operand} {ret : Option VarId}
    (hs : Screens hidden true s) (h : s.call target method args ret = .ok s') :
    Confined hidden s s' := by
  obtain ⟨g, hreach, h⟩ := bind_eq_ok.1 h
  split at h
  next => cases h
  next entity _ =>
    obtain ⟨⟨vs, s₁⟩, hvs, h⟩ := bind_eq_ok.1 h
    have hread : Confined hidden s s₁ := .of_untouched (.readAll hvs)
    simp only at h
    split at h
    next => cases h
    next m hm =>
      rw [(hs.confined hread).registry] at hm
      obtain ⟨⟨result, arena⟩, hinvoke, h⟩ := bind_eq_ok.1 h
      obtain ⟨args', -, haction⟩ := Method.invoke_eq_ok hinvoke
      have hcalled := hread.trans (.action hm (hs.reach hreach) haction)
      cases ret with
      | none =>
          cases h
          exact hcalled
      | some dest =>
          cases result with
          | none => cases h
          | some w => exact hcalled.trans (.assign h)

end Confined

end Scene

/-- If all that is in sight is hidden, then so is what an instruction
changes. -/
theorem Instruction.execute_confined {i : Instruction} {s s' : Scene} {hidden : Nat → Bool}
    {signal : Signal} (hs : s.Screens hidden true) (h : i.execute s = .ok (signal, s')) :
    s.Confined hidden s' := by
  have hnext : ∀ {x : Except Fault Scene}, x.map (fun s => (Signal.next, s)) = .ok (signal, s') →
      x = .ok s' := by
    intro x h
    obtain ⟨s₁, hs₁, h⟩ := map_eq_ok.1 h
    cases h
    exact hs₁
  cases i with
  | declare dest source =>
      simp only [execute] at h
      split at h
      next =>
        cases h
        exact .refl s
      next =>
        obtain ⟨⟨v, s₁⟩, hv, h⟩ := bind_eq_ok.1 h
        obtain ⟨s₂, hassign, h⟩ := bind_eq_ok.1 h
        cases h
        have hread : s.Confined hidden s₁ := .of_untouched (.read hv)
        exact (hread.trans (.assign hassign)).trans (.of_eq rfl rfl rfl rfl)
  | assign dest source =>
      obtain ⟨⟨v, s₁⟩, hv, h⟩ := bind_eq_ok.1 h
      obtain ⟨s₂, hassign, h⟩ := bind_eq_ok.1 h
      cases h
      have hread : s.Confined hidden s₁ := .of_untouched (.read hv)
      exact hread.trans (.assign hassign)
  | jump target condition =>
      obtain ⟨⟨v, s₁⟩, hv, h⟩ := bind_eq_ok.1 h
      have hread : s.Confined hidden s₁ := .of_untouched (.read hv)
      cases v with
      | bool b => cases b <;> cases h <;> exact hread
      | _ => cases h
  | label | create =>
      cases h
      exact .refl s
  | stop =>
      cases h
      exact .of_eq rfl rfl rfl rfl
  | time op => exact .time (hnext h)
  | console op => exact .console (hnext h)
  | memory device op =>
      cases device with
      | none => exact .memory (fun g hg => by cases hg) (hnext h)
      | some id =>
          obtain ⟨g, hreach, h⟩ := bind_eq_ok.1 h
          refine .memory (fun g' hg' => ?_) (hnext h)
          cases hg'
          exact hs.reach hreach
  | call target method args ret => exact .call hs (hnext h)

namespace Scene

variable {s s' : Scene} {hidden : Nat → Bool}

-- ================================================================== ticks

/-- A step carries out one instruction, and all else is a matter of the
processor. -/
theorem step_confined (hs : Screens hidden true s) : Confined hidden s s.step := by
  obtain ⟨s₁, hexecuted, hstep⟩ := s.step_cases
  have hconfined : Confined hidden s s₁ := by
    rcases hexecuted with rfl | ⟨i, signal, -, hexecute⟩
    · exact .refl s₁
    · exact i.execute_confined hs hexecute
  refine hconfined.trans ?_
  rcases hstep with ⟨line, heq⟩ | ⟨fault, heq⟩
  · rw [heq]
    unfold completeAtEnd
    split <;> exact .of_eq rfl rfl rfl rfl
  · rw [heq]
    exact .of_eq rfl rfl rfl rfl

/-- Over several lines, by induction, what is in sight being the same
throughout. -/
theorem Lines.confined {n : Nat} (hlines : Lines s n s') (hs : Screens hidden true s) :
    Confined hidden s s' := by
  induction hlines with
  | none => exact .refl s
  | step _ _ ih => exact ih.trans (step_confined (hs.confined ih))

theorem tick_confined (hs : Screens hidden true s) : Confined hidden s s.tick.2 := by
  have haged : Confined hidden s s.aged := .of_eq rfl rfl rfl rfl
  cases hstatus : s.proc.status with
  | waiting n =>
      rw [tick_waiting hstatus]
      exact .of_eq rfl rfl rfl rfl
  | running =>
      obtain ⟨n, s', -, hlines, htick⟩ := tick_running hstatus
      rw [htick]
      exact haged.trans (hlines.confined (hs.confined haged))
  | stopped | completed | halted =>
      rw [tick_final (by rw [hstatus]; rfl)]
      exact haged

/-- The clock is no entity. -/
theorem atTime_confined (clock : Clock) : Confined hidden s (s.atTime clock) :=
  .of_eq rfl rfl rfl rfl

theorem play_confined (hs : Screens hidden true s) (clocks : Nat → Clock) (n : Nat) :
    Confined hidden s (s.play clocks n).2 := by
  induction n with
  | zero => exact .refl s
  | succ n ih =>
      have htimed := ih.trans (atTime_confined (clocks n))
      exact htimed.trans (tick_confined (hs.confined htimed))

/-- A scene and the same one behind the veil go the same way, since what is
in sight stays in sight. -/
theorem veil_bisimulation (hidden : Nat → Bool) :
    Bisimulation fun s t => t = s.veil hidden ∧ Screens hidden false s where
  script := by
    rintro s _ ⟨rfl, -⟩
    rfl
  config := by
    rintro s _ ⟨rfl, -⟩
    rfl
  course := by
    rintro s _ ⟨rfl, -⟩
    rfl
  status := by
    rintro s _ ⟨rfl, -⟩
    rfl
  execute := by
    rintro s _ i ⟨rfl, hs⟩ -
    rw [i.execute_veil hs]
    cases hexecute : i.execute s with
    | error fault => exact .error fault
    | ok r => exact .ok ⟨rfl, rfl, hs.confined (i.execute_confined hs.all hexecute)⟩
  fail := by
    rintro s _ ⟨rfl, hs⟩ fault
    exact ⟨rfl, hs.registry, hs.seen⟩
  onCourse := by
    rintro s _ ⟨rfl, hs⟩ c
    exact ⟨rfl, hs.registry, hs.seen⟩
  atTime := by
    rintro s _ ⟨rfl, hs⟩ clock
    exact ⟨rfl, hs.registry, hs.seen⟩

/-- Ticks commute with the veil over what is out of sight, and give the same
events. -/
theorem play_veil (hs : Screens hidden false s) (clocks : Nat → Clock) (n : Nat) :
    (s.veil hidden).play clocks n = ((s.play clocks n).1, (s.play clocks n).2.veil hidden) := by
  obtain ⟨hevent, hscene, -⟩ := (veil_bisimulation hidden).play ⟨rfl, hs⟩ clocks n
  exact Prod.ext hevent hscene

-- ============================================================== isolation

/-- What is in sight stays in sight. -/
theorem play_sees (hregistry : s.world.registry = .standard) (clocks : Nat → Clock) (n : Nat) :
    (s.play clocks n).2.world.sees s.proc.this = s.world.sees s.proc.this := by
  have hs : Screens (fun _ => true) true s := ⟨hregistry, fun _ _ => rfl⟩
  have hconfined := play_confined hs clocks n
  rw [← hconfined.sees, hconfined.this]

/-- A processor whose part cannot connect to an entity does nothing to it. -/
theorem play_entity? {h : Handle} (hregistry : s.world.registry = .standard)
    (hreach : ∀ part, s.proc.this = some part → s.world.canConnect part h = false)
    (clocks : Nat → Clock) (n : Nat) :
    (s.play clocks n).2.world.arena.entity? h = s.world.arena.entity? h := by
  have hs : Screens (s.world.sees s.proc.this) true s := ⟨hregistry, fun _ hi => hi⟩
  have hsame := (play_confined hs clocks n).entities.entity? h
  rw [Arena.entity?_veil, Arena.entity?_veil] at hsame
  cases hsees : s.world.sees s.proc.this h.index with
  | false =>
      rw [hsees, Entity.veil_false, Option.map_id] at hsame
      exact hsame
  | true =>
      -- what is seen in the slot is of another generation than the handle
      have hdead : s.world.arena.entity? h = none := by
        refine Option.eq_none_iff_forall_ne_some.2 fun e he => ?_
        rw [World.sees_of_entity? he] at hsees
        cases hthis : s.proc.this with
        | none =>
            rw [hthis] at hsees
            cases hsees
        | some part =>
            rw [hthis] at hsees
            exact Bool.false_ne_true ((hreach part hthis).symm.trans hsees)
      rw [hdead, Option.map_none, Option.map_eq_none_iff] at hsame
      rw [hsame, hdead]

/-- A processor neither learns nor changes what is out of its reach.

Take two worlds with the standard methods that look the same from the
processor's part: they differ at most in what is in memories that the part
cannot connect to, whatever that is. Then any number of ticks of the same
processor give the same events in both, and lead to the same processor and
the same console, in worlds that still look the same. And in each of them,
the memories that the part cannot connect to hold what they held. -/
theorem reach_isolates (hregistry : s.world.registry = .standard) (hproc : s'.proc = s.proc)
    (hworld : s'.world.seenFrom s.proc.this = s.world.seenFrom s.proc.this)
    (clocks : Nat → Clock) (n : Nat) :
    (s'.play clocks n).1 = (s.play clocks n).1
      ∧ (s'.play clocks n).2.proc = (s.play clocks n).2.proc
      ∧ (s'.play clocks n).2.world.console = (s.play clocks n).2.world.console
      ∧ (s'.play clocks n).2.world.seenFrom s.proc.this
          = (s.play clocks n).2.world.seenFrom s.proc.this
      ∧ (∀ h, (∀ part, s.proc.this = some part → s.world.canConnect part h = false) →
          (s.play clocks n).2.world.arena.memory? h = s.world.arena.memory? h)
      ∧ (∀ h, (∀ part, s'.proc.this = some part → s'.world.canConnect part h = false) →
          (s'.play clocks n).2.world.arena.memory? h = s'.world.arena.memory? h) := by
  have hregistry' : s'.world.registry = .standard := by
    show (s'.world.seenFrom s.proc.this).registry = .standard
    rw [hworld]
    exact hregistry
  have hsees : s'.world.sees s.proc.this = s.world.sees s.proc.this := by
    have hseen := congrArg (fun w => w.sees s.proc.this) hworld
    simp only [World.seenFrom, World.sees_veil] at hseen
    exact hseen
  have hhides : s'.world.hides s.proc.this = s.world.hides s.proc.this := by
    unfold World.hides
    rw [hsees]
  -- emptied out of sight, both are one scene
  have hveil : s'.veil (s.world.hides s.proc.this) = s.veil (s.world.hides s.proc.this) := by
    unfold World.seenFrom at hworld
    rw [hhides] at hworld
    unfold veil
    rw [hworld, hproc]
  have hs : Screens (s.world.hides s.proc.this) false s := .hides hregistry
  have hs' : Screens (s.world.hides s.proc.this) false s' := by
    rw [← hhides, ← hproc]
    exact .hides hregistry'
  obtain ⟨hevent, hscene⟩ : (s'.play clocks n).1 = (s.play clocks n).1
      ∧ (s'.play clocks n).2.veil (s.world.hides s.proc.this)
        = (s.play clocks n).2.veil (s.world.hides s.proc.this) := by
    rw [← Prod.mk.injEq, ← play_veil hs, ← play_veil hs', hveil]
  have hprocs := congrArg Scene.proc hscene
  have hworlds := congrArg Scene.world hscene
  have hconsoles := congrArg World.console hworlds
  have hafter := play_sees hregistry clocks n
  have hafter' := play_sees hregistry' clocks n
  rw [hproc, hsees] at hafter'
  refine ⟨hevent, hprocs, hconsoles, ?_, fun h hh => ?_, fun h hh => ?_⟩
  · unfold World.seenFrom World.hides
    rw [hafter, hafter']
    exact hworlds
  · unfold Arena.memory?
    rw [play_entity? hregistry hh]
  · unfold Arena.memory?
    rw [play_entity? hregistry' hh]

/-- A memory on a part. -/
def vault : Handle := ⟨2, 0, .component⟩

/-- A world with a part, and one of another group that has the memory. -/
def neighbours : World :=
  let world := (((World.start (.start 0) ⟨0⟩).spawn 1).2.spawn 2).2
  match world.attachMemory ⟨1, 0, .part⟩ 2 with
  | .ok (_, world) => world
  | .error _ => world

/-- Finds the memory by its number and puts a value there. -/
def pry : String := "comp create(\"m\", \"memory\")\nset m 2\nmemory m.set(0, 5)"

/-- That script on the first part. -/
def prying : Scene :=
  (Scene.load ⟨(Processor.ofConfig .standard).mount ⟨0, 0, .part⟩, neighbours⟩ pry).2

/-- The same with something in the memory. -/
def pryingFull : Scene :=
  { prying with world := { prying.world with
      arena := prying.world.arena.setMemory vault (Memory.fill (.empty 2) 0 (.int 7)).2 } }

/-- The memory is empty in one world and not in the other. The processor
halts in both, in the same state, before it has seen which, and the memory
is as it was. -/
theorem reach_isolates_pry :
    (prying.world.arena.memory? vault).map Memory.freeCount = some 2
      ∧ (pryingFull.world.arena.memory? vault).map Memory.freeCount = some 1
      ∧ (prying.play (fun _ => .start 0) 1).1 = .halted
      ∧ (pryingFull.play (fun _ => .start 0) 1).1 = .halted
      ∧ (pryingFull.play (fun _ => .start 0) 1).2.proc = (prying.play (fun _ => .start 0) 1).2.proc
      ∧ (pryingFull.play (fun _ => .start 0) 1).2.world.arena.memory? vault
          = pryingFull.world.arena.memory? vault := by
  have hrun : (prying.world.arena.memory? vault).map Memory.freeCount = some 2
      ∧ (pryingFull.world.arena.memory? vault).map Memory.freeCount = some 1
      ∧ (prying.play (fun _ => .start 0) 1).1 = .halted
      ∧ prying.proc.this = some ⟨0, 0, .part⟩
      ∧ prying.world.canConnect ⟨0, 0, .part⟩ vault = false
      ∧ pryingFull.world.canConnect ⟨0, 0, .part⟩ vault = false := by
    decide +kernel
  obtain ⟨hempty, hfull, hhalted, hthis, hreach, hreach'⟩ := hrun
  have hworld : pryingFull.world.seenFrom prying.proc.this
      = prying.world.seenFrom prying.proc.this := by
    refine World.seenFrom_setMemory (fun part hpart => ?_) _
    rw [hthis] at hpart
    cases hpart
    exact hreach
  have hregistry : prying.world.registry = .standard := load_registry _ _
  obtain ⟨hevent, hproc, -, -, -, hkept⟩ :=
    @reach_isolates prying pryingFull hregistry rfl hworld (fun _ => .start 0) 1
  refine ⟨hempty, hfull, hhalted, hevent.trans hhalted, hproc, hkept vault fun part hpart => ?_⟩
  have hpart' : prying.proc.this = some part := hpart
  rw [hthis] at hpart'
  cases hpart'
  exact hreach'

end Scene

end TickScript
