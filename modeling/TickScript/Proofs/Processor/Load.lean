/-
Loading a script, and all that can happen to it afterwards.

Loading gives up all handles that the previous script held, then takes
one for each part it declares; if a part cannot be declared the parts
before it stay declared, and stay accounted for. What is compiled is
well formed, whether or not the source has faults. A source without
faults leaves the processor safe, at the start of a script without gaps,
and nothing that comes later changes that (`Scene.Later`).
-/
import TickScript.Collector
import TickScript.Processor.Load
import TickScript.Proofs.Processor.Tick
import TickScript.Proofs.Script.Passes

namespace TickScript

open List (Perm)

-- ============================================================= variables

/-- Variables that hold no lines at all. -/
def Storage.NoLines (s : Storage) : Prop := ∀ size, s.LinesWithin size

theorem Storage.noLines_empty (limit : Nat) : (Storage.empty limit).NoLines := by
  intro size v hv
  cases hv

/-- A value that is no line may be stored. -/
theorem Storage.NoLines.set {s s' : Storage} {id : VarId} {v : Value} {old : Option Value}
    (hs : s.NoLines) (h : s.set id v = .ok (old, s')) (hv : ∀ n, v ≠ .line n) : s'.NoLines := by
  intro size w hw n hn
  obtain ⟨var, hget, h⟩ := bind_eq_ok.1 h
  obtain ⟨var', hset, h⟩ := bind_eq_ok.1 h
  cases h
  rcases List.mem_or_eq_of_mem_set hw with hw | rfl
  · exact hs size w hw n hn
  · unfold Variable.set at hset
    split at hset
    next =>
      cases hset
      exact absurd (Option.some.inj hn) (hv n)
    next => cases hset

/-- A variable without a value holds no line. -/
theorem Storage.NoLines.add {s s' : Storage} {v : Variable} {id : VarId} (hs : s.NoLines)
    (h : s.add v = .ok (id, s')) (hv : v.value = none) : s'.NoLines := fun size =>
  (grows_add_null h hv).linesWithin (hs size)

/-- Fresh variables hold no handles. -/
theorem Storage.Grows.handles {s s' : Storage} {size : Nat} (h : s.Grows size s') :
    handlesOf s'.values = handlesOf s.values := by
  obtain ⟨added, hadded, hfresh⟩ := h
  have hnone : handlesOf (added.filterMap Variable.value) = [] := by
    refine List.filterMap_eq_nil_iff.2 fun w hw => ?_
    obtain ⟨v, hv, hvalue⟩ := List.mem_filterMap.1 hw
    exact (hfresh v hv w hvalue).plain
  rw [Storage.values, hadded, List.filterMap_append, handlesOf_append, hnone, List.append_nil]
  rfl

namespace Scene

variable {s s' s'' : Scene}

-- ================================================================= parts

/-- What declaring parts may do to a scene. -/
structure Declares (s s' : Scene) : Prop where
  script : s'.proc.script = s.proc.script
  pc : s'.proc.pc = s.proc.pc
  registry : s'.world.registry = s.world.registry
  noLines : s.proc.vars.NoLines → s'.proc.vars.NoLines
  balance : KeepsBalance s s'

theorem Declares.refl (s : Scene) : Declares s s := ⟨rfl, rfl, rfl, fun h => h, fun _ hb => hb⟩

/-- Parts are declared one after the other. -/
theorem Declares.trans (h : Declares s s') (h' : Declares s' s'') : Declares s s'' where
  script := h'.script.trans h.script
  pc := h'.pc.trans h.pc
  registry := h'.registry.trans h.registry
  noLines hs := h'.noLines (h.noLines hs)
  balance others hb := h'.balance others (h.balance others hb)

/-- A part that is declared takes a variable, and a usage with it. -/
theorem declarePart_declares {name : String} {part : Handle}
    (h : s.declarePart name part = .ok s') : Declares s s' := by
  unfold declarePart at h
  split at h
  next hpart =>
    obtain ⟨⟨id, vars⟩, hadd, hstore⟩ := bind_eq_ok.1 h
    have hgrows : Storage.Grows 0 s.proc.vars vars := Storage.grows_add_null hadd rfl
    have hkind : vars.kinds[id]? = some (Kind.of (.entity part)) := by
      obtain ⟨rfl, rfl⟩ := Storage.add_eq_ok hadd
      simp [Storage.kinds, Variable.empty, Kind.of, Kind.ofEntity, hpart.2]
    have hlives : (Value.entity part).Lives s.world.arena.isAlive := by
      rintro g ⟨⟩
      exact hpart.1
    have hcarries : Carries { s with proc := { s.proc with vars } } _ :=
      store_carries hkind hlives
    have hdoes := hcarries.does s' hstore
    refine ⟨hdoes.script, hdoes.pc, hdoes.registry, fun hs => ?_, fun others hb => ?_⟩
    · obtain ⟨var, -, hstore⟩ := bind_eq_ok.1 hstore
      obtain ⟨-, -, hstore⟩ := bind_eq_ok.1 hstore
      obtain ⟨⟨old, vars'⟩, hset, hstore⟩ := bind_eq_ok.1 hstore
      cases hstore
      exact (hs.add hadd rfl).set hset fun _ hn => by cases hn
    · refine hdoes.balance others ?_
      show Balanced _ (handlesOf vars.values ++ _ ++ others)
      rw [hgrows.handles]
      exact hb
  next => cases h

/-- Parts are declared one by one; those before a failure stay. -/
theorem declareParts_declares : ∀ {parts : List (String × Handle)} {s : Scene},
    Declares s (s.declareParts parts).2
  | [], s => .refl s
  | (name, part) :: parts, s => by
      unfold declareParts
      split
      next s' h => exact (declarePart_declares h).trans declareParts_declares
      next => exact .refl s

-- =============================================================== loading

/-- Nothing is held after all was given up. -/
theorem reset_balance : KeepsBalance s s.reset := by
  intro others hb
  have hb' : Balanced s.world.arena (handlesOf s.proc.vars.values
      ++ (handlesOf s.proc.memory.values ++ others)) := by
    rw [← List.append_assoc]
    exact hb
  have hnone : s.reset.proc.held = [] := by
    show handlesOf [] ++ handlesOf (Memory.empty _).values = []
    rw [Memory.values_empty]
    rfl
  rw [hnone]
  exact hb'.releaseAll.releaseAll

/-- What has been loaded: nothing, or a compiled source. -/
theorem load_cases (s : Scene) (source : String) :
    ∃ s', Declares s.reset s' ∧
      ((∃ fault, s.load source = (false, s'.fail fault))
        ∨ s.load source = ((compile source s'.proc.vars s'.world.registry).faults.isEmpty,
            s'.install (compile source s'.proc.vars s'.world.registry))) := by
  have hdeclares : Declares s.reset (s.reset.declareParts s.reset.proc.parts).2 :=
    declareParts_declares
  unfold load
  simp only
  split
  next fault s' h =>
    rw [h] at hdeclares
    exact ⟨s', hdeclares, .inl ⟨fault, rfl⟩⟩
  next s' h =>
    rw [h] at hdeclares
    exact ⟨s', hdeclares, .inr rfl⟩

/-- Loading leaves a well-formed script, be it without a line. -/
theorem load_sound (source : String) (hregistry : s.world.registry = .standard) :
    Sound (s.load source).2 := by
  obtain ⟨s', hdeclares, ⟨fault, hload⟩ | hload⟩ := load_cases s source <;> rw [hload]
  · refine ⟨hdeclares.registry.trans hregistry, fun i hi => ?_⟩
    have hscript : s'.proc.script = #[] := hdeclares.script
    change some i ∈ s'.proc.script.toList at hi
    rw [hscript] at hi
    cases hi
  · have hnoLines := hdeclares.noLines (Storage.noLines_empty _)
    exact ⟨hdeclares.registry.trans hregistry, (compile_wellFormed source _ hnoLines).2⟩

/-- Loading gives up what was held, and takes a usage for each part that was
declared. -/
theorem load_balance (source : String) : KeepsBalance s (s.load source).2 := by
  intro others hb
  obtain ⟨s', hdeclares, ⟨fault, hload⟩ | hload⟩ := load_cases s source <;> rw [hload]
  · exact hdeclares.balance others (reset_balance others hb)
  · have hnoLines := hdeclares.noLines (Storage.noLines_empty _)
    have hgrows := (compile_wellFormed source s'.world.registry hnoLines).1
    have hb' := hdeclares.balance others (reset_balance others hb)
    show Balanced _ (handlesOf (compile source s'.proc.vars s'.world.registry).vars.values
      ++ _ ++ others)
    rw [hgrows.handles]
    exact hb'

/-- A source without faults leaves the processor safe. -/
theorem load_safe {source : String} (hregistry : s.world.registry = .standard)
    (hload : s.load source = (true, s')) : Safe s' := by
  have hsound := load_sound source hregistry
  obtain ⟨s₁, hdeclares, ⟨fault, heq⟩ | heq⟩ := load_cases s source
  · rw [hload] at heq
    cases heq
  · rw [hload] at hsound heq
    have hfaults : (compile source s₁.proc.vars s₁.world.registry).faults = [] :=
      List.isEmpty_iff.1 (congrArg Prod.fst heq).symm
    have hs' := congrArg Prod.snd heq
    simp only at hs' hsound
    refine ⟨hsound, fun hgap => ?_, ?_, ?_⟩
    · rw [hs'] at hgap
      exact compile_complete hfaults none hgap rfl
    · rw [hs']
      have hpc : s₁.proc.pc = 0 := hdeclares.pc
      show s₁.proc.pc ≤ _
      omega
    · rw [hs']
      show ∀ fault ∈ (compile source s₁.proc.vars s₁.world.registry).faults, _
      rw [hfaults]
      exact fun fault h => by cases h

end Scene

-- ================================================================ sweeps

/-- A sweep empties variables, which keep their kinds. -/
theorem Storage.kinds_sweep (s : Storage) (alive : Handle → Bool) :
    (s.sweep alive).2.kinds = s.kinds := by
  unfold sweep kinds
  simp only [List.map_map]
  refine List.map_congr_left fun v _ => ?_
  simp only [Function.comp_apply]
  split <;> rfl

/-- What a sweep gives back is what the dead variables held. -/
theorem values_sweep_vars (dead : Variable → Bool) (hnull : ∀ v, v.value = none → dead v = false)
    (vars : List Variable) :
    Perm ((vars.filter dead).filterMap Variable.value
        ++ (vars.map fun v => if dead v then v.clear else v).filterMap Variable.value)
      (vars.filterMap Variable.value) := by
  induction vars with
  | nil => exact .refl _
  | cons v vars ih =>
      rw [List.map_cons]
      cases hdead : dead v with
      | true =>
          cases hvalue : v.value with
          | none =>
              rw [hnull v hvalue] at hdead
              cases hdead
          | some w =>
              rw [List.filter_cons_of_pos hdead, List.filterMap_cons_some hvalue,
                List.filterMap_cons_some hvalue, if_pos rfl, List.filterMap_cons_none rfl]
              exact ih.cons w
      | false =>
          rw [List.filter_cons_of_neg (by simp [hdead]), if_neg Bool.false_ne_true]
          cases hvalue : v.value with
          | none =>
              rw [List.filterMap_cons_none hvalue, List.filterMap_cons_none hvalue]
              exact ih
          | some w =>
              rw [List.filterMap_cons_some hvalue, List.filterMap_cons_some hvalue]
              exact List.perm_middle.trans (ih.cons w)

/-- A sweep of the variables gives back what it removes. -/
theorem Storage.values_sweep (s : Storage) (alive : Handle → Bool) :
    Perm ((s.sweep alive).1 ++ (s.sweep alive).2.values) s.values :=
  values_sweep_vars _ (fun v hv => by simp [hv, Memory.isDead]) s.vars

/-- A sweep of a processor releases what it removes. -/
theorem Processor.sweep_balance {p : Processor} {a : Arena} {others : List Handle}
    (hb : Balanced a (p.held ++ others)) :
    Balanced (p.sweep a).2.2 ((p.sweep a).2.1.held ++ others) := by
  have hvars := handlesOf_perm (p.vars.values_sweep a.isAlive)
  have hmemory := handlesOf_perm (Memory.values_sweep (m := p.memory) a.isAlive)
  have hperm : Perm (p.held ++ others)
      (handlesOf ((p.vars.sweep a.isAlive).1 ++ (p.memory.sweep a.isAlive).1)
        ++ (handlesOf (p.vars.sweep a.isAlive).2.values
          ++ handlesOf (p.memory.sweep a.isAlive).2.values ++ others)) := by
    rw [List.perm_iff_count] at hvars hmemory ⊢
    intro g
    have hvars := hvars g
    have hmemory := hmemory g
    simp only [Processor.held, handlesOf_append, List.count_append] at hvars hmemory ⊢
    omega
  exact (hb.perm hperm).releaseAll

/-- The scene after its processor was swept. -/
def Scene.swept (s : Scene) : Scene :=
  { proc := (s.proc.sweep s.world.arena).2.1
    world := { s.world with arena := (s.proc.sweep s.world.arena).2.2 } }

theorem Scene.swept_does (s : Scene) : Does s s.swept where
  script := rfl
  kinds := s.proc.vars.kinds_sweep s.world.arena.isAlive
  registry := rfl
  balance _ hb := Processor.sweep_balance hb
  pc := rfl
  faults := rfl

-- ============================================================= later runs

/-- What can happen to a processor after its script was loaded. The host
may do anything to the world but register other methods. -/
inductive Scene.Later : Scene → Scene → Prop where
  | refl (s : Scene) : Later s s
  | tick {s s' : Scene} (h : Later s s') : Later s s'.tick.2
  /-- One counted step of a tick. -/
  | advance {s s' : Scene} (h : Later s s') : Later s s'.advance
  | sweep {s s' : Scene} (h : Later s s') : Later s s'.swept
  | interrupt {s s' : Scene} (h : Later s s') : Later s { s' with proc := s'.proc.interrupt }
  | feed {s s' : Scene} (text : String) (h : Later s s') :
      Later s { s' with proc := s'.proc.feed text }
  | mount {s s' : Scene} (part : Handle) (h : Later s s') :
      Later s { s' with proc := s'.proc.mount part }
  | host {s s' : Scene} (world : World) (same : world.registry = s'.world.registry)
      (h : Later s s') : Later s { s' with world }

namespace Scene

variable {s s₁ s₂ : Scene}

/-- What the host does to the world is no matter of the script, while the
methods stay. -/
theorem Safe.host {world : World} (hs : Safe s) (hregistry : world.registry = s.world.registry) :
    Safe { s with world } where
  registry := hregistry.trans hs.registry
  proc := hs.proc
  complete := hs.complete
  pc_le := hs.pc_le
  ordinary := hs.ordinary

/-- A safe processor stays safe, with the same script and as many
variables. -/
theorem Safe.later (hs : Safe s) (hlater : Later s s₁) :
    Safe s₁ ∧ s₁.proc.script = s.proc.script ∧ s₁.proc.vars.kinds = s.proc.vars.kinds := by
  induction hlater with
  | refl => exact ⟨hs, rfl, rfl⟩
  | tick _ ih =>
      obtain ⟨hs', hscript, hkinds⟩ := ih
      have hkeeps := tick_keeps hs'.toSound
      exact ⟨hs'.tick, hkeeps.script.trans hscript, hkeeps.kinds.trans hkinds⟩
  | advance _ ih =>
      obtain ⟨hs', hscript, hkinds⟩ := ih
      have hkeeps := advance_keeps hs'.toSound
      exact ⟨hs'.advance, hkeeps.script.trans hscript, hkeeps.kinds.trans hkinds⟩
  | @sweep s' _ ih =>
      obtain ⟨hs', hscript, hkinds⟩ := ih
      have hdoes := s'.swept_does
      exact ⟨hs'.keeps hdoes.toKeeps hs'.pc_le rfl, hdoes.script.trans hscript,
        hdoes.kinds.trans hkinds⟩
  | interrupt _ ih | feed _ _ ih | mount _ _ ih =>
      obtain ⟨hs', hsame⟩ := ih
      exact ⟨hs'.keeps (keeps_of_eq rfl rfl rfl rfl) hs'.pc_le rfl, hsame⟩
  | host world same _ ih =>
      obtain ⟨hs', hsame⟩ := ih
      exact ⟨hs'.host same, hsame⟩

/-- A script that was loaded without a fault cannot go wrong of itself.
Whatever happens later, its lines are instructions whose variables
exist, the processor is on one of them or at the end, and the faults on
record are of kinds that running scripts may meet. -/
theorem load_never_internal {source : String} (hregistry : s.world.registry = .standard)
    (hload : s.load source = (true, s₁)) (hlater : Later s₁ s₂) :
    (∀ entry ∈ s₂.proc.script.toList,
        ∃ i, entry = some i ∧ ∀ id ∈ i.varIds, id < s₂.proc.vars.size)
      ∧ s₂.proc.script = s₁.proc.script
      ∧ s₂.proc.vars.size = s₁.proc.vars.size
      ∧ s₂.proc.pc ≤ s₂.proc.script.size
      ∧ ∀ fault ∈ s₂.proc.faults, 50 ≤ fault.cause.number ∧ fault.cause ≠ .internalError
          ∧ fault.cause ≠ .missingInstruction ∧ fault.cause ≠ .invalidJump := by
  obtain ⟨hsafe, hscript, hkinds⟩ := (load_safe hregistry hload).later hlater
  refine ⟨fun entry hentry => ?_, hscript, ?_, hsafe.pc_le, hsafe.ordinary⟩
  · cases entry with
    | none => exact absurd hentry hsafe.complete
    | some i =>
        refine ⟨i, rfl, fun id hid => ?_⟩
        have hlt := (hsafe.proc i hentry).varId_lt hid
        rw [Storage.length_kinds] at hlt
        exact hlt
  · have hlength := congrArg List.length hkinds
    rw [Storage.length_kinds, Storage.length_kinds] at hlength
    exact hlength

/-- Counts down to zero and then divides by it. -/
def countdown : String :=
  "var int x 2\nlabel top\nset x x - 1\njump top x > 0\nset x 1 % x"

/-- A processor in a world without parts. -/
def bare : Scene := ⟨.ofConfig .standard, .start (.start 0) ⟨0⟩⟩

/-- The countdown goes around its loop and fails for an ordinary
reason. -/
theorem load_never_internal_countdown :
    (bare.load countdown).1 = true
      ∧ (bare.load countdown).2.tick.2.proc.faults.map Fault.cause = [.divisionByZero]
      ∧ (bare.load countdown).2.tick.2.proc.pc
          ≤ (bare.load countdown).2.tick.2.proc.script.size
      ∧ ∀ fault ∈ (bare.load countdown).2.tick.2.proc.faults, fault.cause ≠ .internalError := by
  have hloaded : (bare.load countdown).1 = true := by decide +kernel
  have hload : bare.load countdown = (true, (bare.load countdown).2) := Prod.ext hloaded rfl
  obtain ⟨-, -, -, hpc, hfaults⟩ := load_never_internal rfl hload (.tick (.refl _))
  refine ⟨hloaded, by decide +kernel, hpc, fun fault hfault => ?_⟩
  exact (hfaults fault hfault).2.1

end Scene

end TickScript
