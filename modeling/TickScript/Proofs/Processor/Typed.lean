/-
Typed variables stay typed.

# The invariant

A variable is typed (`Variable.Typed`) if what it holds is of its kind, it
holds something if it is a number or a truth value, and an entity in it is
of the component type that it is restricted to. The last is a matter of the
arena: an entity is checked when it is stored, and from then on the handle
says what it is. So the invariant of a scene (`Scene.Fit`) has two halves:
all variables are typed, and all handles about, in variables, memories and
entities, were issued by the arena, which is sound. While no generation
wraps, an issued handle that is alive is to the entity that it was to
before, and that entity keeps its kind and its type.

# Keeping it

Loading sets the invariant up: whatever a line declares is typed from the
start. Running keeps it, since all an instruction does to variables,
memories and entities is one of the effects of `Scene.Effect`. Labels are
readonly, so no line writes to them.
-/
import TickScript.Proofs.Processor.Fair
import TickScript.Proofs.Processor.Readonly

namespace TickScript

-- ============================================================= variables

/-- What a variable holds is of its kind and type. -/
structure Variable.Typed (a : Arena) (v : Variable) : Prop where
  kind : ∀ w, v.value = some w → Kind.of w = v.kind
  filled : v.kind.isValue → v.value ≠ none
  label : v.kind = .label → v.readonly
  component : v.component ≠ none → v.kind = .component
  typeName : ∀ {typeName h e}, v.component = some typeName → v.value = some (.entity h) →
    a.entity? h = some e → e.typeName = typeName

namespace Variable

variable {a a' : Arena} {v : Variable}

/-- An issued handle is to the entity that it was to before. -/
theorem Typed.follows (hv : v.Typed a) (hissued : ∀ h, v.value = some (.entity h) → a.Issued h)
    (hfollows : Arena.Follows a a') : v.Typed a' where
  kind := hv.kind
  filled := hv.filled
  label := hv.label
  component := hv.component
  typeName {typeName h e} hcomponent hvalue he := by
    obtain ⟨e₀, he₀, hsame⟩ := (hissued h hvalue).entity_before hfollows he
    exact hsame.typeName.trans (hv.typeName hcomponent hvalue he₀)

/-- A variable is typed as it is declared. -/
theorem Declared.typed (hv : v.Declared) (a : Arena) : v.Typed a := by
  cases hv with
  | label name line =>
      refine ⟨fun w hw => ?_, fun h => (by cases h), fun _ => rfl, fun h => absurd rfl h,
        fun _ h => by cases h⟩
      cases hw
      rfl
  | var name word readonly =>
      refine ⟨fun w hw => ?_, fun h => ?_, fun h => absurd h (Kind.ofWord_ne_label word),
        fun h => absurd rfl h, fun h => by cases h⟩
      · change zero? (Kind.ofWord word) = some w at hw
        show Kind.of w = Kind.ofWord word
        cases hkind : Kind.ofWord word <;> rw [hkind] at hw <;> cases hw <;> rfl
      · change (Kind.ofWord word).isValue at h
        show zero? (Kind.ofWord word) ≠ none
        cases hkind : Kind.ofWord word <;> rw [hkind] at h <;> cases h <;> simp [zero?]
  | component name typeName =>
      exact ⟨fun _ h => (by cases h), fun h => (by cases h), fun h => (by cases h),
        fun _ => rfl, fun _ h => by cases h⟩

/-- A line of a script declares no variable with an entity in it. -/
theorem Declared.plain (hv : v.Declared) {h : Handle} : v.value ≠ some (.entity h) := by
  cases hv with
  | label | component => nofun
  | var name word readonly =>
      show zero? (Kind.ofWord word) ≠ _
      cases Kind.ofWord word <;> nofun

end Variable

-- ================================================================ scenes

/-- The parts that a script knows are its own, if it is on one, and the links.
-/
theorem Processor.mem_parts {proc : Processor} {p : String × Handle} :
    p ∈ proc.parts ↔ (∃ this, proc.this = some this ∧ p = (thisName, this)) ∨ p ∈ proc.links := by
  unfold parts
  cases proc.this with
  | none => simp
  | some this => simp

namespace Scene

variable {s s' s₁ s₂ : Scene} {id : VarId} {v : Value} {h : Handle}

/-- All handles about were issued, all variables are typed, and what the
script reads is well formed. -/
structure Fit (s : Scene) : Prop where
  sound : s.world.arena.Sound
  fair : s.world.registry.Fair
  parts : ∀ p ∈ s.proc.parts, s.world.arena.Issued p.2
  held : ∀ h ∈ s.proc.held, s.world.arena.Issued h
  typed : ∀ v ∈ s.proc.vars.vars, v.Typed s.world.arena
  reads : ∀ i, some i ∈ s.proc.script.toList → s.Reads i

/-- A processor holds what is in its variables and in its memory. -/
theorem mem_held : h ∈ s.proc.held ↔
    (∃ var ∈ s.proc.vars.vars, var.value = some (.entity h))
      ∨ h ∈ handlesOf s.proc.memory.values := by
  unfold Processor.held
  rw [List.mem_append, mem_handlesOf, Storage.values, List.mem_filterMap]

/-- Storing a value moves usages and gives entities nothing. -/
theorem store_settles (hstore : s.store id v = .ok s') :
    Arena.Settles [] s.world.arena s'.world.arena := by
  obtain ⟨var, -, -, -, rfl⟩ := store_eq_ok hstore
  exact Arena.settles_exchange v var.value

namespace Fit

/-- A handle that the scene knows was issued. -/
theorem knows (hs : s.Fit) (hknows : s.Knows h) : s.world.arena.Issued h := by
  rcases hknows with hheld | hkeeps | ⟨i, hresolve⟩
  · exact hs.held h hheld
  · exact hs.sound.kept hkeeps
  · exact hs.sound.resolve hresolve

/-- Nothing else in a scene matters. -/
theorem of_eq (hs : s.Fit) (hscript : s'.proc.script = s.proc.script)
    (hvars : s'.proc.vars = s.proc.vars) (hmemory : s'.proc.memory = s.proc.memory)
    (hparts : s'.proc.parts = s.proc.parts) (harena : s'.world.arena = s.world.arena)
    (hregistry : s'.world.registry = s.world.registry) : s'.Fit where
  sound := harena ▸ hs.sound
  fair := hregistry ▸ hs.fair
  parts p hp := harena ▸ hs.parts p (hparts ▸ hp)
  held h hh := by
    rw [harena]
    unfold Processor.held at hh
    rw [hvars, hmemory] at hh
    exact hs.held h hh
  typed v hv := harena ▸ hs.typed v (hvars ▸ hv)
  reads i hi o ho := by
    rw [hvars]
    exact hs.reads i (hscript ▸ hi) o ho

/-- What is quiet leaves the variables and the arena. -/
theorem quiet (hs : s.Fit) (hquiet : Quiet s s') : s'.Fit :=
  hs.of_eq hquiet.script hquiet.vars hquiet.memory hquiet.parts hquiet.arena hquiet.registry

/-- The world moves on. -/
theorem host (hs : s.Fit) {world : World} (hfair : world.registry.Fair)
    (hsound : world.arena.Sound) (hfollows : Arena.Follows s.world.arena world.arena) :
    Fit { s with world } where
  sound := hsound
  fair := hfair
  parts p hp := (hs.parts p hp).follows hfollows
  held h hh := (hs.held h hh).follows hfollows
  typed v hv := (hs.typed v hv).follows
    (fun h hh => hs.held h (mem_held.2 (.inl ⟨v, hv, hh⟩))) hfollows
  reads := hs.reads

/-- The arena may be another that follows it, as long as that is sound. -/
theorem withArena (hs : s.Fit) {arena : Arena} (hsound : arena.Sound)
    (hfollows : Arena.Follows s.world.arena arena) : (s.withArena arena).Fit :=
  hs.host hs.fair hsound hfollows

/-- A value is stored that was issued if it is a handle. -/
theorem store (hs : s.Fit) (hstore : s.store id v = .ok s')
    (hv : ∀ g, v = .entity g → s.world.arena.Issued g)
    (hwrap : Arena.Unwrapped s.world.arena s'.world.arena) : s'.Fit := by
  obtain ⟨var, hget, hkind, hcheck, rfl⟩ := store_eq_ok hstore
  obtain ⟨hsound, hfollows⟩ := hs.sound.exchange var.value hv hwrap
  have hmoved := hs.withArena hsound hfollows
  have hvar := hs.typed var (List.mem_of_getElem? hget)
  refine ⟨hsound, hs.fair, hmoved.parts, fun g hg => ?_, fun var' hvar' => ?_, fun i hi o ho => ?_⟩
  · rcases mem_held.1 hg with ⟨var', hvar', hvalue⟩ | hg
    · rcases List.mem_or_eq_of_mem_set hvar' with hold | rfl
      · exact hmoved.held g (mem_held.2 (.inl ⟨var', hold, hvalue⟩))
      · exact (hv g (Option.some.inj hvalue)).follows hfollows
    · exact hmoved.held g (mem_held.2 (.inr hg))
  · rcases List.mem_or_eq_of_mem_set hvar' with hold | rfl
    · exact hmoved.typed var' hold
    · refine ⟨fun w hw => ?_, fun _ => Option.some_ne_none _, hvar.label, hvar.component,
        fun {typeName g e} hcomponent hvalue he => ?_⟩
      · cases hw
        exact hkind
      · -- the type was checked against the entity as it was before
        cases hvalue
        obtain ⟨e₀, he₀, hsame⟩ := (hv g rfl).entity_before hfollows he
        unfold checkType at hcheck
        rw [show var.component = some typeName from hcomponent] at hcheck
        simp only [he₀, Option.map_some, Option.some.injEq] at hcheck
        split at hcheck
        next heq => exact hsame.typeName.trans heq
        next => cases hcheck
  · have hlength : (s.proc.vars.put id { var with value := some v }).kinds.length
        = s.proc.vars.kinds.length := by
      rw [Storage.length_kinds, Storage.length_kinds]
      exact List.length_set
    show o.WellFormed (s.proc.vars.put id { var with value := some v }).kinds.length
    rw [hlength]
    exact hs.reads i hi o ho

/-- A memory is given other contents. -/
theorem setDevice (hs : s.Fit) {target : Option Handle} {m : Memory}
    (hm : ∀ g ∈ handlesOf m.values, s.world.arena.Issued g) : (s.setDevice target m).Fit := by
  cases target with
  | none =>
      refine ⟨hs.sound, hs.fair, hs.parts, fun g hg => ?_, hs.typed, hs.reads⟩
      rcases mem_held.1 hg with hg | hg
      · exact hs.held g (mem_held.2 (.inl hg))
      · exact hm g hg
  | some g =>
      obtain ⟨hsound, hfollows⟩ := hs.sound.setMemory (h := g) hm
      exact hs.withArena hsound hfollows

/-- A memory is given other contents and usages move. -/
theorem refill (hs : s.Fit) {target : Option Handle} {m : Memory} {old : Option Value}
    (hm : ∀ g ∈ handlesOf m.values, s.world.arena.Issued g)
    (hv : ∀ g, v = .entity g → s.world.arena.Issued g)
    (hwrap : Arena.Unwrapped s.world.arena
      ((s.setDevice target m).world.arena.exchange v old)) :
    ((s.setDevice target m).withArena ((s.setDevice target m).world.arena.exchange v old)).Fit := by
  cases target with
  | none =>
      obtain ⟨hsound, hfollows⟩ := hs.sound.exchange old hv hwrap
      have hset : (s.setDevice none m).Fit := hs.setDevice hm
      exact hset.withArena hsound hfollows
  | some g =>
      have hrun := hs.sound.run_refill hm hv hwrap
      obtain ⟨hsound, hfollows⟩ := hrun.sound hs.sound
      exact hs.withArena hsound hfollows

end Fit

/-- No effect of an instruction spoils the invariant. -/
theorem Effect.fit {i : Instruction} (heffect : Effect i s s') (hs : s.Fit) (hreads : s.Reads i)
    (hwrap : Arena.Unwrapped s.world.arena s'.world.arena) : s'.Fit := by
  cases heffect with
  | quiet same => exact hs.quiet same
  | store before _ known stored after =>
      rw [after.arena, ← before.arena] at hwrap
      have hs₁ := hs.quiet before
      exact (hs₁.store stored (fun g hg => hs₁.knows (known hreads g hg)) hwrap).quiet after
  | fill before device filled known =>
      rw [← before.arena] at hwrap
      have hs₁ := hs.quiet before
      have hv := fun g hg => hs₁.knows (known hreads g hg)
      refine hs₁.refill (fun g hg => ?_) hv hwrap
      rcases Memory.handle_of_set filled hg with hg | hg
      · exact hv g hg
      · exact hs₁.knows (device_knows device hg)
  | vacate before device emptied =>
      rw [← before.arena] at hwrap
      have hs₁ := hs.quiet before
      refine hs₁.refill (v := .bool false) (fun g hg => ?_) (fun g hg => by cases hg) hwrap
      exact hs₁.knows (device_knows device (Memory.handle_of_clear emptied hg))
  | call before reached known found invoked stored =>
      rw [← before.arena] at hwrap
      have hs₁ := hs.quiet before
      have hfair := hs₁.fair.find found
      obtain ⟨args', hargs', haction⟩ := Method.invoke_eq_ok invoked
      have hissued := fun g hg => hs₁.knows (known hreads _ (hargs' g hg) g rfl)
      rcases stored with rfl | ⟨id, v, -, hv, stored⟩
      · obtain ⟨hrun, -⟩ := hfair.run hs₁.sound (hs₁.knows reached) hissued haction hwrap
        obtain ⟨hsound, hfollows⟩ := hrun.sound hs₁.sound
        exact hs₁.withArena hsound hfollows
      · -- the result is stored after the call
        obtain ⟨hwrap₁, hwrap₂⟩ := hwrap.split (hfair.brief haction) (store_settles stored)
        obtain ⟨hrun, hresult⟩ :=
          hfair.run hs₁.sound (hs₁.knows reached) hissued haction hwrap₁
        obtain ⟨hsound, hfollows⟩ := hrun.sound hs₁.sound
        refine (hs₁.withArena hsound hfollows).store stored (fun g hg => ?_) hwrap₂
        rcases hv g hg with hg | ⟨n, hn⟩
        · exact hresult g hg
        · exact hsound.resolve hn

-- =============================================================== running

namespace Fit

theorem fail (hs : s.Fit) (fault : Fault) : (s.fail fault).Fit :=
  hs.of_eq rfl rfl rfl rfl rfl rfl

theorem completeAtEnd (hs : s.Fit) : s.completeAtEnd.Fit := by
  unfold Scene.completeAtEnd
  split
  · exact hs.of_eq rfl rfl rfl rfl rfl rfl
  · exact hs

theorem goTo (hs : s.Fit) (line : Nat) : (s.goTo line).completeAtEnd.Fit := by
  have hgone : (s.goTo line).Fit := hs.of_eq rfl rfl rfl rfl rfl rfl
  exact hgone.completeAtEnd

end Fit

/-- A line keeps the invariant. -/
theorem Fit.step (hs : s.Fit) (hwrap : Arena.Unwrapped s.world.arena s.step.world.arena) :
    s.step.Fit := by
  obtain ⟨s₁, hexecuted, hstep⟩ := s.step_cases
  have hfit : Arena.Unwrapped s.world.arena s₁.world.arena → s₁.Fit := by
    intro hwrap
    rcases hexecuted with rfl | ⟨i, signal, hi, hexecute⟩
    · exact hs
    · have hreads : s.Reads i := by
        obtain ⟨hlt, heq⟩ := Array.getElem?_eq_some_iff.1 hi
        exact hs.reads i (heq ▸ Array.getElem_mem_toList hlt)
      exact (Instruction.execute_effect hexecute).fit hs hreads hwrap
  rcases hstep with ⟨line, heq⟩ | ⟨fault, heq⟩
  · rw [heq, completeAtEnd_world] at hwrap
    rw [heq]
    exact (hfit hwrap).goTo line
  · rw [heq] at hwrap ⊢
    exact (hfit hwrap).fail fault

/-- A tick keeps the invariant if each of its lines leaves generations
unwrapped. -/
theorem Fit.tick (hs : s.Fit)
    (hwrap : ∀ m, During s m → Arena.Unwrapped m.world.arena m.step.world.arena) :
    s.tick.2.Fit := by
  have haged : s.aged.Fit := hs.of_eq rfl rfl rfl rfl rfl rfl
  cases hstatus : s.proc.status with
  | waiting n =>
      rw [tick_waiting hstatus]
      exact hs.of_eq rfl rfl rfl rfl rfl rfl
  | running =>
      obtain ⟨n, s', -, hlines, htick⟩ := tick_running hstatus
      -- up to any line of the tick, since the rest of it is yet to be run
      have hline : ∀ {k m}, Lines s.aged k m → (∃ j, Lines m j s.tick.2) → m.Fit := by
        intro k m hm
        induction hm with
        | none => exact fun _ => haged
        | @step k m before running ih =>
            rintro ⟨j, hrest⟩
            have hm := ih ⟨1 + j, (Lines.one running).trans hrest⟩
            exact hm.step (hwrap m ⟨hstatus, running, k, j, before, hrest⟩)
      rw [htick] at hline ⊢
      exact hline hlines ⟨0, .none⟩
  | stopped | completed | halted =>
      rw [tick_final (by rw [hstatus]; rfl)]
      exact haged

-- ============================================================== sweeping

/-- A sweep keeps the invariant. -/
theorem Fit.swept (hs : s.Fit)
    (hwrap : Arena.Unwrapped s.world.arena s.swept.world.arena) : s.swept.Fit := by
  obtain ⟨hsound, hfollows⟩ := hs.sound.releaseAll _ hwrap
  have hmoved := hs.withArena hsound hfollows
  refine ⟨hsound, hs.fair, hmoved.parts, fun g hg => ?_, fun var' hvar' => ?_, fun i hi o ho => ?_⟩
  · refine hmoved.held g (mem_held.2 ?_)
    rcases mem_held.1 hg with ⟨var', hvar', hvalue⟩ | hg
    · obtain ⟨var, hvar, rfl⟩ := List.mem_map.1 hvar'
      split at hvalue
      next => cases hvalue
      next => exact .inl ⟨var, hvar, hvalue⟩
    · have hmem := List.mem_append_right (s.proc.memory.sweep s.world.arena.isAlive).1
        (mem_handlesOf.1 hg)
      exact .inr (mem_handlesOf.2 ((Memory.values_sweep _).subset hmem))
  · obtain ⟨var, hvar, rfl⟩ := List.mem_map.1 hvar'
    have htyped := hmoved.typed var hvar
    split
    next hdead =>
      -- what is emptied held an entity, so it is no number or truth value
      obtain ⟨g, hvalue, -⟩ := dead_handle hdead
      have hkind := htyped.kind _ hvalue
      refine ⟨fun w hw => (by cases hw), fun hisValue => ?_, htyped.label, htyped.component,
        fun _ hw => by cases hw⟩
      rw [show var.clear.kind = var.kind from rfl, ← hkind] at hisValue
      cases hg : g.kind <;> simp [Kind.of, Kind.ofEntity, hg, Kind.isValue] at hisValue
    next => exact htyped
  · have hkinds : s.swept.proc.vars.kinds = s.proc.vars.kinds := s.proc.vars.kinds_sweep _
    rw [hkinds]
    exact hs.reads i hi o ho

-- =============================================================== loading

/-- Variables are declared that are typed and hold no handle. -/
theorem Fit.extend (hs : s.Fit) {vars : Storage} {added : List Variable}
    (hvars : vars.vars = s.proc.vars.vars ++ added)
    (htyped : ∀ v ∈ added, v.Typed s.world.arena)
    (hplain : ∀ v ∈ added, ∀ h, v.value ≠ some (.entity h)) :
    Fit { s with proc := { s.proc with vars } } := by
  refine ⟨hs.sound, hs.fair, hs.parts, fun g hg => ?_, fun var hvar => ?_, fun i hi o ho => ?_⟩
  · refine hs.held g (mem_held.2 ?_)
    rcases mem_held.1 hg with ⟨var, hvar, hvalue⟩ | hg
    · change var ∈ vars.vars at hvar
      rw [hvars] at hvar
      rcases List.mem_append.1 hvar with hvar | hvar
      · exact .inl ⟨var, hvar, hvalue⟩
      · exact absurd hvalue (hplain var hvar g)
    · exact .inr hg
  · change var ∈ vars.vars at hvar
    rw [hvars] at hvar
    exact (List.mem_append.1 hvar).elim (hs.typed var) (htyped var)
  · refine (hs.reads i hi o ho).mono ?_
    rw [Storage.length_kinds, Storage.length_kinds]
    show _ ≤ vars.vars.length
    rw [hvars, List.length_append]
    exact Nat.le_add_right _ _

/-- All that the previous script held is given up. -/
theorem Fit.reset (hs : s.Fit) (hwrap : Arena.Unwrapped s.world.arena s.reset.world.arena) :
    s.reset.Fit := by
  have harena : s.reset.world.arena
      = s.world.arena.releaseAll (s.proc.vars.values ++ s.proc.memory.values) :=
    List.foldl_append.symm
  rw [harena] at hwrap
  obtain ⟨hsound, hfollows⟩ := hs.sound.releaseAll _ hwrap
  rw [← harena] at hsound hfollows
  refine ⟨hsound, hs.fair, fun p hp => (hs.parts p hp).follows hfollows, fun g hg => ?_,
    fun var hvar => (by cases hvar), fun i hi => by cases hi⟩
  have hnone : s.reset.proc.held = [] := by
    show handlesOf [] ++ handlesOf (Memory.empty _).values = []
    rw [Memory.values_empty]
    rfl
  rw [hnone] at hg
  cases hg

/-- Declaring a part adds a usage and recycles nothing. -/
theorem declarePart_settles {name : String} {part : Handle}
    (hdeclare : s.declarePart name part = .ok s') :
    Arena.Settles [] s.world.arena s'.world.arena
      ∧ s'.world.arena.free = s.world.arena.free := by
  unfold declarePart at hdeclare
  split at hdeclare
  next =>
    obtain ⟨⟨id, vars⟩, hadd, hstore⟩ := bind_eq_ok.1 hdeclare
    have hsettles := store_settles hstore
    refine ⟨hsettles, ?_⟩
    obtain ⟨var, hget, -, -, rfl⟩ := store_eq_ok hstore
    cases (Storage.get?_add hadd).symm.trans hget
    exact s.world.arena.free_retainValue (.entity part)
  next => cases hdeclare

/-- Declaring parts takes usages, and recycles nothing. -/
theorem declareParts_settles : ∀ (parts : List (String × Handle)) (s : Scene),
    Arena.Settles [] s.world.arena (s.declareParts parts).2.world.arena
      ∧ (s.declareParts parts).2.world.arena.free = s.world.arena.free
  | [], _ => ⟨.refl _, rfl⟩
  | (name, part) :: parts, s => by
      unfold declareParts
      split
      next s₁ hdeclare =>
        obtain ⟨hsettles, hfree⟩ := declarePart_settles hdeclare
        obtain ⟨hsettles', hfree'⟩ := declareParts_settles parts s₁
        exact ⟨hsettles.trans hsettles', hfree'.trans hfree⟩
      next => exact ⟨.refl _, rfl⟩

/-- A part of the right kind is put into a variable for parts. -/
theorem Fit.declarePart (hs : s.Fit) {name : String} {part : Handle}
    (hpart : s.world.arena.Issued part) (hdeclare : s.declarePart name part = .ok s') :
    s'.Fit := by
  obtain ⟨hsettles, hfree⟩ := declarePart_settles hdeclare
  unfold Scene.declarePart at hdeclare
  split at hdeclare
  next =>
    obtain ⟨⟨id, vars⟩, hadd, hstore⟩ := bind_eq_ok.1 hdeclare
    have hvars : vars.vars = s.proc.vars.vars ++ [.empty name .part true] := by
      obtain ⟨-, rfl⟩ := Storage.add_eq_ok hadd
      rfl
    have hdeclared : Fit { s with proc := { s.proc with vars } } := by
      refine hs.extend hvars (fun v hv => ?_) fun v hv h => ?_
      · cases List.mem_singleton.1 hv
        exact ⟨fun _ hw => (by cases hw), fun h => (by cases h), fun h => (by cases h),
          fun h => absurd rfl h, fun h => by cases h⟩
      · cases List.mem_singleton.1 hv
        nofun
    refine hdeclared.store hstore (fun g hg => ?_) (hsettles.unwrapped_of_free hfree)
    cases hg
    exact hpart
  next => cases hdeclare

theorem Fit.declareParts : ∀ {parts : List (String × Handle)} {s : Scene}, s.Fit →
    (∀ p ∈ parts, s.world.arena.Issued p.2) → (s.declareParts parts).2.Fit
  | [], s, hs, _ => hs
  | (name, part) :: parts, s, hs, hparts => by
      unfold Scene.declareParts
      split
      next s₁ hdeclare =>
        obtain ⟨hsettles, hfree⟩ := declarePart_settles hdeclare
        have hfollows := hsettles.follows (hsettles.unwrapped_of_free hfree)
        have hs₁ := hs.declarePart (hparts (name, part) List.mem_cons_self) hdeclare
        exact hs₁.declareParts fun p hp =>
          (hparts p (List.mem_cons_of_mem _ hp)).follows hfollows
      next => exact hs

/-- Compiled source is made the script. -/
theorem Fit.install (hs : s.Fit) (source : String) (hnoLines : s.proc.vars.NoLines) :
    (s.install (compile source s.proc.vars s.world.registry)).Fit := by
  obtain ⟨added, hadded, hdeclared⟩ := compile_adds source s.proc.vars s.world.registry
  have hs' := hs.extend hadded (fun v hv => (hdeclared v hv).typed _)
    fun v hv h => (hdeclared v hv).plain
  refine ⟨hs.sound, hs.fair, hs.parts, hs'.held, hs'.typed, fun i hi => ?_⟩
  exact ((compile_wellFormed source s.world.registry hnoLines).2 i hi).operands

/-- Loading sets the invariant up again. -/
theorem Fit.load (hs : s.Fit) (source : String)
    (hwrap : Arena.Unwrapped s.world.arena (s.load source).2.world.arena) :
    (s.load source).2.Fit := by
  obtain ⟨hsettles, hfree⟩ := declareParts_settles s.reset.proc.parts s.reset
  have hdeclares : Declares s.reset (s.reset.declareParts s.reset.proc.parts).2 :=
    declareParts_declares
  have hnoLines := hdeclares.noLines (Storage.noLines_empty _)
  have hdeclared : Arena.Unwrapped s.world.arena
      (s.reset.declareParts s.reset.proc.parts).2.world.arena →
      (s.reset.declareParts s.reset.proc.parts).2.Fit := fun hwrap =>
    have hreset := hs.reset (hwrap.until hsettles hfree)
    hreset.declareParts hreset.parts
  unfold Scene.load at hwrap ⊢
  simp only at hwrap ⊢
  split at hwrap
  next fault s' h =>
    rw [h] at hdeclared
    exact (hdeclared hwrap).fail fault
  next s' h =>
    rw [h] at hdeclared hnoLines
    exact (hdeclared hwrap).install source hnoLines

-- ================================================================== runs

/-- What can happen to a processor that has a script, if no generation
wraps and the host uses handles that it was given. -/
inductive Goes : Scene → Scene → Prop where
  | tick {s : Scene}
      (steady : ∀ m, During s m → Arena.Unwrapped m.world.arena m.step.world.arena) :
      Goes s s.tick.2
  | age (s : Scene) : Goes s s.aged
  | line {s : Scene} (running : s.proc.status = .running)
      (steady : Arena.Unwrapped s.world.arena s.step.world.arena) : Goes s s.step
  | sweep {s : Scene} (steady : Arena.Unwrapped s.world.arena s.swept.world.arena) :
      Goes s s.swept
  | interrupt (s : Scene) : Goes s { s with proc := s.proc.interrupt }
  | feed (s : Scene) (text : String) : Goes s { s with proc := s.proc.feed text }
  | mount {s : Scene} {part : Handle} (known : s.world.arena.Issued part) :
      Goes s { s with proc := s.proc.mount part }
  | connect {s : Scene} {name : String} {part : Handle} {proc : Processor}
      (known : s.world.arena.Issued part) (made : s.proc.connect name part = .ok proc) :
      Goes s { s with proc }
  /-- The host runs operations of the arena, and may change the rest of the
  world, too. -/
  | host {s : Scene} {world : World} (run : s.world.arena.Run world.arena)
      (fair : world.registry.Fair) : Goes s { s with world }

/-- The scenes that a new processor gets into, with any scripts loaded on
the way. -/
inductive Reached : Scene → Prop where
  | start {config : Config} {world : World} (run : Arena.Run .empty world.arena)
      (fair : world.registry.Fair) : Reached ⟨.ofConfig config, world⟩
  | load {s : Scene} (source : String) (before : Reached s)
      (steady : Arena.Unwrapped s.world.arena (s.load source).2.world.arena) :
      Reached (s.load source).2
  | goes {s s' : Scene} (before : Reached s) (goes : Goes s s') : Reached s'

/-- What can happen without a wrap can happen. -/
theorem Goes.move (h : Goes s s') : Move s s' := by
  cases h with
  | tick => exact .tick s
  | age => exact .age s
  | line running => exact .line running
  | sweep => exact .sweep s
  | interrupt => exact .interrupt s
  | feed => exact .feed s _
  | mount => exact .mount s _
  | connect _ made => exact .connect made
  | host => exact .host s _

/-- Whatever happens then keeps a scene fit. -/
theorem Fit.goes (hs : s.Fit) (h : Goes s s') : s'.Fit := by
  cases h with
  | tick steady => exact hs.tick steady
  | line _ steady => exact hs.step steady
  | sweep steady => exact hs.swept steady
  | age | interrupt | feed => exact hs.of_eq rfl rfl rfl rfl rfl rfl
  | mount known =>
      refine ⟨hs.sound, hs.fair, fun p hp => ?_, hs.held, hs.typed, hs.reads⟩
      rcases List.mem_cons.1 hp with rfl | hp
      · exact known
      · exact hs.parts p (Processor.mem_parts.2 (.inr hp))
  | connect known made =>
      obtain ⟨checked, -, made⟩ := bind_eq_ok.1 made
      split at made
      next => cases made
      next =>
        cases made
        refine ⟨hs.sound, hs.fair, fun p hp => ?_, hs.held, hs.typed, hs.reads⟩
        rcases Processor.mem_parts.1 hp with hthis | hlink
        · exact hs.parts p (Processor.mem_parts.2 (.inl hthis))
        · rcases List.mem_append.1 hlink with hold | hnew
          · exact hs.parts p (Processor.mem_parts.2 (.inr hold))
          · cases List.mem_singleton.1 hnew
            exact known
  | host run fair =>
      obtain ⟨hsound, hfollows⟩ := run.sound hs.sound
      exact hs.host fair hsound hfollows

/-- So all scenes that a new processor gets into are fit. -/
theorem Reached.fit (h : Reached s) : s.Fit := by
  induction h with
  | start run fair =>
      refine ⟨(run.sound .empty).1, fair, fun p hp => (by cases hp), fun g hg => ?_,
        fun v hv => (by cases hv), fun i hi => by cases hi⟩
      rcases mem_held.1 hg with ⟨v, hv, -⟩ | hg
      · cases hv
      · change g ∈ handlesOf (Memory.empty _).values at hg
        rw [Memory.values_empty] at hg
        cases hg
  | load source _ steady ih => exact ih.load source steady
  | goes _ goes ih => exact ih.goes goes

-- ================================================================ labels

/-- No line of a loaded script writes to a label. -/
theorem label_unwritten {source : String} {m : Scene} {var : Variable}
    (hfit : (s.load source).2.Fit) (hscript : m.proc.script = (s.load source).2.proc.script)
    (hget : (s.load source).2.proc.vars.get? id = some var) (hlabel : var.kind = .label) :
    id ∉ m.written := by
  intro hid
  have hreadonly := (hfit.typed var (List.mem_of_getElem? hget)).label hlabel
  obtain ⟨s', hdeclares, ⟨fault, hload⟩ | hload⟩ := load_cases s source
  · -- nothing was compiled
    rw [hload] at hscript
    have hnone : m.proc.script = #[] := hscript.trans hdeclares.script
    unfold written at hid
    rw [hnone] at hid
    cases hid
  · rw [hload] at hscript hget
    exact (declares_of_written hscript hid hget hreadonly).2 hlabel

/-- Labels keep their values. -/
theorem label_kept {source : String} (hfit : (s.load source).2.Fit)
    (hgoes : Relation.ReflTransGen Goes (s.load source).2 s₂) :
    s₂.Fit ∧ Moves (s.load source).2 s₂
      ∧ ∀ {id var}, s₂.proc.vars.get? id = some var → var.kind = .label →
          (s.load source).2.proc.vars.get? id = some var := by
  induction hgoes with
  | refl => exact ⟨hfit, .refl, fun hget _ => hget⟩
  | @tail s₂ s₃ _ goes ih =>
      obtain ⟨hs₂, hmoves, hlabels⟩ := ih
      refine ⟨hs₂.goes goes, hmoves.tail goes.move, fun {id var} hget hlabel => ?_⟩
      obtain ⟨hscript, hshapes⟩ := goes.move.same
      obtain ⟨before, hbefore⟩ := Storage.get?_of_shapes hshapes.symm hget
      have hfirst := hlabels hbefore hlabel
      rcases goes.move.value_cases hbefore with hsame | ⟨m, -, hscript', hid⟩ | ⟨-, -, hdead⟩
      · exact hfirst.trans (hsame.symm.trans hget)
      · have hloaded := hscript'.trans hmoves.same.1
        exact absurd hid (label_unwritten hfit hloaded hfirst hlabel)
      · -- a label is not a handle
        obtain ⟨g, hvalue, -⟩ := dead_handle hdead
        have hkind := (hs₂.typed _ (List.mem_of_getElem? hbefore)).kind _ hvalue
        change Kind.ofEntity g.kind = var.kind at hkind
        rw [hlabel] at hkind
        cases hg : g.kind <;> rw [hg] at hkind <;> cases hkind

/-- Typed variables stay typed.

After a script was loaded, with faults or without, and whatever happens
then while no generation wraps: what a variable holds is of its kind, a
number or a truth value is always there, a label is as it was when the
script was loaded, and a living entity is a part if the variable is for
parts, and a component of its type if it is restricted to one. -/
theorem variables_typed {source : String} {var : Variable} (hreached : Reached s)
    (hsteady : Arena.Unwrapped s.world.arena (s.load source).2.world.arena)
    (hgoes : Relation.ReflTransGen Goes (s.load source).2 s₂)
    (hget : s₂.proc.vars.get? id = some var) :
    (∀ w, var.value = some w → Kind.of w = var.kind)
      ∧ (var.kind = .int ∨ var.kind = .float ∨ var.kind = .bool → ∃ w, var.value = some w)
      ∧ (var.kind = .label → (s.load source).2.proc.vars.get? id = some var)
      ∧ ∀ h e, var.value = some (.entity h) → s₂.world.arena.entity? h = some e →
          (var.kind = .part → e.kind = .part)
            ∧ ∀ typeName, var.component = some typeName →
                e.kind = .component ∧ e.typeName = typeName := by
  obtain ⟨hs₂, -, hlabels⟩ := label_kept (hreached.fit.load source hsteady) hgoes
  have hmem := List.mem_of_getElem? hget
  have htyped := hs₂.typed var hmem
  refine ⟨htyped.kind, fun hkind => ?_, hlabels hget, fun h e hvalue he => ?_⟩
  · refine Option.ne_none_iff_exists'.1 (htyped.filled ?_)
    rcases hkind with hkind | hkind | hkind <;> rw [hkind] <;> rfl
  · have hissued := hs₂.held h (mem_held.2 (.inl ⟨var, hmem, hvalue⟩))
    have hsort : Kind.ofEntity e.kind = var.kind := by
      rw [hissued.kind_eq he]
      exact htyped.kind _ hvalue
    refine ⟨fun hpart => ?_, fun typeName hcomponent => ⟨?_, htyped.typeName hcomponent hvalue he⟩⟩
    · rw [hpart] at hsort
      cases hkind : e.kind with
      | part => rfl
      | component => rw [hkind] at hsort; cases hsort
    · rw [htyped.component (by simp [hcomponent])] at hsort
      cases hkind : e.kind with
      | part => rw [hkind] at hsort; cases hsort
      | component => rfl

/-- Fetches the memory on its part. -/
def fetch : String :=
  "comp create(\"m\", \"memory\")\ncomp this.get_component(\"memory\", 0) m\nvar int n 5"

/-- An arena with one part, which has a memory of two cells. -/
def stocked : Arena :=
  let attach := Arena.Op.attach ⟨0, 0, .part⟩ Entity.memoryType (some (.empty 2))
  (attach.apply ((Arena.Op.spawn 1).apply .empty).2).2

/-- A processor on the part. -/
def workshop : Scene :=
  ⟨(Processor.ofConfig .standard).mount ⟨0, 0, .part⟩,
    { World.start (.start 0) ⟨0⟩ with arena := stocked }⟩

theorem reached_workshop : Reached workshop := by
  have hspawned : Arena.Run .empty ((Arena.Op.spawn 1).apply .empty).2 :=
    Arena.Run.refl.step (.spawn 1) (fun g hg => by cases hg) (by decide)
  have hrun : Arena.Run .empty stocked :=
    hspawned.step (.attach ⟨0, 0, .part⟩ Entity.memoryType (some (.empty 2)))
      (fun g hg => by cases hg) (by decide)
  have hpart : stocked.Issued ⟨0, 0, .part⟩ := (hrun.sound .empty).1.resolve (i := 0) (by decide)
  have hstart :
      Reached ⟨.ofConfig .standard, { World.start (.start 0) ⟨0⟩ with arena := stocked }⟩ :=
    .start hrun Registry.fair_standard
  exact hstart.goes (.mount hpart)

/-- Two lines on, the variable for memories holds the memory of the part,
and the number that is declared after that has a value already. -/
theorem variables_typed_workshop :
    (∃ var h e, (workshop.load fetch).2.step.step.proc.vars.get? 1 = some var
        ∧ var.value = some (.entity h)
        ∧ (workshop.load fetch).2.step.step.world.arena.entity? h = some e
        ∧ e.kind = .component ∧ e.typeName = Entity.memoryType)
      ∧ ∃ var w, (workshop.load fetch).2.step.step.proc.vars.get? 2 = some var
        ∧ var.value = some w ∧ Kind.of w = .int := by
  have hrun : Arena.Unwrapped workshop.world.arena (workshop.load fetch).2.world.arena
      ∧ (workshop.load fetch).2.proc.status = .running
      ∧ Arena.Unwrapped (workshop.load fetch).2.world.arena (workshop.load fetch).2.step.world.arena
      ∧ (workshop.load fetch).2.step.proc.status = .running
      ∧ Arena.Unwrapped (workshop.load fetch).2.step.world.arena
          (workshop.load fetch).2.step.step.world.arena := by
    decide +kernel
  have hholds : (((workshop.load fetch).2.step.step.proc.vars.get? 1).any fun var =>
        var.component == some Entity.memoryType && (var.value.bind Value.handle?).any fun h =>
          ((workshop.load fetch).2.step.step.world.arena.entity? h).isSome)
      ∧ ((workshop.load fetch).2.step.step.proc.vars.get? 2).any (fun var => var.kind == .int) := by
    decide +kernel
  obtain ⟨hload, hfirst, hfirst', hsecond, hsecond'⟩ := hrun
  have hgoes : Relation.ReflTransGen Goes (workshop.load fetch).2
      (workshop.load fetch).2.step.step :=
    (Relation.ReflTransGen.single (.line hfirst hfirst')).tail (.line hsecond hsecond')
  generalize (workshop.load fetch).2.step.step = s₂ at hholds hgoes ⊢
  obtain ⟨hmemory, hnumber⟩ := hholds
  constructor
  · obtain ⟨var, hget, hvar⟩ := (Option.any_eq_true _ _).1 hmemory
    rw [Bool.and_eq_true, beq_iff_eq] at hvar
    obtain ⟨h, hh, halive⟩ := (Option.any_eq_true _ _).1 hvar.2
    obtain ⟨w, hw, hhandle⟩ := Option.bind_eq_some_iff.1 hh
    obtain ⟨e, he⟩ := Option.isSome_iff_exists.1 halive
    cases w with
    | entity g =>
        cases hhandle
        obtain ⟨-, -, -, hentity⟩ := variables_typed reached_workshop hload hgoes hget
        exact ⟨var, h, e, hget, hw, he, (hentity h e hw he).2 _ hvar.1⟩
    | _ => cases hhandle
  · obtain ⟨var, hget, hkind⟩ := (Option.any_eq_true _ _).1 hnumber
    rw [beq_iff_eq] at hkind
    obtain ⟨hexact, hfilled, -, -⟩ := variables_typed reached_workshop hload hgoes hget
    obtain ⟨w, hw⟩ := hfilled (.inl hkind)
    exact ⟨var, w, hget, hw, (hexact w hw).trans hkind⟩

end Scene

end TickScript
