/-
What instructions cannot tell.

Before a scene there is a backdrop: the setup of the processor, its frames,
its launch and the count of its faults, the clock and the random draws to
come. Of these and of the arena, instructions ask only a few things. A
likeness relates backdrops and arenas that answer them alike, and scenes
that differ in nothing else are alike (`Likeness.Alike`). An instruction
does the same in scenes that are alike: it fails with the same fault, or
goes on the same way to scenes that are alike again
(`Instruction.execute_alike`). Three things are left to whoever uses a
likeness: operands that draw at random (`Likeness.Reads`), instructions that
read the time, and the entities that a script gets hold of, whose memories
and methods must not tell the scenes apart (`Likeness.Holds`).

There is one lemma for each thing that an instruction does. A scene that is
alike is one *staged* with another backdrop and another arena; everything
else of it is the same by definition, so each lemma is about the few places
that look behind.
-/
import TickScript.Proofs.Arena.Likeness
import TickScript.Proofs.Processor.Effects

namespace TickScript

/-- What of a scene is no matter of the script, but for a few questions. -/
structure Backdrop where
  config : Config
  frames : Nat
  launch : Float
  faultCount : Nat
  clock : Clock
  draws : Draws

namespace Scene

/-- What of a scene lies behind it. -/
def backdrop (s : Scene) : Backdrop where
  config := s.proc.config
  frames := s.proc.frames
  launch := s.proc.launch
  faultCount := s.proc.faultCount
  clock := s.world.clock
  draws := s.world.draws

/-- The scene with another backdrop and another arena. -/
def staged (s : Scene) (x : Backdrop) (arena : Arena) : Scene where
  proc := { s.proc with
    config := x.config
    frames := x.frames
    launch := x.launch
    faultCount := x.faultCount }
  world := { s.world with
    clock := x.clock
    draws := x.draws
    arena }

end Scene

/-- How scenes may differ that instructions cannot tell apart. -/
structure Likeness where
  backdrop : Backdrop → Backdrop → Prop
  arena : Arena → Arena → Prop
  legacyVar : ∀ {x y}, backdrop x y → y.config.legacyVar = x.config.legacyVar
  arenas : Arena.Likeness arena

namespace Likeness

/-- The scenes differ as the likeness allows, and in nothing else. -/
def Alike (L : Likeness) (s t : Scene) : Prop :=
  ∃ y b, t = s.staged y b ∧ L.backdrop s.backdrop y ∧ L.arena s.world.arena b

/-- An operand that has the same value before either backdrop, whatever it
draws. -/
def Reads (L : Likeness) (o : Operand) : Prop :=
  ∀ vars alive {x y}, L.backdrop x y →
    Agree (Beside fun d d' => L.backdrop { x with draws := d } { y with draws := d' })
      (o.value vars alive x.draws) (o.value vars alive y.draws)

/-- The memories and methods of all that a script gets hold of do not tell
the scenes apart. -/
structure Holds (L : Likeness) (s : Scene) : Prop where
  shows : ∀ {id h}, s.reach id = .ok h → Arena.Shows L.arena h
  calls : ∀ {id h}, s.reach id = .ok h → ∀ {typeName name m},
    s.world.registry.find? typeName name = some m → ∀ {a b}, L.arena a b → ∀ args,
      Agree (Beside L.arena) (m.invoke a h args) (m.invoke b h args)

/-- Where the draws are the same, all operands are. -/
theorem reads_of_draws {L : Likeness} (hsame : ∀ {x y}, L.backdrop x y → y.draws = x.draws)
    (hdraws : ∀ {x y}, L.backdrop x y → ∀ d,
      L.backdrop { x with draws := d } { y with draws := d }) (o : Operand) : L.Reads o := by
  intro vars alive x y hxy
  rw [hsame hxy]
  cases o.value vars alive x.draws with
  | error fault => exact .error fault
  | ok r => exact .ok ⟨rfl, hdraws hxy r.2⟩

end Likeness

namespace Scene

variable {L : Likeness} {s t : Scene} {id : VarId} {v : Value}

-- =============================================================== reading

/-- An operand has the same value, and what it draws is no matter of the
scene. -/
theorem read_alike {o : Operand} (hst : L.Alike s t) (ho : L.Reads o) :
    Agree (Beside L.Alike) (s.read o) (t.read o) := by
  obtain ⟨y, b, rfl, hy, hb⟩ := hst
  unfold read
  simp only [staged, L.arenas.isAlive hb]
  refine (ho _ _ hy).bind_beside fun v d d' _ hd => ?_
  exact .ok ⟨rfl, { y with draws := d' }, b, rfl, hd, hb⟩

/-- Reading operands in turn stays among scenes that are alike. -/
theorem readAll_alike : ∀ {os : List Operand} {s t : Scene}, L.Alike s t →
    (∀ o ∈ os, L.Reads o) → Agree (Beside L.Alike) (s.readAll os) (t.readAll os)
  | [], _, _, hst, _ => .ok ⟨rfl, hst⟩
  | o :: os, s, t, hst, hos => by
      unfold readAll
      have hmore : ∀ o' ∈ os, L.Reads o' := fun o' ho' => hos o' (List.mem_cons_of_mem o ho')
      refine (read_alike hst (hos o List.mem_cons_self)).bind_beside fun v s₁ t₁ _ hst₁ => ?_
      refine (readAll_alike hst₁ hmore).bind_beside fun vs s₂ t₂ _ hst₂ => ?_
      exact .ok ⟨rfl, hst₂⟩

/-- An address is the value of an operand, and the same fault if it is none. -/
theorem readAddress_alike {o : Operand} (hst : L.Alike s t) (ho : L.Reads o) :
    Agree (Beside L.Alike) (s.readAddress o) (t.readAddress o) := by
  unfold readAddress
  refine (read_alike hst ho).bind_beside fun v s₁ t₁ _ hst₁ => ?_
  cases v with
  | int n => exact .ok ⟨rfl, hst₁⟩
  | float x =>
      simp only
      split
      · exact .ok ⟨rfl, hst₁⟩
      · exact .error _
  | _ => exact .error _

/-- Permission goes by the groups of the two entities. -/
theorem canConnect_alike (hst : L.Alike s t) (source target : Handle) :
    t.world.canConnect source target = s.world.canConnect source target := by
  obtain ⟨y, b, rfl, -, hb⟩ := hst
  unfold World.canConnect
  simp only [staged, L.arenas.group? hb]

/-- The same entities are within reach. -/
theorem reach_alike (hst : L.Alike s t) : t.reach id = s.reach id := by
  have hconnect := canConnect_alike hst
  obtain ⟨y, b, rfl, -, hb⟩ := hst
  unfold reach
  simp only [hconnect]
  simp only [staged, L.arenas.isAlive hb]

-- =============================================================== storing

/-- The same value displaces the same value, and the usages move in both
arenas. -/
theorem store_alike (hst : L.Alike s t) : Agree L.Alike (s.store id v) (t.store id v) := by
  obtain ⟨y, b, rfl, hy, hb⟩ := hst
  have hcheck : ∀ var, (s.staged y b).checkType var v = s.checkType var v := by
    intro var
    unfold checkType
    simp only [staged, L.arenas.typeName hb]
  refine .after fun var => ?_
  rw [hcheck]
  refine .after fun _ => .after fun r => ?_
  exact .ok ⟨y, b.exchange v r.1, rfl, hy, L.arenas.exchange hb v r.1⟩

/-- Converting a value asks the arena only to resolve a number. -/
theorem assign_alike (hst : L.Alike s t) : Agree L.Alike (s.assign id v) (t.assign id v) := by
  have hresolve : t.world.arena.resolve = s.world.arena.resolve := by
    obtain ⟨y, b, rfl, -, hb⟩ := hst
    exact L.arenas.resolve hb
  have hvars : t.proc.vars = s.proc.vars := by
    obtain ⟨y, b, rfl, -, -⟩ := hst
    rfl
  unfold assign
  rw [hvars, hresolve]
  exact .after fun var => .after fun w => store_alike hst

theorem storeResult_alike (hst : L.Alike s t) (method : String) (ret : Option VarId)
    (result : Option Value) :
    Agree L.Alike (s.storeResult method ret result) (t.storeResult method ret result) := by
  cases ret with
  | none => exact .ok hst
  | some dest =>
      cases result with
      | none => exact .error _
      | some w => exact assign_alike hst

-- ================================================================= parts

/-- A part is declared and its usage is taken in both. -/
theorem declarePart_alike {name : String} {part : Handle} (hst : L.Alike s t) :
    Agree L.Alike (s.declarePart name part) (t.declarePart name part) := by
  obtain ⟨y, b, rfl, hy, hb⟩ := hst
  have halive : (s.staged y b).world.arena.isAlive = s.world.arena.isAlive := L.arenas.isAlive hb
  unfold declarePart
  rw [halive]
  split
  · refine .after fun r => ?_
    exact store_alike (s := { s with proc := { s.proc with vars := r.2 } }) ⟨y, b, rfl, hy, hb⟩
  · exact .error _

/-- Parts are declared alike. -/
theorem declareParts_alike : ∀ (parts : List (String × Handle)) {s t : Scene}, L.Alike s t →
    Beside L.Alike (s.declareParts parts) (t.declareParts parts)
  | [], _, _, hst => ⟨rfl, hst⟩
  | (name, part) :: parts, s, t, hst => by
      have hpart : Agree L.Alike (s.declarePart name part) (t.declarePart name part) :=
        declarePart_alike hst
      unfold declareParts
      generalize s.declarePart name part = x, t.declarePart name part = y at hpart ⊢
      cases hpart with
      | error fault => exact ⟨rfl, hst⟩
      | ok hst₁ => exact declareParts_alike parts hst₁

-- ========================================================== instructions

/-- Waiting is no reading of the time. -/
theorem wait_alike {ticks : Operand} (hst : L.Alike s t) (hticks : L.Reads ticks) :
    Agree L.Alike (s.time (.wait ticks)) (t.time (.wait ticks)) := by
  unfold time
  refine (read_alike hst hticks).bind_beside fun v s₁ t₁ _ hst₁ => ?_
  obtain ⟨y, b, rfl, hy, hb⟩ := hst₁
  refine .after fun n => ?_
  simp only
  split
  · exact .ok ⟨y, b, rfl, hy, hb⟩
  · exact .error _

/-- The input is the same, so the same character is taken. -/
theorem popChar_alike (dest : VarId) (hst : L.Alike s t) :
    Agree L.Alike (s.popChar dest) (t.popChar dest) := by
  have hinput : t.proc.input = s.proc.input := by
    obtain ⟨y, b, rfl, -, -⟩ := hst
    rfl
  unfold popChar
  rw [hinput]
  cases s.proc.input.toList with
  | nil => exact .error _
  | cons c cs =>
      refine (store_alike hst).bind ?_
      rintro s₁ _ ⟨y, b, rfl, hy, hb⟩
      exact .ok ⟨y, b, rfl, hy, hb⟩

/-- The same number is found and stored. -/
theorem popNumber_alike (dest : VarId) (hst : L.Alike s t) :
    Agree L.Alike (s.popNumber dest) (t.popNumber dest) := by
  have hproc : t.proc.input = s.proc.input ∧ t.proc.vars = s.proc.vars := by
    obtain ⟨y, b, rfl, -, -⟩ := hst
    exact ⟨rfl, rfl⟩
  unfold popNumber
  rw [hproc.1, hproc.2]
  split
  · exact .error _
  · refine .after fun var => ?_
    cases findNumber? (var.kind = .float) s.proc.input.toList with
    | none => exact .error _
    | some r =>
        refine .after fun w => (assign_alike hst).bind ?_
        rintro s₁ _ ⟨y, b, rfl, hy, hb⟩
        exact .ok ⟨y, b, rfl, hy, hb⟩

/-- The console and both buffers are the same. -/
theorem console_alike {op : ConsoleOp} (hst : L.Alike s t) (hop : ∀ o ∈ op.operands, L.Reads o) :
    Agree L.Alike (s.console op) (t.console op) := by
  cases op with
  | read | write =>
      obtain ⟨y, b, rfl, hy, hb⟩ := hst
      exact .ok ⟨y, b, rfl, hy, hb⟩
  | clear stream =>
      obtain ⟨y, b, rfl, hy, hb⟩ := hst
      cases stream <;> exact .ok ⟨y, b, rfl, hy, hb⟩
  | filter => exact .error _
  | push args =>
      refine (readAll_alike hst hop).bind_beside fun vs s₁ t₁ _ hst₁ => ?_
      obtain ⟨y, b, rfl, hy, hb⟩ := hst₁
      exact .ok ⟨y, b, rfl, hy, hb⟩
  | canPop probe dest =>
      have hready : t.canPop probe = s.canPop probe := by
        obtain ⟨y, b, rfl, -, -⟩ := hst
        cases probe <;> rfl
      unfold console
      simp only [hready]
      exact .after fun _ => store_alike hst
  | pop target =>
      cases target with
      | char dest => exact popChar_alike dest hst
      | number dest => exact popNumber_alike dest hst

variable {target : Option Handle}

/-- The memory that an instruction works on shows the same in both. -/
theorem device_alike (hst : L.Alike s t) (hshows : ∀ h, target = some h → Arena.Shows L.arena h) :
    t.device target = s.device target := by
  obtain ⟨y, b, rfl, -, hb⟩ := hst
  cases target with
  | none => rfl
  | some h => exact Standard.device_shown (hshows h rfl) hb

/-- A memory that shows is replaced in both. -/
theorem setDevice_alike (hst : L.Alike s t)
    (hshows : ∀ h, target = some h → Arena.Shows L.arena h) (m : Memory) :
    L.Alike (s.setDevice target m) (t.setDevice target m) := by
  obtain ⟨y, b, rfl, hy, hb⟩ := hst
  cases target with
  | none => exact ⟨y, b, rfl, hy, hb⟩
  | some h => exact ⟨y, b.setMemory h m, rfl, hy, (hshows h rfl).setMemory hb m⟩

/-- Usages change alike. -/
theorem exchange_alike (hst : L.Alike s t) (v : Value) (old : Option Value) :
    L.Alike (s.withArena (s.world.arena.exchange v old))
      (t.withArena (t.world.arena.exchange v old)) := by
  obtain ⟨y, b, rfl, hy, hb⟩ := hst
  exact ⟨y, b.exchange v old, rfl, hy, L.arenas.exchange hb v old⟩

theorem releaseAll_alike (hst : L.Alike s t) (vs : List Value) :
    L.Alike (s.withArena (s.world.arena.releaseAll vs))
      (t.withArena (t.world.arena.releaseAll vs)) := by
  obtain ⟨y, b, rfl, hy, hb⟩ := hst
  exact ⟨y, b.releaseAll vs, rfl, hy, L.arenas.releaseAll hb vs⟩

theorem isAlive_alike (hst : L.Alike s t) : t.world.arena.isAlive = s.world.arena.isAlive := by
  obtain ⟨y, b, rfl, -, hb⟩ := hst
  exact L.arenas.isAlive hb

/-- Reading and writing a memory that shows cannot tell the scenes apart. -/
theorem memory_alike {op : MemoryOp} (hst : L.Alike s t)
    (hshows : ∀ h, target = some h → Arena.Shows L.arena h)
    (hop : ∀ o ∈ op.operands, L.Reads o) :
    Agree L.Alike (s.memory target op) (t.memory target op) := by
  cases op with
  | get addr dest =>
      refine (readAddress_alike hst (hop addr List.mem_cons_self)).bind_beside
        fun n s₁ t₁ _ hst₁ => ?_
      simp only [device_alike hst₁ hshows, isAlive_alike hst₁]
      refine .after fun m => .after fun cell => ?_
      cases cell with
      | none => exact .error _
      | some w => exact assign_alike hst₁
  | getType addr dest | isNull addr dest =>
      refine (readAddress_alike hst (hop addr List.mem_cons_self)).bind_beside
        fun n s₁ t₁ _ hst₁ => ?_
      simp only [device_alike hst₁ hshows, isAlive_alike hst₁]
      exact .after fun m => .after fun _ => store_alike hst₁
  | set addr value =>
      refine (readAddress_alike hst (hop addr List.mem_cons_self)).bind_beside
        fun n s₁ t₁ _ hst₁ => ?_
      refine (read_alike hst₁ (hop value (List.mem_cons_of_mem _ List.mem_cons_self))).bind_beside
        fun v s₂ t₂ _ hst₂ => ?_
      simp only [device_alike hst₂ hshows]
      refine .after fun m => .after fun r => .ok ?_
      exact exchange_alike (setDevice_alike hst₂ hshows r.2) v r.1
  | clear addr =>
      refine (readAddress_alike hst (hop addr List.mem_cons_self)).bind_beside
        fun n s₁ t₁ _ hst₁ => ?_
      simp only [device_alike hst₁ hshows]
      refine .after fun m => .after fun r => .ok ?_
      exact releaseAll_alike (setDevice_alike hst₁ hshows r.2) r.1.toList

/-- A method is found by the type, which is the same, and does alike. -/
theorem call_alike {target : VarId} {method : String} {args : List Operand} {ret : Option VarId}
    (hst : L.Alike s t) (hargs : ∀ o ∈ args, L.Reads o) (hholds : L.Holds s) :
    Agree L.Alike (s.call target method args ret) (t.call target method args ret) := by
  unfold call
  rw [reach_alike hst]
  cases hreach : s.reach target with
  | error fault => exact .error fault
  | ok h =>
      have htype : (t.world.arena.entity? h).map Entity.typeName
          = (s.world.arena.entity? h).map Entity.typeName := by
        obtain ⟨y, b, rfl, -, hb⟩ := hst
        exact L.arenas.typeName hb h
      rw [ok_bind, ok_bind]
      cases hentity : s.world.arena.entity? h with
      | none =>
          rw [hentity, Option.map_none, Option.map_eq_none_iff] at htype
          rw [htype]
          exact .error _
      | some entity =>
          rw [hentity] at htype
          obtain ⟨entity', hentity', hname⟩ := Option.map_eq_some_iff.1 htype
          rw [hentity']
          simp only
          rw [hname]
          refine (readAll_alike hst hargs).bind_beside fun vs s₁ t₁ hread hst₁ => ?_
          obtain ⟨y, b, rfl, hy, hb⟩ := hst₁
          have hregistry : (s₁.staged y b).world.registry = s₁.world.registry := rfl
          simp only [hregistry]
          cases hfind : s₁.world.registry.find? entity.typeName method with
          | none => exact .error _
          | some m =>
              rw [(readAll_quiet hread).1.registry] at hfind
              refine (hholds.calls hreach hfind hb vs).bind_beside fun result a b' _ hab => ?_
              exact storeResult_alike (s := s₁.withArena a) ⟨y, b', rfl, hy, hab⟩ method ret result

end Scene

/-- An instruction does the same in scenes that are alike. -/
theorem Instruction.execute_alike (i : Instruction) {L : Likeness} {s t : Scene}
    (hst : L.Alike s t) (hreads : ∀ o ∈ i.operands, L.Reads o)
    (htime : ∀ op, i = .time op → Agree L.Alike (s.time op) (t.time op)) (hholds : L.Holds s) :
    Agree (Beside L.Alike) (i.execute s) (i.execute t) := by
  have hnext : ∀ {x y : Except Fault Scene}, Agree L.Alike x y →
      Agree (Beside L.Alike) (x.map fun s => (Signal.next, s)) (y.map fun s => (Signal.next, s)) :=
    fun hxy => hxy.map fun _ _ h => ⟨rfl, h⟩
  cases i with
  | declare dest source =>
      have hproc : t.proc.config.legacyVar = s.proc.config.legacyVar
          ∧ t.proc.declared = s.proc.declared := by
        obtain ⟨y, b, rfl, hy, -⟩ := hst
        exact ⟨L.legacyVar hy, rfl⟩
      simp only [execute, hproc]
      split
      · exact .ok ⟨rfl, hst⟩
      · refine (Scene.read_alike hst (hreads source List.mem_cons_self)).bind_beside
          fun v s₁ t₁ _ hst₁ => ?_
        refine (Scene.assign_alike hst₁).bind ?_
        rintro s₂ _ ⟨y, b, rfl, hy, hb⟩
        exact .ok ⟨rfl, y, b, rfl, hy, hb⟩
  | assign dest source =>
      refine (Scene.read_alike hst (hreads source List.mem_cons_self)).bind_beside
        fun v s₁ t₁ _ hst₁ => ?_
      exact (Scene.assign_alike hst₁).bind fun s₂ t₂ hst₂ => .ok ⟨rfl, hst₂⟩
  | jump target condition =>
      refine (Scene.read_alike hst (hreads condition List.mem_cons_self)).bind_beside
        fun v s₁ t₁ _ hst₁ => ?_
      cases v with
      | bool b => cases b <;> exact .ok ⟨rfl, hst₁⟩
      | _ => exact .error _
  | label | create => exact .ok ⟨rfl, hst⟩
  | stop =>
      obtain ⟨y, b, rfl, hy, hb⟩ := hst
      exact .ok ⟨rfl, y, b, rfl, hy, hb⟩
  | time op => exact hnext (htime op rfl)
  | console op => exact hnext (Scene.console_alike hst hreads)
  | memory device op =>
      cases device with
      | none => exact hnext (Scene.memory_alike hst (fun h hh => by cases hh) hreads)
      | some id =>
          simp only [execute]
          rw [Scene.reach_alike hst]
          cases hreach : s.reach id with
          | error fault => exact .error fault
          | ok h =>
              refine hnext (Scene.memory_alike hst (fun g hg => ?_) hreads)
              cases hg
              exact hholds.shows hreach
  | call target method args ret => exact hnext (Scene.call_alike hst hreads hholds)

end TickScript
