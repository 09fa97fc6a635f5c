/-
What one instruction does.

An instruction either fails for an ordinary reason, or leads to a scene
that differs from the one before only in what instructions may touch
(`Scene.Does`): the script, the kinds of the variables, the line and the
faults on record are the same, and if usages were balanced they still
are. This is said once for each operation of a scene, as `Carries`, and
what an instruction does is put together from its operations: `Carries`
is passed through a chain step by step.

Every operation pairs the handles that it stores with those that it
displaces. Reading leaves all handles where they are (`Scene.Looks`).
-/
import TickScript.Processor.Execute
import TickScript.Proofs.Processor.Methods

namespace TickScript

open List (Perm)

-- ================================================================ scenes

/-- The handles that a processor's variables and local memory hold. -/
def Processor.held (p : Processor) : List Handle :=
  handlesOf p.vars.values ++ handlesOf p.memory.values

namespace Scene

/-- The usages stay balanced, whatever other places hold. -/
def KeepsBalance (s s' : Scene) : Prop :=
  ∀ others, Balanced s.world.arena (s.proc.held ++ others) →
    Balanced s'.world.arena (s'.proc.held ++ others)

/-- The same script runs on with the same variables and methods. -/
structure Keeps (s s' : Scene) : Prop where
  script : s'.proc.script = s.proc.script
  kinds : s'.proc.vars.kinds = s.proc.vars.kinds
  registry : s'.world.registry = s.world.registry
  balance : KeepsBalance s s'

/-- What an instruction may do to a scene. -/
structure Does (s s' : Scene) : Prop extends Keeps s s' where
  pc : s'.proc.pc = s.proc.pc
  faults : s'.proc.faults = s.proc.faults

/-- What reading may do to a scene. -/
structure Looks (s s' : Scene) : Prop where
  proc : s'.proc = s.proc
  arena : s'.world.arena = s.world.arena
  registry : s'.world.registry = s.world.registry

/-- An operation on a scene fails for an ordinary reason, or does what
instructions may do. -/
structure Carries (s : Scene) (x : Except Fault Scene) : Prop where
  ordinary : Ordinary x
  does : ∀ s', x = .ok s' → Does s s'

variable {s s' s'' : Scene}

/-- A script that runs on twice runs on. -/
theorem Keeps.trans (h : Keeps s s') (h' : Keeps s' s'') : Keeps s s'' where
  script := h'.script.trans h.script
  kinds := h'.kinds.trans h.kinds
  registry := h'.registry.trans h.registry
  balance others hb := h'.balance others (h.balance others hb)

theorem Does.refl (s : Scene) : Does s s where
  script := rfl
  kinds := rfl
  registry := rfl
  balance _ hb := hb
  pc := rfl
  faults := rfl

/-- Balance is kept from one operation to the next. -/
theorem Does.trans (h : Does s s') (h' : Does s' s'') : Does s s'' where
  toKeeps := h.toKeeps.trans h'.toKeeps
  pc := h'.pc.trans h.pc
  faults := h'.faults.trans h.faults

theorem Looks.refl (s : Scene) : Looks s s := ⟨rfl, rfl, rfl⟩

theorem Looks.trans (h : Looks s s') (h' : Looks s' s'') : Looks s s'' :=
  ⟨h'.proc.trans h.proc, h'.arena.trans h.arena, h'.registry.trans h.registry⟩

/-- To read is to do nothing that an instruction may not. -/
theorem Looks.does (h : Looks s s') : Does s s' where
  script := by rw [h.proc]
  kinds := by rw [h.proc]
  registry := h.registry
  balance others hb := by
    rw [h.proc, h.arena]
    exact hb
  pc := by rw [h.proc]
  faults := by rw [h.proc]

namespace Carries

variable {α : Type}

/-- An operation that succeeds carries a scene to one it may lead to. -/
theorem ok (h : Does s s') : Carries s (.ok s') where
  ordinary := .ok _
  does _ heq := by
    cases heq
    exact h

/-- An operation may fail for an ordinary reason. -/
theorem error {c : Cause} {detail : String} (h : c.IsOrdinary) :
    Carries s (.error (.of c detail)) where
  ordinary := ordinary_of h
  does _ heq := by cases heq

/-- A step that finds something out. -/
theorem bind {x : Except Fault α} {f : α → Except Fault Scene} (hx : Ordinary x)
    (hf : ∀ a, x = .ok a → Carries s (f a)) : Carries s (x >>= f) where
  ordinary := hx.bind fun a ha => (hf a ha).ordinary
  does s' h := by
    obtain ⟨a, ha, h⟩ := bind_eq_ok.1 h
    exact (hf a ha).does s' h

/-- Two steps that change the scene in turn. -/
theorem andThen {x : Except Fault Scene} {f : Scene → Except Fault Scene} (hx : Carries s x)
    (hf : ∀ s', Does s s' → Carries s' (f s')) : Carries s (x >>= f) where
  ordinary := hx.ordinary.bind fun s' h => (hf s' (hx.does s' h)).ordinary
  does s'' h := by
    obtain ⟨s', hs', h⟩ := bind_eq_ok.1 h
    exact (hx.does s' hs').trans ((hf s' (hx.does s' hs')).does s'' h)

/-- What was read before an operation makes no difference to it. -/
theorem of_looks {x : Except Fault Scene} (h : Looks s s') (hx : Carries s' x) :
    Carries s x where
  ordinary := hx.ordinary
  does s'' heq := h.does.trans (hx.does s'' heq)

end Carries

-- =============================================================== reading

/-- A well-formed operand is read, or refused for an ordinary reason. -/
theorem read_spec {o : Operand} (ho : o.WellFormed s.proc.vars.kinds.length) :
    Ordinary (s.read o)
      ∧ ∀ v s', s.read o = .ok (v, s') → Looks s s' ∧ v.Lives s'.world.arena.isAlive := by
  obtain ⟨hordinary, hlives⟩ := Operand.value_spec s.world.arena.isAlive ho s.world.draws
  refine ⟨hordinary.bind fun _ _ => .ok _, fun v s' h => ?_⟩
  obtain ⟨⟨w, draws⟩, hw, h⟩ := bind_eq_ok.1 h
  cases h
  exact ⟨⟨rfl, rfl, rfl⟩, hlives _ _ hw⟩

/-- Reading leaves the variables, so other operands stay well formed. -/
theorem Looks.wellFormed {o : Operand} (h : Looks s s')
    (ho : o.WellFormed s.proc.vars.kinds.length) : o.WellFormed s'.proc.vars.kinds.length := by
  rw [h.proc]
  exact ho

/-- Several operands are read one after the other. -/
theorem readAll_spec : ∀ {os : List Operand} {s : Scene},
    (∀ o ∈ os, o.WellFormed s.proc.vars.kinds.length) →
    Ordinary (s.readAll os)
      ∧ ∀ vs s', s.readAll os = .ok (vs, s') →
          Looks s s' ∧ ∀ v ∈ vs, v.Lives s'.world.arena.isAlive
  | [], s, _ => by
      refine ⟨.ok _, fun vs s' h => ?_⟩
      cases h
      exact ⟨.refl s, by simp⟩
  | o :: os, s, hos => by
      obtain ⟨hordinary, hread⟩ := read_spec (hos o List.mem_cons_self)
      have hrest : ∀ {v s'}, s.read o = .ok (v, s') →
          ∀ o' ∈ os, o'.WellFormed s'.proc.vars.kinds.length := fun h o' ho' =>
        (hread _ _ h).1.wellFormed (hos o' (List.mem_cons_of_mem o ho'))
      refine ⟨hordinary.bind fun r hr => (readAll_spec (hrest hr)).1.bind fun _ _ => .ok _,
        fun vs s'' h => ?_⟩
      obtain ⟨⟨v, s'⟩, hv, h⟩ := bind_eq_ok.1 h
      obtain ⟨⟨more, s₂⟩, hmore, h⟩ := bind_eq_ok.1 h
      cases h
      obtain ⟨hlooks, hlives⟩ := hread v s' hv
      obtain ⟨hlooks', hlives'⟩ := (readAll_spec (hrest hv)).2 more s'' hmore
      refine ⟨hlooks.trans hlooks', fun w hw => ?_⟩
      rcases List.mem_cons.1 hw with rfl | hw
      · rw [hlooks'.arena]
        exact hlives
      · exact hlives' w hw

/-- Reading an operand and going on with its value. -/
theorem Carries.read {o : Operand} {f : Value × Scene → Except Fault Scene}
    (ho : o.WellFormed s.proc.vars.kinds.length)
    (hf : ∀ v s', Looks s s' → v.Lives s'.world.arena.isAlive → Carries s' (f (v, s'))) :
    Carries s (s.read o >>= f) := by
  obtain ⟨hordinary, hread⟩ := read_spec ho
  refine .bind hordinary fun ⟨v, s'⟩ h => ?_
  obtain ⟨hlooks, hlives⟩ := hread v s' h
  exact .of_looks hlooks (hf v s' hlooks hlives)

/-- Reading several operands and going on with their values. -/
theorem Carries.readAll {os : List Operand} {f : List Value × Scene → Except Fault Scene}
    (hos : ∀ o ∈ os, o.WellFormed s.proc.vars.kinds.length)
    (hf : ∀ vs s', Looks s s' → (∀ v ∈ vs, v.Lives s'.world.arena.isAlive) →
      Carries s' (f (vs, s'))) :
    Carries s (s.readAll os >>= f) := by
  obtain ⟨hordinary, hread⟩ := readAll_spec hos
  refine .bind hordinary fun ⟨vs, s'⟩ h => ?_
  obtain ⟨hlooks, hlives⟩ := hread vs s' h
  exact .of_looks hlooks (hf vs s' hlooks hlives)

/-- Reading an address and going on with it. -/
theorem Carries.readAddress {o : Operand} {f : Int64 × Scene → Except Fault Scene}
    (ho : o.WellFormed s.proc.vars.kinds.length)
    (hf : ∀ n s', Looks s s' → Carries s' (f (n, s'))) :
    Carries s (s.readAddress o >>= f) := by
  obtain ⟨hordinary, hread⟩ := read_spec ho
  refine .bind (hordinary.bind fun r _ => ?_) fun r h => ?_
  · obtain ⟨v, s₁⟩ := r
    cases v with
    | int n => exact .ok _
    | float x =>
        simp only
        split
        · exact .ok _
        · exact ordinary_of (by decide)
    | _ => exact ordinary_of (by decide)
  · obtain ⟨n, s'⟩ := r
    obtain ⟨⟨v, s₁⟩, hv, h⟩ := bind_eq_ok.1 h
    have hlooks : Looks s s₁ := (hread v s₁ hv).1
    have hsame : s' = s₁ := by
      cases v with
      | int n =>
          cases h
          rfl
      | float x =>
          simp only at h
          split at h
          next =>
            cases h
            rfl
          next => cases h
      | _ => cases h
    subst hsame
    exact .of_looks hlooks (hf n s' hlooks)

end Scene

-- =============================================================== storing

namespace Storage

variable {s s' : Storage} {id : VarId} {v : Value} {old : Option Value}

/-- Putting a variable of the same kind in place of another leaves the kinds. -/
theorem kinds_put {var var' : Variable} (hget : s.get? id = some var)
    (hkind : var'.kind = var.kind) : (s.put id var').kinds = s.kinds := by
  obtain ⟨hlt, heq⟩ := List.getElem?_eq_some_iff.1 hget
  have hlt' : id < (s.vars.map Variable.kind).length := by simpa using hlt
  show (s.vars.set id var').map Variable.kind = s.vars.map Variable.kind
  rw [List.map_set, hkind, ← heq, ← List.getElem_map Variable.kind (h := hlt'),
    List.set_getElem_self]

/-- The value of a variable changes places with what it held. -/
theorem values_put {var var' : Variable} (hget : s.get? id = some var) :
    Perm (var.value.toList ++ (s.put id var').values) (var'.value.toList ++ s.values) := by
  have hperm := (cons_set_perm (y := var') hget).filterMap Variable.value
  cases hold : var.value <;> cases hnew : var'.value <;>
    simpa [values, put, hold, hnew] using hperm

/-- A stored value changes places with the one before, among the values of all
variables. -/
theorem set_eq_ok (h : s.set id v = .ok (old, s')) :
    s'.kinds = s.kinds ∧ Perm (old.toList ++ s'.values) (v :: s.values) := by
  obtain ⟨var, hget, h⟩ := bind_eq_ok.1 h
  obtain ⟨var', hset, h⟩ := bind_eq_ok.1 h
  cases h
  unfold Variable.set at hset
  split at hset
  next =>
    cases hset
    have hget := get_eq_ok_iff.1 hget
    exact ⟨kinds_put hget rfl, values_put hget⟩
  next => cases hset

/-- A value of the kind of a variable can be stored in it. -/
theorem set_ordinary (hkind : s.kinds[id]? = some (Kind.of v)) : Ordinary (s.set id v) := by
  obtain ⟨var, -, hget, hkind'⟩ := get_of_lt (List.getElem?_eq_some_iff.1 hkind).1
  rw [hkind] at hkind'
  simp only [set, hget, ok_bind, Variable.set, Option.some.inj hkind', if_true]
  exact .ok _

end Storage

namespace Scene

variable {s : Scene} {id : VarId} {v : Value}

/-- An entity of a type that is not wanted is an ordinary fault. -/
theorem checkType_ordinary (var : Variable) : Ordinary (s.checkType var v) := by
  unfold checkType
  split
  · split
    · exact .ok _
    · exact ordinary_of (by decide)
  · exact .ok _

/-- Storing a value of the variable's kind. -/
theorem store_carries (hkind : s.proc.vars.kinds[id]? = some (Kind.of v))
    (hv : v.Lives s.world.arena.isAlive) : Carries s (s.store id v) := by
  obtain ⟨var, -, hget, -⟩ := Storage.get_of_lt (List.getElem?_eq_some_iff.1 hkind).1
  unfold store
  simp only [hget, ok_bind]
  refine .bind (checkType_ordinary var) fun _ _ => ?_
  refine .bind (Storage.set_ordinary hkind) fun ⟨old, vars⟩ hset => .ok ?_
  obtain ⟨hkinds, hperm⟩ := Storage.set_eq_ok hset
  refine ⟨⟨rfl, hkinds, rfl, fun others hb => hb.exchange hv ?_⟩, rfl, rfl⟩
  have hhandles := handlesOf_perm hperm
  rw [handlesOf_append, handlesOf_cons] at hhandles
  show Perm (v.handle?.toList ++ (handlesOf s.proc.vars.values ++ _ ++ others))
    (handlesOf old.toList ++ (handlesOf vars.values ++ _ ++ others))
  simp only [← List.append_assoc]
  exact ((hhandles.symm).append_right _).append_right _

/-- Storing a value in a variable of any kind. -/
theorem assign_carries (hid : id < s.proc.vars.kinds.length)
    (hv : v.Lives s.world.arena.isAlive) : Carries s (s.assign id v) := by
  obtain ⟨var, -, hget, hkind⟩ := Storage.get_of_lt hid
  unfold assign
  simp only [hget, ok_bind]
  obtain ⟨hordinary, hconvert⟩ := Kind.convert_spec var.kind hv
  refine .bind hordinary fun w hw => ?_
  obtain ⟨hof, hlives⟩ := hconvert w hw
  exact store_carries (hof ▸ hkind) hlives

-- ================================================================== time

theorem wait_carries (v : Value) : Carries s (s.wait v) := by
  have hticks : Ordinary (waitTicks v) := by
    unfold waitTicks
    split
    · exact .ok _
    · split
      · exact .ok _
      · exact ordinary_of (by decide)
    · exact ordinary_of (by decide)
  refine .bind hticks fun n _ => ?_
  simp only
  split
  · exact .ok ⟨⟨rfl, rfl, rfl, fun _ hb => hb⟩, rfl, rfl⟩
  · exact .error (by decide)

/-- A reading of the clock is assigned; a wait counts ticks. -/
theorem time_carries {size : Nat} {op : TimeOp}
    (hop : (Instruction.time op).WellFormed s.proc.vars.kinds size) : Carries s (s.time op) := by
  cases op with
  | framesSinceLaunch dest | secondsSinceLaunch dest | deltaTime dest =>
      exact assign_carries (hop.targets dest List.mem_cons_self) (Value.lives_of_plain rfl)
  | wait ticks =>
      exact .read (hop.operands ticks List.mem_cons_self) fun v s' _ _ => wait_carries v

-- =============================================================== console

/-- A character goes into an integer as its code. -/
theorem popChar_carries (hkind : s.proc.vars.kinds[id]? = some .int) :
    Carries s (s.popChar id) := by
  unfold popChar
  split
  · exact .error (by decide)
  · exact (store_carries hkind (Value.lives_of_plain rfl)).andThen fun s' _ =>
      .ok ⟨⟨rfl, rfl, rfl, fun _ hb => hb⟩, rfl, rfl⟩

/-- Digits give a number or no value at all. -/
theorem numberValue_spec (digits : String) :
    Ordinary (numberValue digits) ∧ ∀ v, numberValue digits = .ok v → v.handle? = none := by
  unfold numberValue
  split
  next =>
    refine ⟨.ok _, fun v h => ?_⟩
    cases h
    rfl
  next =>
    split
    next =>
      refine ⟨.ok _, fun v h => ?_⟩
      cases h
      rfl
    next => exact ⟨ordinary_of (by decide), fun _ h => by cases h⟩

/-- A number is converted to the kind of the variable. -/
theorem popNumber_carries (hid : id < s.proc.vars.kinds.length) :
    Carries s (s.popNumber id) := by
  obtain ⟨var, -, hget, -⟩ := Storage.get_of_lt hid
  unfold popNumber
  split
  · exact .error (by decide)
  · simp only [hget, ok_bind]
    split
    next digits rest _ =>
      obtain ⟨hordinary, hplain⟩ := numberValue_spec (String.ofList digits)
      refine .bind hordinary fun v hv => ?_
      exact (assign_carries hid (Value.lives_of_plain (hplain v hv))).andThen fun s' _ =>
        .ok ⟨⟨rfl, rfl, rfl, fun _ hb => hb⟩, rfl, rfl⟩
    next => exact .error (by decide)

theorem canPop_ordinary {probe : Intake} (hprobe : probe.id < s.proc.vars.kinds.length) :
    Ordinary (s.canPop probe) := by
  cases probe with
  | char id => exact .ok _
  | number id =>
      obtain ⟨var, -, hget, -⟩ := Storage.get_of_lt hprobe
      simp only [canPop, Intake.id] at hget ⊢
      rw [hget]
      exact .ok _

/-- The buffers hold no handles, so only what is stored counts. -/
theorem console_carries {size : Nat} {op : ConsoleOp}
    (hop : (Instruction.console op).WellFormed s.proc.vars.kinds size) :
    Carries s (s.console op) := by
  have hsame : ∀ {p : Processor} {w : World}, p.script = s.proc.script → p.vars = s.proc.vars →
      p.memory = s.proc.memory → p.pc = s.proc.pc → p.faults = s.proc.faults →
      w.arena = s.world.arena → w.registry = s.world.registry → Carries s (.ok ⟨p, w⟩) := by
    intro p w hscript hvars hmemory hpc hfaults harena hregistry
    refine .ok ⟨⟨hscript, by rw [hvars], hregistry, fun others hb => ?_⟩, hpc, hfaults⟩
    rw [harena, Processor.held, hvars, hmemory]
    exact hb
  cases op with
  | read => exact hsame rfl rfl rfl rfl rfl rfl rfl
  | write => exact hsame rfl rfl rfl rfl rfl rfl rfl
  | pop target =>
      cases target with
      | char dest => exact popChar_carries (hop.typed (dest, .int) List.mem_cons_self)
      | number dest => exact popNumber_carries (hop.targets dest List.mem_cons_self)
  | canPop probe dest =>
      refine .bind (canPop_ordinary (hop.targets _ List.mem_cons_self)) fun ready _ => ?_
      exact store_carries (hop.typed (dest, .bool) List.mem_cons_self) (Value.lives_of_plain rfl)
  | push args =>
      refine .readAll hop.operands fun vs s' _ _ => ?_
      exact .ok ⟨⟨rfl, rfl, rfl, fun _ hb => hb⟩, rfl, rfl⟩
  | clear stream => cases stream <;> exact hsame rfl rfl rfl rfl rfl rfl rfl
  | filter => exact .error (by decide)

-- ================================================================ memory

theorem device_ordinary (target : Option Handle) : Ordinary (s.device target) := by
  cases target with
  | none => exact .ok _
  | some h => exact Standard.device_ordinary

/-- A cell takes a value and gives up what it held. -/
theorem fill_does {target : Option Handle} {m m' : Memory} {addr : Int64} {old : Option Value}
    (hdevice : s.device target = .ok m) (hset : m.set addr v = .ok (old, m'))
    (hv : v.Lives s.world.arena.isAlive) :
    Does s ((s.setDevice target m').withArena
      ((s.setDevice target m').world.arena.exchange v old)) := by
  have hperm := Memory.values_of_set hset
  cases target with
  | none =>
      cases hdevice
      refine ⟨⟨rfl, rfl, rfl, fun others hb => hb.exchange hv ?_⟩, rfl, rfl⟩
      have hhandles := (handlesOf_perm hperm).symm
      rw [handlesOf_append, handlesOf_cons] at hhandles
      exact perm_within hhandles _ others
  | some h =>
      have hm := Standard.device_eq_ok hdevice
      exact ⟨⟨rfl, rfl, rfl, fun others hb => hb.fillMemory hm hv hperm⟩, rfl, rfl⟩

/-- A cell gives up what it held. -/
theorem vacate_does {target : Option Handle} {m m' : Memory} {addr : Int64} {old : Option Value}
    (hdevice : s.device target = .ok m) (hclear : m.clear addr = .ok (old, m')) :
    Does s ((s.setDevice target m').withArena
      ((s.setDevice target m').world.arena.releaseAll old.toList)) := by
  have hperm := Memory.values_of_clear hclear
  cases target with
  | none =>
      cases hdevice
      refine ⟨⟨rfl, rfl, rfl, fun others hb => (hb.perm ?_).releaseAll⟩, rfl, rfl⟩
      have hhandles := (handlesOf_perm hperm).symm
      rw [handlesOf_append, ← List.nil_append (handlesOf s.proc.memory.values)] at hhandles
      exact perm_within hhandles _ others
  | some h =>
      have hm := Standard.device_eq_ok hdevice
      exact ⟨⟨rfl, rfl, rfl, fun others hb => hb.emptyMemory hm hperm⟩, rfl, rfl⟩

/-- Reading a cell is reading and storing, and writing one moves usages. -/
theorem memory_carries {size : Nat} {device : Option VarId} {target : Option Handle}
    {op : MemoryOp}
    (hop : (Instruction.memory device op).WellFormed s.proc.vars.kinds size) :
    Carries s (s.memory target op) := by
  have htarget : ∀ {id s'}, id ∈ op.targets → Looks s s' →
      id < s'.proc.vars.kinds.length := fun hid h => by
    rw [h.proc]
    exact hop.targets _ (List.mem_append_right _ hid)
  cases op with
  | get addr dest =>
      refine .readAddress (hop.operands addr List.mem_cons_self) fun n s' hs' => ?_
      refine .bind (device_ordinary target) fun m _ => ?_
      obtain ⟨hordinary, hlives⟩ := Memory.present_spec (m := m) n
      refine .bind hordinary fun c hc => ?_
      cases c with
      | some v => exact assign_carries (htarget List.mem_cons_self hs') (hlives v hc)
      | none => exact .error (by decide)
  | getType addr dest =>
      refine .readAddress (hop.operands addr List.mem_cons_self) fun n s' hs' => ?_
      refine .bind (device_ordinary target) fun m _ => ?_
      refine .bind (Memory.kind_ordinary n) fun kind _ => ?_
      refine store_carries ?_ (Value.lives_of_plain rfl)
      rw [hs'.proc]
      exact hop.typed (dest, .int) List.mem_cons_self
  | isNull addr dest =>
      refine .readAddress (hop.operands addr List.mem_cons_self) fun n s' hs' => ?_
      refine .bind (device_ordinary target) fun m _ => ?_
      refine .bind (Memory.isNull_ordinary n) fun null _ => ?_
      refine store_carries ?_ (Value.lives_of_plain rfl)
      rw [hs'.proc]
      exact hop.typed (dest, .bool) List.mem_cons_self
  | set addr value =>
      refine .readAddress (hop.operands addr List.mem_cons_self) fun n s₁ h₁ => ?_
      have hvalue := hop.operands value (List.mem_cons_of_mem _ List.mem_cons_self)
      refine .read (h₁.wellFormed hvalue) fun v s₂ h₂ hv => ?_
      refine .bind (device_ordinary target) fun m hm => ?_
      refine .bind (Memory.set_ordinary n v) fun ⟨old, m'⟩ hset => ?_
      exact .ok (fill_does hm hset hv)
  | clear addr =>
      refine .readAddress (hop.operands addr List.mem_cons_self) fun n s' hs' => ?_
      refine .bind (device_ordinary target) fun m hm => ?_
      refine .bind (Memory.clear_ordinary n) fun ⟨old, m'⟩ hclear => ?_
      exact .ok (vacate_does hm hclear)

-- =============================================================== methods

/-- What cannot be reached is refused for an ordinary reason. -/
theorem reach_ordinary (hid : id < s.proc.vars.kinds.length) : Ordinary (s.reach id) := by
  obtain ⟨var, -, hget, -⟩ := Storage.get_of_lt hid
  unfold reach
  simp only [hget, ok_bind]
  split
  · split
    · split
      · split
        · exact .ok _
        · exact ordinary_of (by decide)
      · exact ordinary_of (by decide)
    · exact ordinary_of (by decide)
  · exact ordinary_of (by decide)

/-- A result that lives is assigned, if one is asked for. -/
theorem storeResult_carries {method : String} {ret : Option VarId} {result : Option Value}
    (hret : ∀ id ∈ ret.toList, id < s.proc.vars.kinds.length)
    (hresult : ∀ v, result = some v → v.Lives s.world.arena.isAlive) :
    Carries s (s.storeResult method ret result) := by
  cases ret with
  | none => exact .ok (.refl s)
  | some dest =>
      cases result with
      | some v => exact assign_carries (hret dest List.mem_cons_self) (hresult v rfl)
      | none => exact .error (by decide)

/-- The method answers and keeps the balance, and its result is stored. -/
theorem call_carries {size : Nat} {target : VarId} {method : String} {args : List Operand}
    {ret : Option VarId}
    (hop : (Instruction.call target method args ret).WellFormed s.proc.vars.kinds size)
    (hregistry : s.world.registry = .standard) :
    Carries s (s.call target method args ret) := by
  refine .bind (reach_ordinary (hop.targets target List.mem_cons_self)) fun h _ => ?_
  split
  next => exact .error (by decide)
  next entity _ =>
    refine .readAll hop.operands fun vs s' hs' hlives => ?_
    simp only
    split
    next => exact .error (by decide)
    next m hm =>
      rw [hs'.registry, hregistry] at hm
      have hanswers := Method.invoke_answers h hm hlives
      refine .bind hanswers.ordinary fun ⟨result, arena⟩ hresult => ?_
      have hdoes : Does s' (s'.withArena arena) :=
        ⟨⟨rfl, rfl, rfl, fun others hb => hanswers.balance result arena hresult _ hb⟩, rfl, rfl⟩
      have hstore : Carries (s'.withArena arena)
          ((s'.withArena arena).storeResult method ret result) := by
        refine storeResult_carries (fun id hid => ?_) fun v hv => ?_
        · show id < s'.proc.vars.kinds.length
          rw [hs'.proc]
          exact hop.targets id (List.mem_cons_of_mem _ hid)
        · subst hv
          exact hanswers.lives v arena hresult
      exact ⟨hstore.ordinary, fun s'' h'' => hdoes.trans (hstore.does s'' h'')⟩

end Scene

-- ========================================================== instructions

namespace Scene

/-- An instruction with these lines fails for an ordinary reason, or does
what it may and goes to one of the lines if it goes anywhere. -/
structure Executes (s : Scene) (lines : List Nat) (x : Except Fault (Signal × Scene)) :
    Prop where
  ordinary : Ordinary x
  does : ∀ signal s', x = .ok (signal, s') → Does s s'
  within : ∀ line s', x = .ok (.goto line, s') → line ∈ lines

variable {s : Scene} {lines : List Nat}

/-- An operation after which the script goes on with the next line. -/
theorem Carries.next {x : Except Fault Scene} (hx : Carries s x) :
    Executes s lines (x.map fun s => (Signal.next, s)) where
  ordinary := hx.ordinary.map _
  does signal s' h := by
    obtain ⟨s₁, hs₁, h⟩ := map_eq_ok.1 h
    cases h
    exact hx.does s' hs₁
  within line s' h := by
    obtain ⟨s₁, hs₁, h⟩ := map_eq_ok.1 h
    cases h

/-- Reading a value and assigning it. -/
theorem transfer_carries {dest : VarId} {source : Operand}
    (hsource : source.WellFormed s.proc.vars.kinds.length)
    (hdest : dest < s.proc.vars.kinds.length) :
    Carries s (s.read source >>= fun r => r.2.assign dest r.1) := by
  refine .read hsource fun v s' hs' hv => ?_
  have hdest' : dest < s'.proc.vars.kinds.length := by
    rw [hs'.proc]
    exact hdest
  exact assign_carries hdest' hv

/-- A variable that was declared before is not declared again. -/
theorem declare_executes {dest : VarId} {source : Operand}
    (hsource : source.WellFormed s.proc.vars.kinds.length)
    (hdest : dest < s.proc.vars.kinds.length) :
    Executes s lines ((Instruction.declare dest source).execute s) := by
  by_cases hdone : s.proc.config.legacyVar ∧ dest ∈ s.proc.declared
  · have heq : (Instruction.declare dest source).execute s
        = (Except.ok s).map fun s => (Signal.next, s) := if_pos hdone
    rw [heq]
    exact Carries.next (.ok (.refl s))
  · have heq : (Instruction.declare dest source).execute s
        = ((s.read source >>= fun r => r.2.assign dest r.1) >>= fun s => .ok
            { s with proc := { s.proc with declared := dest :: s.proc.declared } }).map
          fun s => (Signal.next, s) := by
      simp only [Instruction.execute, if_neg hdone, map_bind, bind_assoc]
      rfl
    rw [heq]
    refine ((transfer_carries hsource hdest).andThen fun s' _ => ?_).next
    exact .ok ⟨⟨rfl, rfl, rfl, fun _ hb => hb⟩, rfl, rfl⟩

/-- An assignment reads a value and stores it. -/
theorem assign_executes {dest : VarId} {source : Operand}
    (hsource : source.WellFormed s.proc.vars.kinds.length)
    (hdest : dest < s.proc.vars.kinds.length) :
    Executes s lines ((Instruction.assign dest source).execute s) := by
  have heq : (Instruction.assign dest source).execute s
      = (s.read source >>= fun r => r.2.assign dest r.1).map fun s => (Signal.next, s) := by
    simp only [Instruction.execute, map_bind, bind_ok]
  rw [heq]
  exact (transfer_carries hsource hdest).next

/-- A jump goes to its line if its condition holds. -/
theorem jump_executes {target : Nat} {condition : Operand}
    (hcondition : condition.WellFormed s.proc.vars.kinds.length) :
    Executes s [target] ((Instruction.jump target condition).execute s) := by
  obtain ⟨hordinary, hread⟩ := read_spec hcondition
  have hresult : ∀ {signal s''}, (Instruction.jump target condition).execute s
      = .ok (signal, s'') → Does s s'' ∧ (signal = .goto target ∨ signal = .next) := by
    intro signal s'' h
    obtain ⟨⟨v, s'⟩, hv, h⟩ := bind_eq_ok.1 h
    have hdoes := (hread v s' hv).1.does
    cases v with
    | bool b =>
        cases b with
        | true =>
            cases h
            exact ⟨hdoes, .inl rfl⟩
        | false =>
            cases h
            exact ⟨hdoes, .inr rfl⟩
    | _ => cases h
  refine ⟨hordinary.bind fun r _ => ?_, fun signal s' h => (hresult h).1, fun line s' h => ?_⟩
  · obtain ⟨v, s'⟩ := r
    cases v with
    | bool b => cases b <;> exact .ok _
    | _ => exact ordinary_of (by decide)
  · rcases (hresult h).2 with h | h
    · cases h
      exact List.mem_cons_self
    · cases h

/-- The device of a memory instruction is reached before the operands are
read. -/
theorem memory_executes {device : Option VarId} {op : MemoryOp} {size : Nat}
    (hi : (Instruction.memory device op).WellFormed s.proc.vars.kinds size) :
    Executes s lines ((Instruction.memory device op).execute s) := by
  cases device with
  | none => exact (memory_carries hi).next
  | some id =>
      have heq : (Instruction.memory (some id) op).execute s
          = (s.reach id >>= fun h => s.memory (some h) op).map fun s => (Signal.next, s) := by
        simp only [Instruction.execute, map_bind]
      have hid : id < s.proc.vars.kinds.length := hi.targets id List.mem_cons_self
      rw [heq]
      exact (Carries.bind (reach_ordinary hid) fun h _ => memory_carries hi).next

end Scene

/-- What carrying out any instruction of a script comes to. -/
theorem Instruction.execute_spec {i : Instruction} {s : Scene} {size : Nat}
    (hi : i.WellFormed s.proc.vars.kinds size) (hregistry : s.world.registry = .standard) :
    Scene.Executes s i.lines (i.execute s) := by
  have hstay : ∀ {s'}, Scene.Does s s' → Scene.Executes s i.lines (.ok (.next, s')) := fun h =>
    (Scene.Carries.ok h).next
  cases i with
  | declare dest source =>
      exact Scene.declare_executes (hi.operands source List.mem_cons_self)
        (hi.targets dest List.mem_cons_self)
  | assign dest source =>
      exact Scene.assign_executes (hi.operands source List.mem_cons_self)
        (hi.targets dest List.mem_cons_self)
  | jump target condition =>
      exact Scene.jump_executes (hi.operands condition List.mem_cons_self)
  | label | create => exact hstay (.refl s)
  | stop => exact hstay ⟨⟨rfl, rfl, rfl, fun _ hb => hb⟩, rfl, rfl⟩
  | time op => exact (Scene.time_carries hi).next
  | console op => exact (Scene.console_carries hi).next
  | memory device op => exact Scene.memory_executes hi
  | call target method args ret => exact (Scene.call_carries hi hregistry).next

end TickScript
