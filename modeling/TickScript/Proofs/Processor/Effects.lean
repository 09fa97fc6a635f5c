/-
What an instruction does to variables, memories and entities.

Whatever else an instruction does, it changes these in one of four ways:
it stores a value in a variable, fills a cell of a memory, empties one, or
calls a method and may store what that gives back (`Scene.Effect`). Before
and after that it is quiet (`Scene.Quiet`): it reads, or changes things
that hold no values. All handles that it stores come from somewhere: a
variable, a memory, the list of a part's components, the number of a slot
or a method (`Scene.Knows`).

This is proved once, in `Instruction.execute_effect`, with nothing assumed
of the instruction or of the methods. What instructions leave alone and
which invariants they keep is read off the four ways.
-/
import TickScript.Processor.Load
import TickScript.Proofs.Arena.Sound
import TickScript.Proofs.Processor.Execute

namespace TickScript

-- =========================================================== destinations

def TimeOp.destinations : TimeOp → List VarId
  | framesSinceLaunch dest | secondsSinceLaunch dest | deltaTime dest => [dest]
  | wait _ => []

def ConsoleOp.destinations : ConsoleOp → List VarId
  | pop target => [target.id]
  | canPop _ dest => [dest]
  | _ => []

def MemoryOp.destinations : MemoryOp → List VarId
  | get _ dest | getType _ dest | isNull _ dest => [dest]
  | set _ _ | clear _ => []

namespace Instruction

/-- The variables that an instruction other than a declaration puts its
result into. -/
def destinations : Instruction → List VarId
  | assign dest _ => [dest]
  | time op => op.destinations
  | console op => op.destinations
  | memory _ op => op.destinations
  | call _ _ _ ret => ret.toList
  | declare _ _ | jump _ _ | label | stop | create => []

/-- The variables that an instruction may write to. -/
def written : Instruction → List VarId
  | declare dest _ => [dest]
  | i => i.destinations

end Instruction

-- ================================================================ handles

/-- What a variable holds is among the values. -/
theorem Storage.mem_values {s : Storage} {id : VarId} {var : Variable} {v : Value}
    (hget : s.get? id = some var) (hv : var.value = some v) : v ∈ s.values :=
  List.mem_filterMap.2 ⟨var, List.mem_of_getElem? hget, hv⟩

/-- The handles of values are those among them. -/
theorem mem_handlesOf {vs : List Value} {h : Handle} : h ∈ handlesOf vs ↔ .entity h ∈ vs := by
  unfold handlesOf
  rw [List.mem_filterMap]
  constructor
  · rintro ⟨v, hv, hh⟩
    cases v <;> cases hh
    exact hv
  · exact fun hv => ⟨_, hv, rfl⟩

/-- A handle that an operand gives is in a variable. -/
theorem Operand.value_handle {o : Operand} {vars : Storage} {alive : Handle → Bool}
    {draws draws' : Draws} {h : Handle} (ho : o.WellFormed vars.kinds.length)
    (hvalue : o.value vars alive draws = .ok (.entity h, draws')) :
    h ∈ handlesOf vars.values := by
  cases o with
  | literal v =>
      cases hvalue
      cases ho.plain _ rfl
  | text s => cases hvalue
  | formula f =>
      have hknown : ∀ p ∈ f.params, p.2 < vars.kinds.length := fun p hp =>
        ho.known p.2 (List.mem_map.2 ⟨p, hp, rfl⟩)
      cases (Formula.evaluate_spec (ho.generated f rfl) hknown draws).2 _ _ hvalue
  | var id =>
      obtain ⟨var, hget, hvalue⟩ := bind_eq_ok.1 hvalue
      split at hvalue
      next w hw =>
        cases hvalue
        unfold Variable.present? at hw
        split at hw
        next => cases hw
        next => exact mem_handlesOf.2 (Storage.mem_values (Storage.get_eq_ok_iff.1 hget) hw)
      next => cases hvalue
  | char id =>
      obtain ⟨var, -, hvalue⟩ := bind_eq_ok.1 hvalue
      split at hvalue
      next =>
        split at hvalue
        next => cases hvalue
        next => cases hvalue
      next => cases hvalue

/-- A handle that is found in a cell is in the memory. -/
theorem Memory.present_handle {m : Memory} {alive : Handle → Bool} {addr : Int64} {h : Handle}
    (hpresent : m.present alive addr = .ok (some (.entity h))) : h ∈ handlesOf m.values := by
  obtain ⟨cell, hget, hpresent⟩ := bind_eq_ok.1 hpresent
  obtain ⟨i, -, hget⟩ := bind_eq_ok.1 hget
  have hcell : cell = some (.entity h) := by
    split at hpresent
    next g =>
      split at hpresent
      next =>
        cases hpresent
        rfl
      next => cases hpresent
    next =>
      cases hpresent
      rfl
  rw [hcell] at hget
  have hheld : m.cells[i]? = some (some (.entity h)) :=
    Option.join_eq_some_iff.1 (Except.ok.inj hget)
  exact mem_handlesOf.2 (List.mem_filterMap.2 ⟨_, List.mem_of_getElem? hheld, rfl⟩)

/-- A memory that a value is put into holds no other handle that is new. -/
theorem Memory.handle_of_set {m m' : Memory} {addr : Int64} {v : Value} {old : Option Value}
    {h : Handle} (hset : m.set addr v = .ok (old, m')) (hh : h ∈ handlesOf m'.values) :
    v = .entity h ∨ h ∈ handlesOf m.values := by
  have hmem : .entity h ∈ old.toList ++ m'.values :=
    List.mem_append_right _ (mem_handlesOf.1 hh)
  rcases List.mem_cons.1 ((values_of_set hset).subset hmem) with heq | hmem
  · exact .inl heq.symm
  · exact .inr (mem_handlesOf.2 hmem)

/-- Emptying a cell adds no handle. -/
theorem Memory.handle_of_clear {m m' : Memory} {addr : Int64} {old : Option Value} {h : Handle}
    (hclear : m.clear addr = .ok (old, m')) (hh : h ∈ handlesOf m'.values) :
    h ∈ handlesOf m.values := by
  have hmem : .entity h ∈ old.toList ++ m'.values :=
    List.mem_append_right _ (mem_handlesOf.1 hh)
  exact mem_handlesOf.2 ((values_of_clear hclear).subset hmem)

/-- A handle that a value is converted to is the value itself, or found by
number. -/
theorem Kind.convert_handle {resolve : Nat → Option Handle} {kind : Kind} {w : Value}
    {h : Handle} (hconvert : kind.convert resolve w = .ok (.entity h)) :
    w = .entity h ∨ ∃ i, resolve i = some h := by
  have hhandle : ∀ {kind : Kind}, (toHandle? resolve kind w).map Value.entity = some (.entity h) →
      w = .entity h ∨ ∃ i, resolve i = some h := by
    intro kind hmap
    obtain ⟨g, hg, heq⟩ := Option.map_eq_some_iff.1 hmap
    cases heq
    unfold toHandle? at hg
    split at hg
    next g' =>
      split at hg
      next =>
        cases hg
        exact .inl rfl
      next => cases hg
    next n =>
      split at hg
      next => cases hg
      next => exact .inr ⟨_, (Option.filter_eq_some_iff.1 hg).1⟩
    next => cases hg
  unfold convert at hconvert
  split at hconvert
  next v hv =>
    cases hconvert
    cases kind with
    | part | component => exact hhandle hv
    | none | text => cases hv
    | int | float | bool | label =>
        obtain ⟨x, -, heq⟩ := Option.map_eq_some_iff.1 hv
        cases heq
  next => cases hconvert

-- ================================================================ scenes

namespace Scene

/-- A change that variables, memories and entities are left out of, and
so are the script, its place in it, its end, the faults and the parts that
it knows. -/
structure Quiet (s s' : Scene) : Prop where
  script : s'.proc.script = s.proc.script
  config : s'.proc.config = s.proc.config
  pc : s'.proc.pc = s.proc.pc
  completed : s'.proc.completed = s.proc.completed
  halted : s'.proc.halted = s.proc.halted
  faultCount : s'.proc.faultCount = s.proc.faultCount
  faults : s'.proc.faults = s.proc.faults
  vars : s'.proc.vars = s.proc.vars
  memory : s'.proc.memory = s.proc.memory
  parts : s'.proc.parts = s.proc.parts
  arena : s'.world.arena = s.world.arena
  registry : s'.world.registry = s.world.registry

/-- A handle that is in a variable or a memory, kept by an entity, or that
of an entity found by number. -/
def Knows (s : Scene) (h : Handle) : Prop :=
  h ∈ s.proc.held ∨ s.world.arena.Keeps h ∨ ∃ i, s.world.arena.resolve i = some h

/-- A value that is no handle, or one that the scene knows. -/
def Offers (s : Scene) (v : Value) : Prop := ∀ h, v = .entity h → s.Knows h

/-- The operands of an instruction are well formed among the variables. -/
def Reads (s : Scene) (i : Instruction) : Prop :=
  ∀ o ∈ i.operands, o.WellFormed s.proc.vars.kinds.length

/-- What an instruction does to variables, memories and entities. -/
inductive Effect (i : Instruction) (s : Scene) : Scene → Prop where
  | quiet {s' : Scene} (same : Quiet s s') : Effect i s s'
  | store {s₁ s₂ s' : Scene} {id : VarId} {v : Value} (before : Quiet s s₁)
      (dest : id ∈ i.written) (known : s.Reads i → s₁.Offers v)
      (stored : s₁.store id v = .ok s₂) (after : Quiet s₂ s') : Effect i s s'
  | fill {s₁ : Scene} {target : Option Handle} {m m' : Memory} {addr : Int64} {v : Value}
      {old : Option Value} (before : Quiet s s₁) (device : s₁.device target = .ok m)
      (filled : m.set addr v = .ok (old, m')) (known : s.Reads i → s₁.Offers v) :
      Effect i s ((s₁.setDevice target m').withArena
        ((s₁.setDevice target m').world.arena.exchange v old))
  | vacate {s₁ : Scene} {target : Option Handle} {m m' : Memory} {addr : Int64}
      {old : Option Value} (before : Quiet s s₁) (device : s₁.device target = .ok m)
      (emptied : m.clear addr = .ok (old, m')) :
      Effect i s ((s₁.setDevice target m').withArena
        ((s₁.setDevice target m').world.arena.releaseAll old.toList))
  | call {s₁ s' : Scene} {h : Handle} {typeName name : String} {method : Method}
      {args : List Value} {result : Option Value} {arena : Arena} (before : Quiet s s₁)
      (reached : s₁.Knows h) (known : s.Reads i → ∀ v ∈ args, s₁.Offers v)
      (found : s₁.world.registry.find? typeName name = some method)
      (invoked : method.invoke s₁.world.arena h args = .ok (result, arena))
      (stored : s' = s₁.withArena arena ∨ ∃ id v, id ∈ i.written
        ∧ (∀ g, v = .entity g → result = some (.entity g) ∨ ∃ n, arena.resolve n = some g)
        ∧ (s₁.withArena arena).store id v = .ok s') :
      Effect i s s'

variable {s s' s'' s₁ s₂ : Scene} {i : Instruction} {id : VarId} {v w : Value}

theorem Quiet.refl (s : Scene) : Quiet s s :=
  ⟨rfl, rfl, rfl, rfl, rfl, rfl, rfl, rfl, rfl, rfl, rfl, rfl⟩

/-- Two quiet changes make one. -/
theorem Quiet.trans (h : Quiet s s') (h' : Quiet s' s'') : Quiet s s'' where
  script := h'.script.trans h.script
  config := h'.config.trans h.config
  pc := h'.pc.trans h.pc
  completed := h'.completed.trans h.completed
  halted := h'.halted.trans h.halted
  faultCount := h'.faultCount.trans h.faultCount
  faults := h'.faults.trans h.faults
  vars := h'.vars.trans h.vars
  memory := h'.memory.trans h.memory
  parts := h'.parts.trans h.parts
  arena := h'.arena.trans h.arena
  registry := h'.registry.trans h.registry

/-- What is no handle need not be known. -/
theorem offers_of_plain (hv : v.handle? = none) : s.Offers v := by
  rintro h rfl
  cases hv

-- =============================================================== reading

/-- Reading an operand is quiet, and a handle that is read is known. -/
theorem read_quiet {o : Operand} (hread : s.read o = .ok (v, s')) :
    Quiet s s' ∧ (o.WellFormed s.proc.vars.kinds.length → s'.Offers v) := by
  obtain ⟨⟨w, draws⟩, hvalue, hread⟩ := bind_eq_ok.1 hread
  cases hread
  refine ⟨⟨rfl, rfl, rfl, rfl, rfl, rfl, rfl, rfl, rfl, rfl, rfl, rfl⟩, fun ho => ?_⟩
  rintro h rfl
  exact .inl (List.mem_append_left _ (Operand.value_handle ho hvalue))

/-- What is quiet forgets nothing. -/
theorem Quiet.knows {h : Handle} (hquiet : Quiet s s') (hknows : s.Knows h) : s'.Knows h := by
  unfold Knows Processor.held at *
  rw [hquiet.vars, hquiet.memory, hquiet.arena]
  exact hknows

/-- Values that are known stay so. -/
theorem Quiet.offers (hquiet : Quiet s s') (hv : s.Offers v) : s'.Offers v :=
  fun h hh => hquiet.knows (hv h hh)

/-- Reading several operands is quiet, and all handles that are read are
known. -/
theorem readAll_quiet : ∀ {os : List Operand} {s s' : Scene} {vs : List Value},
    s.readAll os = .ok (vs, s') →
    Quiet s s' ∧ ((∀ o ∈ os, o.WellFormed s.proc.vars.kinds.length) → ∀ v ∈ vs, s'.Offers v)
  | [], s, s', vs, hread => by
      cases hread
      exact ⟨.refl s, fun _ v hv => by cases hv⟩
  | o :: os, s, s', vs, hread => by
      obtain ⟨⟨v, s₁⟩, hv, hread⟩ := bind_eq_ok.1 hread
      obtain ⟨⟨more, s₂⟩, hmore, hread⟩ := bind_eq_ok.1 hread
      cases hread
      obtain ⟨hquiet, hoffers⟩ := read_quiet hv
      obtain ⟨hquiet', hoffers'⟩ := readAll_quiet hmore
      refine ⟨hquiet.trans hquiet', fun hos w hw => ?_⟩
      rcases List.mem_cons.1 hw with rfl | hw
      · exact hquiet'.offers (hoffers (hos o List.mem_cons_self))
      · refine hoffers' (fun o' ho' => ?_) w hw
        rw [hquiet.vars]
        exact hos o' (List.mem_cons_of_mem o ho')

theorem readAddress_quiet {o : Operand} {n : Int64} (hread : s.readAddress o = .ok (n, s')) :
    Quiet s s' := by
  obtain ⟨⟨v, s₁⟩, hv, hread⟩ := bind_eq_ok.1 hread
  have hquiet := (read_quiet hv).1
  cases v with
  | int n =>
      cases hread
      exact hquiet
  | float x =>
      simp only at hread
      split at hread
      next =>
        cases hread
        exact hquiet
      next => cases hread
  | _ => cases hread

/-- What a device holds is known. -/
theorem device_knows {target : Option Handle} {m : Memory} {h : Handle}
    (hdevice : s.device target = .ok m) (hh : h ∈ handlesOf m.values) : s.Knows h := by
  cases target with
  | none =>
      cases hdevice
      exact .inl (List.mem_append_right _ hh)
  | some g =>
      exact .inr (.inl (Arena.keeps_memory (Standard.device_eq_ok hdevice) hh))

/-- What is reached is alive, in the variable, and connected to the part
of the processor. -/
theorem reach_eq_ok {h : Handle} (hreach : s.reach id = .ok h) :
    ∃ var this, s.proc.vars.get? id = some var ∧ var.value = some (.entity h)
      ∧ s.world.arena.isAlive h ∧ s.proc.this = some this ∧ s.world.canConnect this h := by
  obtain ⟨var, hget, hreach⟩ := bind_eq_ok.1 hreach
  split at hreach
  next g hg =>
    obtain ⟨w, hw, hhandle⟩ := Option.bind_eq_some_iff.1 hg
    split at hreach
    next halive =>
      split at hreach
      next this hthis =>
        split at hreach
        next hconnect =>
          cases hreach
          cases w with
          | entity g =>
              cases hhandle
              exact ⟨var, this, Storage.get_eq_ok_iff.1 hget, hw, halive, hthis, hconnect⟩
          | _ => cases hhandle
        next => cases hreach
      next => cases hreach
    next => cases hreach
  next => cases hreach

/-- What is reached is known. -/
theorem reach_knows {h : Handle} (hreach : s.reach id = .ok h) : s.Knows h := by
  obtain ⟨var, -, hget, hvalue, -⟩ := reach_eq_ok hreach
  refine .inl (List.mem_append_left _ (List.mem_filterMap.2 ⟨.entity h, ?_, rfl⟩))
  exact Storage.mem_values hget hvalue

-- =============================================================== storing

/-- An assigned handle is the one given, or one found by its number. -/
theorem assign_eq_ok (hassign : s.assign id w = .ok s') :
    ∃ v, s.store id v = .ok s'
      ∧ ∀ h, v = .entity h → w = .entity h ∨ ∃ n, s.world.arena.resolve n = some h := by
  obtain ⟨var, -, hassign⟩ := bind_eq_ok.1 hassign
  obtain ⟨v, hconvert, hstore⟩ := bind_eq_ok.1 hassign
  refine ⟨v, hstore, fun h hh => ?_⟩
  subst hh
  exact Kind.convert_handle hconvert

/-- A value that is known is assigned. -/
theorem Effect.assign (before : Quiet s s₁) (dest : id ∈ i.written)
    (known : s.Reads i → s₁.Offers w) (assigned : s₁.assign id w = .ok s₂)
    (after : Quiet s₂ s') : Effect i s s' := by
  obtain ⟨v, hstore, hhandle⟩ := assign_eq_ok assigned
  refine .store before dest (fun hreads h hh => ?_) hstore after
  rcases hhandle h hh with hw | hresolve
  · exact known hreads h hw
  · exact .inr (.inr hresolve)

-- ========================================================== instructions

/-- A reading of the clock is stored in a variable; a wait is quiet. -/
theorem time_effect {op : TimeOp} (h : s.time op = .ok s') : Effect (.time op) s s' := by
  cases op with
  | framesSinceLaunch dest | secondsSinceLaunch dest | deltaTime dest =>
      exact .assign (.refl s) List.mem_cons_self (fun _ => offers_of_plain rfl) h (.refl s')
  | wait ticks =>
      obtain ⟨⟨v, s₁⟩, hv, h⟩ := bind_eq_ok.1 h
      obtain ⟨n, -, h⟩ := bind_eq_ok.1 h
      simp only at h
      split at h
      next =>
        cases h
        have hread := (read_quiet hv).1
        exact .quiet (hread.trans ⟨rfl, rfl, rfl, rfl, rfl, rfl, rfl, rfl, rfl, rfl, rfl, rfl⟩)
      next => cases h

/-- What is popped is stored in a variable; all else is quiet. -/
theorem console_effect {op : ConsoleOp} (h : s.console op = .ok s') :
    Effect (.console op) s s' := by
  cases op with
  | read | write =>
      cases h
      exact .quiet ⟨rfl, rfl, rfl, rfl, rfl, rfl, rfl, rfl, rfl, rfl, rfl, rfl⟩
  | clear stream =>
      cases stream <;> cases h <;>
        exact .quiet ⟨rfl, rfl, rfl, rfl, rfl, rfl, rfl, rfl, rfl, rfl, rfl, rfl⟩
  | filter => cases h
  | push args =>
      obtain ⟨⟨vs, s₁⟩, hvs, h⟩ := bind_eq_ok.1 h
      cases h
      have hread := (readAll_quiet hvs).1
      exact .quiet (hread.trans ⟨rfl, rfl, rfl, rfl, rfl, rfl, rfl, rfl, rfl, rfl, rfl, rfl⟩)
  | canPop probe dest =>
      obtain ⟨ready, -, h⟩ := bind_eq_ok.1 h
      exact .store (.refl s) List.mem_cons_self (fun _ => offers_of_plain rfl) h (.refl s')
  | pop target =>
      cases target with
      | char dest =>
          simp only [console, popChar] at h
          split at h
          next => cases h
          next =>
            obtain ⟨s₁, hstore, h⟩ := bind_eq_ok.1 h
            cases h
            exact .store (.refl s) List.mem_cons_self (fun _ => offers_of_plain rfl) hstore
              ⟨rfl, rfl, rfl, rfl, rfl, rfl, rfl, rfl, rfl, rfl, rfl, rfl⟩
      | number dest =>
          simp only [console, popNumber] at h
          split at h
          next => cases h
          next =>
            obtain ⟨var, -, h⟩ := bind_eq_ok.1 h
            split at h
            next digits rest _ =>
              obtain ⟨v, hv, h⟩ := bind_eq_ok.1 h
              obtain ⟨s₁, hassign, h⟩ := bind_eq_ok.1 h
              cases h
              have hplain := (numberValue_spec (String.ofList digits)).2 v hv
              exact .assign (.refl s) List.mem_cons_self (fun _ => offers_of_plain hplain) hassign
                ⟨rfl, rfl, rfl, rfl, rfl, rfl, rfl, rfl, rfl, rfl, rfl, rfl⟩
            next => cases h

/-- A cell is read into a variable, filled or emptied. -/
theorem memory_effect {device : Option VarId} {target : Option Handle} {op : MemoryOp}
    (h : s.memory target op = .ok s') : Effect (.memory device op) s s' := by
  cases op with
  | get addr dest =>
      obtain ⟨⟨n, s₁⟩, hn, h⟩ := bind_eq_ok.1 h
      obtain ⟨m, hm, h⟩ := bind_eq_ok.1 h
      obtain ⟨cell, hcell, h⟩ := bind_eq_ok.1 h
      cases cell with
      | none => cases h
      | some v =>
          refine .assign (readAddress_quiet hn) List.mem_cons_self (fun _ g hg => ?_) h (.refl s')
          subst hg
          exact device_knows hm (Memory.present_handle hcell)
  | getType addr dest =>
      obtain ⟨⟨n, s₁⟩, hn, h⟩ := bind_eq_ok.1 h
      obtain ⟨m, -, h⟩ := bind_eq_ok.1 h
      obtain ⟨kind, -, h⟩ := bind_eq_ok.1 h
      exact .store (readAddress_quiet hn) List.mem_cons_self (fun _ => offers_of_plain rfl) h
        (.refl s')
  | isNull addr dest =>
      obtain ⟨⟨n, s₁⟩, hn, h⟩ := bind_eq_ok.1 h
      obtain ⟨m, -, h⟩ := bind_eq_ok.1 h
      obtain ⟨null, -, h⟩ := bind_eq_ok.1 h
      exact .store (readAddress_quiet hn) List.mem_cons_self (fun _ => offers_of_plain rfl) h
        (.refl s')
  | set addr value =>
      obtain ⟨⟨n, s₁⟩, hn, h⟩ := bind_eq_ok.1 h
      obtain ⟨⟨v, s₂⟩, hv, h⟩ := bind_eq_ok.1 h
      obtain ⟨m, hm, h⟩ := bind_eq_ok.1 h
      obtain ⟨⟨old, m'⟩, hset, h⟩ := bind_eq_ok.1 h
      cases h
      have hquiet := readAddress_quiet hn
      obtain ⟨hquiet', hoffers⟩ := read_quiet hv
      refine .fill (hquiet.trans hquiet') hm hset fun hreads => hoffers ?_
      rw [hquiet.vars]
      exact hreads value (List.mem_cons_of_mem _ List.mem_cons_self)
  | clear addr =>
      obtain ⟨⟨n, s₁⟩, hn, h⟩ := bind_eq_ok.1 h
      obtain ⟨m, hm, h⟩ := bind_eq_ok.1 h
      obtain ⟨⟨old, m'⟩, hclear, h⟩ := bind_eq_ok.1 h
      cases h
      exact .vacate (readAddress_quiet hn) hm hclear

/-- The arguments are read, the method is called, and its result may be
stored. -/
theorem call_effect {target : VarId} {method : String} {args : List Operand}
    {ret : Option VarId} (h : s.call target method args ret = .ok s') :
    Effect (.call target method args ret) s s' := by
  obtain ⟨g, hreach, h⟩ := bind_eq_ok.1 h
  split at h
  next => cases h
  next entity _ =>
    obtain ⟨⟨vs, s₁⟩, hvs, h⟩ := bind_eq_ok.1 h
    obtain ⟨hquiet, hoffers⟩ := readAll_quiet hvs
    simp only at h
    split at h
    next => cases h
    next m hm =>
      obtain ⟨⟨result, arena⟩, hinvoke, h⟩ := bind_eq_ok.1 h
      refine .call hquiet (hquiet.knows (reach_knows hreach)) hoffers hm hinvoke ?_
      cases ret with
      | none =>
          cases h
          exact .inl rfl
      | some dest =>
          cases result with
          | none => cases h
          | some w =>
              obtain ⟨v, hstore, hhandle⟩ := assign_eq_ok h
              refine .inr ⟨dest, v, List.mem_cons_self, fun h hh => ?_, hstore⟩
              exact (hhandle h hh).imp_left fun hw => congrArg some hw

end Scene

/-- Whatever an instruction does to variables, memories and entities is
one of the four effects. -/
theorem Instruction.execute_effect {i : Instruction} {s s' : Scene} {signal : Signal}
    (h : i.execute s = .ok (signal, s')) : Scene.Effect i s s' := by
  have hnext : ∀ {x : Except Fault Scene}, x.map (fun s => (Signal.next, s)) = .ok (signal, s') →
      x = .ok s' := by
    intro x h
    obtain ⟨s₁, hs₁, h⟩ := map_eq_ok.1 h
    cases h
    exact hs₁
  cases i with
  | declare dest source =>
      simp only [execute] at h
      split at h
      next =>
        cases h
        exact .quiet (.refl s)
      next =>
        obtain ⟨⟨v, s₁⟩, hv, h⟩ := bind_eq_ok.1 h
        obtain ⟨s₂, hassign, h⟩ := bind_eq_ok.1 h
        cases h
        obtain ⟨hquiet, hoffers⟩ := Scene.read_quiet hv
        exact .assign hquiet List.mem_cons_self
          (fun hreads => hoffers (hreads source List.mem_cons_self)) hassign
          ⟨rfl, rfl, rfl, rfl, rfl, rfl, rfl, rfl, rfl, rfl, rfl, rfl⟩
  | assign dest source =>
      obtain ⟨⟨v, s₁⟩, hv, h⟩ := bind_eq_ok.1 h
      obtain ⟨s₂, hassign, h⟩ := bind_eq_ok.1 h
      cases h
      obtain ⟨hquiet, hoffers⟩ := Scene.read_quiet hv
      exact .assign hquiet List.mem_cons_self
        (fun hreads => hoffers (hreads source List.mem_cons_self)) hassign (.refl _)
  | jump target condition =>
      obtain ⟨⟨v, s₁⟩, hv, h⟩ := bind_eq_ok.1 h
      have hquiet := (Scene.read_quiet hv).1
      cases v with
      | bool b =>
          cases b <;> cases h <;> exact .quiet hquiet
      | _ => cases h
  | label | create =>
      cases h
      exact .quiet (.refl s)
  | stop =>
      cases h
      exact .quiet ⟨rfl, rfl, rfl, rfl, rfl, rfl, rfl, rfl, rfl, rfl, rfl, rfl⟩
  | time op => exact Scene.time_effect (hnext h)
  | console op => exact Scene.console_effect (hnext h)
  | memory device op =>
      cases device with
      | none => exact Scene.memory_effect (hnext h)
      | some id =>
          obtain ⟨g, -, h⟩ := bind_eq_ok.1 h
          exact Scene.memory_effect (hnext h)
  | call target method args ret => exact Scene.call_effect (hnext h)

end TickScript
