/-
Memory instructions and the methods of memory components agree.

A script can work on a memory component in two ways: with a memory
instruction that names the variable, or with a call of one of the
component's methods. The two take different paths. An instruction converts
its address and works on the device at once. A call looks the method up by
the type of the entity, checks the arguments against the signature, checks a
value that it stores once more, and converts what the method gave back.

For an address that is a whole number the two come to the same
(`Host.memory_methods_agree`): the same scene, or the same fault. They differ
in one case only, when the value is asked for of a cell that is empty or whose
entity is gone. To an instruction the memory is null there, and to a call the
method returned nothing.

The checks that only one of the two paths makes never fail. The entity is a
memory, since component variables hold components of their type
(`Host.Reachable.restricted`), and what an operand gives is alive. Results
that an instruction stores without converting them are of the kind of the
variable, so converting does nothing to them.
-/
import TickScript.Proofs.Host.Restricted
import TickScript.Proofs.Processor.Dispatch

namespace TickScript

-- ================================================================= pairs

namespace MemoryOp

/-- The operand that gives the address. -/
def address : MemoryOp → Operand
  | get addr _ | getType addr _ | isNull addr _ | set addr _ | clear addr => addr

/-- The method of memory components that does the work. -/
def method : MemoryOp → Method
  | get _ _ => ⟨"get_value", ⟨[.kind .int], .dynamic⟩, Standard.memoryGetValue⟩
  | getType _ _ => ⟨"get_type", ⟨[.kind .int], .kind .int⟩, Standard.memoryGetType⟩
  | isNull _ _ => ⟨"is_null", ⟨[.kind .int], .kind .bool⟩, Standard.memoryIsNull⟩
  | set _ _ => ⟨"set_value", ⟨[.kind .int, .any], .nothing⟩, Standard.memorySetValue⟩
  | clear _ => ⟨"clear", ⟨[.kind .int], .nothing⟩, Standard.memoryClear⟩

/-- The call that does the work on the component in a variable. -/
def call (op : MemoryOp) (id : VarId) : Instruction :=
  .call id op.method.name op.operands op.targets.head?

variable (op : MemoryOp)

theorem find?_method :
    Registry.standard.find? Entity.memoryType op.method.name = some op.method := by
  cases op <;> rfl

theorem length_operands : op.operands.length = op.method.signature.params.length := by
  cases op <;> rfl

/-- A whole number for an address is no reason to refuse a call. -/
theorem checkArgs_method {n : Int64} {vs : List Value}
    (hlength : (Value.int n :: vs).length = op.method.signature.params.length) :
    op.method.checkArgs 0 op.method.signature.params (.int n :: vs) = .ok (.int n :: vs) := by
  cases op with
  | set addr value =>
      obtain ⟨v, rfl⟩ := List.length_eq_one_iff.1 (Nat.succ.inj hlength)
      rfl
  | _ =>
      cases List.length_eq_zero_iff.1 (Nat.succ.inj hlength)
      rfl

end MemoryOp

-- ================================================================= cells

/-- The cell at the address is empty, or its entity is gone. -/
def Memory.NullAt (m : Memory) (alive : Handle → Bool) (addr : Int64) : Prop :=
  ∃ cell, m.get addr = .ok cell ∧ (cell = none ∨ isDead alive cell)

/-- Nothing is found in just these cells. -/
theorem Memory.present_eq_none_iff {m : Memory} {alive : Handle → Bool} {addr : Int64} :
    m.present alive addr = .ok none ↔ m.NullAt alive addr := by
  unfold present NullAt
  rw [bind_eq_ok]
  refine exists_congr fun cell => and_congr_right fun _ => ?_
  match cell with
  | none => simp
  | some (.entity g) => cases halive : alive g <;> simp [isDead, halive]
  | some (.int _) | some (.float _) | some (.bool _) | some (.text _) | some (.line _) =>
      simp [isDead]

-- ================================================================ scenes

namespace Scene

variable {s s₁ : Scene} {id : VarId} {h : Handle} {op : MemoryOp} {n : Int64}

/-- The value of a cell is asked for that is empty or whose entity is gone. -/
def GetsNothing (s : Scene) (id : VarId) (op : MemoryOp) : Prop :=
  ∃ addr dest h n s₁ m, op = .get addr dest ∧ s.reach id = .ok h
    ∧ s.read addr = .ok (.int n, s₁) ∧ s.world.arena.memory? h = some m
    ∧ m.NullAt s.world.arena.isAlive n

-- ================================================================= calls

/-- What the call comes to once its arguments are read. -/
def answer (s : Scene) (h : Handle) (op : MemoryOp) (args : List Value) : Except Fault Scene := do
  let (result, arena) ← op.method.action s.world.arena h args
  (s.withArena arena).storeResult op.method.name op.targets.head? result

/-- On a memory component that is reached the method is found, and no
argument is refused. -/
theorem call_eq_answer {e : Entity} {vs : List Value} (hregistry : s.world.registry = .standard)
    (hreach : s.reach id = .ok h) (he : s.world.arena.entity? h = some e)
    (htype : e.typeName = Entity.memoryType) (hlooks : Looks s s₁)
    (hread : s.readAll op.operands = .ok (.int n :: vs, s₁)) :
    s.call id op.method.name op.operands op.targets.head? = s₁.answer h op (.int n :: vs) := by
  have hfound := op.find?_method
  have hlength := (length_readAll hread).trans op.length_operands
  rw [← htype, ← hregistry, ← hlooks.registry] at hfound
  rw [call_eq hreach he hread hfound hlength, op.checkArgs_method hlength]
  rfl

theorem call_of_readAll_error {e : Entity} {method : String} {args : List Operand}
    {ret : Option VarId} {fault : Fault} (hreach : s.reach id = .ok h)
    (he : s.world.arena.entity? h = some e) (hargs : s.readAll args = .error fault) :
    s.call id method args ret = .error fault := by
  unfold call
  rw [hreach, ok_bind]
  simp only [he]
  rw [hargs, error_bind]

/-- A method that only looks leaves the scene to its result. -/
theorem look_then_store {f : Arena → Handle → List Value → Except Fault (Option Value)}
    {args : List Value} {method : String} {ret : Option VarId} :
    (do
      let (result, arena) ← Standard.look f s.world.arena h args
      (s.withArena arena).storeResult method ret result)
      = f s.world.arena h args >>= s.storeResult method ret := by
  unfold Standard.look
  cases f s.world.arena h args <;> rfl

-- ========================================================== instructions

variable {addr value : Operand} {dest : VarId}

theorem looks_of_read {v : Value} (hread : s.read addr = .ok (v, s₁)) : Looks s s₁ := by
  obtain ⟨⟨w, draws⟩, -, hread⟩ := bind_eq_ok.1 hread
  cases hread
  exact ⟨rfl, rfl, rfl⟩

theorem readAddress_int (hread : s.read addr = .ok (.int n, s₁)) :
    s.readAddress addr = .ok (n, s₁) := by
  unfold readAddress
  rw [hread]
  rfl

/-- An instruction whose address cannot be read. -/
theorem memory_of_read_error {fault : Fault} (hread : s.read op.address = .error fault) :
    s.memory (some h) op = .error fault := by
  have haddress : s.readAddress op.address = .error fault := by
    unfold readAddress
    rw [hread]
    rfl
  cases op <;> exact bind_eq_error.2 (.inl haddress)

/-- A value that stays what it is when it is converted. -/
theorem assign_eq_store {v : Value} (hkind : s.proc.vars.kinds[id]? = some (Kind.of v))
    (hconvert : (Kind.of v).convert s.world.arena.resolve v = .ok v) :
    s.assign id v = s.store id v := by
  obtain ⟨var, -, hget, hkind'⟩ := Storage.get_of_lt (List.getElem?_eq_some_iff.1 hkind).1
  have hsame : var.kind = Kind.of v := Option.some.inj (hkind'.symm.trans hkind)
  unfold assign
  rw [hget, ok_bind, hsame, hconvert, ok_bind]

theorem get_eq_answer (hread : s.read addr = .ok (.int n, s₁))
    (hsome : ∀ m, Standard.device s₁.world.arena h = .ok m →
      m.present s₁.world.arena.isAlive n ≠ .ok none) :
    s.memory (some h) (.get addr dest) = s₁.answer h (.get addr dest) [.int n] := by
  simp only [answer, MemoryOp.method, Standard.memoryGetValue]
  rw [look_then_store]
  simp only [memory, readAddress_int hread, ok_bind, device, Standard.intArg,
    List.getElem?_cons_zero]
  cases hdevice : Standard.device s₁.world.arena h with
  | error fault => rfl
  | ok m =>
      simp only [ok_bind]
      cases hpresent : m.present s₁.world.arena.isAlive n with
      | error fault => rfl
      | ok found =>
          cases found with
          | none => exact absurd hpresent (hsome m hdevice)
          | some v => rfl

/-- The number of a kind is stored as it is. -/
theorem getType_eq_answer (hread : s.read addr = .ok (.int n, s₁))
    (hkind : s₁.proc.vars.kinds[dest]? = some .int) :
    s.memory (some h) (.getType addr dest) = s₁.answer h (.getType addr dest) [.int n] := by
  simp only [answer, MemoryOp.method, Standard.memoryGetType]
  rw [look_then_store]
  simp only [memory, readAddress_int hread, ok_bind, device, Standard.intArg,
    List.getElem?_cons_zero, bind_assoc]
  refine bind_congr fun m => bind_congr fun kind => ?_
  exact (assign_eq_store (v := .int kind.code) hkind rfl).symm

/-- So is a truth value. -/
theorem isNull_eq_answer (hread : s.read addr = .ok (.int n, s₁))
    (hkind : s₁.proc.vars.kinds[dest]? = some .bool) :
    s.memory (some h) (.isNull addr dest) = s₁.answer h (.isNull addr dest) [.int n] := by
  simp only [answer, MemoryOp.method, Standard.memoryIsNull]
  rw [look_then_store]
  simp only [memory, readAddress_int hread, ok_bind, device, Standard.intArg,
    List.getElem?_cons_zero, bind_assoc]
  refine bind_congr fun m => bind_congr fun null => ?_
  exact (assign_eq_store (v := .bool null) hkind rfl).symm

/-- What is stored is alive, so looking at it once more does not matter. -/
theorem set_eq_answer {v : Value} {s₂ : Scene} (hread : s.read addr = .ok (.int n, s₁))
    (hvalue : s₁.read value = .ok (v, s₂)) (hlives : v.Lives s₂.world.arena.isAlive) :
    s.memory (some h) (.set addr value) = s₂.answer h (.set addr value) [.int n, v] := by
  simp only [answer, MemoryOp.method, Standard.memorySetValue_of_lives hlives]
  simp only [memory, readAddress_int hread, ok_bind, hvalue, device, bind_assoc]
  rfl

theorem clear_eq_answer (hread : s.read addr = .ok (.int n, s₁)) :
    s.memory (some h) (.clear addr) = s₁.answer h (.clear addr) [.int n] := by
  simp only [answer, MemoryOp.method, Standard.memoryClear]
  simp only [memory, readAddress_int hread, ok_bind, device, Standard.intArg,
    List.getElem?_cons_zero, bind_assoc]
  rfl

-- ============================================================= agreement

section

variable {e : Entity} {size : Nat} (hregistry : s.world.registry = .standard)
  (hreach : s.reach id = .ok h) (he : s.world.arena.entity? h = some e)
  (htype : e.typeName = Entity.memoryType)

include hregistry hreach he htype

/-- Storing reads a second operand, which is checked by the call alone. -/
theorem set_eq_call (hread : s.read addr = .ok (.int n, s₁))
    (hvalue : value.WellFormed s.proc.vars.kinds.length) :
    s.memory (some h) (.set addr value)
      = s.call id "set_value" (MemoryOp.set addr value).operands none := by
  have hlooks := looks_of_read hread
  cases hsecond : s₁.read value with
  | error fault =>
      have hargs : s.readAll (MemoryOp.set addr value).operands = .error fault := by
        simp only [MemoryOp.operands, readAll, hread, hsecond, ok_bind, error_bind]
      rw [call_of_readAll_error hreach he hargs]
      simp only [memory, readAddress_int hread, hsecond, ok_bind, error_bind]
  | ok r =>
      obtain ⟨v, s₂⟩ := r
      obtain ⟨hlooks₂, hlives⟩ := (read_spec (hlooks.wellFormed hvalue)).2 v s₂ hsecond
      have hargs : s.readAll (MemoryOp.set addr value).operands = .ok ([.int n, v], s₂) := by
        simp only [MemoryOp.operands, readAll, hread, hsecond, ok_bind]
      rw [set_eq_answer hread hsecond hlives]
      exact (call_eq_answer hregistry hreach he htype (hlooks.trans hlooks₂) hargs).symm

/-- On a memory component that is reached both ways come to the same. -/
theorem memory_eq_call (hop : (Instruction.memory (some id) op).WellFormed s.proc.vars.kinds size)
    (haddr : ∀ v s', s.read op.address = .ok (v, s') → ∃ n, v = .int n)
    (hsome : ¬ s.GetsNothing id op) :
    s.memory (some h) op = s.call id op.method.name op.operands op.targets.head? := by
  cases hread : s.read op.address with
  | error fault =>
      have hargs : s.readAll op.operands = .error fault := by
        cases op <;> exact bind_eq_error.2 (.inl hread)
      rw [memory_of_read_error hread, call_of_readAll_error hreach he hargs]
  | ok r =>
      obtain ⟨v, s₁⟩ := r
      obtain ⟨n, rfl⟩ := haddr v s₁ hread
      have hlooks := looks_of_read hread
      have hargs : s.readAll [op.address] = .ok ([.int n], s₁) := by
        simp only [readAll, hread, ok_bind]
      have hcall := fun hone : op.operands = [op.address] =>
        call_eq_answer hregistry hreach he htype hlooks (hone ▸ hargs)
      cases op with
      | set addr value =>
          have hvalue := hop.operands value (List.mem_cons_of_mem addr List.mem_cons_self)
          exact set_eq_call hregistry hreach he htype hread hvalue
      | get addr dest =>
          rw [hcall rfl]
          refine get_eq_answer hread fun m hdevice hpresent => hsome ?_
          rw [hlooks.arena] at hdevice hpresent
          exact ⟨addr, dest, h, n, s₁, m, rfl, hreach, hread, Standard.device_eq_ok hdevice,
            Memory.present_eq_none_iff.1 hpresent⟩
      | getType addr dest =>
          rw [hcall rfl]
          refine getType_eq_answer hread ?_
          rw [hlooks.proc]
          exact hop.typed (dest, .int) List.mem_cons_self
      | isNull addr dest =>
          rw [hcall rfl]
          refine isNull_eq_answer hread ?_
          rw [hlooks.proc]
          exact hop.typed (dest, .bool) List.mem_cons_self
      | clear addr =>
          rw [hcall rfl]
          exact clear_eq_answer hread

/-- What is not there cannot be got, and each way has its own fault for
that. -/
theorem faults_of_getsNothing (hnothing : s.GetsNothing id op) :
    (∃ detail, s.memory (some h) op = .error (.of .nullParameter detail))
      ∧ s.call id op.method.name op.operands op.targets.head?
          = .error (.of .noReturnValue op.method.name) := by
  obtain ⟨addr, dest, h', n, s₁, m, rfl, hreach', hread, hmemory, hnull⟩ := hnothing
  cases hreach.symm.trans hreach'
  have hlooks := looks_of_read hread
  have hdevice : Standard.device s₁.world.arena h = .ok m := by
    rw [hlooks.arena, Standard.device, hmemory]
  have hpresent : m.present s₁.world.arena.isAlive n = .ok none := by
    rw [hlooks.arena]
    exact Memory.present_eq_none_iff.2 hnull
  constructor
  · refine ⟨"MEMORY " ++ toString n.toInt, ?_⟩
    simp only [memory, readAddress_int hread, ok_bind, device, hdevice, hpresent]
  · have hargs : s.readAll (MemoryOp.get addr dest).operands = .ok ([.int n], s₁) := by
      simp only [MemoryOp.operands, readAll, hread, ok_bind]
    rw [call_eq_answer hregistry hreach he htype hlooks hargs]
    simp only [answer, MemoryOp.method, Standard.memoryGetValue]
    rw [look_then_store]
    simp only [Standard.intArg, List.getElem?_cons_zero, ok_bind, hdevice, hpresent]
    rfl

end

end Scene

namespace Host

/-- Memory instructions and the methods of memory components agree.

Take a processor of a host in any state that the host reaches, between two
steps of the host or before any line of a tick, and any variable that is
declared for memory components. Let the address be a whole number, or let
reading it fail. Then the instruction and the call come to the same scene or
to the same fault, unless the value is asked for of a cell that is empty or
whose entity is gone. The instruction then fails for a null parameter and the
call for want of a return value. -/
theorem memory_methods_agree {h : Host} {s : Scene} {id : VarId} {var : Variable} {op : MemoryOp}
    {size : Nat} (hreach : Reachable h) (hscene : h.Scenes s)
    (hvar : s.proc.vars.get? id = some var) (hmemory : var.component = some Entity.memoryType)
    (hop : (Instruction.memory (some id) op).WellFormed s.proc.vars.kinds size)
    (haddr : ∀ v s', s.read op.address = .ok (v, s') → ∃ n, v = .int n) :
    (¬ s.GetsNothing id op →
        (op.call id).execute s = (Instruction.memory (some id) op).execute s)
      ∧ (s.GetsNothing id op →
        (∃ detail, (Instruction.memory (some id) op).execute s
            = .error (.of .nullParameter detail))
          ∧ (op.call id).execute s = .error (.of .noReturnValue op.method.name)) := by
  obtain ⟨others, hguarded⟩ := hscene.guarded hreach
  have hregistry := hguarded.sound.registry
  simp only [Instruction.execute, MemoryOp.call]
  cases hreached : s.reach id with
  | error fault =>
      refine ⟨fun _ => ?_, fun hnothing => ?_⟩
      · unfold Scene.call
        rw [hreached]
        rfl
      · obtain ⟨addr, dest, g, n, s₁, m, -, hreached', -⟩ := hnothing
        cases hreached.symm.trans hreached'
  | ok g =>
      obtain ⟨var', this, hget, hvalue, halive, -⟩ := Scene.reach_eq_ok hreached
      cases hvar.symm.trans hget
      obtain ⟨e, he⟩ := Option.isSome_iff_exists.1 halive
      have htype : e.typeName = Entity.memoryType :=
        hguarded.restricted var (List.mem_of_getElem? hvar) hmemory hvalue he
      rw [ok_bind]
      refine ⟨fun hsome => ?_, fun hnothing => ?_⟩
      · rw [Scene.memory_eq_call hregistry hreached he htype hop haddr hsome]
      · obtain ⟨⟨detail, hfirst⟩, hsecond⟩ :=
          Scene.faults_of_getsNothing hregistry hreached he htype hnothing
        rw [hfirst, hsecond]
        exact ⟨⟨detail, rfl⟩, rfl⟩

/-- A script that fetched the memory on its part, after one tick. -/
def fetched : Scene := run furnished ⟨0, 0, .part⟩ Scene.fetch

theorem reachable_fetched : Reachable ⟨fetched.world, [fetched.proc]⟩ := by
  have hstart : Reachable ⟨.start (.start 0) ⟨0⟩, []⟩ := .start rfl rfl
  have hspawn := hstart.step (.spawn _ 1)
  have hattach : Reachable ⟨furnished, []⟩ :=
    hspawn.step (@Step.attachMemory _ ⟨0, 0, .part⟩ ⟨1, 0, .component⟩ 2 furnished rfl)
  unfold fetched
  exact hattach.run ⟨0, 0, .part⟩ Scene.fetch

/-- Both ways the part is put into the memory. What was not put there cannot
be got, and the two ways say so differently. -/
theorem memory_methods_agree_fetched :
    (∃ r, (Instruction.memory (some 1) (.set (.literal (.int 1)) (.var 0))).execute fetched = .ok r
        ∧ ((MemoryOp.set (.literal (.int 1)) (.var 0)).call 1).execute fetched = .ok r)
      ∧ (∃ detail, (Instruction.memory (some 1) (.get (.literal (.int 0)) 2)).execute fetched
          = .error (.of .nullParameter detail))
      ∧ ((MemoryOp.get (.literal (.int 0)) 2).call 1).execute fetched
          = .error (.of .noReturnValue "get_value") := by
  have hrun : (fetched.proc.vars.get? 1).any (fun var => var.component = some Entity.memoryType)
      ∧ fetched.proc.vars.kinds.length = 3
      ∧ (fetched.reach 1).toOption = some ⟨1, 0, .component⟩
      ∧ (fetched.world.arena.memory? ⟨1, 0, .component⟩).any
          (fun m => (m.get 0).toOption = some none)
      ∧ ((Instruction.memory (some 1) (.set (.literal (.int 1)) (.var 0))).execute
          fetched).toOption.isSome := by
    decide +kernel
  obtain ⟨hvar, hlength, hreached, hempty, hdone⟩ := hrun
  obtain ⟨var, hvar', hmemory⟩ := (Option.any_eq_true _ _).1 hvar
  obtain ⟨m, hm, hcell⟩ := (Option.any_eq_true _ _).1 hempty
  have hreach := reachable_fetched
  -- how the script was run does not matter any more
  generalize fetched = s at *
  have hscene : Scenes ⟨s.world, [s.proc]⟩ s := .between List.mem_cons_self
  have hliteral : ∀ {n v s'}, s.read (.literal (.int n)) = .ok (v, s') → ∃ n, v = .int n := by
    intro n v s' hread
    cases hread
    exact ⟨n, rfl⟩
  have hop : ∀ {op : MemoryOp}, (∀ id ∈ 1 :: op.targets, id < 3) →
      (∀ o ∈ op.operands, o.WellFormed 3) → (Instruction.memory (some 1) op).stores = [] →
      (Instruction.memory (some 1) op).WellFormed s.proc.vars.kinds 0 := by
    intro op htargets hoperands hstores
    rw [← hlength] at htargets hoperands
    exact ⟨htargets, hoperands, by simp [hstores], by simp [Instruction.lines]⟩
  constructor
  · have hset : (Instruction.memory (some 1) (.set (.literal (.int 1)) (.var 0))).WellFormed
        s.proc.vars.kinds 0 := by
      refine hop (by decide) (fun o ho => ?_) rfl
      rcases List.mem_pair.1 ho with rfl | rfl
      · exact Operand.wellFormed_literal 3 rfl
      · exact Operand.wellFormed_var (by decide)
    have hagree := (memory_methods_agree hreach hscene hvar'
      (of_decide_eq_true hmemory) hset fun _ _ => hliteral).1
    have hsome : ¬ s.GetsNothing 1 (.set (.literal (.int 1)) (.var 0)) := by
      rintro ⟨addr, dest, h, n, s₁, m, heq, -⟩
      cases heq
    obtain ⟨r, hr⟩ := Option.isSome_iff_exists.1 hdone
    have hmemory := toOption_eq_some.1 hr
    exact ⟨r, hmemory, (hagree hsome).trans hmemory⟩
  · have hget : (Instruction.memory (some 1) (.get (.literal (.int 0)) 2)).WellFormed
        s.proc.vars.kinds 0 := by
      refine hop (by decide) (fun o ho => ?_) rfl
      cases List.mem_singleton.1 ho
      exact Operand.wellFormed_literal 3 rfl
    have hfaults := (memory_methods_agree hreach hscene hvar'
      (of_decide_eq_true hmemory) hget fun _ _ => hliteral).2
    exact hfaults ⟨.literal (.int 0), 2, ⟨1, 0, .component⟩, 0, s, m, rfl,
      toOption_eq_some.1 hreached, rfl, hm, none, toOption_eq_some.1 (of_decide_eq_true hcell),
      .inl rfl⟩

end Host

end TickScript
