/-
Faults of running scripts.

A processor that fails places the fault at its line, but, as with faults of
a source, one that is placed already stays where it is. Nothing that an
instruction does places a fault, as long as no method does
(`Instruction.execute_unplaced`), so the line on record is the one that
failed.

Of the work on variables, memories and entities more is said (`Raises`):
for what causes it fails. It never does so for a method that is missing or
is given arguments it does not take. That is settled before the work
begins, so whoever finds the method and counts the arguments can tell all
faults of a call apart.
-/
import TickScript.Proofs.Processor.Effects
import TickScript.Proofs.Script.Places

namespace TickScript

/-- Every fault of `x` is on no line yet and has a cause in `p`. -/
structure Raises {α : Type} (p : Cause → Prop) (x : Except Fault α) : Prop where
  unplaced : Unplaced x
  causes : FailsOnly p x

namespace Raises

variable {α β : Type} {p : Cause → Prop}

/-- What succeeds raises nothing. -/
theorem ok (a : α) : Raises p (.ok a) := ⟨.ok a, .ok a⟩

/-- A fault of the model is on no line, and its cause is all there is to
check. -/
theorem of {c : Cause} {detail : String} (h : p c) :
    Raises p (.error (.of c detail) : Except Fault α) := ⟨.error rfl, .error h⟩

/-- A chain raises what its steps raise. -/
theorem bind {x : Except Fault α} {f : α → Except Fault β} (hx : Raises p x)
    (hf : ∀ a, Raises p (f a)) : Raises p (x >>= f) :=
  ⟨hx.unplaced.bind fun a => (hf a).unplaced, hx.causes.bind fun a _ => (hf a).causes⟩

theorem map {x : Except Fault α} (hx : Raises p x) (f : α → β) : Raises p (x.map f) :=
  ⟨hx.unplaced.map f, hx.causes.map f⟩

end Raises

-- =========================================================== expressions

/-- A result that does not fit an integer is an overflow, of no line in
particular. -/
theorem Arith.exact_unplaced (i : Int) : Unplaced (Arith.exact i) := by
  unfold Arith.exact
  split
  · exact .ok _
  · exact .error rfl

/-- Whatever integers are combined for, the fault is one of arithmetic. -/
theorem Arith.onInts_unplaced {op : BinaryOp} {l r : Int64} {x : Except Fault Value}
    (hx : Arith.onInts op l r = some x) : Unplaced x := by
  cases op <;> cases hx
  case multiply | add | subtract => exact exact_unplaced _
  case modulus =>
    unfold remainder
    split
    · exact .error rfl
    · split
      · exact exact_unplaced _
      · exact .error rfl
  all_goals exact .ok _

/-- An operator fails for operands that do not go together, or in the
arithmetic. -/
theorem BinaryOp.apply_unplaced (op : BinaryOp) (l r : Value) : Unplaced (op.apply l r) := by
  unfold BinaryOp.apply
  split
  · split
    · exact .ok _
    · exact .error rfl
  · split
    next a b _ =>
      cases hx : Arith.onInts op a b with
      | none => exact .error rfl
      | some x => exact Arith.onInts_unplaced hx
    next =>
      split
      · exact .ok _
      · exact .error rfl
    next => exact .error rfl

theorem UnaryOp.apply_unplaced (op : UnaryOp) (v : Value) : Unplaced (op.apply v) := by
  unfold UnaryOp.apply
  split
  · exact Arith.exact_unplaced _
  · exact .ok _
  · exact .error rfl
  · exact .ok _
  · exact .error rfl

namespace Builtin

/-- An argument that is no number is a mismatch. -/
theorem floatArg_unplaced (f : Builtin) (v : Value) : Unplaced (f.floatArg v) := by
  unfold floatArg
  split
  · exact .ok _
  · exact .ok _
  · exact .error rfl

/-- A function of one float fails for its argument only. -/
theorem unary_unplaced (f : Builtin) (v : Value) : Unplaced (f.unary v) := by
  refine .bind (f.floatArg_unplaced v) fun x => ?_
  split
  · exact .ok _
  · exact .error rfl

/-- Two arguments taken as floats. -/
theorem floats_unplaced (f : Builtin) (l r : Value) (g : Float → Float → Float) :
    Unplaced (do let x ← f.floatArg l; let y ← f.floatArg r; .ok (Value.float (g x y))) :=
  .bind (f.floatArg_unplaced l) fun _ => .bind (f.floatArg_unplaced r) fun _ => .ok _

/-- The least integer has no absolute value. -/
theorem absOf_unplaced (v : Value) : Unplaced (absOf v) := by
  unfold absOf
  split
  · exact Arith.exact_unplaced _
  · exact .ok _
  · exact .error rfl

theorem signOf_unplaced (v : Value) : Unplaced (signOf v) := by
  unfold signOf
  split
  · exact .ok _
  · split
    · exact .error rfl
    · split
      · exact .ok _
      · exact .ok _
  · exact .error rfl

/-- A logarithm has one argument or two. -/
theorem logOf_unplaced (vs : List Value) : Unplaced (logOf vs) := by
  unfold logOf
  split
  · exact .bind (floatArg_unplaced _ _) fun _ => .bind (floatArg_unplaced _ _) fun _ => .ok _
  · split
    · exact .bind (floatArg_unplaced _ _) fun _ => .ok _
    · exact .error rfl

theorem maxOf_unplaced (l r : Value) : Unplaced (maxOf l r) := by
  unfold maxOf
  split
  · exact .ok _
  · exact floats_unplaced _ _ _ _

theorem minOf_unplaced (l r : Value) : Unplaced (minOf l r) := by
  unfold minOf
  split
  · exact .ok _
  · exact floats_unplaced _ _ _ _

end Builtin

namespace Machine

variable {m : Machine}

/-- The machine knows of no lines: its faults are those of its stack. -/
theorem push_unplaced (m : Machine) (v : Value) : Unplaced (m.push v) :=
  .bind (m.stack.push_unplaced v) fun _ => .ok _

/-- An operation on the top of the stack fails for want of a value, or by
itself. -/
theorem replaceOne_unplaced {f : Value → Except Fault Value} (hf : ∀ v, Unplaced (f v)) :
    Unplaced (m.replaceOne f) :=
  .bind m.stack.pop_unplaced fun ⟨v, _⟩ => .bind (hf v) fun _ => push_unplaced _ _

/-- An operation on the two values on top fails in the same ways. -/
theorem replaceTwo_unplaced {f : Value → Value → Except Fault Value}
    (hf : ∀ l r, Unplaced (f l r)) : Unplaced (m.replaceTwo f) := by
  have hpop : Unplaced m.stack.popTwo.1 := by
    unfold Stack.popTwo
    split
    · exact .ok _
    · exact .error rfl
  exact .bind hpop fun ⟨l, r⟩ => .bind (hf l r) fun _ => push_unplaced _ _

theorem applyLog_unplaced (m : Machine) : Unplaced m.applyLog := by
  refine .bind m.stack.pop_unplaced fun ⟨top, stack⟩ => ?_
  cases top with
  | int n =>
      exact .bind (stack.popMany_unplaced _) fun _ =>
        .bind (Builtin.logOf_unplaced _) fun _ => push_unplaced _ _
  | _ => exact .error rfl

/-- A function takes its values off the stack and puts its result there. -/
theorem applyBuiltin_unplaced (m : Machine) (f : Builtin) : Unplaced (m.applyBuiltin f) := by
  unfold applyBuiltin
  split
  · exact replaceOne_unplaced Builtin.absOf_unplaced
  · exact replaceOne_unplaced Builtin.signOf_unplaced
  · exact m.applyLog_unplaced
  · exact replaceTwo_unplaced Builtin.maxOf_unplaced
  · exact replaceTwo_unplaced Builtin.minOf_unplaced
  · exact replaceTwo_unplaced fun l r => Builtin.floats_unplaced _ l r _
  · exact push_unplaced _ _
  · exact replaceOne_unplaced (Builtin.unary_unplaced _)

/-- A branch wants a truth value on top of the stack. -/
theorem branch_unplaced (m : Machine) (address : Nat) : Unplaced (m.branch address) := by
  refine .bind m.stack.pop_unplaced fun ⟨v, stack⟩ => ?_
  cases v with
  | bool b => cases b <;> exact .ok _
  | _ => exact .error rfl

/-- Whatever an operation does, its fault is on no line. -/
theorem exec_unplaced (bound : List Value) (op : Op) (m : Machine) :
    Unplaced (exec bound op m) := by
  cases op with
  | literal v => exact m.push_unplaced v
  | push index =>
      simp only [exec]
      split
      · exact m.push_unplaced _
      · exact .error rfl
  | ifNot address => exact m.branch_unplaced address
  | jump address => exact .ok _
  | unary op => exact replaceOne_unplaced op.apply_unplaced
  | binary op => exact replaceTwo_unplaced op.apply_unplaced
  | builtin f => exact m.applyBuiltin_unplaced f

/-- A run ends with the fault of one of its operations, or for having taken
too many steps. -/
theorem run_unplaced (code : Code) (bound : List Value) : ∀ (steps : Nat) (m : Machine),
    Unplaced (run code bound steps m)
  | steps, m => by
      unfold run
      split
      next =>
        refine .bind m.stack.pop_unplaced fun ⟨v, stack⟩ => ?_
        simp only
        split
        · exact .ok _
        · exact .error rfl
      next => exact .error rfl
      next op steps _ =>
        exact .bind (exec_unplaced bound op _) fun m' => run_unplaced code bound steps m'

end Machine

-- ============================================================== operands

/-- An expression with an entity that is gone is not evaluated. -/
theorem Formula.bind_unplaced (vars : Storage) (alive : Handle → Bool) :
    ∀ params : List (String × VarId), Unplaced (Formula.bind vars alive params)
  | [] => .ok _
  | (name, id) :: params => by
      refine .bind (vars.get_unplaced id) fun var => ?_
      split
      · exact (bind_unplaced vars alive params).map _
      · exact .error rfl

/-- The value of an operand fails with its expression. -/
theorem Operand.value_unplaced (o : Operand) (vars : Storage) (alive : Handle → Bool)
    (draws : Draws) : Unplaced (o.value vars alive draws) := by
  cases o with
  | literal v => exact .ok _
  | text s => exact .ok _
  | formula f =>
      exact .bind (Formula.bind_unplaced vars alive f.params) fun bound =>
        Machine.run_unplaced f.code bound _ _
  | var id =>
      refine .bind (vars.get_unplaced id) fun v => ?_
      split
      · exact .ok _
      · exact .error rfl
  | char id =>
      refine .bind (vars.get_unplaced id) fun v => ?_
      split
      · split
        · exact .ok _
        · exact .error rfl
      · exact .error rfl

namespace Scene

variable {s : Scene}

theorem read_unplaced (s : Scene) (o : Operand) : Unplaced (s.read o) :=
  .bind (o.value_unplaced _ _ _) fun _ => .ok _

/-- Operands are read in order, each with the draws that those before it left.
-/
theorem readAll_unplaced : ∀ (os : List Operand) (s : Scene), Unplaced (s.readAll os)
  | [], _ => .ok _
  | o :: os, s =>
      .bind (s.read_unplaced o) fun ⟨_, s'⟩ => .bind (readAll_unplaced os s') fun _ => .ok _

/-- An address is an integer, or a float that is cut down to one. -/
theorem readAddress_unplaced (s : Scene) (o : Operand) : Unplaced (s.readAddress o) := by
  refine .bind (s.read_unplaced o) fun ⟨v, s'⟩ => ?_
  cases v with
  | int n => exact .ok _
  | float x =>
      simp only
      split
      · exact .ok _
      · exact .error rfl
  | _ => exact .error rfl

end Scene

-- ========================================== variables, memories, entities

/-- A cause that is not about which method was called, nor about what it
was called with. -/
def Cause.IsInner (c : Cause) : Prop := c ≠ .notSupported ∧ c ≠ .invalidOperand

instance (c : Cause) : Decidable c.IsInner := inferInstanceAs (Decidable (_ ∧ _))

/-- A variable that is missing is an internal fault. -/
theorem Storage.get_raises (vars : Storage) (id : VarId) :
    Raises Cause.IsInner (vars.get id) := by
  unfold get
  split
  · exact .ok _
  · exact .of (by decide)

namespace Memory

variable {m : Memory} {alive : Handle → Bool}

/-- An address out of bounds is a fault of its own. -/
theorem index_raises (m : Memory) (addr : Int64) : Raises Cause.IsInner (m.index addr) := by
  unfold index
  split
  · exact .ok _
  · exact .of (by decide)

/-- A cell may be looked at whatever it holds; only the address can be wrong. -/
theorem present_raises (m : Memory) (addr : Int64) :
    Raises Cause.IsInner (m.present alive addr) := by
  have hget : Raises Cause.IsInner (m.get addr) := .bind (m.index_raises addr) fun _ => .ok _
  refine .bind hget fun cell => ?_
  split
  · exact .ok _
  · exact .ok _

end Memory

namespace Standard

variable {a : Arena} {target : Handle} {args : List Value}

/-- An argument that is missing is an internal fault. -/
theorem intArg_raises (args : List Value) (i : Nat) : Raises Cause.IsInner (intArg args i) := by
  unfold intArg
  split
  · exact .ok _
  · exact .of (by decide)

theorem textArg_raises (args : List Value) (i : Nat) : Raises Cause.IsInner (textArg args i) := by
  unfold textArg
  split
  · exact .ok _
  · exact .of (by decide)

theorem anyArg_raises (args : List Value) (i : Nat) : Raises Cause.IsInner (anyArg args i) := by
  unfold anyArg
  split
  · exact .ok _
  · exact .of (by decide)

/-- The target of a memory method must be a living memory. -/
theorem device_raises (a : Arena) (target : Handle) :
    Raises Cause.IsInner (device a target) := by
  unfold device
  split
  · exact .ok _
  · exact .of (by decide)

/-- What reads a whole memory. -/
theorem reading_raises (args : List Value) (f : Memory → Value) :
    Raises Cause.IsInner (look (fun a target _ => do
      let m ← device a target
      .ok (some (f m))) a target args) :=
  .map (.bind (device_raises a target) fun _ => .ok _) _

/-- What reads a cell of a memory. -/
theorem cell_raises {β : Type} {f : Arena → Memory → Int64 → Except Fault β} {g : β → Value}
    (hf : ∀ m addr, Raises Cause.IsInner (f a m addr)) :
    Raises Cause.IsInner (look (fun a target args => do
      let addr ← intArg args 0
      let m ← device a target
      let found ← f a m addr
      .ok (some (g found))) a target args) :=
  .map (.bind (intArg_raises args 0) fun addr => .bind (device_raises a target) fun m =>
    .bind (hf m addr) fun _ => .ok _) _

theorem memoryIsNull_raises : Raises Cause.IsInner (memoryIsNull a target args) :=
  cell_raises fun m addr => .map (m.present_raises addr) _

theorem memoryGetType_raises : Raises Cause.IsInner (memoryGetType a target args) :=
  cell_raises fun m addr => .map (m.present_raises addr) _

theorem memoryGetValue_raises : Raises Cause.IsInner (memoryGetValue a target args) :=
  .map (.bind (intArg_raises args 0) fun addr => .bind (device_raises a target) fun m =>
    m.present_raises addr) _

/-- A part without such a component lacks it; the call was as it should be. -/
theorem partComponent_raises : Raises Cause.IsInner (partComponent a target args) := by
  refine .map (.bind (textArg_raises args 0) fun typeName => ?_) _
  refine .bind (intArg_raises args 1) fun n => ?_
  split
  · exact .of (by decide)
  · split
    · exact .ok _
    · exact .of (by decide)

theorem partComponentCount_raises : Raises Cause.IsInner (partComponentCount a target args) :=
  .map (.bind (textArg_raises args 0) fun _ => .ok _) _

/-- Setting a cell fails for the memory or for the address. -/
theorem memorySetValue_raises : Raises Cause.IsInner (memorySetValue a target args) := by
  refine .bind (intArg_raises args 0) fun addr => ?_
  refine .bind (anyArg_raises args 1) fun v => ?_
  have hrest : Raises Cause.IsInner (do
      let m ← device a target
      let r ← m.set addr v
      .ok ((none, (a.setMemory target r.2).exchange v r.1) : Option Value × Arena)) :=
    .bind (device_raises a target) fun m =>
      .bind (.bind (m.index_raises addr) fun _ => .ok _) fun _ => .ok _
  cases v with
  | entity h =>
      simp only
      split
      · exact hrest
      · exact .of (by decide)
  | _ => exact hrest

theorem memoryClear_raises : Raises Cause.IsInner (memoryClear a target args) :=
  .bind (intArg_raises args 0) fun addr => .bind (device_raises a target) fun m =>
    .bind (.bind (m.index_raises addr) fun _ => .ok _) fun _ => .ok _

end Standard

/-- Methods are looked for by their names. -/
theorem Registry.name_of_find {r : Registry} {typeName name : String} {m : Method}
    (h : r.find? typeName name = some m) : m.name = name := by
  obtain ⟨entry, hentry, rfl⟩ := Option.map_eq_some_iff.1 h
  have hnames := List.find?_some hentry
  simp only [Bool.and_eq_true, beq_iff_eq] at hnames
  exact hnames.2

/-- What is found in the standard registry is one of its methods. -/
theorem Registry.standard_methods {typeName name : String} {m : Method}
    (h : Registry.standard.find? typeName name = some m) :
    m ∈ Standard.partMethods ∨ m ∈ Standard.memoryMethods := by
  obtain ⟨entry, hentry, rfl⟩ := Option.map_eq_some_iff.1 h
  have hmem := List.mem_of_find?_eq_some hentry
  have hmethods : Registry.standard.methods
      = Standard.memoryMethods.reverse.map (Entity.memoryType, ·)
        ++ Standard.partMethods.reverse.map (Entity.partType, ·) := rfl
  rw [hmethods, List.mem_append] at hmem
  rcases hmem with hmem | hmem
  · obtain ⟨m, hm, rfl⟩ := List.mem_map.1 hmem
    exact .inr (List.mem_reverse.1 hm)
  · obtain ⟨m, hm, rfl⟩ := List.mem_map.1 hmem
    exact .inl (List.mem_reverse.1 hm)

open Standard in
/-- The standard methods fail neither for what they are nor for what they
are called with. -/
theorem Method.action_raises {m : Method} {typeName name : String} (a : Arena) (target : Handle)
    (args : List Value) (hfound : Registry.standard.find? typeName name = some m) :
    Raises Cause.IsInner (m.action a target args) := by
  rcases Registry.standard_methods hfound with hmem | hmem
  · simp only [partMethods, List.mem_cons, List.not_mem_nil, or_false] at hmem
    rcases hmem with rfl | rfl | rfl
    · exact .ok _
    · exact partComponent_raises
    · exact partComponentCount_raises
  · simp only [memoryMethods, List.mem_cons, List.not_mem_nil, or_false] at hmem
    rcases hmem with rfl | rfl | rfl | rfl | rfl | rfl | rfl | rfl | rfl
    · exact reading_raises args _
    · exact reading_raises args _
    · exact reading_raises args _
    · exact reading_raises args _
    · exact memoryIsNull_raises
    · exact memoryGetType_raises
    · exact memoryGetValue_raises
    · exact memorySetValue_raises
    · exact memoryClear_raises

namespace Scene

/-- A value may be of another kind than the variable, or an entity of another
type. -/
theorem store_raises (s : Scene) (id : VarId) (v : Value) :
    Raises Cause.IsInner (s.store id v) := by
  refine .bind (Storage.get_raises _ id) fun var => ?_
  have hcheck : Raises Cause.IsInner (s.checkType var v) := by
    unfold checkType
    split
    · split
      · exact .ok _
      · exact .of (by decide)
    · exact .ok _
  refine .bind hcheck fun _ => ?_
  have hset : Raises Cause.IsInner (s.proc.vars.set id v) := by
    refine .bind (Storage.get_raises _ id) fun var => .bind ?_ fun _ => .ok _
    unfold Variable.set
    split
    · exact .ok _
    · exact .of (by decide)
  exact .bind hset fun _ => .ok _

/-- An assignment converts the value to the kind of the variable first. -/
theorem assign_raises (s : Scene) (id : VarId) (v : Value) :
    Raises Cause.IsInner (s.assign id v) := by
  refine .bind (Storage.get_raises _ id) fun var => .bind ?_ fun w => s.store_raises id w
  unfold Kind.convert
  split
  · exact .ok _
  · exact .of (by decide)

/-- A result that is asked for must be there. -/
theorem storeResult_raises (s : Scene) (method : String) (ret : Option VarId)
    (result : Option Value) : Raises Cause.IsInner (s.storeResult method ret result) := by
  unfold storeResult
  split
  · exact .ok _
  · exact s.assign_raises _ _
  · exact .of (by decide)

/-- The local memory is always there, that of a component may be gone. -/
theorem device_raises (s : Scene) (target : Option Handle) :
    Raises Cause.IsInner (s.device target) := by
  cases target with
  | none => exact .ok _
  | some h => exact Standard.device_raises _ h

-- ========================================================== instructions

/-- A wait fails for its value, a reading of the clock for its variable. -/
theorem time_unplaced (s : Scene) (op : TimeOp) : Unplaced (s.time op) := by
  cases op with
  | framesSinceLaunch dest | secondsSinceLaunch dest | deltaTime dest =>
      exact (s.assign_raises dest _).unplaced
  | wait ticks =>
      refine .bind (s.read_unplaced ticks) fun ⟨v, s'⟩ => .bind ?_ fun n => ?_
      · unfold waitTicks
        split
        · exact .ok _
        · split
          · exact .ok _
          · exact .error rfl
        · exact .error rfl
      · simp only
        split
        · exact .ok _
        · exact .error rfl

/-- Digits too many for an integer are read as a float. -/
theorem numberValue_unplaced (digits : String) : Unplaced (numberValue digits) := by
  unfold numberValue
  split
  · exact .ok _
  · split
    · exact .ok _
    · exact .error rfl

/-- Console functions fail for their operands, or for input that cannot be
converted. -/
theorem console_unplaced (s : Scene) (op : ConsoleOp) : Unplaced (s.console op) := by
  cases op with
  | read | write => exact .ok _
  | clear stream => cases stream <;> exact .ok _
  | filter => exact .error rfl
  | push args => exact .bind (readAll_unplaced args s) fun _ => .ok _
  | canPop probe dest =>
      refine .bind ?_ fun ready => (s.store_raises dest _).unplaced
      cases probe with
      | char id => exact .ok _
      | number id => exact .bind (Storage.get_unplaced _ id) fun _ => .ok _
  | pop target =>
      cases target with
      | char dest =>
          simp only [console, popChar]
          split
          · exact .error rfl
          · exact .bind (s.store_raises dest _).unplaced fun _ => .ok _
      | number dest =>
          simp only [console, popNumber]
          split
          · exact .error rfl
          · refine .bind (Storage.get_unplaced _ dest) fun var => ?_
            split
            · exact .bind (numberValue_unplaced _) fun v =>
                .bind (s.assign_raises dest v).unplaced fun _ => .ok _
            · exact .error rfl

/-- The address is read before the memory is looked for; either may fail. -/
theorem memory_unplaced (s : Scene) (target : Option Handle) (op : MemoryOp) :
    Unplaced (s.memory target op) := by
  cases op with
  | get addr dest =>
      refine .bind (s.readAddress_unplaced addr) fun ⟨n, s'⟩ => ?_
      refine .bind (s'.device_raises target).unplaced fun m => ?_
      refine .bind (m.present_raises n).unplaced fun cell => ?_
      cases cell with
      | none => exact .error rfl
      | some v => exact (s'.assign_raises dest v).unplaced
  | getType addr dest | isNull addr dest =>
      refine .bind (s.readAddress_unplaced addr) fun ⟨n, s'⟩ => ?_
      refine .bind (s'.device_raises target).unplaced fun m => ?_
      exact .bind ((m.present_raises n).unplaced.map _) fun _ => (s'.store_raises dest _).unplaced
  | set addr value =>
      refine .bind (s.readAddress_unplaced addr) fun ⟨n, s'⟩ => ?_
      refine .bind (s'.read_unplaced value) fun ⟨v, s''⟩ => ?_
      refine .bind (s''.device_raises target).unplaced fun m => ?_
      exact .bind (.bind (m.index_raises n).unplaced fun _ => .ok _) fun _ => .ok _
  | clear addr =>
      refine .bind (s.readAddress_unplaced addr) fun ⟨n, s'⟩ => ?_
      refine .bind (s'.device_raises target).unplaced fun m => ?_
      exact .bind (.bind (m.index_raises n).unplaced fun _ => .ok _) fun _ => .ok _

/-- A method is called on an entity that is alive. -/
theorem reach_unplaced (s : Scene) (id : VarId) : Unplaced (s.reach id) := by
  refine .bind (Storage.get_unplaced _ id) fun var => ?_
  split
  · split
    · split
      · split
        · exact .ok _
        · exact .error rfl
      · exact .error rfl
    · exact .error rfl
  · exact .error rfl

end Scene

/-- The arguments are checked in order, each against its parameter. -/
theorem Method.checkArgs_unplaced (m : Method) : ∀ (ps : List Param) (vs : List Value) (i : Nat),
    Unplaced (m.checkArgs i ps vs)
  | [], _, _ => .ok _
  | _ :: _, [], _ => .ok _
  | p :: ps, v :: vs, i => by
      unfold checkArgs
      split
      · exact (m.checkArgs_unplaced ps vs (i + 1)).map _
      · exact .error rfl

/-- A method is invoked with the arguments it takes, so its fault is that of
its action. -/
theorem Method.invoke_unplaced {m : Method} {typeName name : String} (a : Arena)
    (target : Handle) (args : List Value)
    (hfound : Registry.standard.find? typeName name = some m) :
    Unplaced (m.invoke a target args) := by
  unfold invoke
  split
  · exact .bind (m.checkArgs_unplaced _ args 0) fun args' =>
      (action_raises a target args' hfound).unplaced
  · exact .error rfl

namespace Scene

/-- A call fails for its target, its method, its arguments, or in the method. -/
theorem call_unplaced {s : Scene} (target : VarId) (method : String) (args : List Operand)
    (ret : Option VarId) (hregistry : s.world.registry = .standard) :
    Unplaced (s.call target method args ret) := by
  refine .bind (s.reach_unplaced target) fun h => ?_
  split
  next => exact .error rfl
  next e _ =>
    intro fault hfault
    rcases bind_eq_error.1 hfault with hfault | ⟨⟨vs, s'⟩, hvs, hfault⟩
    · exact readAll_unplaced args s fault hfault
    · simp only [(readAll_quiet hvs).1.registry, hregistry] at hfault
      split at hfault
      next =>
        cases hfault
        rfl
      next m hm =>
        rcases bind_eq_error.1 hfault with hfault | ⟨⟨result, arena⟩, -, hfault⟩
        · exact Method.invoke_unplaced _ h vs hm fault hfault
        · exact (storeResult_raises _ method ret result).unplaced fault hfault

end Scene

/-- With the standard methods, no instruction places its fault. -/
theorem Instruction.execute_unplaced (i : Instruction) {s : Scene}
    (hregistry : s.world.registry = .standard) : Unplaced (i.execute s) := by
  cases i with
  | declare dest source =>
      simp only [execute]
      split
      · exact .ok _
      · exact .bind (s.read_unplaced source) fun r =>
          .bind (r.2.assign_raises dest r.1).unplaced fun _ => .ok _
  | assign dest source =>
      exact .bind (s.read_unplaced source) fun r =>
        .bind (r.2.assign_raises dest r.1).unplaced fun _ => .ok _
  | jump target condition =>
      refine .bind (s.read_unplaced condition) ?_
      rintro ⟨v, s'⟩
      cases v with
      | bool b => cases b <;> exact .ok _
      | _ => exact .error rfl
  | label | stop | create => exact .ok _
  | time op => exact (s.time_unplaced op).map _
  | console op => exact (s.console_unplaced op).map _
  | memory device op =>
      cases device with
      | none => exact (s.memory_unplaced none op).map _
      | some id => exact .bind (s.reach_unplaced id) fun h => (s.memory_unplaced (some h) op).map _
  | call target method args ret => exact (Scene.call_unplaced target method args ret hregistry).map _

end TickScript
