/-
What the faults of a source are like, and where they are.

The pass that compiles a line places its fault there, but a fault that is
placed already stays where it is. So a fault is reported on the line it
belongs to only if no work on a single line has placed it before:
`Unplaced x` says that a fault of `x` is on no line.

Faults are also numbered, those of compiling below 50. There is one
exception: an expression whose parts pile up too deep for the generator
is refused with the overflow of its stack, which is numbered among the
faults of running. `Refuses x` says that a fault of `x` is on no line and
is of compiling or this one. Chains inherit both from their steps, so
they hold of everything that reads or compiles a part of a line, and of
compiling a whole one (`Compiler.line_refuses`).

Two faults of the model can never be reported here, and to show it is
what `Refuses.andThen` is for: a name that was found is
the index of a variable, and the generator never takes more fragments
than it has put on its stack.
-/
import TickScript.Proofs.Except
import TickScript.Proofs.Script.Compile

namespace TickScript

/-- A fault of `x` is on no line yet. -/
def Unplaced {α : Type} (x : Except Fault α) : Prop :=
  ∀ fault, x = .error fault → fault.line = none

namespace Unplaced

variable {α β : Type}

/-- What succeeds places no fault. -/
theorem ok (a : α) : Unplaced (.ok a) := nofun

theorem error {fault : Fault} (h : fault.line = none) :
    Unplaced (.error fault : Except Fault α) := by
  rintro _ ⟨⟩
  exact h

/-- A chain places no fault that none of its steps places. -/
theorem bind {x : Except Fault α} {f : α → Except Fault β} (hx : Unplaced x)
    (hf : ∀ a, Unplaced (f a)) : Unplaced (x >>= f) := by
  intro fault h
  rcases bind_eq_error.1 h with h | ⟨a, -, h⟩
  · exact hx fault h
  · exact hf a fault h

theorem map {x : Except Fault α} (hx : Unplaced x) (f : α → β) : Unplaced (x.map f) :=
  fun fault h => hx fault (map_eq_error.1 h)

end Unplaced

/-- The detail of the fault of an expression that is too deep. -/
def tooDeep : String := "EXPRESSION OVERFLOW"

/-- The fault is one of compiling, or that of an expression that is too
deep. -/
def Fault.OfCompiling (fault : Fault) : Prop :=
  fault.cause.isRuntime = false ∨ (fault.cause = .overflow ∧ fault.detail = tooDeep)

/-- A fault of `x` is on no line yet, and is of compiling. -/
def Refuses {α : Type} (x : Except Fault α) : Prop :=
  ∀ fault, x = .error fault → fault.line = none ∧ fault.OfCompiling

namespace Refuses

variable {α β : Type}

theorem ok (a : α) : Refuses (.ok a) := nofun

/-- A fault on no line with a cause of compiling will do. -/
theorem error {fault : Fault} (hline : fault.line = none)
    (hcause : fault.cause.isRuntime = false) : Refuses (.error fault : Except Fault α) := by
  rintro _ ⟨⟩
  exact ⟨hline, .inl hcause⟩

/-- A chain whose later steps rely on what the first one gave. -/
theorem andThen {x : Except Fault α} {f : α → Except Fault β} (hx : Refuses x)
    (hf : ∀ a, x = .ok a → Refuses (f a)) : Refuses (x >>= f) := by
  intro fault h
  rcases bind_eq_error.1 h with h | ⟨a, ha, h⟩
  · exact hx fault h
  · exact hf a ha fault h

/-- A chain refuses what one of its steps refuses. -/
theorem bind {x : Except Fault α} {f : α → Except Fault β} (hx : Refuses x)
    (hf : ∀ a, Refuses (f a)) : Refuses (x >>= f) :=
  hx.andThen fun a _ => hf a

/-- Changing what is given back adds no fault. -/
theorem map {x : Except Fault α} (hx : Refuses x) (f : α → β) : Refuses (x.map f) :=
  fun fault h => hx fault (map_eq_error.1 h)

/-- A look in place refuses what it looks at. -/
theorem look {σ : Type} {f : σ → Except Fault α} {s : σ} (hf : Refuses (f s)) :
    Refuses (InPlace.outcome (InPlace.look f) s) := by
  rw [InPlace.outcome_look]
  exact hf.map _

/-- A chain of work in place. -/
theorem steps {σ : Type} {p : InPlace σ α} {q : α → InPlace σ β} {s : σ}
    (hp : Refuses (InPlace.outcome p s)) (hq : ∀ a s', Refuses (InPlace.outcome (q a) s')) :
    Refuses (InPlace.outcome (p >>= q) s) := by
  rw [InPlace.outcome_bind]
  exact hp.bind fun r => hq r.1 r.2

end Refuses

-- ============================================================== formulas

/-- A full stack does not know which line is compiled. -/
theorem Stack.push_unplaced {α : Type} (s : Stack α) (item : α) : Unplaced (s.push item) := by
  unfold push
  split
  · exact .ok _
  · exact .error rfl

theorem Stack.pop_unplaced {α : Type} (s : Stack α) : Unplaced s.pop := by
  unfold pop
  split
  · exact .error rfl
  · exact .ok _

/-- Nor does an empty one, however many items are wanted. -/
theorem Stack.popMany_unplaced {α : Type} (s : Stack α) (n : Nat) : Unplaced (s.popMany n) := by
  unfold popMany
  split
  · exact .ok _
  · exact .error rfl

namespace Generate

/-- A fragment that no longer fits the stack is the one fault whose number is
not below 50. -/
theorem finish_refuses {frags : Fragments} (hfrags : frags.overflow = tooDeep) (frag : Fragment) :
    Refuses (finish frags frag) := by
  unfold finish Stack.push
  split
  next => exact .ok _
  next fault h =>
    split at h
    next => cases h
    next =>
      cases h
      rintro _ ⟨⟩
      exact ⟨rfl, .inr ⟨rfl, hfrags⟩⟩

/-- A call takes the fragments of its arguments, which are there. -/
theorem callFragment_refuses (frags : Fragments) (fs : List Fragment) (span : Span)
    (name : String) :
    Refuses
      (callFragment { frags with items := fs.reverse ++ frags.items } span name fs.length) := by
  unfold callFragment
  split
  · split
    next hthree =>
      obtain ⟨test, yes, no, rfl⟩ := List.length_eq_three.1 hthree
      exact .ok _
    next => exact .error rfl rfl
  · split
    · exact .error rfl rfl
    · simp only
      split
      · have hpop : Stack.popMany { frags with items := fs.reverse ++ frags.items } fs.length
            = .ok (fs, frags) := by
          simp [Stack.popMany]
        rw [hpop]
        exact .ok _
      · exact .error rfl rfl

mutual

/-- What is wrong with a term is an unknown function, a miscount of arguments,
or its depth. -/
theorem term_refuses (params : List String) : ∀ (t : Term) {frags : Fragments},
    frags.overflow = tooDeep → Refuses (term params t frags)
  | .int _ _, _, hfrags | .float _ _, _, hfrags | .bool _ _, _, hfrags => finish_refuses hfrags _
  | .var _ name, _, hfrags => by
      unfold term
      split
      · exact finish_refuses hfrags _
      · exact .error rfl rfl
  | .call span name args, frags, hfrags => by
      unfold term
      refine .andThen (terms_refuses params args hfrags) fun frags' hargs => ?_
      obtain ⟨fs, rfl, hemits⟩ := terms_emits hargs
      have hlength : fs.length = args.length := by simpa using hemits.length_eq
      rw [← hlength]
      refine .andThen (callFragment_refuses frags fs span name) fun ⟨frag, frags'⟩ hcall => ?_
      rw [hlength] at hcall
      obtain ⟨rfl, -⟩ := callFragment_emits hcall hemits
      exact finish_refuses hfrags _
  | .unary _ op arg, frags, hfrags => by
      unfold term
      refine .andThen (term_refuses params arg hfrags) fun frags' harg => ?_
      obtain ⟨frag, rfl, -⟩ := term_emits harg
      exact finish_refuses hfrags _
  | .binary _ op lhs rhs, frags, hfrags => by
      unfold term
      refine .andThen (term_refuses params lhs hfrags) fun frags' hlhs => ?_
      obtain ⟨left, rfl, -⟩ := term_emits hlhs
      refine .andThen (term_refuses params rhs hfrags) fun frags' hrhs => ?_
      obtain ⟨right, rfl, -⟩ := term_emits hrhs
      exact finish_refuses hfrags _

/-- The arguments of a call are generated with the stack of the call, so they
are too deep in the same way. -/
theorem terms_refuses (params : List String) : ∀ (ts : List Term) {frags : Fragments},
    frags.overflow = tooDeep → Refuses (terms params ts frags)
  | [], frags, _ => .ok frags
  | t :: ts, frags, hfrags => by
      unfold terms
      refine .andThen (term_refuses params t hfrags) fun frags' ht => ?_
      obtain ⟨frag, rfl, -⟩ := term_emits ht
      exact terms_refuses params ts hfrags

end

end Generate

/-- In the end the code is taken off the stack, on which it is left. -/
theorem Term.generate_refuses (t : Term) (params : List String) :
    Refuses (t.generate params) := by
  refine .andThen (Generate.term_refuses params t rfl) fun frags hterm => ?_
  obtain ⟨frag, rfl, -⟩ := Generate.term_emits hterm
  exact .ok _

-- ============================================================= variables

namespace Storage

variable (vars : Storage)

/-- A name without a variable is refused. -/
theorem id_refuses (name : String) : Refuses (vars.id name) := by
  unfold Storage.id
  split
  · exact .ok _
  · exact .error rfl rfl

/-- Nothing is known about the index here, so the fault may be an internal
one, which is on no line either. -/
theorem get_unplaced (id : VarId) : Unplaced (vars.get id) := by
  unfold get
  split
  · exact .ok _
  · exact .error rfl

variable {vars} in
/-- There is a variable for every index that was given out. -/
theorem get_refuses {id : VarId} (hid : id < vars.kinds.length) : Refuses (vars.get id) := by
  obtain ⟨v, -, hget, -⟩ := get_of_lt hid
  rw [hget]
  exact .ok v

/-- A name that is found is that of a variable. -/
theorem lookup_refuses {α : Type} {f : VarId → Variable → Except Fault α} (name : String)
    (hf : ∀ id v, Refuses (f id v)) : Refuses (do
      let id ← vars.id name
      let v ← vars.get id
      f id v) :=
  .andThen (vars.id_refuses name) fun id hid => .bind (get_refuses (lt_of_id hid)) fun v => hf id v

/-- What is found under a name is a variable, so only the name can be wrong. -/
theorem find_refuses (name : String) : Refuses (vars.find name) := by
  refine .andThen (vars.id_refuses name) fun id hid => ?_
  exact get_refuses (lt_of_id hid)

/-- A name that is taken is refused, and so is a variable too many. -/
theorem add_refuses (v : Variable) : Refuses (vars.add v) := by
  unfold add
  split
  · exact .error rfl rfl
  · split
    · exact .ok _
    · exact .error rfl rfl

end Storage

namespace Formula

variable (source : String) (vars : Storage)

/-- A parameter without a variable is refused where it stands in the
expression, on no line yet. -/
theorem resolve_refuses : ∀ names : List String, Refuses (resolve source vars names)
  | [] => .ok []
  | name :: names => by
      unfold resolve
      split
      next fault h =>
        rintro _ ⟨⟩
        exact vars.id_refuses name fault h
      next => exact .map (resolve_refuses names) _

/-- An expression fails to parse, to find its variables, or to be generated. -/
theorem compile_refuses : Refuses (compile source vars) := by
  unfold compile
  split
  next => exact .error rfl rfl
  next term _ =>
    refine .bind (resolve_refuses source vars _) fun _ => ?_
    exact .bind (term.generate_refuses _) fun _ => .ok _

end Formula

namespace Operand

variable (s : String) (vars : Storage)

theorem expression_refuses : Refuses (expression s vars) := by
  refine .bind (Formula.compile_refuses s vars) fun f => ?_
  split
  · exact .ok _
  · exact .ok _

/-- Only a variable that holds a character number will do. -/
theorem character_refuses : Refuses (character s vars) := by
  refine vars.lookup_refuses s fun id v => ?_
  split
  · exact .ok _
  · exact .error rfl rfl

/-- Every form of an operand fails in its own way, but no form reads a fault
that is placed. -/
theorem ofText_refuses : Refuses (ofText s vars) := by
  unfold ofText
  split
  · split
    · split
      · exact .error rfl rfl
      · exact .ok _
    · exact .error rfl rfl
  · split
    · split
      · exact character_refuses _ vars
      · exact .error rfl rfl
    · split
      · split
        · split
          · exact expression_refuses s vars
          · exact .ok _
        · exact expression_refuses s vars
      · exact expression_refuses s vars

end Operand

/-- All that is wrong with a name is that it is illegal. -/
theorem Name.check_refuses (s : String) : Refuses (check s) := by
  unfold check
  split
  repeat' split
  all_goals first | exact .error rfl rfl | exact .ok _

-- ================================================================= calls

namespace Call

/-- A bracket is wrong before the first space. -/
theorem readInstruction_refuses : ∀ (cs : List Char) (pos : Nat),
    Refuses (readInstruction pos cs)
  | [], _ => .ok _
  | c :: cs, pos => by
      unfold readInstruction
      split
      · exact .ok _
      · split
        · exact .error rfl rfl
        · exact .bind (readInstruction_refuses cs _) fun _ => .ok _

theorem readName_refuses : ∀ (cs : List Char) (pos : Nat), Refuses (readName pos cs)
  | [], _ => .ok _
  | c :: cs, pos => by
      unfold readName
      split
      · exact .ok _
      · split
        · exact .error rfl rfl
        · exact .bind (readName_refuses cs _) fun _ => .ok _

/-- The arguments are read character by character; the fault of one is the
fault of all that follow. -/
theorem readArgs_refuses : ∀ (cs : List Char) (pos : Nat) (s : ArgState),
    Refuses (readArgs pos s cs)
  | [], _, _ => .error rfl rfl
  | c :: cs, pos, s => by
      have hrest : ∀ s : ArgState, Refuses (readArgs (pos + 1) s cs) :=
        readArgs_refuses cs (pos + 1)
      unfold readArgs
      repeat' split
      all_goals
        first
        | exact .error rfl rfl
        | exact .ok _
        | exact hrest _
        | exact .map (hrest _) _

theorem readWord_refuses : ∀ (cs : List Char) (pos : Nat), Refuses (readWord pos cs)
  | [], _ => .ok _
  | c :: cs, pos => by
      unfold readWord
      split
      · exact .error rfl rfl
      · exact .map (readWord_refuses cs _) _

/-- After the closing bracket a space and a single word may stand. -/
theorem readReturn_refuses (rest : Rest) : Refuses (readReturn rest) := by
  unfold readReturn
  split
  · exact .ok _
  · split
    · exact .bind (readWord_refuses _ _) fun _ => .ok _
    · exact .error rfl rfl

/-- Reading a call is reading its parts in turn. -/
theorem parse_refuses (s : String) : Refuses (parse s) := by
  unfold parse parseChars
  split
  · exact .error rfl rfl
  · split
    · exact .error rfl rfl
    · split
      · exact .error rfl rfl
      · refine .bind (readInstruction_refuses _ _) fun ⟨_, _⟩ => ?_
        refine .bind (readName_refuses _ _) fun ⟨_, _⟩ => ?_
        refine .bind (readArgs_refuses _ _ _) fun ⟨_, _⟩ => ?_
        refine .bind (readReturn_refuses _) fun _ => ?_
        simp only
        repeat' split
        all_goals first | exact .error rfl rfl | exact .ok _

end Call

-- ================================================================= lines

namespace Compiler

open InPlace (outcome check outcome_once)

variable (vars : Storage) (c : Call)

theorem noReturn_refuses : Refuses (noReturn c) := by
  unfold noReturn
  split
  · exact .error rfl rfl
  · exact .ok _

theorem noArgs_refuses : Refuses (noArgs c) := by
  unfold noArgs
  split
  · exact .ok _
  · exact .error rfl rfl

theorem oneArg_refuses : Refuses (oneArg c) := by
  unfold oneArg
  split
  · exact .ok _
  · exact .error rfl rfl

theorem twoArgs_refuses : Refuses (twoArgs c) := by
  unfold twoArgs
  split
  · exact .ok _
  · exact .error rfl rfl

/-- The arguments are compiled in order, and the first that is refused refuses
the call. -/
theorem operands_refuses : ∀ texts : List String, Refuses (operands vars texts)
  | [] => .ok []
  | s :: ss => by
      refine .bind (Operand.ofText_refuses s vars) fun _ => ?_
      exact .bind (operands_refuses ss) fun _ => .ok _

/-- A readonly variable is refused, and so is a name without a variable. -/
theorem writable_refuses (name : String) : Refuses (writable vars name) := by
  refine vars.lookup_refuses name fun id v => ?_
  split
  · exact .error rfl rfl
  · exact .ok _

/-- A call with a result must name a variable for it, which it may write to. -/
theorem returnVar_refuses : Refuses (returnVar vars c) := by
  unfold returnVar
  split
  · exact writable_refuses vars _
  · exact .error rfl rfl

/-- That variable must be of the kind of the result. -/
theorem returnVarOf_refuses (kind : Kind) : Refuses (returnVarOf vars c kind) := by
  refine .andThen (returnVar_refuses vars c) fun id hid => ?_
  refine .bind (Storage.get_refuses (returnVar_lt hid)) fun v => ?_
  split
  · exact .ok _
  · exact .error rfl rfl

/-- A value is an expression; an entity is a variable of the same kind and
component type. -/
theorem source_refuses (kind : Kind) (component : Option String) (s : String) :
    Refuses (source vars kind component s) := by
  unfold source
  split
  · exact Operand.expression_refuses s vars
  · refine vars.lookup_refuses s fun id v => ?_
    split
    · exact .ok _
    · exact .error rfl rfl

theorem add_refuses (v : Variable) : Refuses (outcome (add v) vars) := by
  unfold add
  rw [outcome_once]
  exact vars.add_refuses v

/-- The type, the name and the value are compiled in turn, and what can still
be refused is to add the variable. -/
theorem declare_refuses (l : Line) : Refuses (outcome (declare l) vars) := by
  unfold declare
  split
  next =>
    simp only
    split
    next => exact .error rfl rfl
    next =>
      refine .steps (.look (Name.check_refuses _)) fun _ vars => ?_
      refine .steps (.look (source_refuses vars _ _ _)) fun _ vars => ?_
      exact .steps (add_refuses vars _) fun _ _ => .ok _
  next => exact .error rfl rfl

/-- Only variables for values and for entities are set. -/
theorem assign_refuses (l : Line) : Refuses (assign vars l) := by
  unfold assign
  split
  · refine .andThen (writable_refuses vars _) fun id hid => ?_
    refine .bind (Storage.get_refuses (writable_lt hid)) fun v => ?_
    split
    · exact .bind (source_refuses vars _ _ _) fun _ => .ok _
    · exact .error rfl rfl
  · exact .error rfl rfl

/-- A jump goes to a label that was bound in the first pass. -/
theorem jump_refuses (l : Line) : Refuses (jump vars l) := by
  unfold jump
  split
  · refine .bind (vars.find_refuses _) fun v => ?_
    split
    · exact .bind (Operand.expression_refuses _ vars) fun _ => .ok _
    · exact .error rfl rfl
  · exact .error rfl rfl

/-- A reading of the clock goes into a float, or a count of frames into an
integer. -/
theorem timeVar_refuses (whole : Bool) : Refuses (timeVar vars c whole) := by
  refine .bind (noArgs_refuses c) fun _ => ?_
  refine .andThen (returnVar_refuses vars c) fun id hid => ?_
  refine .bind (Storage.get_refuses (returnVar_lt hid)) fun v => ?_
  split
  · exact .ok _
  · exact .error rfl rfl

theorem time_refuses : Refuses (time vars c) := by
  unfold time
  split
  · exact .map (timeVar_refuses vars c _) _
  · exact .map (timeVar_refuses vars c _) _
  · exact .map (timeVar_refuses vars c _) _
  · refine .bind (oneArg_refuses c) fun _ => .bind (noReturn_refuses c) fun _ => ?_
    exact .bind (Operand.expression_refuses _ vars) fun _ => .ok _
  · exact .error rfl rfl

/-- Input goes into a value, or as a character into an integer. -/
theorem intake_refuses (s : String) : Refuses (intake vars s) := by
  unfold intake
  split
  · refine .bind (vars.id_refuses _) fun _ => ?_
    exact .bind (Operand.character_refuses _ vars) fun _ => .ok _
  · refine vars.lookup_refuses s fun id v => ?_
    split
    · exact .ok _
    · exact .error rfl rfl

theorem plain_refuses (op : ConsoleOp) : Refuses (plain c op) :=
  .bind (noArgs_refuses c) fun _ => .bind (noReturn_refuses c) fun _ => .ok op

/-- Each console function checks its arguments, then its return variable. -/
theorem console_refuses : Refuses (console vars c) := by
  unfold console
  split
  · exact plain_refuses c _
  · exact plain_refuses c _
  · exact plain_refuses c _
  · exact plain_refuses c _
  · refine .bind (oneArg_refuses c) fun _ => .bind (noReturn_refuses c) fun _ => ?_
    refine .bind (Operand.ofText_refuses _ vars) fun o => ?_
    split
    · exact .ok _
    · exact .ok _
    · exact .error rfl rfl
  · refine .bind (noArgs_refuses c) fun _ => ?_
    split
    · refine .andThen (intake_refuses vars _) fun target htarget => ?_
      refine .bind (Storage.get_refuses (intake_eq_ok htarget).1) fun v => ?_
      split
      · exact .error rfl rfl
      · exact .ok _
    · exact .error rfl rfl
  · refine .bind (oneArg_refuses c) fun _ => .bind (returnVarOf_refuses vars c _) fun _ => ?_
    exact .bind (intake_refuses vars _) fun _ => .ok _
  · split
    · exact .error rfl rfl
    · exact .bind (noReturn_refuses c) fun _ => .bind (operands_refuses vars _) fun _ => .ok _
  · exact .ok _
  · exact .error rfl rfl

/-- An address is a number. -/
theorem address_refuses (s : String) : Refuses (address vars s) := by
  refine .bind (Operand.expression_refuses s vars) fun o => ?_
  split
  · exact .ok _
  · exact .error rfl rfl

/-- Each memory function checks its arguments, then its return variable. -/
theorem memoryOp_refuses (method : String) : Refuses (memoryOp vars c method) := by
  unfold memoryOp
  split
  · refine .bind (oneArg_refuses c) fun _ => .bind (address_refuses vars _) fun _ => ?_
    exact .bind (returnVar_refuses vars c) fun _ => .ok _
  · refine .bind (oneArg_refuses c) fun _ => .bind (address_refuses vars _) fun _ => ?_
    exact .bind (returnVarOf_refuses vars c _) fun _ => .ok _
  · refine .bind (oneArg_refuses c) fun _ => .bind (address_refuses vars _) fun _ => ?_
    exact .bind (returnVarOf_refuses vars c _) fun _ => .ok _
  · refine .bind (twoArgs_refuses c) fun ⟨_, _⟩ => .bind (noReturn_refuses c) fun _ => ?_
    refine .bind (Operand.ofText_refuses _ vars) fun value => ?_
    split
    · exact .error rfl rfl
    · exact .error rfl rfl
    · exact .bind (address_refuses vars _) fun _ => .ok _
  · refine .bind (oneArg_refuses c) fun _ => .bind (noReturn_refuses c) fun _ => ?_
    exact .bind (address_refuses vars _) fun _ => .ok _
  · exact .error rfl rfl

theorem memoryVar_refuses (name : String) : Refuses (memoryVar vars name) := by
  refine vars.lookup_refuses name fun id v => ?_
  split
  · exact .ok _
  · exact .error rfl rfl

/-- A device that is named must be a variable for memories. -/
theorem memory_refuses : Refuses (memory vars c) := by
  unfold memory
  split
  · exact .map (memoryOp_refuses vars c _) _
  · exact .bind (memoryVar_refuses vars _) fun _ => .map (memoryOp_refuses vars c _) _
  · exact .error rfl rfl

theorem targetType_refuses (name : String) (v : Variable) : Refuses (targetType name v) := by
  unfold targetType
  split
  · exact .ok _
  · exact .ok _
  · exact .error rfl rfl

/-- The result of a method need not be taken; if it is, its kind must fit. -/
theorem methodReturn_refuses (method : String) (returns : Returns) :
    Refuses (methodReturn vars c method returns) := by
  unfold methodReturn
  split
  · exact .ok _
  · refine .andThen (writable_refuses vars _) fun id hid => ?_
    refine .bind (Storage.get_refuses (writable_lt hid)) fun v => ?_
    split
    · exact .error rfl rfl
    · exact .ok _
    · split
      · exact .ok _
      · exact .error rfl rfl

/-- The method is looked for under the type of the variable, and its arguments
are counted, before they are compiled. -/
theorem methodCall_refuses (registry : Registry) (target method : String) :
    Refuses (methodCall registry vars c target method) := by
  refine vars.lookup_refuses target fun id v => ?_
  refine .bind (targetType_refuses target v) fun _ => ?_
  split
  · exact .error rfl rfl
  · simp only
    split
    · refine .bind (operands_refuses vars _) fun _ => ?_
      exact .bind (methodReturn_refuses vars c _ _) fun _ => .ok _
    · exact .error rfl rfl

/-- The name and the type of a component are strings; the type must be known,
and the name must not be in braces. -/
theorem create_refuses (registry : Registry) : Refuses (outcome (create registry c) vars) := by
  refine .steps (.look (twoArgs_refuses c)) fun ⟨_, _⟩ vars => ?_
  refine .steps (.look (noReturn_refuses c)) fun _ vars => ?_
  refine .steps (.look (Operand.ofText_refuses _ vars)) fun _ vars => ?_
  refine .steps (.look (Operand.ofText_refuses _ vars)) fun _ vars => ?_
  split
  next =>
    refine .steps (.look (Name.check_refuses _)) fun _ vars => ?_
    split
    next => exact .error rfl rfl
    next =>
      split
      next => exact .error rfl rfl
      next => exact .steps (add_refuses vars _) fun _ _ => .ok _
  next => exact .error rfl rfl

theorem component_refuses (registry : Registry) :
    Refuses (outcome (component registry c) vars) := by
  unfold component
  split
  next => exact create_refuses vars c registry
  next =>
    split
    next => exact .look (methodCall_refuses vars c registry _ _)
    next => exact .error rfl rfl

/-- Compiling a line does not place its fault, which is of compiling. -/
theorem line_refuses (registry : Registry) (l : Line) :
    Refuses (outcome (line registry l) vars) := by
  have hcall {q : Call → InPlace Storage Instruction}
      (hq : ∀ c vars, Refuses (outcome (q c) vars)) :
      Refuses (outcome (check (Call.parse l.text) >>= q) vars) :=
    .steps (.look (Call.parse_refuses _)) hq
  unfold line
  split
  next => exact declare_refuses vars l
  next => exact .look (assign_refuses vars l)
  next => exact .look (jump_refuses vars l)
  next =>
    split
    next => exact .ok _
    next => exact .error rfl rfl
  next => exact hcall fun c vars => .look ((time_refuses vars c).map _)
  next => exact hcall fun c vars => .look ((console_refuses vars c).map _)
  next => exact hcall fun c vars => .look (memory_refuses vars c)
  next => exact hcall fun c vars => component_refuses vars c registry
  next => exact .error rfl rfl

/-- Neither does declaring a label. -/
theorem bindLabel_refuses (l : Line) (target : Nat) :
    Refuses (outcome (bindLabel l target) vars) := by
  refine .steps (.look ?_) fun name vars => add_refuses vars _
  unfold labelName
  split
  next => exact (Name.check_refuses _).map _
  next => exact .error rfl rfl

end Compiler

end TickScript
