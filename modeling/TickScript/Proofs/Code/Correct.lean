/-
Generated code is correct. Running the code of a term with values bound
to its parameters gives what the term means with its names looked up
among these values: the same value and the same draws left, or the same
fault. Only a term that calls a logarithm may overflow instead.

The second half of the statement says that the machine never breaks. An
empty stack where an operand is due, a stack that is not empty at the
end, a parameter without a value, a logarithm without a count and code
that does not end are all internal faults, and a run of generated code
has none. What does go wrong in it is arithmetic: `Cause.IsComputing`.
-/
import TickScript.Proofs.Code.Simulation

namespace TickScript

-- ====================================================== computing faults

/-- The causes that computing with values can have. -/
def Cause.IsComputing (c : Cause) : Prop :=
  c = .overflow ∨ c = .divisionByZero ∨ c = .invalidOperand

/-- The value is computed, or refused for a reason of arithmetic. -/
abbrev Computes {α : Type} (x : Except Fault α) : Prop := FailsOnly Cause.IsComputing x

/-- Operands that do not go together are a fault of computing. -/
theorem computes_refuse {α : Type} (detail : String) :
    Computes (.error (.of .invalidOperand detail) : Except Fault α) :=
  .error (.inr (.inr rfl))

/-- So is a result out of range. -/
theorem computes_exact (i : Int) : Computes (Arith.exact i) := by
  unfold Arith.exact
  split
  · exact .ok _
  · exact .error (.inl rfl)

theorem computes_remainder (l r : Int64) : Computes (Arith.remainder l r) := by
  unfold Arith.remainder
  split
  · exact .error (.inr (.inl rfl))
  · split
    · exact computes_exact _
    · exact .error (.inl rfl)

/-- Whatever integers are combined for, they compute. -/
theorem computes_onInts {op : BinaryOp} {l r : Int64} {x : Except Fault Value}
    (h : Arith.onInts op l r = some x) : Computes x := by
  cases op <;> cases h <;>
    first | exact .ok _ | exact computes_exact _ | exact computes_remainder _ _

/-- Binary operators compute. -/
theorem BinaryOp.computes (op : BinaryOp) (l r : Value) : Computes (op.apply l r) := by
  unfold BinaryOp.apply
  split
  · split
    · exact .ok _
    · exact computes_refuse _
  · split
    · cases h : Arith.onInts op _ _ with
      | none => exact computes_refuse _
      | some x => exact computes_onInts h
    · split
      · exact .ok _
      · exact computes_refuse _
    · exact computes_refuse _

/-- Unary operators compute. -/
theorem UnaryOp.computes (op : UnaryOp) (v : Value) : Computes (op.apply v) := by
  unfold UnaryOp.apply
  split
  · exact computes_exact _
  · exact .ok _
  · exact computes_refuse _
  · exact .ok _
  · exact computes_refuse _

namespace Builtin

/-- An argument is a number, or refused. -/
theorem computes_floatArg (f : Builtin) (v : Value) : Computes (f.floatArg v) := by
  unfold floatArg
  split
  · exact .ok _
  · exact .ok _
  · exact computes_refuse _

/-- A function of one float refuses its argument only. -/
theorem computes_unary {f : Builtin} {g : Float → Float} (hg : f.onFloat? = some g) (v : Value) :
    Computes (f.unary v) := by
  unfold unary
  refine (computes_floatArg f v).bind fun x _ => ?_
  rw [hg]
  exact .ok _

theorem computes_absOf (v : Value) : Computes (absOf v) := by
  unfold absOf
  split
  · exact computes_exact _
  · exact .ok _
  · exact computes_refuse _

theorem computes_signOf (v : Value) : Computes (signOf v) := by
  unfold signOf
  split
  · exact .ok _
  · split
    · exact computes_refuse _
    · split <;> exact .ok _
  · exact computes_refuse _

/-- With an argument at least, a logarithm fails in computing only. -/
theorem computes_logOf {vs : List Value} (h : vs ≠ []) : Computes (logOf vs) := by
  unfold logOf
  split
  · exact (computes_floatArg log _).bind fun _ _ =>
      (computes_floatArg log _).bind fun _ _ => .ok _
  · rw [List.getLast?_eq_some_getLast h]
    exact (computes_floatArg log _).bind fun _ _ => .ok _

theorem computes_powOf (l r : Value) : Computes (powOf l r) :=
  (computes_floatArg pow l).bind fun _ _ => (computes_floatArg pow r).bind fun _ _ => .ok _

/-- Two numbers have a greater one; other values are refused. -/
theorem computes_maxOf (l r : Value) : Computes (maxOf l r) := by
  unfold maxOf
  split
  · exact .ok _
  · exact (computes_floatArg max l).bind fun _ _ =>
      (computes_floatArg max r).bind fun _ _ => .ok _

theorem computes_minOf (l r : Value) : Computes (minOf l r) := by
  unfold minOf
  split
  · exact .ok _
  · exact (computes_floatArg min l).bind fun _ _ =>
      (computes_floatArg min r).bind fun _ _ => .ok _

/-- A function called with as many arguments as it takes computes. -/
theorem computes_call {f : Builtin} {vs : List Value} (fewest : f.arity.1 ≤ vs.length)
    (most : vs.length ≤ f.arity.2) (draws : Draws) : Computes (f.call vs draws) := by
  cases f with
  | random =>
      obtain rfl := List.length_eq_zero_iff.1 (Nat.le_zero.1 most)
      exact .ok _
  | log =>
      match vs, fewest, most with
      | [v], _, _ => exact (computes_logOf (by simp)).map _
      | [v, base], _, _ => exact (computes_logOf (by simp)).map _
  | max =>
      obtain ⟨l, r, rfl⟩ := List.length_eq_two.1 (Nat.le_antisymm most fewest)
      exact (computes_maxOf l r).map _
  | min =>
      obtain ⟨l, r, rfl⟩ := List.length_eq_two.1 (Nat.le_antisymm most fewest)
      exact (computes_minOf l r).map _
  | pow =>
      obtain ⟨l, r, rfl⟩ := List.length_eq_two.1 (Nat.le_antisymm most fewest)
      exact (computes_powOf l r).map _
  | abs =>
      obtain ⟨v, rfl⟩ := List.length_eq_one_iff.1 (Nat.le_antisymm most fewest)
      exact (computes_absOf v).map _
  | sign =>
      obtain ⟨v, rfl⟩ := List.length_eq_one_iff.1 (Nat.le_antisymm most fewest)
      exact (computes_signOf v).map _
  | _ =>
      obtain ⟨v, rfl⟩ := List.length_eq_one_iff.1 (Nat.le_antisymm most fewest)
      exact (computes_unary rfl v).map _

end Builtin

section

variable {params : List String} {bound : List Value} {look : String → Option Value}

mutual

/-- A term that code was generated for computes. -/
theorem Emits.computes (hbinds : Binds params bound look) {n : Nat} : {t : Term} →
    {code : Code} → Emits params n t code → ∀ draws, Computes (t.eval look draws)
  | _, _, .int, _ => .ok _
  | _, _, .float, _ => .ok _
  | _, _, .bool, _ => .ok _
  | .var _ name, _, .var found, _ => by
      obtain ⟨v, -, hlook⟩ := hbinds name _ found
      simp only [Term.eval, hlook]
      exact .ok _
  | .unary _ op _, _, .unary inner, draws => by
      simp only [Term.eval]
      exact (inner.computes hbinds draws).bind fun v _ =>
        (op.computes v.1).bind fun _ _ => .ok _
  | .binary _ op _ _, _, .binary first second, draws => by
      simp only [Term.eval]
      exact (first.computes hbinds draws).bind fun l _ =>
        (second.computes hbinds l.2).bind fun r _ =>
          (op.computes l.1 r.1).bind fun _ _ => .ok _
  | .call _ _ _, _, .conditional isConditional first second third, draws => by
      simp only [Term.eval, isConditional, if_true, Term.evalIf]
      refine (first.computes hbinds draws).bind fun v _ => ?_
      split
      · exact second.computes hbinds v.2
      · exact third.computes hbinds v.2
      · exact computes_refuse _
  | .call _ _ _, _, .call isFunction known fewest most inner, draws => by
      simp only [Term.eval, isFunction, known, Bool.false_eq_true, if_false]
      refine (inner.computes hbinds draws).bind fun r hr => ?_
      rw [← Term.length_evalAll hr] at fewest most
      exact Builtin.computes_call fewest most r.2

/-- Terms that code was generated for compute. -/
theorem EmitsAll.computes (hbinds : Binds params bound look) {n : Nat} : {ts : List Term} →
    {codes : List Code} → EmitsAll params n ts codes →
    ∀ draws, Computes (Term.evalAll look ts draws)
  | _, _, .nil, _ => .ok _
  | _ :: _, _, .cons first rest, draws => by
      simp only [Term.evalAll]
      exact (first.computes hbinds draws).bind fun v _ =>
        (rest.computes hbinds v.2).bind fun _ _ => .ok _

end

-- ============================================================ whole runs

/-- A run of generated code gives what the term means. -/
theorem Emits.run (hbinds : Binds params bound look) {t : Term} {code : Code}
    (h : Emits params Stack.depth t code) (draws : Draws) :
    code.run bound draws = t.eval look draws
      ∨ (t.callsLog = true ∧ code.run bound draws = .error Machine.tooComplex) := by
  have hroom : Machine.HasRoom (Machine.start draws).stack Stack.depth :=
    ⟨Nat.le_refl _, rfl⟩
  rcases h.meets hbinds (m := Machine.start draws) (Placed.self code) hroom with hmeets | hmeets
  · refine .inl ?_
    change Machine.run code bound code.length (Machine.start draws) = _
    cases heval : t.eval look (Machine.start draws).draws with
    | error fault =>
        rw [heval] at hmeets
        rw [hmeets code.length (Nat.le_refl _)]
        exact heval.symm
    | ok r =>
        rw [heval] at hmeets
        obtain ⟨steps, -, hrun⟩ := hmeets code.length (Nat.le_refl _)
        rw [hrun, Machine.run_end]
        · exact heval.symm
        · rw [List.getElem?_eq_none_iff]
          exact Nat.le_add_left ..
  · exact .inr ⟨hmeets.1, hmeets.2 code.length (Nat.le_refl _)⟩

/-- A run of generated code computes. -/
theorem Emits.computes_run (hbinds : Binds params bound look) {t : Term} {code : Code}
    (h : Emits params Stack.depth t code) (draws : Draws) :
    Computes (code.run bound draws) := by
  rcases h.run hbinds draws with heval | ⟨-, hfull⟩
  · rw [heval]
    exact h.computes hbinds draws
  · rw [hfull]
    exact .error (.inl rfl)

end

/-- Generating code succeeds only with code that the stack had room
for. -/
theorem Term.generate_emits {t : Term} {params : List String} {code : Code}
    (h : t.generate params = .ok code) : Emits params Stack.depth t code := by
  obtain ⟨frags, hterm, h⟩ := bind_eq_ok.1 h
  obtain ⟨frag, rfl, hemits⟩ := Generate.term_emits hterm
  cases h
  exact hemits

/-- What a name looks up among the values of parameters. -/
def lookUp (params : List String) (values : List Value) (name : String) : Option Value :=
  (params.zip values).lookup name

/-- With a value for each parameter, reading by position is reading by
name. -/
theorem binds_lookUp {params : List String} {values : List Value}
    (hlen : values.length = params.length) : Binds params values (lookUp params values) := by
  induction params generalizing values with
  | nil => intro name index hfound; simp at hfound
  | cons p ps ih =>
      match values, hlen with
      | v :: vs, hlen =>
          intro name index hfound
          rw [List.findIdx?_cons] at hfound
          by_cases hname : p = name
          · subst hname
            simp only [BEq.rfl, if_true, Option.some.injEq] at hfound
            subst hfound
            exact ⟨v, rfl, by simp [lookUp]⟩
          · simp only [beq_eq_false_iff_ne.2 hname, Bool.false_eq_true, if_false,
              Option.map_eq_some_iff] at hfound
            obtain ⟨i, hi, rfl⟩ := hfound
            obtain ⟨w, hw, hlook⟩ := ih (Nat.succ.inj hlen) name i hi
            refine ⟨w, hw, ?_⟩
            rw [lookUp, List.zip_cons_cons, List.lookup_cons,
              beq_eq_false_iff_ne.2 (Ne.symm hname)]
            exact hlook

/-- Generated code computes what the term means, and never breaks. The
parameters need no care: code is generated only if they cover the names
of the term, and of two with one name both sides read the first. -/
theorem run_generate {t : Term} {params : List String} {code : Code}
    (hcode : t.generate params = .ok code) {values : List Value}
    (hvalues : values.length = params.length) (draws : Draws) :
    (code.run values draws = t.eval (lookUp params values) draws
      ∨ (t.callsLog = true
          ∧ code.run values draws = .error (.of .overflow "EXPRESSION TOO COMPLEX")))
    ∧ ∀ fault, code.run values draws = .error fault → fault.cause ≠ .internalError := by
  have hemits := Term.generate_emits hcode
  have hbinds := binds_lookUp hvalues
  refine ⟨hemits.run hbinds draws, fun fault hfault => ?_⟩
  rcases hemits.computes_run hbinds draws fault hfault with h | h | h <;> simp [h]

/-- The conditional `if(x < 3, max(x, 1), -x)`. -/
def lessThanThree : Term :=
  .call ⟨0, 2⟩ "if"
    [.binary ⟨5, 6⟩ .less (.var ⟨3, 4⟩ "x") (.int ⟨7, 8⟩ 3),
      .call ⟨10, 13⟩ "max" [.var ⟨14, 15⟩ "x", .int ⟨17, 18⟩ 1],
      .unary ⟨21, 22⟩ .negate (.var ⟨22, 23⟩ "x")]

/-- At `x = 5` the code of the conditional branches past its second
part, as the conditional does. -/
theorem run_generate_lessThanThree :
    ∃ code, lessThanThree.generate ["x"] = .ok code
      ∧ code.run [.int 5] ⟨0⟩ = lessThanThree.eval (lookUp ["x"] [.int 5]) ⟨0⟩
      ∧ code.run [.int 5] ⟨0⟩ = .ok (.int (-5), ⟨0⟩) := by
  have hcode : lessThanThree.generate ["x"]
      = .ok [.push 0, .literal (.int 3), .binary .less, .ifNot 8, .push 0,
          .literal (.int 1), .builtin .max, .jump 10, .push 0, .unary .negate] := rfl
  have hrun := (@run_generate _ _ _ hcode [.int 5] rfl ⟨0⟩).1.resolve_right
    (fun h => Bool.noConfusion h.1)
  exact ⟨_, hcode, hrun, hrun.trans rfl⟩

end TickScript
