/-
Generated code branches forward and ends.

Every address in generated code lies behind the branch that names it, and
no further than the end of the code; every parameter that is pushed is one
that there is (`Code.InBounds`). Each step of a machine thus takes it
further on in the code, and a run has no more steps than the code has
instructions.

# Addresses in fragments

The generator counts addresses from the first instruction of a fragment and
moves them whenever the fragment becomes part of a larger one. Halfway
through a conditional the test leads past all the code that there is yet.
Hence the bound on addresses is not the length of the code but a number of
its own, which moves along when the code is moved and may be raised.

# Runs without a limit

`Machine.run` is told how many steps it may take and gives up after these.
`Machine.Ends` says, of the same steps, how many a machine takes that nobody
stops. It holds for one number of steps at most (`Ends.unique`), and a
machine that may take as many answers the same (`Ends.run_eq`).
-/
import TickScript.Proofs.Code.Correct

namespace TickScript

-- ================================================================ bounds

namespace Op

/-- What the instruction at `index` refers to is there: a parameter is one
of `count`, an address lies ahead and is no further than `stop`. -/
def InBounds (count index stop : Nat) : Op → Prop
  | push j => j < count
  | ifNot a | jump a => index < a ∧ a ≤ stop
  | literal _ | unary _ | binary _ | builtin _ => True

variable {op : Op} {count index stop stop' : Nat}

/-- The bound on addresses may be raised. -/
theorem InBounds.mono (h : op.InBounds count index stop) (hle : stop ≤ stop') :
    op.InBounds count index stop' := by
  cases op with
  | ifNot a | jump a => exact ⟨h.1, Nat.le_trans h.2 hle⟩
  | _ => exact h

/-- Addresses move along with the instruction. -/
theorem InBounds.relocate (h : op.InBounds count index stop) (offset : Nat) :
    (op.relocate offset).InBounds count (offset + index) (offset + stop) := by
  cases op with
  | ifNot a | jump a =>
      obtain ⟨hahead, hstop⟩ := h
      constructor
      · omega
      · omega
  | _ => exact h

end Op

namespace Code

/-- What the instructions refer to is there, each at its place. -/
def InBounds (count stop : Nat) (code : Code) : Prop :=
  ∀ (i : Nat) (op : Op), code[i]? = some op → op.InBounds count i stop

namespace InBounds

variable {count stop stop' : Nat} {code a b : Code} {op : Op}

theorem nil : InBounds count stop [] := by
  intro i op hop
  cases hop

/-- The bound may be raised for all of the code. -/
theorem mono (h : code.InBounds count stop) (hle : stop ≤ stop') :
    code.InBounds count stop' :=
  fun i op hop => (h i op hop).mono hle

/-- Code with one more instruction behind it. -/
theorem concat (h : code.InBounds count stop) (hop : op.InBounds count code.length stop) :
    InBounds count stop (code ++ [op]) := by
  intro i op' hop'
  rw [List.getElem?_append] at hop'
  split at hop'
  next => exact h i op' hop'
  next hge =>
    obtain ⟨hi, rfl⟩ := List.getElem?_eq_some_iff.1 hop'
    have hlast : i = code.length := by
      rw [List.length_singleton] at hi
      omega
    simpa [hlast] using hop

/-- The bound of the second part moves up by the length of the first. -/
theorem link (ha : a.InBounds count stop) (hb : b.InBounds count stop')
    (hle : a.length + stop' ≤ stop) : (a.link b).InBounds count stop := by
  intro i op hop
  rw [Code.link, List.getElem?_append] at hop
  split at hop
  next => exact ha i op hop
  next hge =>
    rw [List.getElem?_map] at hop
    obtain ⟨op', hop', rfl⟩ := Option.map_eq_some_iff.1 hop
    have hmoved := (hb _ op' hop').relocate a.length
    rw [Nat.add_sub_cancel' (Nat.le_of_not_lt hge)] at hmoved
    exact hmoved.mono hle

/-- Of the two branches of a conditional one leads behind the first part,
and the other behind the second. -/
theorem conditional {test yes no : Code} (htest : test.InBounds count test.length)
    (hyes : yes.InBounds count yes.length) (hno : no.InBounds count no.length) :
    (Generate.conditional test yes no).InBounds count
      (Generate.conditional test yes no).length := by
  rw [Generate.length_conditional]
  unfold Generate.conditional
  -- the test leads behind the first part before this part is there
  have hbranch : InBounds count (test.length + yes.length + 2 + no.length)
      (test ++ [.ifNot (test.length + 1 + yes.length + 1)]) := by
    apply concat
    · exact htest.mono (by omega)
    · constructor
      · omega
      · omega
  have hchosen := hbranch.link hyes (by
    rw [List.length_append, List.length_singleton]
    omega)
  apply link
  · apply hchosen.concat
    constructor
    · omega
    · simp only [length_link, List.length_append, List.length_singleton]
      omega
  · exact hno
  · simp only [length_link, List.length_append, List.length_singleton]
    omega

/-- The instructions of a call refer to nothing. -/
theorem call (h : code.InBounds count stop) (f : Builtin) (args : Nat) :
    InBounds count stop (code ++ f.instructions args) := by
  unfold Builtin.instructions
  rw [← List.append_assoc]
  split
  · rw [List.append_nil]
    exact h.concat trivial
  · have hcounted : InBounds count stop (code ++ [.literal (.int (Int64.ofNat args))]) :=
      h.concat trivial
    exact hcounted.concat trivial

end InBounds

end Code

section

variable {params : List String}

mutual

/-- Code of a term stays within its own bounds. -/
theorem Emits.inBounds {n : Nat} : {t : Term} → {code : Code} → Emits params n t code →
    code.InBounds params.length code.length
  | _, _, .int | _, _, .float | _, _, .bool => Code.InBounds.nil.concat trivial
  | _, _, .var found => Code.InBounds.nil.concat (List.findIdx?_eq_some_iff_findIdx_eq.1 found).1
  | _, _, .unary inner => by
      apply Code.InBounds.concat
      · apply inner.inBounds.mono
        simp
      · trivial
  | _, _, .binary first second => by
      apply Code.InBounds.concat
      · apply (first.inBounds.mono ?_).link second.inBounds
        · simp
        · simp [Nat.add_assoc]
      · trivial
  | _, _, .conditional _ first second third =>
      .conditional first.inBounds second.inBounds third.inBounds
  | _, _, .call _ _ _ _ inner => by
      apply Code.InBounds.call
      apply inner.inBounds.mono
      simp

/-- So do the codes of several terms, one after the other. -/
theorem EmitsAll.inBounds {n : Nat} : {ts : List Term} → {codes : List Code} →
    EmitsAll params n ts codes →
    (Code.join codes).InBounds params.length (Code.join codes).length
  | _, _, .nil => .nil
  | _, _, .cons first rest => by
      rw [Code.join, Code.length_link]
      exact (first.inBounds.mono (Nat.le_add_right ..)).link rest.inBounds (Nat.le_refl _)

end

end

-- ================================================================= steps

namespace Machine

/-- The index of the machine that `x` leads to, if it does not fail, is
as `p` says. -/
def Lands (p : Nat → Prop) (x : Except Fault Machine) : Prop := ∀ m, x = .ok m → p m.pc

section

variable {p : Nat → Prop} {m m' : Machine} {bound : List Value} {op : Op}

theorem lands_ok (h : p m.pc) : Lands p (.ok m) := by
  intro m' hm'
  cases hm'
  exact h

/-- What fails lands nowhere. -/
theorem lands_error (fault : Fault) : Lands p (.error fault) := nofun

/-- A chain lands where its last step does. -/
theorem lands_bind {α : Type} {x : Except Fault α} {f : α → Except Fault Machine}
    (hf : ∀ a, Lands p (f a)) : Lands p (x >>= f) := by
  intro m hm
  obtain ⟨a, -, ha⟩ := bind_eq_ok.1 hm
  exact hf a m ha

theorem lands_push (h : p m.pc) (v : Value) : Lands p (m.push v) :=
  lands_bind fun _ => lands_ok h

/-- Work on the stack leaves the index. -/
theorem lands_replaceOne (h : p m.pc) (f : Value → Except Fault Value) :
    Lands p (m.replaceOne f) :=
  lands_bind fun r => lands_bind fun w => lands_push (m := { m with stack := r.2 }) h w

theorem lands_replaceTwo (h : p m.pc) (f : Value → Value → Except Fault Value) :
    Lands p (m.replaceTwo f) :=
  lands_bind fun _ => lands_bind fun w =>
    lands_push (m := { m with stack := m.stack.popTwo.2 }) h w

theorem lands_applyLog (h : p m.pc) : Lands p m.applyLog := by
  refine lands_bind fun ⟨top, _⟩ => ?_
  cases top with
  | int n =>
      exact lands_bind fun r => lands_bind fun w => lands_push (m := { m with stack := r.2 }) h w
  | _ => exact lands_error _

theorem lands_applyBuiltin (h : p m.pc) (f : Builtin) : Lands p (m.applyBuiltin f) := by
  cases f with
  | log => exact lands_applyLog h
  | random => exact lands_push (m := { m with draws := m.draws.next.2 }) h _
  | max | min | pow => exact lands_replaceTwo h _
  | _ => exact lands_replaceOne h _

/-- A branch leaves the index, or takes it to its address. -/
theorem lands_branch {address : Nat} (h : p m.pc) (haddress : p address) :
    Lands p (m.branch address) := by
  refine lands_bind fun ⟨v, _⟩ => ?_
  cases v with
  | bool b =>
      cases b with
      | true => exact lands_ok h
      | false => exact lands_ok haddress
  | _ => exact lands_error _

/-- An instruction leaves the index as it is or goes to its address. -/
theorem lands_exec (bound : List Value) (op : Op) (m : Machine) :
    Lands (fun pc => pc = m.pc ∨ op = .ifNot pc ∨ op = .jump pc) (exec bound op m) := by
  cases op with
  | literal v => exact lands_push (.inl rfl) v
  | push index =>
      simp only [exec]
      split
      · exact lands_push (.inl rfl) _
      · exact lands_error _
  | ifNot address => exact lands_branch (.inl rfl) (.inr (.inl rfl))
  | jump address => exact lands_ok (.inr (.inr rfl))
  | unary op => exact lands_replaceOne (.inl rfl) _
  | binary op => exact lands_replaceTwo (.inl rfl) _
  | builtin f => exact lands_applyBuiltin (.inl rfl) f

/-- A step takes the machine further on, but not past the end. -/
theorem step_forward {code : Code} {count : Nat} (hcode : code.InBounds count code.length)
    (hop : code[m.pc]? = some op) (hexec : exec bound op { m with pc := m.pc + 1 } = .ok m') :
    m.pc < m'.pc ∧ m'.pc ≤ code.length := by
  have hlt : m.pc < code.length := (List.getElem?_eq_some_iff.1 hop).1
  have hbounds := hcode _ _ hop
  rcases lands_exec _ _ _ m' hexec with hnext | rfl | rfl
  · simp only at hnext
    omega
  · exact hbounds
  · exact hbounds

end

-- ================================================================== runs

/-- The machine ends after so many steps, with this value or fault. The
instruction that fails is a step, too. -/
inductive Ends (code : Code) (bound : List Value) :
    Machine → Nat → Except Fault (Value × Draws) → Prop where
  | past {m : Machine} (here : code[m.pc]? = none) : Ends code bound m 0 m.result
  | failed {m : Machine} {op : Op} {fault : Fault} (here : code[m.pc]? = some op)
      (fails : exec bound op { m with pc := m.pc + 1 } = .error fault) :
      Ends code bound m 1 (.error fault)
  | step {m m' : Machine} {op : Op} {k : Nat} {r : Except Fault (Value × Draws)}
      (here : code[m.pc]? = some op)
      (leads : exec bound op { m with pc := m.pc + 1 } = .ok m')
      (rest : Ends code bound m' k r) : Ends code bound m (k + 1) r

variable {code : Code} {bound : List Value} {m : Machine} {k k' : Nat}
  {r r' : Except Fault (Value × Draws)}

/-- A machine ends in one way only. -/
theorem Ends.unique (h : Ends code bound m k r) (h' : Ends code bound m k' r') :
    k' = k ∧ r' = r := by
  induction h generalizing k' with
  | past here =>
      cases h' with
      | past => exact ⟨rfl, rfl⟩
      | failed here' | step here' => simp [here] at here'
  | failed here fails =>
      cases h' with
      | past here' => simp [here] at here'
      | failed here' fails' =>
          cases here.symm.trans here'
          cases fails.symm.trans fails'
          exact ⟨rfl, rfl⟩
      | step here' leads' =>
          cases here.symm.trans here'
          simp [fails] at leads'
  | step here leads rest ih =>
      cases h' with
      | past here' => simp [here] at here'
      | failed here' fails' =>
          cases here.symm.trans here'
          simp [leads] at fails'
      | step here' leads' rest' =>
          cases here.symm.trans here'
          cases leads.symm.trans leads'
          obtain ⟨rfl, rfl⟩ := ih rest'
          exact ⟨rfl, rfl⟩

/-- A run that may take as many steps as the machine needs ends as the
machine does. -/
theorem Ends.run_eq (h : Ends code bound m k r) {steps : Nat} (hle : k ≤ steps) :
    run code bound steps m = r := by
  induction h generalizing steps with
  | past here => exact run_end here
  | failed here fails =>
      obtain ⟨n, rfl⟩ := Nat.exists_eq_add_one_of_ne_zero (Nat.ne_of_gt hle)
      rw [run_succ here, fails, error_bind]
  | step here leads rest ih =>
      obtain ⟨n, rfl⟩ := Nat.exists_eq_add_one_of_ne_zero (Nat.ne_zero_of_lt hle)
      rw [run_succ here, leads, ok_bind]
      exact ih (Nat.le_of_succ_le_succ hle)

/-- With code that keeps within its bounds every machine ends, and takes
no more steps than there are instructions before it. -/
theorem exists_ends {count : Nat} (hcode : code.InBounds count code.length)
    (bound : List Value) (m : Machine) (hpc : m.pc ≤ code.length) :
    ∃ k r, k + m.pc ≤ code.length ∧ Ends code bound m k r := by
  -- on how many instructions are before the machine at most
  obtain ⟨left, hleft⟩ : ∃ left, code.length ≤ left + m.pc := ⟨code.length, Nat.le_add_right ..⟩
  induction left generalizing m with
  | zero =>
      have hpast : code[m.pc]? = none := List.getElem?_eq_none (by omega)
      exact ⟨0, m.result, by omega, .past hpast⟩
  | succ left ih =>
      cases hop : code[m.pc]? with
      | none => exact ⟨0, m.result, by omega, .past hop⟩
      | some op =>
          have hlt : m.pc < code.length := (List.getElem?_eq_some_iff.1 hop).1
          cases hexec : exec bound op { m with pc := m.pc + 1 } with
          | error fault => exact ⟨1, .error fault, by omega, .failed hop hexec⟩
          | ok m' =>
              obtain ⟨hforward, hend⟩ := step_forward hcode hop hexec
              obtain ⟨k, r, hk, hrest⟩ := ih m' hend (by omega)
              exact ⟨k + 1, r, by omega, .step hop hexec hrest⟩

end Machine

-- ======================================================== generated code

/-- Generated code branches forward and ends.

A branch leads to an address behind its own place and at most to the end of
the code, and a parameter that is pushed is one of those that the code was
generated with. Whatever values are bound, and be they too few, the machine
ends after at most as many steps as the code has instructions; it ends in
one way only, and `Code.run` gives what it ends with. -/
theorem generate_goes_forward {t : Term} {params : List String} {code : Code}
    (hcode : t.generate params = .ok code) :
    (∀ i a, code[i]? = some (.ifNot a) ∨ code[i]? = some (.jump a) →
        i < a ∧ a ≤ code.length)
      ∧ (∀ j, .push j ∈ code → j < params.length)
      ∧ ∀ (bound : List Value) (draws : Draws), ∃ steps ≤ code.length, ∀ k r,
          Machine.Ends code bound (Machine.start draws) k r
            ↔ k = steps ∧ r = code.run bound draws := by
  have hbounds := (Term.generate_emits hcode).inBounds
  refine ⟨fun i a hbranch => ?_, fun j hpush => ?_, fun bound draws => ?_⟩
  · rcases hbranch with h | h
    · exact hbounds i _ h
    · exact hbounds i _ h
  · obtain ⟨i, hi⟩ := List.mem_iff_getElem?.1 hpush
    exact hbounds i _ hi
  · obtain ⟨steps, r, hsteps, hends⟩ :=
      Machine.exists_ends hbounds bound (Machine.start draws) (Nat.zero_le _)
    have hrun : code.run bound draws = r := hends.run_eq hsteps
    rw [hrun]
    refine ⟨steps, hsteps, fun k r' => ?_⟩
    constructor
    · intro h
      exact hends.unique h
    · intro h
      rw [h.1, h.2]
      exact hends

/-- The sum `1 + if(a, if(b, 1, 2), 3)`. -/
def nestedChoice : Term :=
  .binary ⟨2, 3⟩ .add (.int ⟨0, 1⟩ 1)
    (.call ⟨4, 6⟩ "if"
      [.var ⟨7, 8⟩ "a",
        .call ⟨10, 12⟩ "if" [.var ⟨13, 14⟩ "b", .int ⟨16, 17⟩ 1, .int ⟨19, 20⟩ 2],
        .int ⟨23, 24⟩ 3])

/-- The inner conditional was moved twice. With both parameters bound its
code ends with a value and with none bound it ends with a fault, each time
within eleven steps. -/
theorem generate_goes_forward_nestedChoice :
    ∃ code, nestedChoice.generate ["a", "b"] = .ok code
      ∧ code[4]? = some (.ifNot 7) ∧ 4 < 7 ∧ 7 ≤ code.length
      ∧ code[8]? = some (.jump 10) ∧ 8 < 10 ∧ 10 ≤ code.length
      ∧ .push 1 ∈ code ∧ 1 < ["a", "b"].length
      ∧ (∃ steps ≤ 11, ∀ k r,
          Machine.Ends code [.bool true, .bool false] (Machine.start ⟨0⟩) k r
            ↔ k = steps ∧ r = .ok (.int 3, ⟨0⟩))
      ∧ ∃ steps ≤ 11, ∀ k r, Machine.Ends code [] (Machine.start ⟨0⟩) k r
          ↔ k = steps ∧ r = .error (.of .internalError "UNBOUND PARAMETER") := by
  have hcode : nestedChoice.generate ["a", "b"]
      = .ok [.literal (.int 1), .push 0, .ifNot 9, .push 1, .ifNot 7, .literal (.int 1),
          .jump 8, .literal (.int 2), .jump 10, .literal (.int 3), .binary .add] := rfl
  obtain ⟨hbranch, hpush, hends⟩ := generate_goes_forward hcode
  obtain ⟨htest, htest'⟩ := hbranch 4 7 (.inl rfl)
  obtain ⟨hjump, hjump'⟩ := hbranch 8 10 (.inr rfl)
  exact ⟨_, hcode, rfl, htest, htest', rfl, hjump, hjump', by simp, hpush 1 (by simp),
    hends [.bool true, .bool false] ⟨0⟩, hends [] ⟨0⟩⟩

end TickScript
