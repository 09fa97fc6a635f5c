/-
The stack machine computes what terms mean. Code of a term may stand
anywhere in a program and may run on top of anything: started at its
first instruction it either ends right behind its last one, with the
term's value on top of the stack, or fails with the term's fault.

# Steps and fuel

`Machine.run` counts its steps down. Here the count never shows:
`Leads` and `Fails` speak about every count that covers the rest of the
program, and since each step of generated code moves the index up, what
is left after a step still covers the rest.

# The one deviation

The count that a logarithm finds on top of its arguments takes a place
on the machine's stack that the generator never had to find. With the
stack full to the brim such a call overflows where the term has a value.
No other instruction can: the machine's stack never grows past what the
generator's stack held at the same node.
-/
import TickScript.Code.Run
import TickScript.Proofs.Code.Emits
import TickScript.Term.Eval

namespace TickScript

-- ============================================================= placement

/-- The code stands in the program from index `start` on, its branches
moved along. -/
def Placed (prog code : Code) (start : Nat) : Prop :=
  ∀ i op, code[i]? = some op → prog[start + i]? = some (op.relocate start)

namespace Placed

variable {prog a b : Code} {start : Nat}

/-- Code is placed in itself. -/
theorem self (prog : Code) : Placed prog prog 0 := by
  intro i op h
  simpa using h

/-- The first of two pieces is where both are. -/
theorem left (h : Placed prog (a ++ b) start) : Placed prog a start := by
  intro i op hi
  refine h i op ?_
  rw [List.getElem?_append_left (List.getElem?_eq_some_iff.1 hi).1]
  exact hi

/-- So is the first of two that are linked. -/
theorem link_left (h : Placed prog (a.link b) start) : Placed prog a start := h.left

/-- The second is behind the first, moved there. -/
theorem link_right (h : Placed prog (a.link b) start) : Placed prog b (start + a.length) := by
  intro i op hi
  have hmoved : (a.link b)[a.length + i]? = some (op.relocate a.length) := by
    rw [Code.link, List.getElem?_append_right (Nat.le_add_right ..), Nat.add_sub_cancel_left,
      List.getElem?_map, hi]
    rfl
  have hplaced := h _ _ hmoved
  rwa [Op.relocate_relocate, ← Nat.add_assoc, Nat.add_comm a.length] at hplaced

/-- The instruction right behind the first part. -/
theorem next {op : Op} (h : Placed prog (a ++ op :: b) start) :
    prog[start + a.length]? = some (op.relocate start) := by
  refine h _ _ ?_
  simp

/-- Where the parts of a conditional stand and where its branches go. -/
theorem conditional {test yes no : Code}
    (h : Placed prog (Generate.conditional test yes no) start) :
    Placed prog test start
      ∧ prog[start + test.length]? = some (.ifNot (start + test.length + yes.length + 2))
      ∧ Placed prog yes (start + test.length + 1)
      ∧ prog[start + test.length + 1 + yes.length]?
          = some (.jump (start + test.length + yes.length + 2 + no.length))
      ∧ Placed prog no (start + test.length + yes.length + 2) := by
  unfold Generate.conditional at h
  have hchosen := h.link_left.left
  have htest := hchosen.link_left.next
  have hyes := hchosen.link_right
  have hjump := h.link_left.next
  have hno := h.link_right
  simp only [Op.relocate, Code.length_link, List.length_append, List.length_singleton] at *
  refine ⟨hchosen.link_left.left, ?_, ?_, ?_, ?_⟩
  · rw [htest]
    congr 2
    omega
  · rwa [← Nat.add_assoc] at hyes
  · rw [show start + test.length + 1 + yes.length = start + (test.length + 1 + yes.length) by
      omega, hjump]
    congr 2
    omega
  · rwa [show start + (test.length + 1 + yes.length + 1)
      = start + test.length + yes.length + 2 by omega] at hno

end Placed

theorem Generate.length_conditional (test yes no : Code) :
    (conditional test yes no).length = test.length + yes.length + 2 + no.length := by
  simp only [conditional, Code.length_link, List.length_append, List.length_singleton]
  omega

-- ================================================================= stack

/-- The stack with further values on it, the last of them on top. -/
def Stack.over {α : Type} (s : Stack α) (vs : List α) : Stack α :=
  { s with items := vs.reverse ++ s.items }

namespace Stack

variable {α : Type} (s : Stack α)

/-- Values come on top of values. -/
@[simp]
theorem over_over (vs ws : List α) : (s.over vs).over ws = s.over (vs ++ ws) := by
  simp [Stack.over]

@[simp]
theorem over_limit (vs : List α) : (s.over vs).limit = s.limit := rfl

@[simp]
theorem length_over (vs : List α) :
    (s.over vs).items.length = vs.length + s.items.length := by
  simp [Stack.over]

end Stack

-- ================================================================== runs

namespace Machine

variable (prog : Code) (bound : List Value)

/-- The run goes on from `m'` as it does from `m`. -/
def Leads (m m' : Machine) : Prop :=
  ∀ steps, prog.length ≤ steps + m.pc →
    ∃ steps', prog.length ≤ steps' + m'.pc
      ∧ run prog bound steps m = run prog bound steps' m'

/-- The run from `m` fails. -/
def Fails (m : Machine) (fault : Fault) : Prop :=
  ∀ steps, prog.length ≤ steps + m.pc → run prog bound steps m = .error fault

/-- The fault of a machine whose stack is full. -/
def tooComplex : Fault := .of .overflow "EXPRESSION TOO COMPLEX"

/-- The run from `m` does what `r` says. With `log` it may also fail for
want of a place on the stack. -/
def Meets (log : Bool) (m : Machine) (r : Except Fault Machine) : Prop :=
  (match r with
    | .ok m' => Leads prog bound m m'
    | .error fault => Fails prog bound m fault)
  ∨ (log = true ∧ Fails prog bound m tooComplex)

variable {prog bound} {m m' : Machine} {fault : Fault} {log : Bool}

theorem Leads.refl (m : Machine) : Leads prog bound m m :=
  fun steps hsteps => ⟨steps, hsteps, rfl⟩

/-- One run goes on where another has come to. -/
theorem Leads.trans {m'' : Machine} (h : Leads prog bound m m')
    (h' : Leads prog bound m' m'') : Leads prog bound m m'' := by
  intro steps hsteps
  obtain ⟨steps', hsteps', heq⟩ := h steps hsteps
  obtain ⟨steps'', hsteps'', heq'⟩ := h' steps' hsteps'
  exact ⟨steps'', hsteps'', heq.trans heq'⟩

/-- What comes to a machine that fails, fails. -/
theorem Leads.fails (h : Leads prog bound m m') (h' : Fails prog bound m' fault) :
    Fails prog bound m fault := by
  intro steps hsteps
  obtain ⟨steps', hsteps', heq⟩ := h steps hsteps
  rw [heq, h' steps' hsteps']

/-- A run that still has an instruction before it has a step left. -/
private theorem steps_pos {op : Op} {steps : Nat} (hop : prog[m.pc]? = some op)
    (hsteps : prog.length ≤ steps + m.pc) : ∃ n, steps = n + 1 := by
  have := (List.getElem?_eq_some_iff.1 hop).1
  exact ⟨steps - 1, by omega⟩

/-- A run carries out the instruction before it and goes on. -/
theorem run_succ {op : Op} {steps : Nat} (hop : prog[m.pc]? = some op) :
    run prog bound (steps + 1) m
      = exec bound op { m with pc := m.pc + 1 } >>= run prog bound steps := by
  conv_lhs => unfold run
  rw [hop]

/-- A run past the last instruction ends. -/
theorem run_end {steps : Nat} (hend : prog[m.pc]? = none) :
    run prog bound steps m = m.result := by
  unfold run
  rw [hend]

/-- A run fails with the fault of the instruction before it. -/
theorem fails_exec {op : Op} (hop : prog[m.pc]? = some op)
    (hexec : exec bound op { m with pc := m.pc + 1 } = .error fault) :
    Fails prog bound m fault := by
  intro steps hsteps
  obtain ⟨n, rfl⟩ := steps_pos hop hsteps
  rw [run_succ hop, hexec, error_bind]

/-- One instruction that moves the index up. -/
theorem meets_exec {op : Op} {r : Except Fault Machine} (hop : prog[m.pc]? = some op)
    (hexec : exec bound op { m with pc := m.pc + 1 } = r)
    (hforward : ∀ m', r = .ok m' → m.pc < m'.pc) : Meets prog bound log m r := by
  refine .inl ?_
  cases r with
  | error fault => exact fails_exec hop hexec
  | ok m' =>
      have hlt := hforward m' rfl
      intro steps hsteps
      obtain ⟨n, rfl⟩ := steps_pos hop hsteps
      refine ⟨n, by omega, ?_⟩
      rw [run_succ hop, hexec, ok_bind]

/-- One instruction that relabels a result and moves the index up. -/
theorem meets_exec_map {α : Type} {op : Op} {x : Except Fault α} {g : α → Machine}
    (hop : prog[m.pc]? = some op)
    (hexec : exec bound op { m with pc := m.pc + 1 } = x.map g)
    (hforward : ∀ a, m.pc < (g a).pc) : Meets prog bound log m (x.map g) := by
  refine meets_exec hop hexec fun m' hm' => ?_
  obtain ⟨a, -, rfl⟩ := map_eq_ok.1 hm'
  exact hforward a

/-- What follows a successful piece of the run is what follows from its
end. -/
theorem Meets.trans {r : Except Fault Machine} (h : Meets prog bound log m (.ok m'))
    (h' : Meets prog bound log m' r) : Meets prog bound log m r := by
  rcases h with h | h
  · rcases h' with h' | ⟨hlog, h'⟩
    · refine .inl ?_
      cases r with
      | error fault => exact h.fails h'
      | ok m'' => exact h.trans h'
    · exact .inr ⟨hlog, h.fails h'⟩
  · exact .inr h

/-- One computation after another. -/
theorem Meets.bind {α : Type} {x : Except Fault α} {g : α → Machine}
    {next : α → Except Fault Machine} (h : Meets prog bound log m (x.map g))
    (hnext : ∀ a, x = .ok a → Meets prog bound log (g a) (next a)) :
    Meets prog bound log m (x >>= next) := by
  cases x with
  | error fault => exact h
  | ok a => exact Meets.trans h (hnext a rfl)

/-- Where no overflow is to be expected none need be expected in a larger
term. -/
theorem Meets.mono {log' : Bool} {r : Except Fault Machine} (h : Meets prog bound log m r)
    (hlog : log = true → log' = true) : Meets prog bound log' m r :=
  h.imp id fun ⟨h₁, h₂⟩ => ⟨hlog h₁, h₂⟩

-- ========================================================== instructions

section

variable {s : Stack Value} {pc : Nat} {draws : Draws}

/-- With room on the stack a value is put on top. -/
theorem push_over (hroom : s.items.length < s.limit) (v : Value) :
    push ⟨pc, s, draws⟩ v = .ok ⟨pc, s.over [v], draws⟩ := by
  simp [push, Stack.push, hroom, Stack.over]

theorem push_full (hfull : ¬s.items.length < s.limit) (v : Value) :
    push ⟨pc, s, draws⟩ v = .error (.of .overflow s.overflow) := by
  simp [push, Stack.push, hfull]

/-- The value on top is replaced by what becomes of it. -/
theorem replaceOne_over (hroom : s.items.length < s.limit) (f : Value → Except Fault Value)
    (v : Value) :
    replaceOne ⟨pc, s.over [v], draws⟩ f
      = (f v).map fun w => ⟨pc, s.over [w], draws⟩ := by
  cases h : f v with
  | error fault => simp [replaceOne, Stack.pop, Stack.over, h, Except.map]
  | ok w => simp [replaceOne, Stack.pop, Stack.over, h, Except.map, push_over hroom]

/-- So are the two on top, the lower one first. -/
theorem replaceTwo_over (hroom : s.items.length < s.limit)
    (f : Value → Value → Except Fault Value) (l r : Value) :
    replaceTwo ⟨pc, s.over [l, r], draws⟩ f
      = (f l r).map fun w => ⟨pc, s.over [w], draws⟩ := by
  cases h : f l r with
  | error fault => simp [replaceTwo, Stack.popTwo, Stack.over, h, Except.map]
  | ok w => simp [replaceTwo, Stack.popTwo, Stack.over, h, Except.map, push_over hroom]

/-- A function other than the logarithm takes its arguments off the stack
and leaves its result. -/
theorem applyBuiltin_over (hroom : s.items.length < s.limit) {f : Builtin} (hlog : f ≠ .log)
    {vs : List Value} (fewest : f.arity.1 ≤ vs.length) (most : vs.length ≤ f.arity.2) :
    applyBuiltin ⟨pc, s.over vs, draws⟩ f
      = (f.call vs draws).map fun r => ⟨pc, s.over [r.1], r.2⟩ := by
  -- the arity leaves one length for the arguments of each function
  cases f with
  | log => exact absurd rfl hlog
  | random =>
      obtain rfl := List.length_eq_zero_iff.1 (Nat.le_zero.1 most)
      exact push_over hroom _
  | max =>
      obtain ⟨l, r, rfl⟩ := List.length_eq_two.1 (Nat.le_antisymm most fewest)
      rw [applyBuiltin, replaceTwo_over hroom, Builtin.call, map_map]
  | min =>
      obtain ⟨l, r, rfl⟩ := List.length_eq_two.1 (Nat.le_antisymm most fewest)
      rw [applyBuiltin, replaceTwo_over hroom, Builtin.call, map_map]
  | pow =>
      obtain ⟨l, r, rfl⟩ := List.length_eq_two.1 (Nat.le_antisymm most fewest)
      rw [applyBuiltin, replaceTwo_over hroom, Builtin.call, map_map]
  | _ =>
      obtain ⟨v, rfl⟩ := List.length_eq_one_iff.1 (Nat.le_antisymm most fewest)
      simp only [applyBuiltin, replaceOne_over hroom, Builtin.call, map_map]

theorem log_call {vs : List Value} (fewest : 1 ≤ vs.length) (most : vs.length ≤ 2) :
    Builtin.log.call vs draws = (Builtin.logOf vs).map (·, draws) := by
  obtain h | h : vs.length = 1 ∨ vs.length = 2 := by omega
  · obtain ⟨v, rfl⟩ := List.length_eq_one_iff.1 h
    rfl
  · obtain ⟨v, base, rfl⟩ := List.length_eq_two.1 h
    rfl

/-- The logarithm takes as many arguments as the count on top of them
says. -/
theorem applyLog_over (hroom : s.items.length < s.limit) {vs : List Value}
    (fewest : 1 ≤ vs.length) (most : vs.length ≤ 2) :
    applyLog ⟨pc, s.over (vs ++ [.int (Int64.ofNat vs.length)]), draws⟩
      = (Builtin.log.call vs draws).map fun r => ⟨pc, s.over [r.1], r.2⟩ := by
  have hpop : Stack.popMany (s.over vs) (Int64.ofNat vs.length).toUInt64.toNat
      = .ok (vs, s) := by
    have hcount : (Int64.ofNat vs.length).toUInt64.toNat = vs.length := by
      obtain h | h : vs.length = 1 ∨ vs.length = 2 := by omega
      · rw [h]
        decide
      · rw [h]
        decide
    rw [hcount]
    simp [Stack.popMany, Stack.over]
  have happly : applyLog ⟨pc, s.over (vs ++ [.int (Int64.ofNat vs.length)]), draws⟩
      = Stack.popMany (s.over vs) (Int64.ofNat vs.length).toUInt64.toNat >>= fun r =>
          Builtin.logOf r.1 >>= fun w => push ⟨pc, r.2, draws⟩ w := by
    simp [applyLog, Stack.pop, Stack.over]
  rw [happly, hpop, ok_bind, log_call fewest most, map_map]
  cases h : Builtin.logOf vs with
  | error fault => rfl
  | ok w => exact push_over hroom w

end

/-- There are `n` more places on the machine's stack. -/
structure HasRoom (s : Stack Value) (n : Nat) : Prop where
  places : s.items.length + n ≤ s.limit
  message : Fault.of .overflow s.overflow = tooComplex

/-- Values on the stack take the room they need. -/
theorem HasRoom.over {s : Stack Value} {n : Nat} {vs : List Value}
    (h : HasRoom s (n + vs.length)) : HasRoom (s.over vs) n := by
  refine ⟨?_, h.message⟩
  have := h.places
  simp only [Stack.length_over, Stack.over_limit]
  omega

/-- Less room is enough for less. -/
theorem HasRoom.mono {s : Stack Value} {n n' : Nat} (h : HasRoom s n) (hle : n' ≤ n) :
    HasRoom s n' :=
  ⟨by have := h.places; omega, h.message⟩

end Machine

-- ============================================================ simulation

namespace Term

mutual

/-- Whether the term calls a logarithm anywhere. -/
def callsLog : Term → Bool
  | .int .. | .float .. | .bool .. | .var .. => false
  | .call _ name args => Builtin.ofName? name == some .log || callsLogAny args
  | .unary _ _ arg => arg.callsLog
  | .binary _ _ lhs rhs => lhs.callsLog || rhs.callsLog

/-- Whether one of the terms calls a logarithm anywhere. -/
def callsLogAny : List Term → Bool
  | [] => false
  | t :: ts => t.callsLog || callsLogAny ts

end

end Term

/-- There is one value for each argument. -/
theorem Term.length_evalAll {look : String → Option Value} :
    ∀ {ts : List Term} {draws : Draws} {r : List Value × Draws},
      evalAll look ts draws = .ok r → r.1.length = ts.length
  | [], _, _, h => by
      cases h
      rfl
  | t :: ts, _, _, h => by
      simp only [evalAll] at h
      obtain ⟨v, -, h⟩ := bind_eq_ok.1 h
      obtain ⟨vs, hvs, h⟩ := bind_eq_ok.1 h
      cases h
      simp [length_evalAll hvs]

/-- Each parameter has a value, and its name looks up that value. -/
def Binds (params : List String) (bound : List Value) (look : String → Option Value) : Prop :=
  ∀ name index, params.findIdx? (· == name) = some index →
    ∃ v, bound[index]? = some v ∧ look name = some v

open Machine

section

variable {prog : Code} {params : List String} {bound : List Value}
  {look : String → Option Value}

/-- A single instruction that leaves one value. -/
private theorem meets_push {log : Bool} {m : Machine} {op : Op} {v : Value} {n : Nat}
    (hplaced : Placed prog [op] m.pc) (hroom : HasRoom m.stack (n + 1))
    (hexec : exec bound (op.relocate m.pc) { m with pc := m.pc + 1 }
      = push { m with pc := m.pc + 1 } v) :
    Meets prog bound log m (.ok ⟨m.pc + 1, m.stack.over [v], m.draws⟩) := by
  have hop : prog[m.pc]? = some (op.relocate m.pc) := hplaced 0 op rfl
  refine meets_exec hop ?_ ?_
  · rw [hexec, push_over (by have := hroom.places; omega)]
  · intro m' hm'
    cases hm'
    exact Nat.lt_succ_self _

/-- A conditional runs its condition and then one of its branches. -/
private theorem meets_conditional {log : Bool} {m : Machine} {test yes no : Code}
    {x : Except Fault (Value × Draws)} {y z : Draws → Except Fault (Value × Draws)}
    (hplaced : Placed prog (Generate.conditional test yes no) m.pc)
    (htest : Meets prog bound log m
      (x.map fun r => ⟨m.pc + test.length, m.stack.over [r.1], r.2⟩))
    (hyes : ∀ draws, Meets prog bound log ⟨m.pc + test.length + 1, m.stack, draws⟩
      ((y draws).map fun r =>
        ⟨m.pc + test.length + 1 + yes.length, m.stack.over [r.1], r.2⟩))
    (hno : ∀ draws, Meets prog bound log ⟨m.pc + test.length + yes.length + 2, m.stack, draws⟩
      ((z draws).map fun r =>
        ⟨m.pc + test.length + yes.length + 2 + no.length, m.stack.over [r.1], r.2⟩)) :
    Meets prog bound log m (x >>= fun r =>
      (match r.1 with
        | .bool true => y r.2
        | .bool false => z r.2
        | v => .error (.of .invalidOperand ("IF(" ++ v.display ++ ")")) :
        Except Fault (Value × Draws)).map fun r =>
      ⟨m.pc + (Generate.conditional test yes no).length, m.stack.over [r.1], r.2⟩) := by
  obtain ⟨-, hifNot, -, hjump, -⟩ := hplaced.conditional
  rw [Generate.length_conditional]
  refine htest.bind fun ⟨v, draws⟩ _ => ?_
  cases v with
  | bool b =>
      cases b with
      | true =>
          have hbranch : Meets prog bound log
              ⟨m.pc + test.length, m.stack.over [.bool true], draws⟩
              (.ok ⟨m.pc + test.length + 1, m.stack, draws⟩) := by
            refine meets_exec hifNot rfl fun m' hm' => ?_
            cases hm'
            exact Nat.lt_succ_self _
          refine hbranch.trans ?_
          rw [← bind_ok]
          refine (hyes draws).bind fun r _ => meets_exec hjump ?_ fun m' hm' => ?_
          · simp [exec, Nat.add_assoc]
          · cases hm'
            simp only
            omega
      | false =>
          have hbranch : Meets prog bound log
              ⟨m.pc + test.length, m.stack.over [.bool false], draws⟩
              (.ok ⟨m.pc + test.length + yes.length + 2, m.stack, draws⟩) := by
            refine meets_exec hifNot rfl fun m' hm' => ?_
            cases hm'
            simp only
            omega
          have hend := hbranch.trans (hno draws)
          simpa only [Nat.add_assoc] using hend
  | _ => exact meets_exec hifNot rfl fun _ hm' => by cases hm'

/-- A call finds the values of its arguments on the stack. -/
private theorem meets_builtin {log : Bool} {m : Machine} {n : Nat} {f : Builtin}
    {args : Code} {vs : List Value} {draws : Draws}
    (fewest : f.arity.1 ≤ vs.length) (most : vs.length ≤ f.arity.2)
    (hplaced : Placed prog (args ++ f.instructions vs.length) m.pc)
    (hroom : HasRoom m.stack (n + 1)) (hlog : f = .log → log = true) :
    Meets prog bound log ⟨m.pc + args.length, m.stack.over vs, draws⟩
      ((f.call vs draws).map fun r =>
        ⟨m.pc + (args ++ f.instructions vs.length).length, m.stack.over [r.1], r.2⟩) := by
  have hplaces := hroom.places
  by_cases hf : f = .log
  · subst hf
    have hcount : Builtin.log.instructions vs.length
        = [.literal (.int (Int64.ofNat vs.length)), .builtin .log] := rfl
    rw [hcount] at hplaced ⊢
    -- the count may be the value too many
    by_cases hfull : (m.stack.over vs).items.length < m.stack.limit
    · have hcounted : Meets prog bound log ⟨m.pc + args.length, m.stack.over vs, draws⟩
          (.ok ⟨m.pc + args.length + 1,
            m.stack.over (vs ++ [.int (Int64.ofNat vs.length)]), draws⟩) := by
        refine meets_exec hplaced.next ?_ fun m' hm' => ?_
        · rw [← Stack.over_over]
          exact push_over hfull _
        · cases hm'
          exact Nat.lt_succ_self _
      refine hcounted.trans ?_
      have hlast : Placed prog ((args ++ [.literal (.int (Int64.ofNat vs.length))])
          ++ [.builtin .log]) m.pc := by simpa using hplaced
      have hnext := hlast.next
      rw [List.length_append, List.length_singleton, ← Nat.add_assoc] at hnext
      have hspace : m.stack.items.length < m.stack.limit := by omega
      refine meets_exec_map hnext ?_ fun r => ?_
      · rw [List.length_append]
        exact applyLog_over hspace fewest most
      · simp only [List.length_append, List.length_cons, List.length_nil]
        omega
    · refine .inr ⟨hlog rfl, fails_exec hplaced.next ?_⟩
      rw [← hroom.message]
      exact push_full hfull _
  · have hsame : f.arity.1 = f.arity.2 := by
      cases f <;> first | rfl | exact absurd rfl hf
    have hsingle : f.instructions vs.length = [.builtin f] := by
      simp [Builtin.instructions, hsame]
    rw [hsingle] at hplaced ⊢
    refine meets_exec_map hplaced.next ?_ fun r => ?_
    · rw [List.length_append]
      exact applyBuiltin_over (by omega) hf fewest most
    · simp

mutual

/-- Code of a term does what the term means. -/
theorem Emits.meets (hbinds : Binds params bound look) {n : Nat} : {t : Term} → {code : Code} →
    Emits params n t code → ∀ {m : Machine}, Placed prog code m.pc → HasRoom m.stack n →
    Meets prog bound t.callsLog m ((t.eval look m.draws).map fun r =>
      ⟨m.pc + code.length, m.stack.over [r.1], r.2⟩)
  | _, _, .int, m, hplaced, hroom => meets_push hplaced hroom rfl
  | _, _, .float, m, hplaced, hroom => meets_push hplaced hroom rfl
  | _, _, .bool, m, hplaced, hroom => meets_push hplaced hroom rfl
  | .var _ name, _, .var found, m, hplaced, hroom => by
      obtain ⟨v, hbound, hlook⟩ := hbinds name _ found
      simp only [Term.eval, hlook]
      refine meets_push hplaced hroom ?_
      simp [Op.relocate, exec, hbound]
  | .unary span op arg, _, .unary inner, m, hplaced, hroom => by
      have hpos := inner.pos
      have hplaces := hroom.places
      simp only [Term.eval, Term.callsLog, map_bind, bind_ok, map_map]
      refine (inner.meets hbinds hplaced.left hroom).bind fun v _ => ?_
      refine meets_exec_map hplaced.next ?_ fun w => ?_
      · rw [List.length_append]
        exact replaceOne_over (by omega) _ _
      · simp
  | .binary span op lhs rhs, _, .binary first second, m, hplaced, hroom => by
      have hplaces := hroom.places
      simp only [Term.eval, Term.callsLog, map_bind, bind_ok, map_map]
      refine ((first.meets hbinds hplaced.left.link_left hroom).mono ?_).bind fun l _ => ?_
      · simp +contextual
      refine ((second.meets hbinds hplaced.left.link_right hroom.over).mono ?_).bind
        fun r _ => ?_
      · simp +contextual
      have hnext := hplaced.next
      rw [Code.length_link, ← Nat.add_assoc] at hnext
      refine meets_exec_map hnext ?_ fun w => ?_
      · rw [Stack.over_over, List.length_append, Code.length_link, ← Nat.add_assoc,
          ← Nat.add_assoc]
        exact replaceTwo_over (by omega) _ _ _
      · simp [Nat.add_assoc]
  | .call span name [condition, whenTrue, whenFalse], _,
      .conditional isConditional first second third, m, hplaced, hroom => by
      obtain ⟨htest, -, hyes, -, hno⟩ := hplaced.conditional
      simp only [Term.eval, isConditional, if_true, Term.evalIf, map_bind]
      refine meets_conditional hplaced ?_ (fun draws => ?_) (fun draws => ?_)
      · refine (first.meets hbinds htest hroom).mono ?_
        simp +contextual [Term.callsLog, Term.callsLogAny]
      · refine (second.meets hbinds (m := ⟨_, m.stack, draws⟩) hyes
          (hroom.mono (by omega))).mono ?_
        simp +contextual [Term.callsLog, Term.callsLogAny]
      · refine (third.meets hbinds (m := ⟨_, m.stack, draws⟩) hno
          (hroom.mono (by omega))).mono ?_
        simp +contextual [Term.callsLog, Term.callsLogAny]
  | .call span name args, _, .call isFunction known fewest most inner, m, hplaced, hroom => by
      have hlog : Term.callsLogAny args = true → (Term.call span name args).callsLog = true := by
        simp +contextual [Term.callsLog]
      simp only [Term.eval, isFunction, known, Bool.false_eq_true, if_false, map_bind]
      refine ((inner.meets hbinds hplaced.left hroom).mono hlog).bind fun r hr => ?_
      have hlen := Term.length_evalAll hr
      rw [← hlen] at fewest most hplaced ⊢
      refine meets_builtin fewest most hplaced hroom fun hf => ?_
      simp [Term.callsLog, known, hf]

/-- Code of several terms leaves all their values. -/
theorem EmitsAll.meets (hbinds : Binds params bound look) {n : Nat} : {ts : List Term} →
    {codes : List Code} → EmitsAll params n ts codes → ∀ {m : Machine},
    Placed prog (Code.join codes) m.pc → HasRoom m.stack n →
    Meets prog bound (Term.callsLogAny ts) m ((Term.evalAll look ts m.draws).map fun r =>
      ⟨m.pc + (Code.join codes).length, m.stack.over r.1, r.2⟩)
  | _, _, .nil, m, _, _ => .inl (Leads.refl m)
  | t :: ts, _, .cons first rest, m, hplaced, hroom => by
      simp only [Term.evalAll, Term.callsLogAny, map_bind, bind_ok, map_map]
      refine ((first.meets hbinds hplaced.link_left hroom).mono ?_).bind fun v _ => ?_
      · simp +contextual
      have hrest := rest.meets hbinds (m := ⟨_, m.stack.over [v.1], v.2⟩)
        hplaced.link_right hroom.over
      simp only [Stack.over_over, List.singleton_append, Nat.add_assoc] at hrest
      rw [Code.join, Code.length_link]
      refine hrest.mono ?_
      simp +contextual

end

end

end TickScript
