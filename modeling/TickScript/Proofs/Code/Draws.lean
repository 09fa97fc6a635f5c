/-
Code that draws nothing at random.

Of all that the stack machine does, only `random` goes by the draws to
come. Code without it has the same outcome whatever they are, and hands
them on as they are (`Machine.run_redrawn`); so an operand without it has
one value (`Operand.value_redrawn`).

There is one lemma for each way to work on the stack, and each says that it
commutes with exchanging the draws.
-/
import TickScript.Operand
import TickScript.Proofs.Except

namespace TickScript

namespace Machine

variable {m : Machine} {draws : Draws} {v : Value} {bound : List Value} {code : Code}

/-- The machine with other draws to come. -/
def redrawn (m : Machine) (draws : Draws) : Machine := { m with draws }

theorem push_redrawn : (m.redrawn draws).push v = (m.push v).map fun m => m.redrawn draws :=
  bind_relabel fun _ => rfl

/-- The value on top is replaced without a look at the draws. -/
theorem replaceOne_redrawn (f : Value → Except Fault Value) :
    (m.redrawn draws).replaceOne f = (m.replaceOne f).map fun m => m.redrawn draws :=
  bind_relabel fun r => bind_relabel fun _ => push_redrawn (m := { m with stack := r.2 })

/-- So are the two values on top. -/
theorem replaceTwo_redrawn (f : Value → Value → Except Fault Value) :
    (m.redrawn draws).replaceTwo f = (m.replaceTwo f).map fun m => m.redrawn draws :=
  bind_relabel fun _ => bind_relabel fun _ =>
    push_redrawn (m := { m with stack := m.stack.popTwo.2 })

/-- The logarithm of one argument or two draws nothing. -/
theorem applyLog_redrawn :
    (m.redrawn draws).applyLog = m.applyLog.map fun m => m.redrawn draws := by
  refine bind_relabel fun r => ?_
  obtain ⟨top, stack⟩ := r
  cases top with
  | int n =>
      exact bind_relabel fun r => bind_relabel fun _ =>
        push_redrawn (m := { m with stack := r.2 })
  | _ => rfl

/-- Of the functions only `random` draws. -/
theorem applyBuiltin_redrawn {f : Builtin} (hf : f ≠ .random) :
    (m.redrawn draws).applyBuiltin f = (m.applyBuiltin f).map fun m => m.redrawn draws := by
  cases f with
  | random => exact absurd rfl hf
  | log => exact applyLog_redrawn
  | max | min | pow => exact replaceTwo_redrawn _
  | _ => exact replaceOne_redrawn _

/-- Only a random draw goes by the draws to come. -/
theorem exec_redrawn {op : Op} (hop : op ≠ .builtin .random) :
    exec bound op (m.redrawn draws) = (exec bound op m).map fun m => m.redrawn draws := by
  cases op with
  | literal v => exact push_redrawn
  | push index =>
      unfold exec
      simp only
      split
      · exact push_redrawn
      · rfl
  | ifNot address =>
      refine bind_relabel fun r => ?_
      obtain ⟨v, stack⟩ := r
      cases v with
      | bool b => cases b <;> rfl
      | _ => rfl
  | jump address => rfl
  | unary op => exact replaceOne_redrawn _
  | binary op => exact replaceTwo_redrawn _
  | builtin f => exact applyBuiltin_redrawn fun hf => hop (congrArg Op.builtin hf)

/-- What is left on the stack is the same, and the draws are handed on. -/
theorem result_redrawn : (m.redrawn draws).result = m.result.map fun r => (r.1, draws) := by
  refine bind_relabel fun r => ?_
  simp only
  split <;> rfl

/-- Code without `random` runs the same whatever the draws are, and hands them
on. -/
theorem run_redrawn (hcode : .builtin .random ∉ code) (steps : Nat) : ∀ {m : Machine},
    run code bound steps (m.redrawn draws)
      = (run code bound steps m).map fun r => (r.1, draws) := by
  have hpc : ∀ m : Machine, (m.redrawn draws).pc = m.pc := fun _ => rfl
  induction steps with
  | zero =>
      intro m
      unfold run
      rw [hpc]
      cases code[m.pc]? with
      | none => exact result_redrawn
      | some op => rfl
  | succ steps ih =>
      intro m
      unfold run
      rw [hpc]
      cases hop : code[m.pc]? with
      | none => exact result_redrawn
      | some op =>
          have hdraws : op ≠ .builtin .random := fun h => hcode (h ▸ List.mem_of_getElem? hop)
          show (exec bound op (redrawn { m with pc := m.pc + 1 } draws)
            >>= run code bound steps) = _
          rw [exec_redrawn hdraws]
          exact map_bind_relabel fun _ => ih

end Machine

/-- Whether an operand draws at random. -/
def Operand.draws : Operand → Bool
  | formula f => decide (.builtin .random ∈ f.code)
  | _ => false

/-- An operand that does not draw has one value, and leaves the draws as
they are. -/
theorem Operand.value_redrawn {o : Operand} (ho : o.draws = false) (vars : Storage)
    (alive : Handle → Bool) (draws draws' : Draws) :
    o.value vars alive draws' = (o.value vars alive draws).map fun r => (r.1, draws') := by
  cases o with
  | literal v | text s => rfl
  | formula f =>
      refine bind_relabel fun bound => ?_
      exact Machine.run_redrawn (m := .start draws) (of_decide_eq_false ho) f.code.length
  | var id =>
      refine bind_relabel fun v => ?_
      split <;> rfl
  | char id =>
      refine bind_relabel fun v => ?_
      split
      · split <;> rfl
      · rfl

end TickScript
