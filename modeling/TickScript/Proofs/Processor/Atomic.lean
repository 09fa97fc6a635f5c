/-
A failing instruction leaves no trace.

Carried out in place (`Instruction.perform`), an instruction checks and
writes step by step. That a fault finds nothing written is a matter of
order: every instruction looks first, then makes at most one write that may
be refused, and what is left to do after that cannot be refused. `Looks`,
`Atomic` and `Sure` say so of single steps and of chains. One instruction
does not have that form by itself: a call that stores the result of a
method fails after the method has written. The compiler sees to it that no
such call is run, since the methods that write return nothing
(`Instruction.AsksWell`).

Random draws are spent even by an instruction that fails. They are all that
does not stay as it was.

A processor then records the fault at the line of the instruction, which is
where it stops (`Scene.failure_atomic`).
-/
import TickScript.Proofs.Processor.Dispatch
import TickScript.Proofs.Processor.InPlace

namespace TickScript

/-- Nothing has happened but random draws. -/
def Scene.Untouched (s s' : Scene) : Prop :=
  ∃ draws, s' = { s with world := { s.world with draws } }

namespace Scene.Untouched

variable {s s' s'' : Scene}

theorem refl (s : Scene) : Untouched s s := ⟨s.world.draws, rfl⟩

/-- Draws may be spent twice. -/
theorem trans (h : Untouched s s') (h' : Untouched s' s'') : Untouched s s'' := by
  obtain ⟨draws, rfl⟩ := h
  obtain ⟨draws', rfl⟩ := h'
  exact ⟨draws', rfl⟩

/-- Reading spends draws at most. -/
theorem read {o : Operand} {v : Value} (h : s.read o = .ok (v, s')) : Untouched s s' := by
  obtain ⟨⟨w, draws⟩, -, h⟩ := bind_eq_ok.1 h
  cases h
  exact ⟨draws, rfl⟩

/-- So does reading several operands. -/
theorem readAll : ∀ {os : List Operand} {s s' : Scene} {vs : List Value},
    s.readAll os = .ok (vs, s') → Untouched s s'
  | [], s, s', vs, h => by
      cases h
      exact .refl s
  | o :: os, s, s', vs, h => by
      obtain ⟨⟨v, s₁⟩, hv, h⟩ := bind_eq_ok.1 h
      obtain ⟨⟨more, s₂⟩, hmore, h⟩ := bind_eq_ok.1 h
      cases h
      exact (Untouched.read hv).trans (readAll hmore)

theorem readAddress {o : Operand} {n : Int64} (h : s.readAddress o = .ok (n, s')) :
    Untouched s s' := by
  obtain ⟨⟨v, s₁⟩, hv, h⟩ := bind_eq_ok.1 h
  have huntouched := Untouched.read hv
  cases v with
  | int n =>
      cases h
      exact huntouched
  | float x =>
      simp only at h
      split at h
      next =>
        cases h
        exact huntouched
      next => cases h
  | _ => cases h

end Scene.Untouched

namespace InPlace

open Scene (Untouched)

variable {s s' : Scene}

instance untouched_refl : Std.Refl Untouched := ⟨.refl⟩

instance untouched_trans : Trans Untouched Untouched Untouched := ⟨.trans⟩

-- ================================================================= parts

theorem looks_read (o : Operand) : Looks Untouched (read o) s := looks_once fun _ _ => .read

theorem looks_readAll (os : List Operand) : Looks Untouched (readAll os) s :=
  looks_once fun _ _ => .readAll

theorem looks_readAddress (o : Operand) : Looks Untouched (readAddress o) s :=
  looks_once fun _ _ => .readAddress

/-- Usages move without a failure. -/
theorem sure_account (v : Value) (old : Option Value) : Sure (do retain v; release old) :=
  .bind (.change _) fun _ => .change _

/-- Whether a value may be stored is looked at before it is. -/
theorem atomic_store (id : VarId) (v : Value) : Atomic Untouched (store id v) s := by
  refine .after (looks_look _) fun var s₁ _ => ?_
  refine .after (looks_look _) fun _ s₂ _ => ?_
  exact .before (atomic_once _) fun old => sure_account v old

/-- The value is converted before anything is written. -/
theorem atomic_assign (id : VarId) (v : Value) : Atomic Untouched (assign id v) s := by
  refine .after (looks_look _) fun var s₁ _ => ?_
  exact .after (looks_look _) fun w s₂ _ => atomic_store id w

/-- A wait checks its ticks before it counts them. -/
theorem atomic_time (op : TimeOp) : Atomic Untouched (time op) s := by
  cases op with
  | framesSinceLaunch dest | secondsSinceLaunch dest | deltaTime dest =>
      exact .after (looks_look _) fun _ _ _ => atomic_assign dest _
  | wait ticks => exact .after (looks_read ticks) fun v s' _ => atomic_once _

/-- What is popped is stored before it is taken out of the input. -/
theorem atomic_console (op : ConsoleOp) : Atomic Untouched (console op) s := by
  cases op with
  | read => exact .before (atomic_once _) fun _ => .change _
  | write => exact (Sure.change _).atomic
  | clear stream => cases stream <;> exact (Sure.change _).atomic
  | filter => exact (Looks.throw _).atomic
  | push args => exact .after (looks_readAll args) fun vs s' _ => (Sure.change _).atomic
  | canPop probe dest => exact .after (looks_look _) fun ready s' _ => atomic_store dest _
  | pop target =>
      cases target with
      | char dest =>
          exact .after (looks_look _) fun _ s' _ => .before (atomic_store dest _) fun _ => .change _
      | number dest =>
          exact .after (looks_look _) fun _ s' _ => .before (atomic_assign dest _) fun _ => .change _

/-- Both operands are read before the cell is written to, and what comes after
that cannot fail. -/
theorem atomic_memory (target : Option Handle) (op : MemoryOp) :
    Atomic Untouched (memory target op) s := by
  cases op with
  | get addr dest =>
      refine .after (looks_readAddress addr) fun n s₁ _ => ?_
      refine .after (looks_look _) fun m s₂ _ => ?_
      refine .after (looks_look _) fun cell s₃ _ => ?_
      cases cell with
      | none => exact (Looks.throw _).atomic
      | some v => exact atomic_assign dest v
  | getType addr dest | isNull addr dest =>
      refine .after (looks_readAddress addr) fun n s₁ _ => ?_
      refine .after (looks_look _) fun m s₂ _ => ?_
      exact .after (looks_look _) fun _ s₃ _ => atomic_store dest _
  | set addr value =>
      refine .after (looks_readAddress addr) fun n s₁ _ => ?_
      refine .after (looks_read value) fun v s₂ _ => ?_
      exact .before (atomic_once _) fun old => sure_account v old
  | clear addr =>
      refine .after (looks_readAddress addr) fun n s₁ _ => ?_
      exact .before (atomic_once _) fun old => .change _

-- =============================================================== methods

/-- A method that writes checks its arguments and its address first. -/
theorem atomic_body (m : Method) (target : Handle) (args : List Value) :
    Atomic Untouched (body m target args) s := by
  unfold body
  split
  · refine .after (looks_look _) fun addr s₁ _ => ?_
    refine .after (looks_look _) fun v s₂ _ => ?_
    refine .after (looks_look _) fun _ s₃ _ => ?_
    exact .before (atomic_once _) fun old => .bind (.change _) fun _ => .bind (.change _) fun _ =>
      .pure _
  · split
    · refine .after (looks_look _) fun addr s₁ _ => ?_
      exact .before (atomic_once _) fun old => .bind (.change _) fun _ => .pure _
    · exact (looks_look _).atomic

/-- A method with another name only looks. -/
theorem looks_body {m : Method} (hset : m.name ≠ "set_value") (hclear : m.name ≠ "clear")
    (target : Handle) (args : List Value) : Looks Untouched (body m target args) s := by
  unfold body
  rw [if_neg hset, if_neg hclear]
  exact looks_look _

/-- To store a result is to assign it. -/
theorem atomic_storeResult (method : String) (ret : Option VarId) (result : Option Value) :
    Atomic Untouched (storeResult method ret result) s := by
  unfold storeResult
  split
  · exact (Sure.pure ()).atomic
  · exact atomic_assign _ _
  · exact (Looks.throw _).atomic

/-- A call that stores a result must be of a method that only looks. -/
theorem atomic_call {target : VarId} {method : String} {args : List Operand} {ret : Option VarId}
    (hret : ret ≠ none → method ≠ "set_value" ∧ method ≠ "clear") :
    Atomic Untouched (call target method args ret) s := by
  refine .after (looks_look _) fun h s₁ _ => ?_
  refine .after (looks_look _) fun entity s₂ _ => ?_
  refine .after (looks_readAll args) fun vs s₃ _ => ?_
  refine .after (looks_look _) fun m s₄ hm => ?_
  refine .after (looks_look _) fun ws s₅ _ => ?_
  cases ret with
  | none => exact .before (atomic_body m h ws) fun result => .pure ()
  | some dest =>
      have hname : m.name = method := by
        obtain ⟨hm, -⟩ := look_eq_ok.1 hm
        split at hm
        next => cases hm
        next m' hfound =>
          cases hm
          exact Registry.name_of_find hfound
      obtain ⟨hset, hclear⟩ := hret (Option.some_ne_none dest)
      rw [← hname] at hset hclear
      exact .after (looks_body hset hclear h ws) fun result s₆ _ =>
        atomic_storeResult method (some dest) result

end InPlace

-- ========================================================== instructions

/-- An instruction that asks no method for a result that writes. -/
def Instruction.AsksWell : Instruction → Prop
  | .call _ method _ (some _) => method ≠ "set_value" ∧ method ≠ "clear"
  | _ => True

open InPlace in
/-- An instruction that fails in place touches nothing. -/
theorem Instruction.perform_atomic {i : Instruction} (hi : i.AsksWell) (s : Scene) :
    Atomic Scene.Untouched i.perform s := by
  have hnext {p : InPlace Scene Unit} {s : Scene} (h : Atomic Scene.Untouched p s) :
      Atomic Scene.Untouched (p >>= fun _ => pure Signal.next) s := .before h fun _ => .pure _
  cases i with
  | declare dest source =>
      refine .after (looks_look _) fun done s₁ _ => ?_
      split
      · exact (Sure.pure _).atomic
      · refine .after (looks_read source) fun v s₂ _ => ?_
        exact .before (atomic_assign dest v) fun _ => .bind (.change _) fun _ => .pure _
  | assign dest source =>
      exact .after (looks_read source) fun v s₁ _ => hnext (atomic_assign dest v)
  | jump target condition =>
      refine .after (looks_read condition) fun v s₁ _ => ?_
      cases v with
      | bool b => cases b <;> exact (Sure.pure _).atomic
      | _ => exact (Looks.throw _).atomic
  | label | create => exact (Sure.pure _).atomic
  | stop => exact (Sure.bind (.change _) fun _ => .pure _).atomic
  | time op => exact hnext (atomic_time op)
  | console op => exact hnext (atomic_console op)
  | memory device op =>
      cases device with
      | none => exact hnext (atomic_memory none op)
      | some id => exact .after (looks_look _) fun h s₁ _ => hnext (atomic_memory (some h) op)
  | call target method args ret =>
      refine hnext (atomic_call fun hret => ?_)
      cases ret with
      | none => exact absurd rfl hret
      | some dest => exact hi

namespace Scene

variable {s s₁ s₂ m : Scene} {i : Instruction} {fault : Fault} {source : String}

/-- The compiler lets no line ask a method for a result that writes. -/
theorem load_asksWell {n : Nat} (hregistry : s.world.registry = .standard)
    (hentry : (s.load source).2.proc.script[n]? = some (some i)) : i.AsksWell := by
  cases i with
  | call target method args ret =>
      cases ret with
      | none => trivial
      | some dest =>
          obtain ⟨-, -, -, var, typeName, m, -, -, -, -, -, hchecked⟩ := load_checked hentry
          have hfound := hchecked.found
          rw [hregistry] at hfound
          have hreturns := hchecked.returns (Option.some_ne_none dest)
          show method ≠ "set_value" ∧ method ≠ "clear"
          rw [← Registry.name_of_find hfound]
          rcases InPlace.standard_actions hfound with ⟨-, -, hnothing⟩ | ⟨-, -, hnothing⟩
            | ⟨hset, hclear, -⟩
          · exact absurd hnothing hreturns
          · exact absurd hnothing hreturns
          · exact ⟨hset, hclear⟩
  | _ => trivial

-- ================================================================= steps

/-- An instruction that a counted step tries to carry out, and the scene in
which it does: the first one that is no label, or, if that jumps and jumps
run their targets, the one that is jumped to. -/
inductive Attempt (s : Scene) : Scene → Instruction → Prop where
  | first {i : Instruction}
      (entry : s.proc.script[s.proc.script.passLabels s.proc.pc]? = some (some i)) :
      Attempt s (s.goTo (s.proc.script.passLabels s.proc.pc)) i
  | target {i j : Instruction} {t : Scene} {line : Nat}
      (entry : s.proc.script[s.proc.script.passLabels s.proc.pc]? = some (some j))
      (jumped : j.execute (s.goTo (s.proc.script.passLabels s.proc.pc)) = .ok (.goto line, t))
      (legacy : s.proc.config.legacyJump) (within : s.isTarget line)
      (entry' : s.proc.script[line]? = some (some i)) : Attempt s (t.goTo line) i

/-- Up to the attempt nothing has happened but that the processor got to
the line. -/
theorem Attempt.untouched (h : Attempt s m i) :
    Untouched (s.goTo m.proc.pc) m ∧ s.proc.script[m.proc.pc]? = some (some i) := by
  cases h with
  | first entry => exact ⟨.refl _, entry⟩
  | target entry jumped legacy within entry' =>
      obtain ⟨condition, -, hread⟩ := execute_goto_cases jumped
      obtain ⟨draws, rfl⟩ := Untouched.read hread
      exact ⟨⟨draws, rfl⟩, entry'⟩

/-- Where the line just jumped to fails. -/
theorem jump_fail {line : Nat} (htarget : s.isTarget line) (hlegacy : s.proc.config.legacyJump)
    (hentry : s.proc.script[line]? = some (some i))
    (hfault : i.execute (s.goTo line) = .error fault) : s.jump line = (s.goTo line).fail fault := by
  have hentry' : (s.goTo line).proc.script[(s.goTo line).proc.pc]? = some (some i) := hentry
  have hlegacy' : (s.goTo line).proc.config.legacyJump := hlegacy
  unfold jump runTarget
  simp only [if_pos htarget, if_pos hlegacy', hentry', hfault]

/-- A step whose attempt fails ends in its fault. -/
theorem Attempt.advance (h : Attempt s m i) (hfault : i.execute m = .error fault) :
    s.advance = m.fail fault := by
  have hentry {j : Instruction} {n : Nat} (h : s.proc.script[n]? = some (some j)) :
      (s.goTo n).proc.script[(s.goTo n).proc.pc]? = some (some j) := h
  cases h with
  | first entry =>
      unfold Scene.advance
      simp only [hentry entry, hfault]
  | @target _ _ t line entry jumped legacy within entry' =>
      -- the jump itself has left the processor as it was
      have hproc := execute_goto jumped
      have hentry' : t.proc.script[line]? = some (some i) := by
        rw [hproc]
        exact entry'
      have htarget : t.isTarget line := by
        unfold isTarget
        rw [hproc]
        exact within
      have hlegacy : t.proc.config.legacyJump := by
        rw [hproc]
        exact legacy
      unfold Scene.advance
      simp only [hentry entry, jumped, jump_fail htarget hlegacy hentry' hfault]
      exact completeAtEnd_of_lt (Array.getElem?_eq_some_iff.1 hentry').1

/-- A failing instruction leaves no trace.

After a source has loaded with the standard methods, and whatever happens
then, take an instruction that the processor tries to carry out. In place
it comes to what it yields. If it fails, then nothing is different from
before but the random draws spent: the processor with its variables, its
memory and its buffers, and the world with every slot of the arena and the
console. The step that it is part of ends there: one fault is put on record
for it, on the line of the instruction, and this is the line where the
processor stops. In a jump that runs its target, that is the target. -/
theorem failure_atomic (hregistry : s.world.registry = .standard)
    (hload : s.load source = (true, s₁)) (hlater : Later s₁ s₂) (hattempt : Attempt s₂ m i) :
    (∀ signal t, i.perform m = .ok signal t ↔ i.execute m = .ok (signal, t))
      ∧ ∀ fault m', i.perform m = .error fault m' →
          i.execute m = .error fault
            ∧ Untouched m m' ∧ Untouched (s₂.goTo m.proc.pc) m
            ∧ m.proc.script[m.proc.pc]? = some (some i)
            ∧ s₂.advance = m.fail fault
            ∧ (∀ budget, spend (budget + 1) s₂ = m.fail fault)
            ∧ (m.fail fault).proc.status = .halted
            ∧ (m.fail fault).proc.pc = m.proc.pc
            ∧ (m.fail fault).proc.faultCount = s₂.proc.faultCount + 1
            ∧ (m.fail fault).proc.faults
                = s₂.proc.faults ++ [{ fault with line := some m.proc.pc }] := by
  obtain ⟨hsafe, hscript, -⟩ := (load_safe hregistry hload).later hlater
  obtain ⟨huntouched, hentry⟩ := hattempt.untouched
  have hstandard : m.world.registry = .standard := by
    obtain ⟨draws, hm⟩ := huntouched
    rw [hm]
    exact hsafe.registry
  have houtcome := i.outcome_perform hstandard
  refine ⟨fun signal t => ?_, fun fault m' hfails => ?_⟩
  · rw [← houtcome]
    exact InPlace.outcome_eq_ok_iff.symm
  · have hfault : i.execute m = .error fault := by
      rw [← houtcome]
      exact InPlace.outcome_eq_error_iff.2 ⟨m', hfails⟩
    have hloaded : (s.load source).2.proc.script[m.proc.pc]? = some (some i) := by
      rw [hload]
      exact hscript ▸ hentry
    have hasks := load_asksWell hregistry hloaded
    have hadvance := hattempt.advance hfault
    have hplaced : fault.atLine (some m.proc.pc) = { fault with line := some m.proc.pc } := by
      unfold Fault.atLine
      rw [i.execute_unplaced hstandard fault hfault]
      rfl
    have hproc : m.proc = { s₂.proc with pc := m.proc.pc } := by
      obtain ⟨draws, hm⟩ := huntouched
      exact congrArg Scene.proc hm
    refine ⟨hfault, i.perform_atomic hasks m fault m' hfails, huntouched, ?_, hadvance,
      fun budget => ?_, rfl, rfl, ?_, ?_⟩
    · rw [hproc]
      exact hentry
    · unfold spend
      simp only [hadvance]
      exact if_neg (by rintro ⟨⟩)
    · show m.proc.faultCount + 1 = _
      rw [hproc]
    · show m.proc.faults ++ [fault.atLine (some m.proc.pc)] = _
      rw [hplaced, hproc]

/-- Jumps to a line that takes a number from the input. -/
def grab : String := "var int x 1\njump go true\nstop\nlabel go\nconsole pop() x"

/-- A processor that has no input and whose jumps run their targets. -/
def hasty : Scene :=
  ⟨.ofConfig { Config.standard with legacyJump := true }, .start (.start 0) ⟨0⟩⟩

/-- Whether the next step jumps to a line and fails there. -/
def jumpsAndFails (s : Scene) (n : Nat) : Bool :=
  match s.proc.script[s.proc.script.passLabels s.proc.pc]?, s.proc.script[n]? with
  | some (some j), some (some i) =>
    match j.execute (s.goTo (s.proc.script.passLabels s.proc.pc)) with
    | .ok (.goto line, t) =>
      line == n && match i.execute (t.goTo line) with
        | .error _ => true
        | .ok _ => false
    | _ => false
  | _, _ => false

/-- The jump gets to the line that needs input. It fails there, the number
that was to be replaced is as it was, and the fault is on record for that
line. -/
theorem failure_atomic_grab :
    ∃ m i fault m', Attempt (hasty.load grab).2.advance m i ∧ m.proc.pc = 4
      ∧ i.perform m = .error fault m' ∧ i.execute m = .error fault ∧ Untouched m m'
      ∧ Untouched ((hasty.load grab).2.advance.goTo 4) m
      ∧ (hasty.load grab).2.advance.advance = m.fail fault
      ∧ (m.fail fault).proc.faults = [{ fault with line := some 4 }] := by
  have hrun : (hasty.load grab).1 = true ∧ (hasty.load grab).2.advance.jumpsAndFails 4
      ∧ (hasty.load grab).2.advance.proc.config.legacyJump
      ∧ (hasty.load grab).2.advance.isTarget 4
      ∧ (hasty.load grab).2.advance.proc.faults.isEmpty := by
    decide +kernel
  obtain ⟨hloaded, hcheck, hlegacy, htarget, hfaults⟩ := hrun
  have hload : hasty.load grab = (true, (hasty.load grab).2) := Prod.ext hloaded rfl
  have hlater : Later (hasty.load grab).2 (hasty.load grab).2.advance := .advance (.refl _)
  generalize (hasty.load grab).2.advance = s₂ at hcheck hlegacy htarget hfaults hlater ⊢
  unfold jumpsAndFails at hcheck
  split at hcheck
  next j i hj hi =>
    split at hcheck
    next line t hjump =>
      rw [Bool.and_eq_true, beq_iff_eq] at hcheck
      obtain ⟨rfl, hfails⟩ := hcheck
      have hattempt : Attempt s₂ (t.goTo 4) i := .target hj hjump hlegacy htarget hi
      split at hfails
      next fault hfault =>
        obtain ⟨hsame, hatomic⟩ := failure_atomic rfl hload hlater hattempt
        cases hperform : i.perform (t.goTo 4) with
        | ok signal u =>
            rw [(hsame signal u).1 hperform] at hfault
            cases hfault
        | error fault' m' =>
            obtain ⟨hfault', hresidue, huntouched, -, hadvance, -, -, -, -, hrecord⟩ :=
              hatomic fault' m' hperform
            rw [List.isEmpty_iff.1 hfaults] at hrecord
            exact ⟨t.goTo 4, i, fault', m', hattempt, rfl, hperform, hfault', hresidue, huntouched,
              hadvance, hrecord⟩
      next => cases hfails
    next => cases hcheck
  next => cases hcheck

end Scene

end TickScript
