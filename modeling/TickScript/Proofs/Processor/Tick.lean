/-
What a tick does, from what its instructions do.

Two things are lifted from instructions to counted steps and from these
to ticks. The first holds of any script whose instructions are well
formed, even of one with gaps where lines were at fault: the script runs
on unchanged and usages stay balanced (`Scene.Keeps`). The second is for
scripts without gaps: the processor stays on a line of its script or at
the end, and every fault it records is ordinary (`Scene.Safe`).
-/
import TickScript.Processor.Tick
import TickScript.Proofs.Processor.Execute

namespace TickScript

/-- The instructions of the script are well formed among the processor's
variables. -/
def Processor.WellFormed (p : Processor) : Prop :=
  ∀ i, some i ∈ p.script.toList → i.WellFormed p.vars.kinds p.script.size

namespace Scene

/-- The script is well formed and the methods are the standard ones. -/
structure Sound (s : Scene) : Prop where
  registry : s.world.registry = .standard
  proc : s.proc.WellFormed

variable {s s' s'' : Scene}

/-- A scene keeps what it has. -/
theorem Keeps.refl (s : Scene) : Keeps s s := (Does.refl s).toKeeps

/-- Variables are added at most, so the script stays well formed among them. -/
theorem Keeps.sound (h : Keeps s s') (hs : Sound s) : Sound s' where
  registry := h.registry.trans hs.registry
  proc i hi := by
    rw [h.script] at hi
    rw [h.script, h.kinds]
    exact hs.proc i hi

/-- What matters to a script is untouched by a change of other fields. -/
theorem keeps_of_eq (hscript : s'.proc.script = s.proc.script)
    (hvars : s'.proc.vars = s.proc.vars) (hmemory : s'.proc.memory = s.proc.memory)
    (hworld : s'.world = s.world) : Keeps s s' where
  script := hscript
  kinds := by rw [hvars]
  registry := by rw [hworld]
  balance others hb := by
    rw [Processor.held, hvars, hmemory, hworld]
    exact hb

/-- Failing leaves the script and the variables alone. -/
theorem fail_keeps (fault : Fault) : Keeps s (s.fail fault) := keeps_of_eq rfl rfl rfl rfl

/-- So does going to another line. -/
theorem goTo_keeps (line : Nat) : Keeps s (s.goTo line) := keeps_of_eq rfl rfl rfl rfl

/-- And so does coming to the end. -/
theorem completeAtEnd_keeps : Keeps s s.completeAtEnd := by
  unfold completeAtEnd
  split
  · exact keeps_of_eq rfl rfl rfl rfl
  · exact .refl s

-- ================================================================= steps

/-- An entry of the script that is there is well formed. -/
theorem Sound.entry {i : Instruction} {pc : Nat} (hs : Sound s)
    (h : s.proc.script[pc]? = some (some i)) :
    i.WellFormed s.proc.vars.kinds s.proc.script.size :=
  hs.proc i (Array.mem_toList_iff.2 (Array.mem_of_getElem? h))

/-- An instruction of the script is well formed, so carrying it out keeps what
it needs. -/
theorem execute_keeps {i : Instruction} {pc : Nat} {signal : Signal} (hs : Sound s)
    (hi : s.proc.script[pc]? = some (some i)) (h : i.execute s = .ok (signal, s')) :
    Keeps s s' :=
  ((Instruction.execute_spec (hs.entry hi) hs.registry).does signal s' h).toKeeps

/-- The line that a jump goes to may be a gap or fail; else its instruction is
one of the script. -/
theorem runTarget_keeps (hs : Sound s) : Keeps s s.runTarget := by
  unfold runTarget
  split
  next => exact .refl s
  next => exact fail_keeps _
  next i hi =>
    split
    next => exact fail_keeps _
    next s' h => exact (execute_keeps hs hi h).trans (goTo_keeps _)
    next line s' h =>
      have hkeeps := execute_keeps hs hi h
      split
      · exact hkeeps.trans (goTo_keeps _)
      · exact hkeeps.trans (fail_keeps _)

theorem jump_keeps (line : Nat) (hs : Sound s) : Keeps s (s.jump line) := by
  unfold jump
  split
  next =>
    have hgo : Keeps s (s.goTo line) := goTo_keeps line
    simp only
    split
    · exact hgo.trans (runTarget_keeps (hgo.sound hs))
    · exact hgo
  next => exact fail_keeps _

/-- A counted step carries out one instruction, goes on, jumps or fails. -/
theorem advance_keeps (hs : Sound s) : Keeps s s.advance := by
  have hgo : Keeps s (s.goTo (s.proc.script.passLabels s.proc.pc)) := goTo_keeps _
  have hs' := hgo.sound hs
  unfold advance
  simp only
  split
  next => exact hgo.trans completeAtEnd_keeps
  next => exact hgo.trans (fail_keeps _)
  next i hi =>
    split
    next => exact hgo.trans (fail_keeps _)
    next s' h =>
      have hkeeps := hgo.trans (execute_keeps hs' hi h)
      exact (hkeeps.trans (goTo_keeps _)).trans completeAtEnd_keeps
    next line s' h =>
      have hkeeps := hgo.trans (execute_keeps hs' hi h)
      exact (hkeeps.trans (jump_keeps line (hkeeps.sound hs))).trans completeAtEnd_keeps

/-- Over a budget, step by step. -/
theorem spend_keeps (budget : Nat) : ∀ {s : Scene}, Sound s → Keeps s (spend budget s) := by
  induction budget with
  | zero => intro s _; exact completeAtEnd_keeps
  | succ budget ih =>
      intro s hs
      have hstep := advance_keeps hs
      unfold spend
      simp only
      split
      · exact hstep.trans (ih (hstep.sound hs))
      · exact hstep

/-- A tick runs the script on and keeps usages balanced. -/
theorem tick_keeps (hs : Sound s) : Keeps s s.tick.2 := by
  have hframe : Keeps s { s with proc := { s.proc with frames := s.proc.frames + 1 } } :=
    keeps_of_eq rfl rfl rfl rfl
  unfold tick
  simp only
  split
  next => exact hframe.trans (keeps_of_eq rfl rfl rfl rfl)
  next => exact hframe.trans (spend_keeps _ (hframe.sound hs))
  next => exact hframe

-- ================================================================ safety

/-- The script has no gaps, the processor is on one of its lines or at
the end, and its faults are ordinary. -/
structure Safe (s : Scene) : Prop extends Sound s where
  complete : none ∉ s.proc.script.toList
  pc_le : s.proc.pc ≤ s.proc.script.size
  ordinary : ∀ fault ∈ s.proc.faults, fault.cause.IsOrdinary

/-- The script goes on from a line of its own, with the faults there
were. -/
theorem Safe.keeps (hs : Safe s) (h : Keeps s s') (hpc : s'.proc.pc ≤ s.proc.script.size)
    (hfaults : s'.proc.faults = s.proc.faults) : Safe s' where
  toSound := h.sound hs.toSound
  complete := by
    rw [h.script]
    exact hs.complete
  pc_le := by
    rw [h.script]
    exact hpc
  ordinary := by
    rw [hfaults]
    exact hs.ordinary

/-- An ordinary fault may be recorded, for the line that the processor is on. -/
theorem Safe.fail {fault : Fault} (hs : Safe s) (h : fault.cause.IsOrdinary) :
    Safe (s.fail fault) where
  toSound := (fail_keeps fault).sound hs.toSound
  complete := hs.complete
  pc_le := hs.pc_le
  ordinary f hf := by
    rcases List.mem_append.1 hf with hf | hf
    · exact hs.ordinary f hf
    · rw [List.mem_singleton] at hf
      subst hf
      exact h

/-- The processor may be sent anywhere within the script. -/
theorem Safe.goTo {line : Nat} (hs : Safe s) (h : line ≤ s.proc.script.size) :
    Safe (s.goTo line) :=
  hs.keeps (goTo_keeps line) h rfl

theorem Safe.completeAtEnd (hs : Safe s) : Safe s.completeAtEnd := by
  refine hs.keeps completeAtEnd_keeps ?_ ?_ <;> unfold Scene.completeAtEnd <;> split
  · exact hs.pc_le
  · exact hs.pc_le
  · rfl
  · rfl

/-- There is an instruction on every line. -/
theorem Safe.no_gap {pc : Nat} (hs : Safe s) : s.proc.script[pc]? ≠ some none := fun h =>
  hs.complete (Array.mem_toList_iff.2 (Array.mem_of_getElem? h))

/-- An instruction that fails does so for an ordinary reason, and one
that succeeds goes on from a line of the script. -/
theorem Safe.execute {i : Instruction} {pc : Nat} (hs : Safe s)
    (hi : s.proc.script[pc]? = some (some i)) :
    Ordinary (i.execute s)
      ∧ ∀ signal s', i.execute s = .ok (signal, s') →
          Safe s' ∧ s'.proc.script = s.proc.script ∧ s'.proc.pc = s.proc.pc
            ∧ ∀ line, signal = .goto line → line ≤ s'.proc.script.size := by
  have hwf := hs.entry hi
  have hspec := Instruction.execute_spec hwf hs.registry
  refine ⟨hspec.ordinary, fun signal s' h => ?_⟩
  have hdoes := hspec.does signal s' h
  refine ⟨hs.keeps hdoes.toKeeps ?_ hdoes.faults, hdoes.script, hdoes.pc, fun line hline => ?_⟩
  · rw [hdoes.pc]
    exact hs.pc_le
  · rw [hdoes.script]
    subst hline
    exact hwf.lines line (hspec.within line s' h)

/-- After an instruction there is a next line, or the end. -/
theorem Safe.next {i : Instruction} (hs : Safe s)
    (hi : s.proc.script[s.proc.pc]? = some (some i)) (h : i.execute s = .ok (.next, s')) :
    Safe (s'.goTo (s'.proc.pc + 1)) := by
  obtain ⟨hs', hscript, hpc, -⟩ := (hs.execute hi).2 _ _ h
  refine hs'.goTo ?_
  have hlt : s.proc.pc < s.proc.script.size := (Array.getElem?_eq_some_iff.1 hi).1
  rw [hscript, hpc]
  omega

/-- Where a jump runs its target, that line too has an instruction. -/
theorem Safe.runTarget (hs : Safe s) : Safe s.runTarget := by
  unfold Scene.runTarget
  split
  next => exact hs
  next h => exact absurd h hs.no_gap
  next i hi =>
    split
    next fault h => exact hs.fail ((hs.execute hi).1 fault h)
    next s' h => exact hs.next hi h
    next line s' h =>
      obtain ⟨hs', -, -, hline⟩ := (hs.execute hi).2 _ _ h
      have hle := hline line rfl
      rw [if_pos (by simpa [isTarget] using hle)]
      exact hs'.goTo hle

/-- Jumps go to lines within the script. -/
theorem Safe.jump {line : Nat} (hs : Safe s) (h : line ≤ s.proc.script.size) :
    Safe (s.jump line) := by
  unfold Scene.jump
  rw [if_pos (by simpa [isTarget] using h)]
  simp only
  split
  · exact (hs.goTo h).runTarget
  · exact hs.goTo h

end Scene

/-- Passing labels stops at the end of the script at the latest. -/
theorem Script.passUpTo_le (script : Script) (count : Nat) :
    ∀ {pc : Nat}, pc ≤ script.size → script.passUpTo count pc ≤ script.size := by
  induction count with
  | zero => intro pc h; exact h
  | succ count ih =>
      intro pc h
      unfold passUpTo
      split
      next entry hentry =>
        have hlt : pc < script.size := (Array.getElem?_eq_some_iff.1 hentry).1
        split
        · exact ih (by omega)
        · exact h
      next => exact h

namespace Scene

variable {s : Scene}

/-- Over a counted step, by what the instruction gives: a next line, a target,
or an ordinary fault. -/
theorem Safe.advance (hs : Safe s) : Safe s.advance := by
  have hgo : Safe (s.goTo (s.proc.script.passLabels s.proc.pc)) :=
    hs.goTo (Script.passUpTo_le _ _ hs.pc_le)
  unfold Scene.advance
  simp only
  split
  next => exact hgo.completeAtEnd
  next h => exact absurd h hgo.no_gap
  next i hi =>
    split
    next fault h => exact hgo.fail ((hgo.execute hi).1 fault h)
    next s' h => exact (hgo.next hi h).completeAtEnd
    next line s' h =>
      obtain ⟨hs', -, -, hline⟩ := (hgo.execute hi).2 _ _ h
      exact (hs'.jump (hline line rfl)).completeAtEnd

theorem Safe.spend (budget : Nat) : ∀ {s : Scene}, Safe s → Safe (spend budget s) := by
  induction budget with
  | zero => intro s hs; exact hs.completeAtEnd
  | succ budget ih =>
      intro s hs
      unfold Scene.spend
      simp only
      split
      · exact ih hs.advance
      · exact hs.advance

/-- A tick records ordinary faults only, and stays within the script. -/
theorem Safe.tick (hs : Safe s) : Safe s.tick.2 := by
  have hframe : Safe { s with proc := { s.proc with frames := s.proc.frames + 1 } } :=
    hs.keeps (keeps_of_eq rfl rfl rfl rfl) hs.pc_le rfl
  unfold Scene.tick
  simp only
  split
  next => exact hframe.keeps (keeps_of_eq rfl rfl rfl rfl) hframe.pc_le rfl
  next => exact hframe.spend _
  next => exact hframe

end Scene

end TickScript
