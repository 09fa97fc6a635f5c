/-
Ticks, line by line.

`Scene.step` runs the line that the processor is on and nothing else. A
counted step of a tick runs several: the labels before an instruction are
lines of their own, and where a jump also runs the line that it goes to,
so is that line. This file takes ticks apart into such steps.

`Lines s n s'` says that `s'` is where `s` gets by running `n` lines, and
that the processor is running before each of them. A counted step is at
least one line (`advance_lines`), and so is a tick with a budget
(`spend_lines`), in either way of jumping. What holds of running one line
therefore holds of ticks, without a look at budgets, labels or jumps.
-/
import TickScript.Processor.Tick
import TickScript.Proofs.Except

namespace TickScript

/-- Events after which a processor does nothing more of itself. -/
def Event.isFinal : Event → Bool
  | stopped | completed | halted => true
  | running | waiting _ => false

namespace Scene

variable {s s' s'' : Scene}

-- ================================================================== steps

/-- Runs the line that the processor is on. -/
def step (s : Scene) : Scene :=
  match s.proc.script[s.proc.pc]? with
  | none => s.completeAtEnd
  | some none => s.fail (.bare .missingInstruction)
  | some (some i) =>
    match i.execute s with
    | .error fault => s.fail fault
    | .ok (.next, s) => (s.goTo (s.proc.pc + 1)).completeAtEnd
    | .ok (.goto line, s) =>
      if s.isTarget line then (s.goTo line).completeAtEnd else s.fail (invalidJump line)

/-- A line leaves the scene as it was or as its instruction leaves it. Then
the script goes on somewhere, where it may end, or there is a fault. -/
theorem step_cases (s : Scene) : ∃ s₁,
    (s₁ = s ∨ ∃ i signal, s.proc.script[s.proc.pc]? = some (some i)
        ∧ i.execute s = .ok (signal, s₁))
      ∧ ((∃ line, s.step = (s₁.goTo line).completeAtEnd) ∨ ∃ fault, s.step = s₁.fail fault) := by
  unfold step
  split
  next => exact ⟨s, .inl rfl, .inl ⟨s.proc.pc, rfl⟩⟩
  next => exact ⟨s, .inl rfl, .inr ⟨_, rfl⟩⟩
  next i hi =>
    split
    next => exact ⟨s, .inl rfl, .inr ⟨_, rfl⟩⟩
    next s₁ hexecute => exact ⟨s₁, .inr ⟨i, _, hi, hexecute⟩, .inl ⟨_, rfl⟩⟩
    next line s₁ hexecute =>
      refine ⟨s₁, .inr ⟨i, _, hi, hexecute⟩, ?_⟩
      split
      · exact .inl ⟨line, rfl⟩
      · exact .inr ⟨_, rfl⟩

/-- Lines run in turn, so many, the processor running before each. -/
inductive Lines (s : Scene) : Nat → Scene → Prop where
  | none : Lines s 0 s
  | step {n : Nat} {s' : Scene} (before : Lines s n s') (running : s'.proc.status = .running) :
      Lines s (n + 1) s'.step

theorem Lines.one (h : s.proc.status = .running) : Lines s 1 s.step := .step .none h

theorem Lines.trans {m n : Nat} (h : Lines s m s') (h' : Lines s' n s'') :
    Lines s (m + n) s'' := by
  induction h' with
  | none => exact h
  | step _ running ih => exact ih.step running

-- ================================================================ running

/-- A processor that runs does not wait. -/
theorem delay_eq_zero (h : s.proc.status = .running) : s.proc.delay = 0 := by
  unfold Processor.status at h
  split at h
  · cases h
  · split at h
    · cases h
    · split at h
      · cases h
      · split at h
        · cases h
        · omega

/-- A processor that waits has ticks to wait. -/
theorem delay_pos {n : Nat} (h : s.proc.status = .waiting n) : 0 < s.proc.delay := by
  unfold Processor.status at h
  split at h
  · cases h
  · split at h
    · cases h
    · split at h
      · cases h
      · split at h
        next hpos => exact hpos
        next => cases h

theorem completeAtEnd_world (s : Scene) : s.completeAtEnd.world = s.world := by
  unfold completeAtEnd
  split <;> rfl

theorem completeAtEnd_of_lt (h : s.proc.pc < s.proc.script.size) : s.completeAtEnd = s :=
  if_neg (Nat.not_le.2 h)

/-- Past the end of the script there is nothing to run. -/
theorem step_of_ge (h : s.proc.script.size ≤ s.proc.pc) : s.step = s.completeAtEnd := by
  unfold step
  rw [Array.getElem?_eq_none h]

/-- Only a jump goes elsewhere, once its condition is read. -/
theorem execute_goto_cases {i : Instruction} {line : Nat}
    (h : i.execute s = .ok (.goto line, s')) :
    ∃ condition, i = .jump line condition ∧ s.read condition = .ok (.bool true, s') := by
  have hnext : ∀ {x : Except Fault Scene},
      x.map (fun s => (Signal.next, s)) ≠ .ok (.goto line, s') := by
    intro x h
    obtain ⟨s₁, -, h⟩ := map_eq_ok.1 h
    cases h
  cases i with
  | declare dest source =>
      simp only [Instruction.execute] at h
      split at h
      next => cases h
      next =>
        obtain ⟨r, -, h⟩ := bind_eq_ok.1 h
        obtain ⟨s₁, -, h⟩ := bind_eq_ok.1 h
        cases h
  | assign dest source =>
      obtain ⟨r, -, h⟩ := bind_eq_ok.1 h
      obtain ⟨s₁, -, h⟩ := bind_eq_ok.1 h
      cases h
  | jump target condition =>
      obtain ⟨⟨v, s₁⟩, hv, h⟩ := bind_eq_ok.1 h
      cases v with
      | bool b =>
          cases b with
          | true =>
              cases h
              exact ⟨condition, rfl, hv⟩
          | false => cases h
      | _ => cases h
  | label | stop | create => cases h
  | time op => exact (hnext h).elim
  | console op => exact (hnext h).elim
  | memory device op =>
      cases device with
      | none => exact (hnext h).elim
      | some id =>
          obtain ⟨g, -, h⟩ := bind_eq_ok.1 h
          exact (hnext h).elim
  | call target method args ret => exact (hnext h).elim

/-- A jump leaves the processor as it is. -/
theorem execute_goto {i : Instruction} {line : Nat} (h : i.execute s = .ok (.goto line, s')) :
    s'.proc = s.proc := by
  obtain ⟨condition, -, hread⟩ := execute_goto_cases h
  obtain ⟨⟨v, draws⟩, -, hread⟩ := bind_eq_ok.1 hread
  cases hread
  rfl

-- ================================================================= labels

/-- A label is a line that does nothing. -/
theorem step_label (h : s.proc.script[s.proc.pc]? = some (some .label)) :
    s.step = (s.goTo (s.proc.pc + 1)).completeAtEnd := by
  unfold step
  rw [h]
  rfl

/-- Labels are passed line by line, and so is the end of the script if
nothing comes after them. -/
theorem labels_lines (count : Nat) : ∀ {s : Scene}, s.proc.script.size - s.proc.pc = count →
    s.proc.status = .running →
    ∃ n, Lines s n (s.goTo (s.proc.script.passUpTo count s.proc.pc)).completeAtEnd
      ∧ (s.proc.script.size ≤ s.proc.script.passUpTo count s.proc.pc → 1 ≤ n) := by
  induction count with
  | zero =>
      intro s hcount hrun
      have hend : s.proc.script.size ≤ s.proc.pc := by omega
      refine ⟨1, ?_, fun _ => Nat.le_refl 1⟩
      have hstep : Lines s 1 s.step := .one hrun
      rw [step_of_ge hend] at hstep
      exact hstep
  | succ count ih =>
      intro s hcount hrun
      have hlt : s.proc.pc < s.proc.script.size := by omega
      unfold Script.passUpTo
      rw [Array.getElem?_eq_getElem hlt]
      simp only
      split
      next hlabel =>
        have hentry : s.proc.script[s.proc.pc]? = some (some .label) := by
          rw [Array.getElem?_eq_getElem hlt]
          cases hi : s.proc.script[s.proc.pc] with
          | none =>
              rw [hi] at hlabel
              cases hlabel
          | some i =>
              rw [hi] at hlabel
              cases i <;> first | rfl | cases hlabel
        have hstep : Lines s 1 s.step := .one hrun
        rw [step_label hentry] at hstep
        by_cases hlast : s.proc.pc + 1 < s.proc.script.size
        · -- the next line is in the script, so the processor runs on
          have hnext : (s.goTo (s.proc.pc + 1)).completeAtEnd = s.goTo (s.proc.pc + 1) :=
            completeAtEnd_of_lt hlast
          rw [hnext] at hstep
          have hrest : (s.goTo (s.proc.pc + 1)).proc.script.size
              - (s.goTo (s.proc.pc + 1)).proc.pc = count := by
            show s.proc.script.size - (s.proc.pc + 1) = count
            omega
          obtain ⟨n, hlines, -⟩ := ih hrest hrun
          exact ⟨1 + n, hstep.trans hlines, fun _ => by omega⟩
        · have hzero : count = 0 := by omega
          subst hzero
          exact ⟨1, hstep, fun _ => Nat.le_refl 1⟩
      next =>
        have hstay : (s.goTo s.proc.pc).completeAtEnd = s := completeAtEnd_of_lt hlt
        refine ⟨0, ?_, fun hend => by omega⟩
        rw [hstay]
        exact .none

-- ================================================================== jumps

/-- The line that a jump goes to is one more line. -/
theorem step_of_runTarget (h : s.proc.pc < s.proc.script.size) :
    s.runTarget.completeAtEnd = s.step := by
  unfold runTarget step
  rw [Array.getElem?_eq_getElem h]
  cases hentry : s.proc.script[s.proc.pc] with
  | none => exact completeAtEnd_of_lt h
  | some i =>
      simp only
      cases hexecute : i.execute s with
      | error fault => exact completeAtEnd_of_lt h
      | ok r =>
          obtain ⟨signal, s'⟩ := r
          cases signal with
          | next => rfl
          | goto line =>
              simp only
              split
              · rfl
              · have hproc := execute_goto hexecute
                refine completeAtEnd_of_lt ?_
                show s'.proc.pc < s'.proc.script.size
                rw [hproc]
                exact h

/-- Where a jump also runs the line that it goes to, that is one line
more. -/
theorem jump_lines {line n : Nat} (hrun : s'.proc.status = .running)
    (hlt : s'.proc.pc < s'.proc.script.size)
    (hlines : Lines s n (if s'.isTarget line then (s'.goTo line).completeAtEnd
      else s'.fail (invalidJump line))) :
    ∃ k, n ≤ k ∧ Lines s k (s'.jump line).completeAtEnd := by
  unfold jump
  split
  next htarget =>
    rw [if_pos htarget] at hlines
    simp only
    split
    next =>
      by_cases hin : line < s'.proc.script.size
      · have hgo : (s'.goTo line).completeAtEnd = s'.goTo line := completeAtEnd_of_lt hin
        rw [hgo] at hlines
        rw [step_of_runTarget hin]
        exact ⟨n + 1, by omega, hlines.step hrun⟩
      · have hend : (s'.goTo line).runTarget = s'.goTo line := by
          have hnone : (s'.goTo line).proc.script[(s'.goTo line).proc.pc]? = none :=
            Array.getElem?_eq_none (Nat.not_lt.1 hin)
          unfold runTarget
          rw [hnone]
        rw [hend]
        exact ⟨n, Nat.le_refl n, hlines⟩
    next => exact ⟨n, Nat.le_refl n, hlines⟩
  next htarget =>
    rw [if_neg htarget] at hlines
    have hstay : (s'.fail (invalidJump line)).completeAtEnd = s'.fail (invalidJump line) :=
      completeAtEnd_of_lt hlt
    rw [hstay]
    exact ⟨n, Nat.le_refl n, hlines⟩

/-- A counted step runs the lines that it passes and at least one. -/
theorem advance_lines (hrun : s.proc.status = .running) :
    ∃ n, 1 ≤ n ∧ Lines s n s.advance := by
  obtain ⟨n, hlines, hone⟩ := labels_lines _ rfl hrun
  change Lines s n (s.goTo (s.proc.script.passLabels s.proc.pc)).completeAtEnd at hlines
  change s.proc.script.size ≤ s.proc.script.passLabels s.proc.pc → 1 ≤ n at hone
  unfold advance
  simp only
  -- the processor is past the labels, at the end or at one more line
  split
  next hnone => exact ⟨n, hone (Array.getElem?_eq_none_iff.1 hnone), hlines⟩
  next hgap =>
    rw [completeAtEnd_of_lt (Array.getElem?_eq_some_iff.1 hgap).1] at hlines
    have hstep := hlines.step hrun
    unfold step at hstep
    rw [hgap] at hstep
    exact ⟨n + 1, by omega, hstep⟩
  next i hi =>
    have hlt := (Array.getElem?_eq_some_iff.1 hi).1
    rw [completeAtEnd_of_lt hlt] at hlines
    have hstep := hlines.step hrun
    unfold step at hstep
    rw [hi] at hstep
    simp only at hstep
    cases hexecute : i.execute (s.goTo (s.proc.script.passLabels s.proc.pc)) with
    | error fault =>
        rw [hexecute] at hstep
        exact ⟨n + 1, by omega, hstep⟩
    | ok r =>
        obtain ⟨signal, s'⟩ := r
        rw [hexecute] at hstep
        cases signal with
        | next => exact ⟨n + 1, by omega, hstep⟩
        | goto line =>
            have hproc := execute_goto hexecute
            have hrun' : s'.proc.status = .running := by
              rw [hproc]
              exact hrun
            have hlt' : s'.proc.pc < s'.proc.script.size := by
              rw [hproc]
              exact hlt
            obtain ⟨k, hk, hjump⟩ := jump_lines hrun' hlt' hstep
            exact ⟨k, by omega, hjump⟩

-- ================================================================== ticks

/-- A tick runs lines, and at least one if it has a budget. -/
theorem spend_lines (budget : Nat) : ∀ {s : Scene}, s.proc.status = .running →
    ∃ n, (1 ≤ budget → 1 ≤ n) ∧ Lines s n (spend budget s) := by
  induction budget with
  | zero =>
      intro s hrun
      unfold spend
      by_cases hend : s.proc.script.size ≤ s.proc.pc
      · rw [← step_of_ge hend]
        exact ⟨1, fun _ => Nat.le_refl 1, .one hrun⟩
      · rw [completeAtEnd_of_lt (Nat.not_le.1 hend)]
        exact ⟨0, fun h => by omega, .none⟩
  | succ budget ih =>
      intro s hrun
      obtain ⟨n, hn, hlines⟩ := advance_lines hrun
      unfold spend
      simp only
      split
      next hrun' =>
        obtain ⟨m, -, hlines'⟩ := ih hrun'
        exact ⟨n + m, fun _ => by omega, hlines.trans hlines'⟩
      next => exact ⟨n, fun _ => hn, hlines⟩

/-- The scene one frame later. -/
def aged (s : Scene) : Scene := { s with proc := { s.proc with frames := s.proc.frames + 1 } }

/-- A processor that waits has one frame less to wait. -/
theorem tick_waiting {n : Nat} (h : s.proc.status = .waiting n) :
    s.tick = (.waiting (n - 1),
      { s.aged with proc := { s.aged.proc with delay := s.proc.delay - 1 } }) := by
  have haged : ({ s.proc with frames := s.proc.frames + 1 } : Processor).status = .waiting n := h
  simp only [tick, haged]
  rfl

/-- A processor that runs spends its budget. -/
theorem tick_spend (h : s.proc.status = .running) :
    s.tick = ((spend s.proc.config.instructionsPerTick s.aged).proc.status,
      spend s.proc.config.instructionsPerTick s.aged) := by
  have haged : ({ s.proc with frames := s.proc.frames + 1 } : Processor).status = .running := h
  simp only [tick, haged]
  rfl

/-- A processor that runs does so, line by line. -/
theorem tick_running (h : s.proc.status = .running) :
    ∃ n s', (1 ≤ s.proc.config.instructionsPerTick → 1 ≤ n) ∧ Lines s.aged n s'
      ∧ s.tick = (s'.proc.status, s') := by
  have haged : s.aged.proc.status = .running := h
  obtain ⟨n, hn, hlines⟩ := spend_lines s.proc.config.instructionsPerTick haged
  exact ⟨n, _, hn, hlines, tick_spend h⟩

/-- A processor that has stopped for good only ages. -/
theorem tick_final (h : s.proc.status.isFinal) : s.tick = (s.proc.status, s.aged) := by
  have haged : ({ s.proc with frames := s.proc.frames + 1 } : Processor).status
      = s.proc.status := rfl
  simp only [tick, haged]
  cases hstatus : s.proc.status with
  | running | waiting _ =>
      rw [hstatus] at h
      cases h
  | stopped | completed | halted => rfl

end Scene

end TickScript
