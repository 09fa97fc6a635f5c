/-
Runs that go the same way.

Beside carrying out instructions and failing, a tick changes only the course
of a processor: the line that it is on, the ticks that it has to wait,
whether it has completed, and its frames (`Scene.Course`). A relation
between scenes is a bisimulation if related processors have the same script
and setup, are on the same course and stand the same, if the instruction at
hand agrees on them, and if failing and changing the course keep them
related. Ticks of related scenes then give the same events and lead to
related scenes, and so does any number of them (`Bisimulation.play`).

The proof follows the definition of a tick: a jump, a counted step, the
steps of a budget, a tick, ticks.
-/
import TickScript.Proofs.Processor.Slicing

namespace TickScript

namespace Scene

/-- Where a processor is in its run. -/
structure Course where
  pc : Nat
  delay : Nat
  completed : Bool
  frames : Nat

/-- The course that a processor is on. -/
def course (s : Scene) : Course := ⟨s.proc.pc, s.proc.delay, s.proc.completed, s.proc.frames⟩

/-- The scene with its processor on another course. -/
def onCourse (s : Scene) (c : Course) : Scene :=
  { s with proc := { s.proc with
      pc := c.pc
      delay := c.delay
      completed := c.completed
      frames := c.frames } }

end Scene

open Scene

/-- A relation that ticks keep, with the same events on both sides. -/
structure Bisimulation (R : Scene → Scene → Prop) : Prop where
  script : ∀ {s t}, R s t → t.proc.script = s.proc.script
  config : ∀ {s t}, R s t → t.proc.config = s.proc.config
  course : ∀ {s t}, R s t → t.course = s.course
  status : ∀ {s t}, R s t → t.proc.status = s.proc.status
  execute : ∀ {s t i}, R s t → s.proc.script[s.proc.pc]? = some (some i) →
    Agree (Beside R) (i.execute s) (i.execute t)
  fail : ∀ {s t}, R s t → ∀ fault, R (s.fail fault) (t.fail fault)
  onCourse : ∀ {s t}, R s t → ∀ c, R (s.onCourse c) (t.onCourse c)
  atTime : ∀ {s t}, R s t → ∀ clock, R (s.atTime clock) (t.atTime clock)

namespace Bisimulation

variable {R : Scene → Scene → Prop} {s t : Scene}

/-- Related processors are on the same line. -/
theorem pc (hR : Bisimulation R) (hst : R s t) : t.proc.pc = s.proc.pc :=
  congrArg Course.pc (hR.course hst)

/-- Both change their course. -/
theorem turn (hR : Bisimulation R) (hst : R s t) (f : Course → Course) :
    R (s.onCourse (f s.course)) (t.onCourse (f t.course)) := by
  rw [hR.course hst]
  exact hR.onCourse hst _

/-- Both go to the same line. -/
theorem goTo (hR : Bisimulation R) (hst : R s t) (line : Nat) : R (s.goTo line) (t.goTo line) :=
  hR.turn hst fun c => { c with pc := line }

/-- A frame goes by for both. -/
theorem age (hR : Bisimulation R) (hst : R s t) : R s.aged t.aged :=
  hR.turn hst fun c => { c with frames := c.frames + 1 }

/-- Both have come to the end, or neither. -/
theorem completeAtEnd (hR : Bisimulation R) (hst : R s t) :
    R s.completeAtEnd t.completeAtEnd := by
  unfold Scene.completeAtEnd
  rw [hR.script hst, hR.pc hst]
  split
  · exact hR.turn hst fun c => { c with completed := true }
  · exact hst

/-- Going on to the next line. -/
theorem next (hR : Bisimulation R) (hst : R s t) :
    R (s.goTo (s.proc.pc + 1)) (t.goTo (t.proc.pc + 1)) := by
  rw [hR.pc hst]
  exact hR.goTo hst _

/-- A line is a target for both or for neither, their scripts being the same. -/
theorem isTarget (hR : Bisimulation R) (hst : R s t) (line : Nat) :
    t.isTarget line = s.isTarget line := by
  unfold Scene.isTarget
  rw [hR.script hst]

/-- Running the line that a jump goes to, both fail or both go on. -/
theorem runTarget (hR : Bisimulation R) (hst : R s t) : R s.runTarget t.runTarget := by
  unfold Scene.runTarget
  rw [hR.script hst, hR.pc hst]
  cases hentry : s.proc.script[s.proc.pc]? with
  | none => exact hst
  | some entry =>
      cases entry with
      | none => exact hR.fail hst _
      | some i =>
          have hagree := hR.execute hst hentry
          simp only
          generalize i.execute s = x, i.execute t = y at hagree ⊢
          cases hagree with
          | error fault => exact hR.fail hst fault
          | @ok r r' related =>
              obtain ⟨signal, s'⟩ := r
              obtain ⟨signal', t'⟩ := r'
              obtain ⟨rfl, hst'⟩ : signal' = signal ∧ R s' t' := related
              cases signal' with
              | next => exact hR.next hst'
              | goto line =>
                  simp only [hR.isTarget hst']
                  split
                  · exact hR.goTo hst' line
                  · exact hR.fail hst' _

/-- A jump leads to the same line, and runs it if the setup says so. -/
theorem jump (hR : Bisimulation R) (hst : R s t) (line : Nat) : R (s.jump line) (t.jump line) := by
  have hlegacy : (t.goTo line).proc.config.legacyJump = (s.goTo line).proc.config.legacyJump :=
    congrArg Config.legacyJump (hR.config (hR.goTo hst line))
  unfold Scene.jump
  simp only [hR.isTarget hst, hlegacy]
  split
  · split
    · exact hR.runTarget (hR.goTo hst line)
    · exact hR.goTo hst line
  · exact hR.fail hst _

/-- A counted step is that of the same instruction, which agrees on both. -/
theorem advance (hR : Bisimulation R) (hst : R s t) : R s.advance t.advance := by
  have hpassed : R (s.goTo (s.proc.script.passLabels s.proc.pc))
      (t.goTo (t.proc.script.passLabels t.proc.pc)) := by
    rw [hR.script hst, hR.pc hst]
    exact hR.goTo hst _
  unfold Scene.advance
  simp only
  generalize s.goTo (s.proc.script.passLabels s.proc.pc) = s,
    t.goTo (t.proc.script.passLabels t.proc.pc) = t at hpassed ⊢
  rw [hR.script hpassed, hR.pc hpassed]
  cases hentry : s.proc.script[s.proc.pc]? with
  | none => exact hR.completeAtEnd hpassed
  | some entry =>
      cases entry with
      | none => exact hR.fail hpassed _
      | some i =>
          have hagree := hR.execute hpassed hentry
          simp only
          generalize i.execute s = x, i.execute t = y at hagree ⊢
          cases hagree with
          | error fault => exact hR.fail hpassed fault
          | @ok r r' related =>
              obtain ⟨signal, s'⟩ := r
              obtain ⟨signal', t'⟩ := r'
              obtain ⟨rfl, hst'⟩ : signal' = signal ∧ R s' t' := related
              cases signal' with
              | next => exact hR.completeAtEnd (hR.next hst')
              | goto line => exact hR.completeAtEnd (hR.jump hst' line)

/-- Budgets are spent step by step, on the induction that both end together. -/
theorem spend (hR : Bisimulation R) (budget : Nat) :
    ∀ {s t : Scene}, R s t → R (Scene.spend budget s) (Scene.spend budget t) := by
  induction budget with
  | zero => exact fun hst => hR.completeAtEnd hst
  | succ budget ih =>
      intro s t hst
      have hadvanced := hR.advance hst
      unfold Scene.spend
      simp only [hR.status hadvanced]
      split
      · exact ih hadvanced
      · exact hadvanced

/-- A tick gives the same event, since processors that are related stand the
same. -/
theorem tick (hR : Bisimulation R) (hst : R s t) : Beside R s.tick t.tick := by
  have hstatus := hR.status hst
  cases hs : s.proc.status with
  | waiting n =>
      rw [tick_waiting hs, tick_waiting (hstatus.trans hs)]
      exact ⟨rfl, hR.turn hst fun c => { c with frames := c.frames + 1, delay := c.delay - 1 }⟩
  | running =>
      rw [tick_spend hs, tick_spend (hstatus.trans hs), hR.config hst]
      have hspent := hR.spend s.proc.config.instructionsPerTick (hR.age hst)
      exact ⟨hR.status hspent, hspent⟩
  | stopped | completed | halted =>
      have hfinal : s.proc.status.isFinal := by
        rw [hs]
        rfl
      rw [tick_final hfinal, tick_final (hstatus ▸ hfinal)]
      exact ⟨hstatus, hR.age hst⟩

/-- Related scenes go the same way, however long. -/
theorem play (hR : Bisimulation R) (hst : R s t) (clocks : Nat → Clock) (n : Nat) :
    Beside R (s.play clocks n) (t.play clocks n) := by
  induction n with
  | zero => exact ⟨hR.status hst, hst⟩
  | succ n ih => exact hR.tick (hR.atTime ih.2 (clocks n))

end Bisimulation

end TickScript
