/-
The end of a run.

A processor that has halted, completed or been stopped stays as it is until
another script is loaded. Its status is worked out from four fields, and
the order among them is what keeps it: a fault outweighs completion, and
completion a stop, so interrupting a processor that has come to its end
does not change the end it came to (`Processor.status_interrupt_final`).
Nothing else that can happen touches these fields, except a tick, and that
does nothing but count the frame (`Scene.tick_final`).

# Faults

Only `Processor.fail` records a fault, and it halts. An instruction that is
carried out leaves the record as it is (`Scene.Effect.sameFaults`), so what
is true of the record and stays true as a processor fails is kept by
whatever happens to it (`Processor.OfRecord`). One such property is that
there is one fault after a load that succeeded if the processor has halted,
and none before (`Processor.FaultsOnce`).
-/
import TickScript.Proofs.Processor.Readonly

namespace TickScript

-- ================================================================ status

namespace Processor

variable {p : Processor}

/-- Halting outweighs everything else. -/
theorem status_eq_halted_iff : p.status = .halted ↔ p.halted := by
  unfold status
  split
  next hhalted => simp [hhalted]
  next hhalted =>
    refine ⟨fun h => ?_, fun h => absurd h hhalted⟩
    split at h
    · cases h
    · split at h
      · cases h
      · split at h <;> cases h

/-- What runs has not halted. -/
theorem halted_of_running (h : p.status = .running) : p.halted = false := by
  by_contra hhalted
  rw [Bool.not_eq_false, ← status_eq_halted_iff, h] at hhalted
  cases hhalted

/-- A processor that has come to an end is not interrupted. -/
theorem status_interrupt_final (h : p.status.isFinal) : p.interrupt.status = p.status := by
  unfold status at h ⊢
  show (if p.halted then Event.halted else if p.completed then .completed else .stopped) = _
  split
  next => rfl
  next hhalted =>
    rw [if_neg hhalted] at h
    split
    next => rfl
    next hcompleted =>
      rw [if_neg hcompleted] at h
      split at h
      next henabled => rw [if_pos henabled]
      next => split at h <;> cases h

/-- Any other is stopped. -/
theorem status_interrupt (h : p.status.isFinal = false) : p.interrupt.status = .stopped := by
  unfold status at h
  show (if p.halted then Event.halted else if p.completed then .completed else .stopped) = _
  split at h
  next => cases h
  next hhalted =>
    rw [if_neg hhalted]
    split at h
    next => cases h
    next hcompleted => rw [if_neg hcompleted]

/-- The faults on record are the same. -/
structure SameFaults (p p' : Processor) : Prop where
  halted : p'.halted = p.halted
  faultCount : p'.faultCount = p.faultCount
  faults : p'.faults = p.faults

/-- The record stays as it is, step by step. -/
theorem SameFaults.trans {p' p'' : Processor} (h : SameFaults p p') (h' : SameFaults p' p'') :
    SameFaults p p'' where
  halted := h'.halted.trans h.halted
  faultCount := h'.faultCount.trans h.faultCount
  faults := h'.faults.trans h.faults

/-- A property of the faults on record that a processor keeps as it
fails. -/
structure OfRecord (P : Processor → Prop) : Prop where
  same : ∀ {p p'}, P p → SameFaults p p' → P p'
  fail : ∀ {p}, p.halted = false → P p → ∀ fault, P (p.fail fault)

/-- The processor has recorded one fault if it has halted, and none if it
has not. -/
def FaultsOnce (p : Processor) : Prop := p.faults.length = if p.halted then 1 else 0

/-- The first fault is the only one. -/
theorem FaultsOnce.ofRecord : OfRecord FaultsOnce where
  same {p p'} h hsame := by
    unfold FaultsOnce
    rw [hsame.halted, hsame.faults]
    exact h
  fail {p} hhalted h fault := by
    have hnone : p.faults = [] := by
      unfold FaultsOnce at h
      rw [hhalted] at h
      exact List.length_eq_zero_iff.1 h
    show (p.faults ++ [fault.atLine (some p.pc)]).length = 1
    rw [hnone]
    rfl

end Processor

namespace Scene

variable {s s' s₁ s₂ : Scene} {source : String}

-- ================================================================= loads

/-- A load that fails leaves the processor halted. -/
theorem load_eq_false (h : (s.load source).1 = false) : (s.load source).2.proc.halted := by
  unfold load at h ⊢
  simp only at h ⊢
  split at h
  next => rfl
  next s₁ hparts =>
    have hfaults : (compile source s₁.proc.vars s₁.world.registry).faults.isEmpty = false := h
    show (!(compile source s₁.proc.vars s₁.world.registry).faults.isEmpty) = true
    rw [hfaults]
    rfl

/-- A load that succeeds leaves no fault. -/
theorem load_faultsOnce (h : s.load source = (true, s₁)) : s₁.proc.FaultsOnce := by
  obtain ⟨s', -, hfaults, rfl⟩ := load_eq_true h
  show (compile _ _ _).faults.length = if !(compile _ _ _).faults.isEmpty then 1 else 0
  rw [hfaults]
  rfl

-- ================================================================= lines

/-- An instruction that is carried out records no fault. -/
theorem Effect.sameFaults {i : Instruction} (h : Effect i s s') :
    Processor.SameFaults s.proc s'.proc := by
  have hquiet : ∀ {s s' : Scene}, Quiet s s' → Processor.SameFaults s.proc s'.proc :=
    fun h => ⟨h.halted, h.faultCount, h.faults⟩
  have hstore : ∀ {s s' : Scene} {id : VarId} {v : Value}, s.store id v = .ok s' →
      Processor.SameFaults s.proc s'.proc := by
    intro s s' id v h
    obtain ⟨var, -, -, -, rfl⟩ := store_eq_ok h
    exact ⟨rfl, rfl, rfl⟩
  have hdevice : ∀ (s : Scene) (target : Option Handle) (m : Memory),
      Processor.SameFaults s.proc (s.setDevice target m).proc := by
    intro s target m
    cases target <;> exact ⟨rfl, rfl, rfl⟩
  cases h with
  | quiet same => exact hquiet same
  | store before _ _ stored after =>
      exact (hquiet before).trans ((hstore stored).trans (hquiet after))
  | fill before _ _ _ => exact (hquiet before).trans (hdevice _ _ _)
  | vacate before _ _ => exact (hquiet before).trans (hdevice _ _ _)
  | call before _ _ _ _ stored =>
      have hbefore := hquiet before
      rcases stored with rfl | ⟨id, v, -, -, stored⟩
      · exact hbefore
      · have hstored := hstore stored
        exact hbefore.trans hstored

end Scene

-- ================================================================= moves

namespace Processor.OfRecord

open Scene

variable {P : Processor → Prop} {s s' : Scene}

theorem completeAtEnd (hP : OfRecord P) (h : P s.proc) : P s.completeAtEnd.proc := by
  unfold Scene.completeAtEnd
  split
  · exact hP.same h ⟨rfl, rfl, rfl⟩
  · exact h

theorem goTo (hP : OfRecord P) (line : Nat) (h : P s.proc) : P (s.goTo line).proc :=
  hP.same h ⟨rfl, rfl, rfl⟩

/-- A line of a running processor records one fault at most, and then
halts it. -/
theorem step (hP : OfRecord P) (hrun : s.proc.status = .running) (h : P s.proc) :
    P s.step.proc := by
  have hhalted := halted_of_running hrun
  obtain ⟨s₁, hexecuted, hstep⟩ := s.step_cases
  have hkept : P s₁.proc ∧ s₁.proc.halted = false := by
    rcases hexecuted with rfl | ⟨i, signal, -, hexecute⟩
    · exact ⟨h, hhalted⟩
    · have hsame := (Instruction.execute_effect hexecute).sameFaults
      exact ⟨hP.same h hsame, hsame.halted.trans hhalted⟩
  rcases hstep with ⟨line, heq⟩ | ⟨fault, heq⟩
  · rw [heq]
    exact hP.completeAtEnd (hP.goTo line hkept.1)
  · rw [heq]
    exact hP.fail hkept.2 hkept.1 fault

theorem lines {n : Nat} (hP : OfRecord P) (hlines : Lines s n s') (h : P s.proc) : P s'.proc := by
  induction hlines with
  | none => exact h
  | step _ running ih => exact hP.step running ih

/-- A tick keeps it, as its lines do. -/
theorem tick (hP : OfRecord P) (h : P s.proc) : P s.tick.2.proc := by
  have haged : P s.aged.proc := hP.same h ⟨rfl, rfl, rfl⟩
  cases hstatus : s.proc.status with
  | waiting n =>
      rw [tick_waiting hstatus]
      exact hP.same h ⟨rfl, rfl, rfl⟩
  | running =>
      obtain ⟨n, s', -, hlines, htick⟩ := tick_running hstatus
      rw [htick]
      exact hP.lines hlines haged
  | stopped | completed | halted =>
      rw [tick_final (by rw [hstatus]; rfl)]
      exact haged

/-- Whatever happens keeps it. -/
theorem move (hP : OfRecord P) (hmove : Move s s') (h : P s.proc) : P s'.proc := by
  cases hmove with
  | tick => exact hP.tick h
  | line running => exact hP.step running h
  | connect made =>
      obtain ⟨links, rfl⟩ := connect_eq_ok made
      exact hP.same h ⟨rfl, rfl, rfl⟩
  | age | sweep | interrupt | feed | mount | host => exact hP.same h ⟨rfl, rfl, rfl⟩

end Processor.OfRecord

namespace Scene

variable {s s' s₁ s₂ : Scene} {source : String}

/-- Over any moves there is one fault at most. -/
theorem Moves.faultsOnce (hmoves : Moves s s') (h : s.proc.FaultsOnce) : s'.proc.FaultsOnce := by
  induction hmoves with
  | refl => exact h
  | tail _ move ih => exact Processor.FaultsOnce.ofRecord.move move ih

/-- Nothing but a load gets a processor out of the end it has come to. -/
theorem Move.final (hmove : Move s s') (h : s.proc.status.isFinal) :
    s'.proc.status = s.proc.status := by
  cases hmove with
  | tick =>
      rw [tick_final h]
      rfl
  | line running =>
      rw [running] at h
      cases h
  | interrupt => exact Processor.status_interrupt_final h
  | connect made =>
      obtain ⟨links, rfl⟩ := connect_eq_ok made
      rfl
  | age | sweep | feed | mount | host => rfl

/-- The end that a processor came to stays its end. -/
theorem Moves.final (hmoves : Moves s s') (h : s.proc.status.isFinal) :
    s'.proc.status = s.proc.status := by
  induction hmoves with
  | refl => rfl
  | tail _ move ih =>
      have hfinal := ih ▸ h
      exact (move.final hfinal).trans ih

/-- The end of a run is for good, and quiet.

A load that fails halts the processor. Once it has halted, completed or
stopped, every tick says so, whatever happens in between, and changes
nothing but the count of frames; an interrupt is such an end for one that
runs or waits. After a load that succeeds there is one fault at most, and
there is one if and only if the processor has halted. -/
theorem end_for_good (s : Scene) (source : String) :
    ((s.load source).1 = false → (s.load source).2.proc.status = .halted)
      ∧ (s.proc.status.isFinal → ∀ s', Moves s s' →
          s'.proc.status = s.proc.status ∧ s'.tick = (s.proc.status, s'.aged))
      ∧ (s.proc.status.isFinal = false → s.proc.interrupt.status = .stopped)
      ∧ ∀ s₁ s₂, s.load source = (true, s₁) → Moves s₁ s₂ →
          s₂.proc.faults.length ≤ 1
            ∧ (s₂.proc.faults.length = 1 ↔ s₂.proc.status = .halted) := by
  refine ⟨fun h => ?_, fun h s' hmoves => ?_, Processor.status_interrupt,
    fun s₁ s₂ hload hmoves => ?_⟩
  · exact Processor.status_eq_halted_iff.2 (load_eq_false h)
  · have hstatus := hmoves.final h
    refine ⟨hstatus, ?_⟩
    rw [tick_final (hstatus ▸ h), hstatus]
  · have hfaults : s₂.proc.faults.length = if s₂.proc.halted then 1 else 0 :=
      hmoves.faultsOnce (load_faultsOnce hload)
    rw [Processor.status_eq_halted_iff, hfaults]
    cases s₂.proc.halted <;> simp

/-- Divides by zero on its second line. -/
def faulting : String := "var int x 0\nset x 1 / x\nset x 2"

/-- Jumps to a label that is not there. -/
def misled : String := "jump nowhere true"

/-- The faulting source loads, its first tick halts the processor with one
fault, and after an interrupt the next tick still says so. The other source
halts it at once. -/
theorem end_for_good_faulting :
    let s₁ := (bare.load faulting).2
    let s₂ := s₁.tick.2
    let s₃ := { s₂ with proc := s₂.proc.interrupt }
    (bare.load faulting).1 = true ∧ s₁.proc.interrupt.status = .stopped
      ∧ s₂.proc.status = .halted ∧ s₂.proc.faults.length = 1 ∧ s₃.tick = (.halted, s₃.aged)
      ∧ (bare.load misled).2.proc.status = .halted := by
  intro s₁ s₂ s₃
  have hrun : (bare.load faulting).1 = true ∧ s₁.proc.status = .running
      ∧ s₂.proc.status = .halted ∧ (bare.load misled).1 = false := by
    decide +kernel
  obtain ⟨hloaded, hrunning, hhalted, hrefused⟩ := hrun
  have hload : bare.load faulting = (true, s₁) := Prod.ext hloaded rfl
  have hstopped : s₁.proc.interrupt.status = .stopped :=
    (end_for_good s₁ faulting).2.2.1 (by rw [hrunning]; rfl)
  have hfaults := (end_for_good bare faulting).2.2.2 s₁ s₂ hload (.single (.tick s₁))
  have hkept := (end_for_good s₂ faulting).2.1 (by rw [hhalted]; rfl) s₃ (.single (.interrupt s₂))
  rw [hhalted] at hkept
  exact ⟨hloaded, hstopped, hhalted, hfaults.2.2 hhalted, hkept.2,
    (end_for_good bare misled).1 hrefused⟩

end Scene

end TickScript
