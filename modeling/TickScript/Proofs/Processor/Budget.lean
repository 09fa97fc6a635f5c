/-
Ticks keep to their budget.

A tick takes turns. A turn executes the instruction on the line that the
processor is on, and where jumps also run the line that they go to, it may
execute one more. It costs one unit of the budget, or none if the line is a
label. `Turns` follows a tick turn by turn and keeps a log of the scenes
that turns start from. It is about all scenes, also those in which a
processor would not run at all. For one that runs, it leads where spending
the budget does (`Turns.spend_eq`): labels passed one by one come to the
same as labels passed at once.

No turn makes the budget larger, and a label, which leaves it as it is,
makes the lines to come fewer. So there is always an end (`turns_exist`),
and only one (`Turns.unique`). The labels ahead are also what bounds the
number of turns (`Turns.length_le`).
-/
import TickScript.Proofs.Processor.Terminal

namespace TickScript

-- ================================================================= labels

namespace Script

variable {script : Script} {pc : Nat}

/-- The labels on the lines from `pc` on. -/
def labelsFrom (script : Script) (pc : Nat) : Nat :=
  (script.toList.drop pc).countP isLabelEntry

/-- The labels of a script. -/
def labelCount (script : Script) : Nat := script.toList.countP isLabelEntry

theorem labelsFrom_le (script : Script) (pc : Nat) : script.labelsFrom pc ≤ script.labelCount :=
  (List.drop_sublist pc script.toList).countP_le

theorem labelsFrom_label (h : script[pc]? = some (some .label)) :
    script.labelsFrom pc = script.labelsFrom (pc + 1) + 1 := by
  obtain ⟨hlt, hentry⟩ := Array.getElem?_eq_some_iff.1 h
  unfold labelsFrom
  rw [List.drop_eq_getElem_cons (by simpa using hlt), List.countP_cons]
  simp [hentry, isLabelEntry]

/-- A label is passed. -/
theorem passLabels_label (h : script[pc]? = some (some .label)) :
    script.passLabels pc = script.passLabels (pc + 1) := by
  have hlt : pc < script.size := (Array.getElem?_eq_some_iff.1 h).1
  have hcount : script.size - pc = script.size - (pc + 1) + 1 := by omega
  unfold passLabels
  rw [hcount]
  simp only [passUpTo, h]
  rfl

/-- Nothing else is. -/
theorem passLabels_of_ne (h : script[pc]? ≠ some (some .label)) : script.passLabels pc = pc := by
  unfold passLabels
  cases script.size - pc with
  | zero => rfl
  | succ count =>
      unfold passUpTo
      cases hentry : script[pc]? with
      | none => rfl
      | some entry =>
          cases entry with
          | none => rfl
          | some i =>
              cases i with
              | label => exact absurd hentry h
              | _ => rfl

end Script

theorem Processor.status_eq_running_iff {p : Processor} : p.status = .running ↔
    p.halted = false ∧ p.completed = false ∧ p.enabled = true ∧ p.delay = 0 := by
  unfold status
  cases p.halted <;> cases p.completed <;> cases p.enabled <;> simp

namespace Scene

variable {s s' t t' u : Scene} {i : Instruction} {budget : Nat} {log log' : List Scene}

-- ================================================================== turns

/-- The instruction on the line that the processor is on. -/
def instruction? (s : Scene) : Option Instruction := s.proc.script[s.proc.pc]?.join

/-- Whether that is a label. -/
def onLabel (s : Scene) : Bool := s.proc.script[s.proc.pc]?.any isLabelEntry

/-- What one turn leads to. -/
def turn (s : Scene) (i : Instruction) : Scene :=
  match i.execute s with
  | .error fault => s.fail fault
  | .ok (.next, s) => (s.goTo (s.proc.pc + 1)).completeAtEnd
  | .ok (.goto line, s) => (s.jump line).completeAtEnd

/-- The scene in which a jump executes the line that it goes to, if it
does. -/
def landing (s : Scene) (line : Nat) : List Scene :=
  if s.isTarget line ∧ s.proc.config.legacyJump then
    [s.goTo line].filter fun s => s.instruction?.isSome
  else []

/-- The scenes in which a turn executes instructions. -/
def executions (s : Scene) : List Scene :=
  match s.instruction? with
  | none => []
  | some i =>
    match i.execute s with
    | .ok (.goto line, s') => s :: s'.landing line
    | _ => [s]

/-- The processor is neither at the end nor stopped, and does not wait. -/
def GoesOn (s : Scene) : Prop :=
  s.proc.pc < s.proc.script.size ∧ s.proc.enabled = true ∧ s.proc.delay = 0

/-- The turns that are taken for a budget, by the scenes that they start
from, and the scene that they lead to. -/
inductive Turns : Nat → Scene → List Scene → Scene → Prop where
  | spent (s : Scene) : Turns 0 s [] s.completeAtEnd
  | ended {budget : Nat} {s : Scene} (line : s.proc.script[s.proc.pc]? = none) :
      Turns (budget + 1) s [] s.completeAtEnd
  | missing {budget : Nat} {s : Scene} (line : s.proc.script[s.proc.pc]? = some none) :
      Turns (budget + 1) s [] (s.fail (.bare .missingInstruction))
  | last {budget : Nat} {s : Scene} {i : Instruction}
      (line : s.proc.script[s.proc.pc]? = some (some i)) (stays : ¬(s.turn i).GoesOn) :
      Turns (budget + 1) s [s] (s.turn i)
  /-- A label is free. -/
  | more {budget : Nat} {s t : Scene} {i : Instruction} {log : List Scene}
      (line : s.proc.script[s.proc.pc]? = some (some i)) (on : (s.turn i).GoesOn)
      (rest : Turns (if s.onLabel then budget + 1 else budget) (s.turn i) log t) :
      Turns (budget + 1) s (s :: log) t

theorem onLabel_iff : s.onLabel ↔ s.proc.script[s.proc.pc]? = some (some .label) := by
  unfold onLabel
  cases s.proc.script[s.proc.pc]? with
  | none => simp
  | some entry =>
      cases entry with
      | none => simp [isLabelEntry]
      | some i => cases i <;> simp [isLabelEntry]

theorem executions_eq (hline : s.proc.script[s.proc.pc]? = some (some i)) :
    s.executions = match i.execute s with
      | .ok (.goto line, s') => s :: s'.landing line
      | _ => [s] := by
  unfold executions instruction?
  rw [hline]
  rfl

/-- A jump to a line, or to the end. -/
theorem jump_of_target {line : Nat} (htarget : s.isTarget line) :
    s.jump line = if s.proc.config.legacyJump then (s.goTo line).runTarget else s.goTo line :=
  if_pos htarget

/-- A jump to a line of the script that also runs it. -/
theorem jump_legacy {line : Nat} (hin : line < s.proc.script.size)
    (hlegacy : s.proc.config.legacyJump) :
    (s.jump line).completeAtEnd = (s.goTo line).step
      ∧ s.landing line = [s.goTo line].filter (·.instruction?.isSome) := by
  have htarget : s.isTarget line := decide_eq_true (Nat.le_of_lt hin)
  refine ⟨?_, if_pos ⟨htarget, hlegacy⟩⟩
  rw [jump_of_target htarget, if_pos hlegacy]
  exact step_of_runTarget hin

/-- Any other jump runs no line but its own. -/
theorem jump_plain {line : Nat} (hpc : s.proc.pc < s.proc.script.size)
    (hplain : ¬(line < s.proc.script.size ∧ s.proc.config.legacyJump)) :
    ((s.jump line).completeAtEnd = if s.isTarget line then (s.goTo line).completeAtEnd
        else s.fail (invalidJump line))
      ∧ s.landing line = [] := by
  by_cases htarget : s.isTarget line
  · rw [jump_of_target htarget, if_pos htarget]
    by_cases hlegacy : s.proc.config.legacyJump
    · -- the target is the end of the script, with nothing to run
      have hend : (s.goTo line).proc.script[(s.goTo line).proc.pc]? = none :=
        Array.getElem?_eq_none (Nat.not_lt.1 fun hin => hplain ⟨hin, hlegacy⟩)
      have hidle : (s.goTo line).runTarget = s.goTo line := by
        unfold runTarget
        rw [hend]
      have hnothing : (s.goTo line).instruction? = none := by
        unfold instruction?
        rw [hend]
        rfl
      rw [if_pos hlegacy, hidle]
      refine ⟨rfl, ?_⟩
      simp [landing, hnothing]
    · rw [if_neg hlegacy]
      exact ⟨rfl, if_neg fun h => hlegacy h.2⟩
  · have hjump : s.jump line = s.fail (invalidJump line) := if_neg htarget
    rw [hjump, if_neg htarget]
    exact ⟨completeAtEnd_of_lt hpc, if_neg fun h => htarget h.1⟩

/-- A turn runs one line, or two in case of a jump. -/
theorem turn_cases (hline : s.proc.script[s.proc.pc]? = some (some i)) :
    (s.turn i = s.step ∧ s.executions = [s])
      ∨ (s.turn i = s.step.step ∧ s.executions = s :: [s.step].filter (·.instruction?.isSome)
        ∧ s.proc.config.legacyJump ∧ s.step.proc.status = s.proc.status
        ∧ ∃ line condition, i = .jump line condition) := by
  rw [executions_eq hline]
  unfold turn
  cases hexecute : i.execute s with
  | error fault =>
      refine .inl ⟨?_, rfl⟩
      simp only [step, hline, hexecute]
  | ok r =>
      obtain ⟨signal, s'⟩ := r
      cases signal with
      | next =>
          refine .inl ⟨?_, rfl⟩
          simp only [step, hline, hexecute]
      | goto line =>
          have hproc := execute_goto hexecute
          have hstep : s.step = if s'.isTarget line then (s'.goTo line).completeAtEnd
              else s'.fail (invalidJump line) := by
            simp only [step, hline, hexecute]
          have hlt : s'.proc.pc < s'.proc.script.size := by
            rw [hproc]
            exact (Array.getElem?_eq_some_iff.1 hline).1
          by_cases hlegacy : line < s'.proc.script.size ∧ s'.proc.config.legacyJump
          · obtain ⟨hjump, hlanding⟩ := jump_legacy hlegacy.1 hlegacy.2
            have hgo : s.step = s'.goTo line := by
              have htarget : s'.isTarget line := decide_eq_true (Nat.le_of_lt hlegacy.1)
              rw [hstep, if_pos htarget]
              exact completeAtEnd_of_lt hlegacy.1
            refine .inr ⟨?_, ?_, hproc ▸ hlegacy.2, ?_, ?_⟩
            · rw [hgo]
              exact hjump
            · rw [hgo]
              exact congrArg (s :: ·) hlanding
            · rw [hgo]
              show s'.proc.status = s.proc.status
              rw [hproc]
            · obtain ⟨condition, hi, -⟩ := execute_goto_cases hexecute
              exact ⟨line, condition, hi⟩
          · obtain ⟨hjump, hlanding⟩ := jump_plain hlt hlegacy
            refine .inl ⟨?_, congrArg (s :: ·) hlanding⟩
            rw [hstep]
            exact hjump

/-- Whatever turns do, script and setup stay. -/
theorem turn_same (hline : s.proc.script[s.proc.pc]? = some (some i)) :
    (s.turn i).proc.script = s.proc.script ∧ (s.turn i).proc.config = s.proc.config := by
  have hstep := step_writes s
  rcases turn_cases hline with ⟨hturn, -⟩ | ⟨hturn, -⟩
  · rw [hturn]
    exact ⟨hstep.script, hstep.config⟩
  · have hagain := step_writes s.step
    rw [hturn]
    exact ⟨hagain.script.trans hstep.script, hagain.config.trans hstep.config⟩

-- ================================================================ running

/-- An instruction does not complete a script. -/
theorem Effect.completed (h : Effect i s s') : s'.proc.completed = s.proc.completed := by
  cases h with
  | quiet same => exact same.completed
  | store before _ _ stored after =>
      obtain ⟨var, -, -, -, rfl⟩ := store_eq_ok stored
      exact after.completed.trans before.completed
  | @fill s₁ target _ _ _ _ _ before => cases target <;> exact before.completed
  | @vacate s₁ target _ _ _ _ before => cases target <;> exact before.completed
  | call before _ _ _ _ stored =>
      rcases stored with rfl | ⟨id, v, -, -, stored⟩
      · exact before.completed
      · obtain ⟨var, -, -, -, rfl⟩ := store_eq_ok stored
        exact before.completed

theorem goesOn_fail {fault : Fault} :
    (s.fail fault).GoesOn ↔ (s.fail fault).proc.status = .running := by
  constructor
  · intro h
    cases h.2.1
  · intro h
    cases h

/-- At the end of the script there is no going on, whether or not that has
been noted. -/
theorem goesOn_completeAtEnd_iff : s.completeAtEnd.GoesOn ↔ s.GoesOn := by
  unfold completeAtEnd
  split <;> rfl

/-- A label that is not the last line leads to the next one. -/
theorem turn_label (hon : (s.turn .label).GoesOn) : s.turn .label = s.goTo (s.proc.pc + 1) :=
  completeAtEnd_of_lt (goesOn_completeAtEnd_iff.1 hon).1

theorem goesOn_completeAtEnd (hhalted : s.proc.halted = false)
    (hcompleted : s.proc.completed = false) :
    s.completeAtEnd.GoesOn ↔ s.completeAtEnd.proc.status = .running := by
  rw [Processor.status_eq_running_iff]
  unfold completeAtEnd
  split
  next hend =>
    constructor
    · intro h
      exact absurd h.1 (Nat.not_lt.2 hend)
    · intro h
      cases h.2.1
  next hin => exact ⟨fun h => ⟨hhalted, hcompleted, h.2⟩, fun h => ⟨Nat.not_le.1 hin, h.2.2⟩⟩

theorem goesOn_step (hrun : s.proc.status = .running) :
    s.step.GoesOn ↔ s.step.proc.status = .running := by
  obtain ⟨hhalted, hcompleted, -⟩ := Processor.status_eq_running_iff.1 hrun
  obtain ⟨s₁, hexecuted, hstep⟩ := s.step_cases
  have hkept : s₁.proc.halted = false ∧ s₁.proc.completed = false := by
    rcases hexecuted with rfl | ⟨i, signal, -, hexecute⟩
    · exact ⟨hhalted, hcompleted⟩
    · have heffect := Instruction.execute_effect hexecute
      exact ⟨heffect.sameFaults.halted.trans hhalted, heffect.completed.trans hcompleted⟩
  rcases hstep with ⟨line, heq⟩ | ⟨fault, heq⟩
  · rw [heq]
    exact goesOn_completeAtEnd (s := s₁.goTo line) hkept.1 hkept.2
  · rw [heq]
    exact goesOn_fail

/-- A processor that runs goes on after a turn just if it still runs. -/
theorem goesOn_turn (hrun : s.proc.status = .running)
    (hline : s.proc.script[s.proc.pc]? = some (some i)) :
    (s.turn i).GoesOn ↔ (s.turn i).proc.status = .running := by
  rcases turn_cases hline with ⟨hturn, -⟩ | ⟨hturn, -, -, hstatus, -⟩
  · rw [hturn]
    exact goesOn_step hrun
  · rw [hturn]
    exact goesOn_step (hstatus.trans hrun)

-- =============================================================== spending

/-- A label on the way makes no difference to a counted step. -/
theorem advance_label (hline : s.proc.script[s.proc.pc]? = some (some .label)) :
    s.advance = (s.goTo (s.proc.pc + 1)).advance := by
  have hpass : s.goTo (s.proc.script.passLabels s.proc.pc)
      = s.goTo (s.proc.script.passLabels (s.proc.pc + 1)) :=
    congrArg s.goTo (Script.passLabels_label hline)
  unfold advance
  rw [hpass]
  rfl

/-- On any other line a counted step is a turn, if there is something to
run. -/
theorem advance_of_ne (hline : s.proc.script[s.proc.pc]? ≠ some (some .label)) :
    s.advance = match s.proc.script[s.proc.pc]? with
      | none => s.completeAtEnd
      | some none => s.fail (.bare .missingInstruction)
      | some (some i) => s.turn i := by
  unfold advance
  rw [Script.passLabels_of_ne hline]
  rfl

theorem advance_turn (hline : s.proc.script[s.proc.pc]? = some (some i)) (hlabel : i ≠ .label) :
    s.advance = s.turn i := by
  rw [advance_of_ne (by simpa [hline] using hlabel), hline]

theorem spend_stops (hadvance : s.advance = t) (hstops : t.proc.status ≠ .running) :
    spend (budget + 1) s = t := by
  subst hadvance
  exact if_neg hstops

theorem spend_goes (hadvance : s.advance = t) (hruns : t.proc.status = .running) :
    spend (budget + 1) s = spend budget t := by
  subst hadvance
  exact if_pos hruns

/-- A label before the end of the script leads there. -/
theorem advance_last_label (hline : s.proc.script[s.proc.pc]? = some (some .label))
    (hend : s.proc.script.size ≤ s.proc.pc + 1) : s.advance = s.turn .label := by
  have hnext : (s.goTo (s.proc.pc + 1)).proc.script[(s.goTo (s.proc.pc + 1)).proc.pc]? = none :=
    Array.getElem?_eq_none hend
  rw [advance_label hline, advance_of_ne (by rw [hnext]; exact nofun), hnext]
  rfl

/-- The turns of a processor that runs lead where it gets by spending its
budget. -/
theorem Turns.spend_eq (h : Turns budget s log t) (hrun : s.proc.status = .running) :
    spend budget s = t := by
  induction h with
  | spent => rfl
  | @ended budget s hline =>
      obtain ⟨hhalted, hcompleted, -⟩ := Processor.status_eq_running_iff.1 hrun
      have hadvance : s.advance = s.completeAtEnd := by
        rw [advance_of_ne (by simp [hline]), hline]
      refine spend_stops hadvance fun hstill => ?_
      have hgoes := goesOn_completeAtEnd_iff.1 ((goesOn_completeAtEnd hhalted hcompleted).2 hstill)
      exact absurd hgoes.1 (Nat.not_lt.2 (Array.getElem?_eq_none_iff.1 hline))
  | @missing budget s hline =>
      have hadvance : s.advance = s.fail (.bare .missingInstruction) := by
        rw [advance_of_ne (by simp [hline]), hline]
      exact spend_stops hadvance fun hstill => by cases hstill
  | @last budget s i hline hstays =>
      have hstops : (s.turn i).proc.status ≠ .running := fun hstill =>
        hstays ((goesOn_turn hrun hline).2 hstill)
      by_cases hlabel : i = .label
      · subst hlabel
        have hend : s.proc.script.size ≤ s.proc.pc + 1 := by
          by_contra hin
          have hflags := Processor.status_eq_running_iff.1 hrun
          exact hstays (goesOn_completeAtEnd_iff.2 ⟨Nat.not_le.1 hin, hflags.2.2⟩)
        exact spend_stops (advance_last_label hline hend) hstops
      · exact spend_stops (advance_turn hline hlabel) hstops
  | @more budget s t i log hline hon _ ih =>
      have hruns := (goesOn_turn hrun hline).1 hon
      have hrest := ih hruns
      by_cases hlabel : i = .label
      · subst hlabel
        rw [if_pos (onLabel_iff.2 hline), turn_label hon] at hrest
        rw [← hrest]
        unfold spend
        rw [advance_label hline]
      · have hother : ¬s.onLabel := by
          rw [onLabel_iff, hline]
          simpa using hlabel
        rw [if_neg hother] at hrest
        rw [spend_goes (advance_turn hline hlabel) hruns]
        exact hrest

-- ==================================================== existence and unicity

/-- The turns come to an end, whatever the script and its jumps. -/
theorem turns_exist (budget : Nat) : ∀ s : Scene, ∃ log t, Turns budget s log t := by
  induction budget with
  | zero => exact fun s => ⟨[], _, .spent s⟩
  | succ budget ih =>
      intro s
      -- on labels the budget stays, and the lines to come get fewer
      generalize hcount : s.proc.script.size - s.proc.pc = count
      induction count generalizing s with
      | zero =>
          have hend : s.proc.script[s.proc.pc]? = none := Array.getElem?_eq_none (by omega)
          exact ⟨[], _, .ended hend⟩
      | succ count ihcount =>
          cases hline : s.proc.script[s.proc.pc]? with
          | none => exact ⟨[], _, .ended hline⟩
          | some entry =>
              cases entry with
              | none => exact ⟨[], _, .missing hline⟩
              | some i =>
                  by_cases hon : (s.turn i).GoesOn
                  · have hrest : ∃ log t,
                        Turns (if s.onLabel then budget + 1 else budget) (s.turn i) log t := by
                      by_cases hlabel : s.onLabel
                      · rw [if_pos hlabel]
                        rw [onLabel_iff.1 hlabel] at hline
                        cases hline
                        rw [turn_label hon]
                        refine ihcount _ ?_
                        show s.proc.script.size - (s.proc.pc + 1) = count
                        omega
                      · rw [if_neg hlabel]
                        exact ih _
                    obtain ⟨log, t, hrest⟩ := hrest
                    exact ⟨s :: log, t, .more hline hon hrest⟩
                  · exact ⟨[s], _, .last hline hon⟩

/-- There is one way to take turns. -/
theorem Turns.unique (h : Turns budget s log t) (h' : Turns budget s log' t') :
    log' = log ∧ t' = t := by
  induction h generalizing log' t' with
  | spent =>
      cases h'
      exact ⟨rfl, rfl⟩
  | ended hline =>
      cases h' with
      | ended => exact ⟨rfl, rfl⟩
      | missing hline' | last hline' | more hline' =>
          rw [hline] at hline'
          cases hline'
  | missing hline =>
      cases h' with
      | missing => exact ⟨rfl, rfl⟩
      | ended hline' | last hline' | more hline' =>
          rw [hline] at hline'
          cases hline'
  | last hline hstays =>
      cases h' with
      | ended hline' | missing hline' =>
          rw [hline] at hline'
          cases hline'
      | last hline' =>
          rw [hline] at hline'
          cases hline'
          exact ⟨rfl, rfl⟩
      | more hline' hon =>
          rw [hline] at hline'
          cases hline'
          exact absurd hon hstays
  | more hline hon _ ih =>
      cases h' with
      | ended hline' | missing hline' =>
          rw [hline] at hline'
          cases hline'
      | last hline' hstays =>
          rw [hline] at hline'
          cases hline'
          exact absurd hon hstays
      | more hline' _ hrest =>
          rw [hline] at hline'
          cases hline'
          obtain ⟨rfl, rfl⟩ := ih hrest
          exact ⟨rfl, rfl⟩

-- ================================================================= counts

/-- The turns that cost something. -/
def counted (log : List Scene) : Nat := log.countP fun s => !s.onLabel

/-- One more turn is one more counted, if not on a label. -/
theorem counted_cons : counted (s :: log) = counted log + if s.onLabel then 0 else 1 := by
  unfold counted
  rw [List.countP_cons]
  cases s.onLabel <;> rfl

theorem Turns.counted_le (h : Turns budget s log t) : counted log ≤ budget := by
  induction h with
  | spent | ended | missing => exact Nat.zero_le _
  | @last budget s =>
      rw [counted_cons]
      show 0 + _ ≤ budget + 1
      split <;> omega
  | @more budget s t i log _ _ _ ih =>
      rw [counted_cons]
      by_cases hlabel : s.onLabel
      · rw [if_pos hlabel] at ih ⊢
        exact ih
      · rw [if_neg hlabel] at ih ⊢
        omega

/-- A budget that is not used up has been cut short. -/
theorem Turns.counted_eq (h : Turns budget s log t) (hon : t.GoesOn) : counted log = budget := by
  induction h with
  | spent => rfl
  | ended hline =>
      have hend := Array.getElem?_eq_none_iff.1 hline
      exact absurd (goesOn_completeAtEnd_iff.1 hon).1 (Nat.not_lt.2 hend)
  | missing => cases hon.2.1
  | last _ hstays => exact absurd hon hstays
  | @more budget s t i log _ _ _ ih =>
      have hrest := ih hon
      rw [counted_cons, hrest]
      by_cases hlabel : s.onLabel
      · rw [if_pos hlabel, if_pos hlabel]
      · rw [if_neg hlabel, if_neg hlabel]

/-- Turns start on instructions, under one setup. -/
theorem Turns.of_mem (h : Turns budget s log t) {m : Scene} (hm : m ∈ log) :
    m.proc.config = s.proc.config ∧ ∃ i, m.proc.script[m.proc.pc]? = some (some i) := by
  induction h with
  | spent | ended | missing => cases hm
  | last hline =>
      cases List.mem_singleton.1 hm
      exact ⟨rfl, _, hline⟩
  | more hline _ _ ih =>
      rcases List.mem_cons.1 hm with rfl | hm
      · exact ⟨rfl, _, hline⟩
      · obtain ⟨hconfig, hinstruction⟩ := ih hm
        exact ⟨hconfig.trans (turn_same hline).2, hinstruction⟩

/-- Between two turns that cost something no label is passed twice. The
labels ahead are counted from the line that the first turn is on. -/
theorem Turns.length_add_le (h : Turns budget s log t) (hne : log ≠ []) :
    log.length + s.proc.script.labelCount
      ≤ budget * (s.proc.script.labelCount + 1) + s.proc.script.labelsFrom s.proc.pc := by
  induction h with
  | spent | ended | missing => exact absurd rfl hne
  | @last budget s =>
      rw [Nat.succ_mul]
      show 1 + _ ≤ _
      omega
  | @more budget s t i log hline hon hrest ih =>
      have hscript : (s.turn i).proc.script = s.proc.script := (turn_same hline).1
      rw [hscript] at ih
      have hle := s.proc.script.labelsFrom_le (s.turn i).proc.pc
      rw [List.length_cons, Nat.succ_mul]
      by_cases hnil : log = []
      · rw [hnil]
        show 0 + 1 + _ ≤ _
        omega
      · have hih := ih hnil
        by_cases hlabel : s.onLabel
        · rw [if_pos hlabel, Nat.succ_mul] at hih
          rw [onLabel_iff.1 hlabel] at hline
          cases hline
          rw [turn_label hon] at hih
          change _ ≤ _ + s.proc.script.labelsFrom (s.proc.pc + 1) at hih
          rw [Script.labelsFrom_label (onLabel_iff.1 hlabel)]
          omega
        · rw [if_neg hlabel] at hih
          omega

theorem Turns.length_le (h : Turns budget s log t) :
    log.length ≤ budget * (s.proc.script.labelCount + 1) := by
  by_cases hnil : log = []
  · rw [hnil]
    exact Nat.zero_le _
  · have hle := h.length_add_le hnil
    have hahead := s.proc.script.labelsFrom_le s.proc.pc
    omega

/-- A turn executes one instruction, and one more only where a jump runs
the line that it goes to. -/
theorem executions_cases (hline : s.proc.script[s.proc.pc]? = some (some i)) :
    s.executions = [s]
      ∨ (s.proc.config.legacyJump ∧ s.onLabel = false ∧ s.executions.length ≤ 2) := by
  rcases turn_cases hline with ⟨-, hone⟩ | ⟨-, htwo, hlegacy, -, line, condition, rfl⟩
  · exact .inl hone
  · have hlabel : s.onLabel = false := by
      unfold onLabel
      rw [hline]
      rfl
    have hlength := List.length_filter_le (fun s : Scene => s.instruction?.isSome) [s.step]
    refine .inr ⟨hlegacy, hlabel, ?_⟩
    rw [htwo]
    exact Nat.succ_le_succ hlength

/-- Ticks keep to their budget. Whatever the script, the scene and the
budget, there is one way to take turns, and it comes to an end. It is the
way of a processor that runs and spends that budget. The turns that start
on other lines than labels are as many as the budget, unless the end of the
script has been reached, the processor has been stopped or halted, or it
waits; there are never more. A turn executes two instructions at most, and
one that starts on a label executes the label. The turns number no more
than the budget times one more than the labels of the script, and each is
the execution of one instruction unless jumps run the line that they go
to. -/
theorem budget_is_kept (budget : Nat) (s : Scene) :
    ∃ log t, (∀ log' t', Turns budget s log' t' ↔ log' = log ∧ t' = t)
      ∧ (s.proc.status = .running → spend budget s = t)
      ∧ counted log ≤ budget
      ∧ (counted log = budget ∨ t.proc.script.size ≤ t.proc.pc ∨ t.proc.enabled = false
          ∨ 0 < t.proc.delay)
      ∧ (∀ m ∈ log, m.executions.length ≤ 2 ∧ (m.onLabel → m.executions = [m]))
      ∧ log.length ≤ budget * (s.proc.script.labelCount + 1)
      ∧ (s.proc.config.legacyJump = false → log.flatMap executions = log) := by
  obtain ⟨log, t, hturns⟩ := turns_exist budget s
  refine ⟨log, t, fun log' t' => ⟨hturns.unique, ?_⟩, hturns.spend_eq, hturns.counted_le, ?_,
    fun m hm => ?_, hturns.length_le, fun hplain => ?_⟩
  · rintro ⟨rfl, rfl⟩
    exact hturns
  · by_cases hon : t.GoesOn
    · exact .inl (hturns.counted_eq hon)
    · unfold GoesOn at hon
      cases henabled : t.proc.enabled with
      | false => exact .inr (.inr (.inl rfl))
      | true =>
          have hrest : ¬(t.proc.pc < t.proc.script.size ∧ t.proc.delay = 0) := fun h =>
            hon ⟨h.1, henabled, h.2⟩
          omega
  · obtain ⟨-, i, hline⟩ := hturns.of_mem hm
    rcases executions_cases hline with hone | ⟨-, hlabel, htwo⟩
    · rw [hone]
      exact ⟨Nat.le_succ 1, fun _ => rfl⟩
    · refine ⟨htwo, fun h => ?_⟩
      rw [hlabel] at h
      cases h
  · have hone : ∀ m ∈ log, m.executions = [m] := by
      intro m hm
      obtain ⟨hconfig, i, hline⟩ := hturns.of_mem hm
      refine (executions_cases hline).resolve_right fun h => ?_
      rw [hconfig, hplain] at h
      cases h.1
    rw [List.flatMap_congr hone]
    exact List.flatMap_singleton' log

/-- Goes around two labels for ever. -/
def treadmill : String := "label top\nlabel again\njump top true"

/-- On the treadmill a budget of four is used up by jumps, in twelve turns
at most. -/
theorem budget_is_kept_treadmill :
    let s := (bare.load treadmill).2
    (bare.load treadmill).1 = true ∧ s.proc.script.labelCount = 2
      ∧ ∃ log t, Turns 4 s log t ∧ spend 4 s = t ∧ t.proc.status = .running
          ∧ log.flatMap executions = log ∧ counted log = 4 ∧ log.length ≤ 12 := by
  intro s
  have hrun : (bare.load treadmill).1 = true ∧ s.proc.status = .running
      ∧ s.proc.config.legacyJump = false ∧ s.proc.script.labelCount = 2
      ∧ (spend 4 s).proc.status = .running
      ∧ (spend 4 s).proc.pc < (spend 4 s).proc.script.size := by
    decide +kernel
  obtain ⟨hloaded, hrunning, hplain, hlabels, hstill, hin⟩ := hrun
  obtain ⟨log, t, hturns, hspend, -, hcounted, -, hlength, hexecutions⟩ := budget_is_kept 4 s
  have ht := hspend hrunning
  rw [ht] at hstill hin
  obtain ⟨-, -, henabled, hdelay⟩ := Processor.status_eq_running_iff.1 hstill
  rw [henabled, hdelay] at hcounted
  rw [hlabels] at hlength
  refine ⟨hloaded, hlabels, log, t, (hturns log t).2 ⟨rfl, rfl⟩, ht, hstill, hexecutions hplain,
    ?_, hlength⟩
  rcases hcounted with hall | hend | hstopped | hwaits
  · exact hall
  · exact absurd hend (Nat.not_le.2 hin)
  · cases hstopped
  · cases hwaits

end Scene

end TickScript
