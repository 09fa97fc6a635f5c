/-
What lines leave alone.

`Writes ids s s'` says that of the script, the setup, the methods and the
variables nothing changes but the values of some variables. The effects of
an instruction write to the variables that it names as written, so a line
writes to these and running several writes to those of each
(`Lines.writes`). The shapes of variables, that is everything but their
values, never change.
-/
import TickScript.Proofs.Processor.Effects
import TickScript.Proofs.Processor.Lines

namespace TickScript

/-- The variables without their values. -/
def Storage.shapes (s : Storage) : List Variable := s.vars.map Variable.clear

/-- The shape in a place is that of the variable there. -/
theorem Storage.getElem?_shapes (s : Storage) (id : VarId) :
    s.shapes[id]? = (s.get? id).map Variable.clear := List.getElem?_map

/-- A variable with another value has the shape that it had. -/
theorem Storage.shapes_put {s : Storage} {id : VarId} {var : Variable} (v : Option Value)
    (hget : s.get? id = some var) : (s.put id { var with value := v }).shapes = s.shapes := by
  obtain ⟨hlt, heq⟩ := List.getElem?_eq_some_iff.1 hget
  have hlt' : id < (s.vars.map Variable.clear).length := by simpa using hlt
  have hclear : Variable.clear { var with value := v } = var.clear := rfl
  show (s.vars.set id { var with value := v }).map Variable.clear = s.vars.map Variable.clear
  rw [List.map_set, hclear, ← heq, ← List.getElem_map Variable.clear (h := hlt'),
    List.set_getElem_self]

namespace Scene

variable {s s' s'' : Scene} {ids ids' : List VarId} {id : VarId}

/-- Nothing changes but the values of some variables, as far as the
processor's script, setup, methods and variables are concerned. -/
structure Writes (ids : List VarId) (s s' : Scene) : Prop where
  script : s'.proc.script = s.proc.script
  config : s'.proc.config = s.proc.config
  registry : s'.world.registry = s.world.registry
  shapes : s'.proc.vars.shapes = s.proc.vars.shapes
  others : ∀ id, id ∉ ids → s'.proc.vars.get? id = s.proc.vars.get? id

theorem Writes.refl (s : Scene) : Writes ids s s := ⟨rfl, rfl, rfl, rfl, fun _ _ => rfl⟩

/-- What is left alone twice is left alone. -/
theorem Writes.trans (h : Writes ids s s') (h' : Writes ids s' s'') : Writes ids s s'' where
  script := h'.script.trans h.script
  config := h'.config.trans h.config
  registry := h'.registry.trans h.registry
  shapes := h'.shapes.trans h.shapes
  others id hid := (h'.others id hid).trans (h.others id hid)

/-- More variables may be allowed for. -/
theorem Writes.mono (h : Writes ids s s') (hsub : ∀ id ∈ ids, id ∈ ids') : Writes ids' s s' where
  script := h.script
  config := h.config
  registry := h.registry
  shapes := h.shapes
  others id hid := h.others id fun hmem => hid (hsub id hmem)

theorem Quiet.writes (h : Quiet s s') : Writes ids s s' where
  script := h.script
  config := h.config
  registry := h.registry
  shapes := by rw [h.vars]
  others _ _ := by rw [h.vars]

-- ================================================================ storing

/-- What storing a value comes to. -/
theorem store_eq_ok {v : Value} (h : s.store id v = .ok s') :
    ∃ var, s.proc.vars.get? id = some var ∧ Kind.of v = var.kind ∧ s.checkType var v = .ok ()
      ∧ s' = { proc := { s.proc with
                  vars := s.proc.vars.put id { var with value := some v } }
               world := { s.world with arena := s.world.arena.exchange v var.value } } := by
  obtain ⟨var, hget, h⟩ := bind_eq_ok.1 h
  obtain ⟨⟨⟩, hcheck, h⟩ := bind_eq_ok.1 h
  obtain ⟨⟨old, vars⟩, hset, h⟩ := bind_eq_ok.1 h
  cases h
  obtain ⟨var', hget', hset⟩ := bind_eq_ok.1 hset
  rw [hget] at hget'
  cases hget'
  obtain ⟨changed, hchanged, hset⟩ := bind_eq_ok.1 hset
  cases hset
  unfold Variable.set at hchanged
  split at hchanged
  next hkind =>
    cases hchanged
    exact ⟨var, Storage.get_eq_ok_iff.1 hget, hkind, hcheck, rfl⟩
  next => cases hchanged

/-- Storing a value changes one variable, in its value. -/
theorem store_writes {v : Value} (h : s.store id v = .ok s') (hid : id ∈ ids) :
    Writes ids s s' := by
  obtain ⟨var, hget, -, -, rfl⟩ := store_eq_ok h
  refine ⟨rfl, rfl, rfl, Storage.shapes_put _ hget, fun other hother => ?_⟩
  have hne : id ≠ other := fun heq => hother (heq ▸ hid)
  exact List.getElem?_set_ne hne

-- ================================================================== lines

/-- An instruction writes to the variables that it names. -/
theorem Effect.writes {i : Instruction} (h : Effect i s s') : Writes i.written s s' := by
  have hdevice : ∀ {s : Scene} {target m arena},
      Writes i.written s ((s.setDevice target m).withArena arena) := by
    intro s target m arena
    cases target <;> exact ⟨rfl, rfl, rfl, rfl, fun _ _ => rfl⟩
  cases h with
  | quiet same => exact same.writes
  | store before dest _ stored after =>
      exact (before.writes.trans (store_writes stored dest)).trans after.writes
  | fill before _ _ _ => exact before.writes.trans hdevice
  | vacate before _ _ => exact before.writes.trans hdevice
  | @call s₁ _ _ _ _ _ _ _ arena before _ _ _ _ stored =>
      have hcalled : Writes i.written s (s₁.withArena arena) :=
        before.writes.trans ⟨rfl, rfl, rfl, rfl, fun _ _ => rfl⟩
      rcases stored with rfl | ⟨id, v, dest, -, stored⟩
      · exact hcalled
      · exact hcalled.trans (store_writes stored dest)

/-- The variables that the line at hand may write to. -/
def written (s : Scene) : List VarId :=
  match s.proc.script[s.proc.pc]? with
  | some (some i) => i.written
  | _ => []

/-- A change of other fields of the processor. -/
theorem writes_of_eq (hscript : s'.proc.script = s.proc.script)
    (hconfig : s'.proc.config = s.proc.config) (hvars : s'.proc.vars = s.proc.vars)
    (hworld : s'.world = s.world) : Writes ids s s' where
  script := hscript
  config := hconfig
  registry := by rw [hworld]
  shapes := by rw [hvars]
  others _ _ := by rw [hvars]

/-- At the end only the standing of the processor changes. -/
theorem completeAtEnd_writes : Writes ids s s.completeAtEnd := by
  unfold completeAtEnd
  split
  · exact writes_of_eq rfl rfl rfl rfl
  · exact .refl s

theorem goTo_writes (line : Nat) : Writes ids s (s.goTo line) := writes_of_eq rfl rfl rfl rfl

theorem fail_writes (fault : Fault) : Writes ids s (s.fail fault) := writes_of_eq rfl rfl rfl rfl

/-- A line writes to the variables that its instruction names. -/
theorem step_writes (s : Scene) : Writes s.written s s.step := by
  unfold written step
  split
  next i hi =>
    rw [hi]
    simp only
    split
    next => exact fail_writes _
    next s' h =>
      have hwrites := (Instruction.execute_effect h).writes
      exact (hwrites.trans (goTo_writes _)).trans completeAtEnd_writes
    next line s' h =>
      have hwrites := (Instruction.execute_effect h).writes
      split
      · exact (hwrites.trans (goTo_writes _)).trans completeAtEnd_writes
      · exact hwrites.trans (fail_writes _)
  next hother =>
    split
    next => exact completeAtEnd_writes
    next => exact fail_writes _
    next i hi => exact absurd hi (hother i)

/-- Lines write to some variables. -/
theorem Lines.writes {n : Nat} (h : Lines s n s') : ∃ ids, Writes ids s s' := by
  induction h with
  | none => exact ⟨[], .refl s⟩
  | @step n s' _ _ ih =>
      obtain ⟨ids, hwrites⟩ := ih
      have hbefore : Writes (ids ++ s'.written) s s' :=
        hwrites.mono fun _ hid => List.mem_append_left _ hid
      have hline : Writes (ids ++ s'.written) s' s'.step :=
        (step_writes s').mono fun _ hid => List.mem_append_right _ hid
      exact ⟨_, hbefore.trans hline⟩

/-- A variable that has changed was written to by one of the lines. -/
theorem Lines.written_of_ne {n : Nat} (h : Lines s n s')
    (hne : s'.proc.vars.get? id ≠ s.proc.vars.get? id) :
    ∃ k m j, Lines s k m ∧ m.proc.status = .running ∧ id ∈ m.written ∧ Lines m.step j s' := by
  induction h with
  | none => exact absurd rfl hne
  | @step n s' before running ih =>
      by_cases hmem : id ∈ s'.written
      · exact ⟨n, s', 0, before, running, hmem, .none⟩
      · rw [(step_writes s').others id hmem] at hne
        obtain ⟨k, m, j, hm, hrun, hid, hrest⟩ := ih hne
        exact ⟨k, m, j + 1, hm, hrun, hid, hrest.step running⟩

-- ================================================================== ticks

/-- In the tick, a line is run from this scene. -/
def During (s m : Scene) : Prop :=
  s.proc.status = .running ∧ m.proc.status = .running
    ∧ ∃ k j, Lines s.aged k m ∧ Lines m.step j s.tick.2

/-- A tick writes to variables, and leaves the rest. -/
theorem tick_writes (s : Scene) : ∃ ids, Writes ids s s.tick.2 := by
  have haged : ∀ {ids}, Writes ids s s.aged := writes_of_eq rfl rfl rfl rfl
  cases hstatus : s.proc.status with
  | waiting n =>
      rw [tick_waiting hstatus]
      exact ⟨[], haged.trans (writes_of_eq rfl rfl rfl rfl)⟩
  | running =>
      obtain ⟨n, s', -, hlines, htick⟩ := tick_running hstatus
      obtain ⟨ids, hwrites⟩ := hlines.writes
      rw [htick]
      exact ⟨ids, haged.trans hwrites⟩
  | stopped | completed | halted =>
      rw [tick_final (by rw [hstatus]; rfl)]
      exact ⟨[], haged⟩

/-- A variable that a tick has changed was written to by one of its
lines. -/
theorem tick_written_of_ne (hne : s.tick.2.proc.vars.get? id ≠ s.proc.vars.get? id) :
    ∃ m, During s m ∧ id ∈ m.written := by
  cases hstatus : s.proc.status with
  | waiting n =>
      rw [tick_waiting hstatus] at hne
      exact absurd rfl hne
  | running =>
      obtain ⟨n, s', -, hlines, htick⟩ := tick_running hstatus
      rw [htick] at hne
      obtain ⟨k, m, j, hm, hrun, hid, hrest⟩ := hlines.written_of_ne hne
      refine ⟨m, ⟨hstatus, hrun, k, j, hm, ?_⟩, hid⟩
      rw [htick]
      exact hrest
  | stopped | completed | halted =>
      rw [tick_final (by rw [hstatus]; rfl)] at hne
      exact absurd rfl hne

end Scene

end TickScript
