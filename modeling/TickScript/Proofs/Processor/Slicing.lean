/-
The outcome of a script does not depend on how it is sliced into ticks.

# Settings

A script that does not read the time cannot tell how many instructions a
tick may run, whether a jump runs the line that it goes to, how many
frames have passed or what the clock shows. These make up its `Setting`.
Scenes in different settings are alike, so running a line commutes with
changing the setting (`Scene.step_under`).

# Cores

The core of a scene is what is left when the setting is taken out, and the
ticks that are still to be waited. Running a line leads from core to core
(`Scene.onward`), so all runs from one core go along the same cores, line
by line, however many lines they take in a tick and however long they wait
in between. `Along c k s` says that a run is `k` lines on its way from the
core `c`. The way ends at the first core that is at rest for good; so all
runs that come to rest do so at the same core, and if one does, so does
every other whose ticks run lines at all.
-/
import Mathlib.Logic.Function.Iterate
import TickScript.Proofs.Processor.Frame
import TickScript.Proofs.Processor.Likeness
import TickScript.Proofs.Processor.Load

namespace TickScript

-- =============================================================== settings

/-- What a script can tell only by reading the time, if at all. -/
structure Setting where
  budget : Nat
  legacyJump : Bool
  frames : Nat
  launch : Float
  clock : Clock

/-- Whether an instruction reads the frames or the clock. -/
def Instruction.readsTime : Instruction → Bool
  | time (.framesSinceLaunch _) | time (.secondsSinceLaunch _) | time (.deltaTime _) => true
  | _ => false

/-- A script without time reads. Waiting is no reading. -/
def Script.Timeless (script : Script) : Prop :=
  ∀ i, some i ∈ script.toList → i.readsTime = false

/-- Whether a script has no instruction of some sort can be found out. -/
def Script.decidableNone (script : Script) (sort : Instruction → Bool) :
    Decidable (∀ i, some i ∈ script.toList → sort i = false) :=
  decidable_of_iff (∀ entry ∈ script.toList, ∀ i ∈ entry.toList, sort i = false) <| by
    constructor
    · exact fun h i hi => h (some i) hi i (by simp)
    · rintro h entry hentry i hi
      rw [Option.mem_toList.1 hi] at hentry
      exact h i hentry

instance (script : Script) : Decidable script.Timeless :=
  script.decidableNone Instruction.readsTime

theorem Script.Timeless.entry {script : Script} {pc : Nat} {i : Instruction}
    (h : script.Timeless) (hi : script[pc]? = some (some i)) : i.readsTime = false :=
  h i (Array.mem_toList_iff.2 (Array.mem_of_getElem? hi))

namespace Scene

/-- The scene in another setting. -/
def under (s : Scene) (x : Setting) : Scene :=
  { proc := { s.proc with
      config := { s.proc.config with
        instructionsPerTick := x.budget
        legacyJump := x.legacyJump }
      frames := x.frames
      launch := x.launch }
    world := { s.world with clock := x.clock } }

/-- The setting of a scene. -/
def setting (s : Scene) : Setting :=
  { budget := s.proc.config.instructionsPerTick
    legacyJump := s.proc.config.legacyJump
    frames := s.proc.frames
    launch := s.proc.launch
    clock := s.world.clock }

end Scene

/-- The likeness of scenes that differ in their setting, which has nothing
to do with entities. -/
def Setting.likeness (x : Setting) : Likeness where
  backdrop y z := z = { y with
    config := { y.config with instructionsPerTick := x.budget, legacyJump := x.legacyJump }
    frames := x.frames
    launch := x.launch
    clock := x.clock }
  arena := Eq
  legacyVar := by
    rintro y _ rfl
    rfl
  arenas := .eq

namespace Setting

variable {x : Setting} {s t : Scene}

theorem alike_under (x : Setting) (s : Scene) : x.likeness.Alike s (s.under x) :=
  ⟨_, _, rfl, rfl, rfl⟩

theorem eq_under (h : x.likeness.Alike s t) : t = s.under x := by
  obtain ⟨_, _, rfl, rfl, rfl⟩ := h
  rfl

theorem reads (x : Setting) (o : Operand) : x.likeness.Reads o := by
  refine Likeness.reads_of_draws ?_ ?_ o
  · rintro y _ rfl
    rfl
  · rintro y _ rfl draws
    rfl

theorem holds (x : Setting) (s : Scene) : x.likeness.Holds s where
  shows _ := .eq _
  calls _ := by
    rintro _ _ m - a _ rfl args
    exact .refl fun _ => ⟨rfl, rfl⟩

end Setting

theorem Scene.time_under {s : Scene} {x : Setting} {op : TimeOp}
    (h : (Instruction.time op).readsTime = false) :
    Agree x.likeness.Alike (s.time op) ((s.under x).time op) := by
  cases op with
  | framesSinceLaunch dest | secondsSinceLaunch dest | deltaTime dest => cases h
  | wait ticks => exact wait_alike (x.alike_under s) (x.reads ticks)

/-- An instruction that does not read the time does the same in every
setting. -/
theorem Instruction.execute_under {i : Instruction} {s : Scene} {x : Setting}
    (h : i.readsTime = false) :
    i.execute (s.under x) = (i.execute s).map fun r => (r.1, r.2.under x) := by
  have htime : ∀ op, i = .time op → Agree x.likeness.Alike (s.time op) ((s.under x).time op) := by
    rintro op rfl
    exact Scene.time_under h
  have hagree := i.execute_alike (x.alike_under s) (fun o _ => x.reads o) htime (x.holds s)
  exact hagree.eq_map_beside fun _ _ => Setting.eq_under

namespace Scene

variable {s s' c : Scene} {x : Setting}

theorem completeAtEnd_under : (s.under x).completeAtEnd = s.completeAtEnd.under x := by
  unfold completeAtEnd
  show (if s.proc.script.size ≤ s.proc.pc then _ else _) = _
  split <;> rfl

/-- A line does the same in every setting. -/
theorem step_under (h : s.proc.script.Timeless) : (s.under x).step = s.step.under x := by
  have hline : (s.under x).proc.script[(s.under x).proc.pc]? = s.proc.script[s.proc.pc]? := rfl
  unfold step
  rw [hline]
  cases hentry : s.proc.script[s.proc.pc]? with
  | none => exact completeAtEnd_under
  | some entry =>
      cases entry with
      | none => rfl
      | some i =>
          simp only
          rw [Instruction.execute_under (h.entry hentry)]
          cases i.execute s with
          | error fault => rfl
          | ok r =>
              obtain ⟨signal, s'⟩ := r
              cases signal with
              | next => exact completeAtEnd_under (s := s'.goTo (s'.proc.pc + 1))
              | goto line =>
                  show (if s'.isTarget line then _ else _) = _
                  simp only
                  split
                  · exact completeAtEnd_under (s := s'.goTo line)
                  · rfl

-- ================================================================== cores

/-- The scene without its setting, and no longer waiting. -/
def core (s : Scene) : Scene :=
  let bare := s.under ⟨0, false, 0, 0, .start 0⟩
  { bare with proc := { bare.proc with delay := 0 } }

/-- A scene that does not wait is its core in its setting. -/
theorem core_under_setting (h : s.proc.delay = 0) : s.core.under s.setting = s := by
  have hproc : { s.proc with delay := 0 } = s.proc := by
    rw [← h]
  show (⟨{ s.proc with delay := 0 }, s.world⟩ : Scene) = s
  rw [hproc]

/-- The core after a line. -/
def onward (c : Scene) : Scene := c.step.core

/-- Running a line leads from core to core. -/
theorem core_step (htimeless : s.proc.script.Timeless) (hrun : s.proc.status = .running) :
    s.step.core = s.core.onward := by
  have hs := core_under_setting (delay_eq_zero hrun)
  have hcore : s.core.proc.script.Timeless := htimeless
  calc s.step.core = (s.core.under s.setting).step.core := by rw [hs]
    _ = (s.core.step.under s.setting).core := by rw [step_under hcore]
    _ = s.core.onward := rfl

/-- A core is at rest for good as its scene is, and runs if the scene
waits. -/
theorem status_core (s : Scene) :
    s.core.proc.status = match s.proc.status with
      | .waiting _ => .running
      | event => event := by
  show (if s.proc.halted then Event.halted else if s.proc.completed then .completed
    else if !s.proc.enabled then .stopped else if 0 < 0 then .waiting 0 else .running) = _
  unfold Processor.status
  cases s.proc.halted <;> cases s.proc.completed <;> cases s.proc.enabled <;>
    by_cases hdelay : 0 < s.proc.delay <;> simp [hdelay]

theorem final_core_iff : s.core.proc.status.isFinal ↔ s.proc.status.isFinal := by
  rw [status_core]
  cases s.proc.status <;> simp [Event.isFinal]

theorem status_core_of_final (h : s.proc.status.isFinal) : s.core.proc.status = s.proc.status := by
  rw [status_core]
  cases hstatus : s.proc.status with
  | waiting n =>
      rw [hstatus] at h
      cases h
  | _ => rfl

-- =================================================================== runs

/-- The scene is so many lines on its way from a core, and was not at rest
before. -/
structure Along (c : Scene) (k : Nat) (s : Scene) : Prop where
  core_eq : s.core = onward^[k] c
  running : ∀ j < k, (onward^[j] c).proc.status = .running

variable {k n : Nat}

theorem Along.start (s : Scene) : Along s.core 0 s := ⟨rfl, fun j hj => by omega⟩

/-- Changes of the setting and of the wait are no steps. -/
theorem Along.same (hs : Along c k s) (hcore : s'.core = s.core) : Along c k s' :=
  ⟨hcore.trans hs.core_eq, hs.running⟩

/-- Each line is a step on the way. -/
theorem Along.lines (hs : Along c k s) (htimeless : s.proc.script.Timeless)
    (hlines : Lines s n s') : Along c (k + n) s' := by
  induction hlines with
  | none => exact hs
  | @step n s' before running ih =>
      obtain ⟨ids, hwrites⟩ := before.writes
      have htimeless' : s'.proc.script.Timeless := by
        rw [hwrites.script]
        exact htimeless
      refine ⟨?_, fun j hj => ?_⟩
      · show s'.step.core = onward^[k + n + 1] c
        rw [core_step htimeless' running, ih.core_eq, Function.iterate_succ_apply']
      · by_cases hlast : j = k + n
        · rw [hlast, ← ih.core_eq, status_core, running]
        · exact ih.running j (by omega)

/-- No way leads on from where a run is at rest. -/
theorem Along.le_of_final {m : Nat} (hs : Along c k s) (hs' : Along c m s')
    (hfinal : s.proc.status.isFinal) : m ≤ k := by
  refine Nat.le_of_not_lt fun hlt => ?_
  have hrunning := hs'.running k hlt
  rw [← hs.core_eq, status_core_of_final hfinal] at hrunning
  rw [hrunning] at hfinal
  cases hfinal

/-- All runs that come to rest do so at the same core. -/
theorem Along.core_eq_of_final {m : Nat} (hs : Along c k s) (hs' : Along c m s')
    (hfinal : s.proc.status.isFinal) (hfinal' : s'.proc.status.isFinal) : s'.core = s.core := by
  have hsame : m = k :=
    Nat.le_antisymm (hs.le_of_final hs' hfinal) (hs'.le_of_final hs hfinal')
  rw [hs'.core_eq, hs.core_eq, hsame]

-- ================================================================== ticks

/-- The scene at a time of the clock. -/
def atTime (s : Scene) (clock : Clock) : Scene := { s with world := { s.world with clock } }

/-- Runs so many frames, each at its time of the clock. Says how the
processor stood in the last one, or how it stands. -/
def play (s : Scene) (clocks : Nat → Clock) : Nat → Event × Scene
  | 0 => (s.proc.status, s)
  | n + 1 => ((play s clocks n).2.atTime (clocks n)).tick

/-- A tick of a processor that waits only shortens the wait. -/
theorem Along.tick_waiting (hs : Along c k s) (hwait : s.proc.status = .waiting n) :
    Along c k s.tick.2 ∧ s.tick.2.proc.delay = s.proc.delay - 1 := by
  rw [Scene.tick_waiting hwait]
  exact ⟨hs.same rfl, rfl⟩

/-- A tick of a processor that runs leads on, if it runs lines at all. -/
theorem Along.tick_running (hs : Along c k s) (htimeless : s.proc.script.Timeless)
    (hrun : s.proc.status = .running) :
    ∃ n, (1 ≤ s.proc.config.instructionsPerTick → 1 ≤ n) ∧ Along c (k + n) s.tick.2 := by
  obtain ⟨n, s', hn, hlines, htick⟩ := Scene.tick_running hrun
  have haged : Along c k s.aged := hs.same rfl
  rw [htick]
  exact ⟨n, hn, haged.lines htimeless hlines⟩

/-- Every tick leads some lines on, or none. -/
theorem Along.tick (hs : Along c k s) (htimeless : s.proc.script.Timeless) :
    ∃ n, Along c (k + n) s.tick.2 := by
  cases hstatus : s.proc.status with
  | waiting n => exact ⟨0, (hs.tick_waiting hstatus).1⟩
  | running =>
      obtain ⟨n, -, halong⟩ := hs.tick_running htimeless hstatus
      exact ⟨n, halong⟩
  | stopped | completed | halted =>
      rw [tick_final (by rw [hstatus]; rfl)]
      exact ⟨0, hs.same rfl⟩

/-- The event of a tick is final just if the processor is at rest after
it, and says how it is. -/
theorem tick_event (s : Scene) :
    (s.tick.1.isFinal ↔ s.tick.2.proc.status.isFinal)
      ∧ (s.tick.1.isFinal → s.tick.1 = s.tick.2.proc.status) := by
  cases hstatus : s.proc.status with
  | waiting n =>
      have hwaits : ¬ s.tick.2.proc.status.isFinal := by
        rw [← final_core_iff, Scene.tick_waiting hstatus]
        show ¬ s.core.proc.status.isFinal
        rw [final_core_iff, hstatus]
        exact Bool.false_ne_true
      have hevent : ¬ s.tick.1.isFinal := by
        rw [Scene.tick_waiting hstatus]
        exact Bool.false_ne_true
      exact ⟨⟨fun h => absurd h hevent, fun h => absurd h hwaits⟩, fun h => absurd h hevent⟩
  | running =>
      obtain ⟨n, s', -, -, htick⟩ := Scene.tick_running hstatus
      rw [htick]
      exact ⟨Iff.rfl, fun _ => rfl⟩
  | stopped | completed | halted =>
      rw [tick_final (by rw [hstatus]; rfl)]
      exact ⟨Iff.rfl, fun _ => rfl⟩

/-- The same holds of the last of several frames. -/
theorem play_event (s : Scene) (clocks : Nat → Clock) (n : Nat) :
    ((s.play clocks n).1.isFinal ↔ (s.play clocks n).2.proc.status.isFinal)
      ∧ ((s.play clocks n).1.isFinal → (s.play clocks n).1 = (s.play clocks n).2.proc.status) := by
  cases n with
  | zero => exact ⟨Iff.rfl, fun _ => rfl⟩
  | succ n => exact tick_event _

/-- Frames keep the script and the setup. -/
theorem play_keeps (s : Scene) (clocks : Nat → Clock) (n : Nat) :
    (s.play clocks n).2.proc.script = s.proc.script
      ∧ (s.play clocks n).2.proc.config = s.proc.config := by
  induction n with
  | zero => exact ⟨rfl, rfl⟩
  | succ n ih =>
      obtain ⟨ids, hwrites⟩ := tick_writes ((s.play clocks n).2.atTime (clocks n))
      exact ⟨hwrites.script.trans ih.1, hwrites.config.trans ih.2⟩

/-- All frames are on the way. -/
theorem along_play (s : Scene) (htimeless : s.proc.script.Timeless) (clocks : Nat → Clock)
    (n : Nat) : ∃ k, Along s.core k (s.play clocks n).2 := by
  induction n with
  | zero => exact ⟨0, .start s⟩
  | succ n ih =>
      obtain ⟨k, halong⟩ := ih
      have hclock : Along s.core k ((s.play clocks n).2.atTime (clocks n)) := halong.same rfl
      obtain ⟨m, hnext⟩ := hclock.tick ((s.play_keeps clocks n).1 ▸ htimeless)
      exact ⟨k + m, hnext⟩

/-- A wait comes to its end. -/
theorem wait_ends {clocks : Nat → Clock} (delay : Nat) :
    ∀ {n : Nat}, Along c k (s.play clocks n).2 → (s.play clocks n).2.proc.delay = delay →
      ∃ m, Along c k (s.play clocks m).2
        ∧ ∀ left, (s.play clocks m).2.proc.status ≠ .waiting left := by
  induction delay with
  | zero =>
      intro n halong hdelay
      refine ⟨n, halong, fun left hwait => ?_⟩
      have hpos := delay_pos hwait
      omega
  | succ delay ih =>
      intro n halong hdelay
      by_cases hwait : ∃ left, (s.play clocks n).2.proc.status = .waiting left
      · obtain ⟨left, hwait⟩ := hwait
        have hclock : Along c k ((s.play clocks n).2.atTime (clocks n)) := halong.same rfl
        obtain ⟨hnext, hless⟩ := hclock.tick_waiting hwait
        refine ih (n := n + 1) hnext ?_
        show ((s.play clocks n).2.atTime (clocks n)).tick.2.proc.delay = delay
        rw [hless]
        show (s.play clocks n).2.proc.delay - 1 = delay
        omega
      · exact ⟨n, halong, fun left hleft => hwait ⟨left, hleft⟩⟩

/-- A run comes to rest if there is a rest on its way. The induction is on
the lines up to there. -/
theorem rests {clocks : Nat → Clock} (htimeless : s.proc.script.Timeless)
    (hbudget : 1 ≤ s.proc.config.instructionsPerTick) {last : Nat}
    (hlast : (onward^[last] s.core).proc.status.isFinal) (left : Nat) :
    ∀ {n k : Nat}, Along s.core k (s.play clocks n).2 → last ≤ k + left →
      ∃ n, (s.play clocks n).2.proc.status.isFinal := by
  induction left with
  | zero =>
      intro n k halong hle
      have hend : ¬ last < k := fun hlt => by
        rw [halong.running last hlt] at hlast
        cases hlast
      have hsame : k = last := by omega
      rw [← hsame, ← halong.core_eq, final_core_iff] at hlast
      exact ⟨n, hlast⟩
  | succ left ih =>
      intro n k halong hle
      obtain ⟨m, halong, hawake⟩ := wait_ends _ halong rfl
      have hclock : Along s.core k ((s.play clocks m).2.atTime (clocks m)) := halong.same rfl
      cases hstatus : (s.play clocks m).2.proc.status with
      | waiting left => exact absurd hstatus (hawake left)
      | running =>
          obtain ⟨hscript, hconfig⟩ := s.play_keeps clocks m
          obtain ⟨j, hj, hnext⟩ := hclock.tick_running (hscript ▸ htimeless) hstatus
          have hone : 1 ≤ j := hj (hconfig ▸ hbudget)
          exact ih (n := m + 1) hnext (by omega)
      | stopped | completed | halted => exact ⟨m, by rw [hstatus]; rfl⟩

/-- A run comes to rest if another from the same core does. -/
theorem rests_of_rests {t : Scene} {clocks : Nat → Clock} (clocks' : Nat → Clock) {n : Nat}
    (hcore : t.core = s.core) (hscript : s.proc.script.Timeless)
    (hbudget : 1 ≤ t.proc.config.instructionsPerTick)
    (hrests : (s.play clocks n).2.proc.status.isFinal) :
    ∃ m, (t.play clocks' m).2.proc.status.isFinal := by
  obtain ⟨k, halong⟩ := along_play s hscript clocks n
  have hlast : (onward^[k] t.core).proc.status.isFinal := by
    rw [hcore, ← halong.core_eq, final_core_iff]
    exact hrests
  have htimeless : t.proc.script.Timeless := by
    have hsame : t.proc.script = s.proc.script := congrArg (fun c => c.proc.script) hcore
    rw [hsame]
    exact hscript
  exact rests htimeless hbudget hlast k (n := 0) (.start t) (by omega)

-- ================================================================ loading

/-- Parts are declared alike in every setting. -/
theorem declareParts_under (parts : List (String × Handle)) :
    (s.under x).declareParts parts
      = ((s.declareParts parts).1, (s.declareParts parts).2.under x) := by
  obtain ⟨hfault, halike⟩ := declareParts_alike parts (x.alike_under s)
  exact Prod.ext hfault (Setting.eq_under halike)

/-- A source is loaded alike in every setting, and starts in one with the
same budget. -/
theorem load_under (source : String) :
    ∃ x', x'.budget = x.budget
      ∧ (s.under x).load source = ((s.load source).1, (s.load source).2.under x') := by
  have hreset : (s.under x).reset = s.reset.under { x with frames := 0 } := rfl
  have hparts : (s.reset.under { x with frames := 0 }).proc.parts = s.reset.proc.parts := rfl
  unfold load
  simp only
  rw [hreset, hparts, declareParts_under]
  obtain ⟨fault?, s'⟩ := s.reset.declareParts s.reset.proc.parts
  cases fault? with
  | some fault => exact ⟨{ x with frames := 0 }, rfl, rfl⟩
  | none =>
      have hinstall : ∀ compiled, (s'.under { x with frames := 0 }).install compiled
          = (s'.install compiled).under { x with frames := 0, launch := x.clock.seconds } :=
        fun _ => rfl
      refine ⟨{ x with frames := 0, launch := x.clock.seconds }, rfl, ?_⟩
      show (_, (s'.under { x with frames := 0 }).install _) = _
      rw [hinstall]
      rfl

theorem load_budget (s : Scene) (source : String) :
    (s.load source).2.proc.config.instructionsPerTick = s.proc.config.instructionsPerTick := by
  obtain ⟨x', hbudget, hload⟩ := load_under (s := s) (x := s.setting) source
  have hsame : (s.load source).2 = (s.load source).2.under x' := congrArg Prod.snd hload
  rw [hsame]
  exact hbudget

/-- Two runs from one core that are at rest have come to the same. -/
theorem core_play_eq {t : Scene} {clocks clocks' : Nat → Clock} {m : Nat}
    (hcore : t.core = s.core) (htimeless : s.proc.script.Timeless)
    (hfinal : (s.play clocks n).2.proc.status.isFinal)
    (hfinal' : (t.play clocks' m).2.proc.status.isFinal) :
    (t.play clocks' m).2.core = (s.play clocks n).2.core := by
  have hscript : t.proc.script = s.proc.script := congrArg (fun c => c.proc.script) hcore
  obtain ⟨k, halong⟩ := along_play s htimeless clocks n
  obtain ⟨l, halong'⟩ := along_play t (hscript ▸ htimeless) clocks' m
  rw [hcore] at halong'
  exact halong.core_eq_of_final halong' hfinal hfinal'

/-- The outcome of a script that does not read the time is the same in
every setting whose ticks run lines at all. If a source loads in one it
does in another; one run reaches a final event just if the other does; and
then the events are the same, and so is all that the script has done. -/
theorem outcome_unsliced {source : String} {s₁ : Scene} {clocks clocks' : Nat → Clock}
    (hload : s.load source = (true, s₁)) (htimeless : s₁.proc.script.Timeless)
    (hbudget : 1 ≤ s.proc.config.instructionsPerTick) (hbudget' : 1 ≤ x.budget) :
    ∃ t₁, (s.under x).load source = (true, t₁)
      ∧ ((∃ n, (s₁.play clocks n).1.isFinal) ↔ ∃ m, (t₁.play clocks' m).1.isFinal)
      ∧ ∀ n m, (s₁.play clocks n).1.isFinal → (t₁.play clocks' m).1.isFinal →
          (t₁.play clocks' m).1 = (s₁.play clocks n).1
            ∧ (t₁.play clocks' m).2.proc.pc = (s₁.play clocks n).2.proc.pc
            ∧ (t₁.play clocks' m).2.proc.vars = (s₁.play clocks n).2.proc.vars
            ∧ (t₁.play clocks' m).2.proc.memory = (s₁.play clocks n).2.proc.memory
            ∧ (t₁.play clocks' m).2.proc.input = (s₁.play clocks n).2.proc.input
            ∧ (t₁.play clocks' m).2.proc.output = (s₁.play clocks n).2.proc.output
            ∧ (t₁.play clocks' m).2.proc.faults = (s₁.play clocks n).2.proc.faults
            ∧ (t₁.play clocks' m).2.world.arena = (s₁.play clocks n).2.world.arena
            ∧ (t₁.play clocks' m).2.world.console = (s₁.play clocks n).2.world.console := by
  obtain ⟨x', hx', hload'⟩ := load_under (s := s) (x := x) source
  have hpace := s.load_budget source
  rw [hload] at hload' hpace
  have hcore : (s₁.under x').core = s₁.core := rfl
  refine ⟨s₁.under x', hload', ⟨fun ⟨n, hn⟩ => ?_, fun ⟨m, hm⟩ => ?_⟩, fun n m hn hm => ?_⟩
  · rw [(s₁.play_event clocks n).1] at hn
    obtain ⟨m, hm⟩ := rests_of_rests clocks' hcore htimeless
      (Nat.le_trans hbudget' (Nat.le_of_eq hx'.symm)) hn
    exact ⟨m, ((s₁.under x').play_event clocks' m).1.2 hm⟩
  · rw [((s₁.under x').play_event clocks' m).1] at hm
    obtain ⟨n, hn⟩ := rests_of_rests clocks hcore.symm htimeless
      (Nat.le_trans hbudget (Nat.le_of_eq hpace.symm)) hm
    exact ⟨n, (s₁.play_event clocks n).1.2 hn⟩
  · obtain ⟨hiff, hevent⟩ := s₁.play_event clocks n
    obtain ⟨hiff', hevent'⟩ := (s₁.under x').play_event clocks' m
    have heq := core_play_eq hcore htimeless (hiff.1 hn) (hiff'.1 hm)
    have hstatus : ((s₁.under x').play clocks' m).2.proc.status
        = (s₁.play clocks n).2.proc.status := by
      rw [← status_core_of_final (hiff'.1 hm), ← status_core_of_final (hiff.1 hn), heq]
    refine ⟨(hevent' hm).trans (hstatus.trans (hevent hn).symm), ?_⟩
    exact ⟨congrArg (fun c => c.proc.pc) heq, congrArg (fun c => c.proc.vars) heq,
      congrArg (fun c => c.proc.memory) heq, congrArg (fun c => c.proc.input) heq,
      congrArg (fun c => c.proc.output) heq, congrArg (fun c => c.proc.faults) heq,
      congrArg (fun c => c.world.arena) heq, congrArg (fun c => c.world.console) heq⟩

/-- Goes around a loop, waiting longer and longer, and divides by zero in
the end. -/
def dawdle : String :=
  "var int x 2\nlabel top\nlabel again\ntime wait(3-x)\nset x x - 1\njump top x > 0\n" ++
    "console push(x)\nconsole write()\nset x 1 % x"

/-- Ticks of a single instruction, where a jump runs its target. -/
def plodding : Setting := ⟨1, true, 0, 0, .start 0⟩

/-- With one instruction to a tick, the loop takes the same way to the same
fault as with ten. -/
theorem outcome_unsliced_dawdle :
    (bare.load dawdle).1 = true
      ∧ ((bare.load dawdle).2.play (fun _ => .start 0) 6).1 = .halted
      ∧ ∃ t₁, (bare.under plodding).load dawdle = (true, t₁)
          ∧ ((∃ n, ((bare.load dawdle).2.play (fun _ => .start 0) n).1.isFinal)
              ↔ ∃ m, (t₁.play (fun _ => .start 0) m).1.isFinal)
          ∧ ∀ n m, ((bare.load dawdle).2.play (fun _ => .start 0) n).1.isFinal →
              (t₁.play (fun _ => .start 0) m).1.isFinal →
              (t₁.play (fun _ => .start 0) m).2.proc.faults
                = ((bare.load dawdle).2.play (fun _ => .start 0) n).2.proc.faults := by
  have hrun : (bare.load dawdle).1 = true ∧ (bare.load dawdle).2.proc.script.Timeless
      ∧ ((bare.load dawdle).2.play (fun _ => .start 0) 6).1 = .halted := by
    decide +kernel
  obtain ⟨hloaded, htimeless, hhalted⟩ := hrun
  have hload : bare.load dawdle = (true, (bare.load dawdle).2) := Prod.ext hloaded rfl
  obtain ⟨t₁, ht₁, hiff, hsame⟩ :=
    outcome_unsliced (x := plodding) hload htimeless (by decide) (by decide)
  refine ⟨hloaded, hhalted, t₁, ht₁, hiff, fun n m hn hm => ?_⟩
  obtain ⟨-, -, -, -, -, -, hfaults, -⟩ := hsame n m hn hm
  exact hfaults

end Scene

end TickScript
