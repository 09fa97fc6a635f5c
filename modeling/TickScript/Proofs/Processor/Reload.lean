/-
Reloading starts fresh.

Take a processor after any history, and a new one with the same setup and
parts in the same world. Loading a source comes to the same on both, and so
does any number of ticks after it.

# What is left of the past

Three things are different. The old processor has counted faults. It has
given up what its variables and memory held, so usages in the arena differ,
and slots may have been recycled; but there are the same entities. And where
the parts could not be declared, it has an old time of launch, since nothing
was compiled. `Likeness.anew` is the likeness of scenes that differ in such
things only, and in the random draws to come. Where nothing that a script
does goes by them, scenes that are alike in this way go the same way
(`Scene.renewed_bisimulation`): the script must not draw at random, and the
methods must go by entities and not by usages, as those that are always
there do.

# The count of faults

Only loads clear the faults on record, so what was on record at each load,
and what is on record now, are all there have been (`Scene.Life`). The count
is their number.
-/
import TickScript.Proofs.Code.Draws
import TickScript.Proofs.Processor.Bisimulation
import TickScript.Proofs.Processor.Dispatch
import TickScript.Proofs.Processor.Faults
import TickScript.Proofs.Processor.Terminal

namespace TickScript

-- ================================================================= draws

/-- Whether an instruction draws at random. -/
def Instruction.draws (i : Instruction) : Bool := i.operands.any Operand.draws

/-- A script without random draws. -/
def Script.Drawless (script : Script) : Prop :=
  ∀ i, some i ∈ script.toList → i.draws = false

instance (script : Script) : Decidable script.Drawless := script.decidableNone Instruction.draws

-- =============================================================== methods

/-- A method that goes by entities and not by usages: where these are the
same, so is what it gives back and what it leaves. -/
def Method.Steady (m : Method) : Prop :=
  ∀ {a b : Arena}, a.SameEntities b → ∀ target args,
    Agree (Beside Arena.SameEntities) (m.action a target args) (m.action b target args)

/-- All methods go by entities. -/
def Registry.Steady (r : Registry) : Prop :=
  ∀ {typeName name m}, r.find? typeName name = some m → m.Steady

/-- The methods that are always there do. -/
theorem Registry.standard_steady : Registry.standard.Steady := by
  intro typeName name m hfind a b hab target args
  exact Standard.action_agrees (standard_methods hfind) Arena.SameEntities.likeness
    (Arena.SameEntities.shows target) (Arena.SameEntities.lists target) hab

-- ============================================================== likeness

/-- The likeness of scenes that differ in the faults counted so far, in the
draws to come and in usages, and as said in when they were launched. -/
def Likeness.anew (launch : Float → Float → Prop) : Likeness where
  backdrop x y := ∃ l n d, launch x.launch l
    ∧ y = { x with launch := l, faultCount := n, draws := d }
  arena := Arena.SameEntities
  legacyVar := by
    rintro x _ ⟨l, n, d, -, rfl⟩
    rfl
  arenas := Arena.SameEntities.likeness

/-- The processor without its past: all but when it was launched and how
many faults it has had. -/
def Processor.withoutPast (p : Processor) : Processor := { p with launch := 0, faultCount := 0 }

namespace Scene

variable {s t : Scene} {launch : Float → Float → Prop}

/-- An operand that does not draw has the same value. -/
theorem anew_reads {o : Operand} (ho : o.draws = false) : (Likeness.anew launch).Reads o := by
  rintro vars alive x _ ⟨l, n, d, hl, rfl⟩
  show Agree _ (o.value vars alive x.draws) (o.value vars alive d)
  rw [Operand.value_redrawn ho vars alive x.draws d]
  cases o.value vars alive x.draws with
  | error fault => exact .error fault
  | ok r => exact .ok ⟨rfl, l, n, d, hl, rfl⟩

/-- With the same entities every memory shows, and steady methods do alike. -/
theorem anew_holds (hs : s.world.registry.Steady) : (Likeness.anew launch).Holds s where
  shows _ := Arena.SameEntities.shows _
  calls _ _ _ _ hfind _ _ hab _ := Method.invoke_agrees fun args => hs hfind hab _ args

/-- With the same time of launch the clock reads the same. -/
theorem anew_time {op : TimeOp} (hst : (Likeness.anew Eq).Alike s t)
    (hop : ∀ o ∈ op.operands, (Likeness.anew Eq).Reads o) :
    Agree (Likeness.anew Eq).Alike (s.time op) (t.time op) := by
  cases op with
  | framesSinceLaunch dest | secondsSinceLaunch dest | deltaTime dest =>
      have halike := hst
      obtain ⟨_, b, rfl, ⟨l, n, d, hl, rfl⟩, hb⟩ := hst
      cases hl
      exact assign_alike halike
  | wait ticks => exact wait_alike hst (hop ticks List.mem_cons_self)

/-- What scenes that are alike come to. -/
theorem anew_iff : (Likeness.anew launch).Alike s t ↔ ∃ l n d b,
    t = s.staged { s.backdrop with launch := l, faultCount := n, draws := d } b
      ∧ launch s.proc.launch l ∧ s.world.arena.SameEntities b := by
  constructor
  · rintro ⟨_, b, rfl, ⟨l, n, d, hl, rfl⟩, hb⟩
    exact ⟨l, n, d, b, rfl, hl, hb⟩
  · rintro ⟨l, n, d, b, rfl, hl, hb⟩
    exact ⟨_, b, rfl, ⟨l, n, d, hl, rfl⟩, hb⟩

/-- Scenes that are alike are the same as far as the past does not matter. -/
theorem anew_observed (hst : (Likeness.anew launch).Alike s t) :
    t.proc.withoutPast = s.proc.withoutPast ∧ t.world.console = s.world.console
      ∧ ∀ h, t.world.arena.entity? h = s.world.arena.entity? h := by
  obtain ⟨l, n, d, b, rfl, -, hb⟩ := anew_iff.1 hst
  exact ⟨rfl, rfl, hb.entity?⟩

/-- The scenes are alike, and nothing that the script does goes by what they
differ in. -/
structure Renewed (s t : Scene) : Prop where
  alike : (Likeness.anew Eq).Alike s t
  drawless : s.proc.script.Drawless
  steady : s.world.registry.Steady

/-- An instruction of a script without draws does the same in both. -/
theorem Renewed.execute {i : Instruction} (hst : Renewed s t)
    (hi : s.proc.script[s.proc.pc]? = some (some i)) :
    Agree (Beside Renewed) (i.execute s) (i.execute t) := by
  have hdraws : i.draws = false :=
    hst.drawless i (Array.mem_toList_iff.2 (Array.mem_of_getElem? hi))
  have hreads : ∀ o ∈ i.operands, (Likeness.anew Eq).Reads o := fun o ho =>
    anew_reads (Bool.eq_false_iff.2 (List.any_eq_false.1 hdraws o ho))
  have htime : ∀ op, i = .time op → Agree (Likeness.anew Eq).Alike (s.time op) (t.time op) := by
    rintro op rfl
    exact anew_time hst.alike hreads
  have hagree := i.execute_alike hst.alike hreads htime (anew_holds hst.steady)
  refine hagree.mono fun r r' hr related => ⟨related.1, related.2, ?_, ?_⟩
  · rw [(Instruction.execute_effect hr).writes.script]
    exact hst.drawless
  · rw [(Instruction.execute_effect hr).writes.registry]
    exact hst.steady

/-- Such scenes go the same way. -/
theorem renewed_bisimulation : Bisimulation Renewed where
  script hst := by
    obtain ⟨l, n, d, b, rfl, -⟩ := anew_iff.1 hst.alike
    rfl
  config hst := by
    obtain ⟨l, n, d, b, rfl, -⟩ := anew_iff.1 hst.alike
    rfl
  course hst := by
    obtain ⟨l, n, d, b, rfl, -⟩ := anew_iff.1 hst.alike
    rfl
  status hst := by
    obtain ⟨l, n, d, b, rfl, -⟩ := anew_iff.1 hst.alike
    rfl
  execute := Renewed.execute
  fail hst fault := by
    obtain ⟨l, n, d, b, rfl, hl, hb⟩ := anew_iff.1 hst.alike
    exact ⟨anew_iff.2 ⟨l, n + 1, d, b, rfl, hl, hb⟩, hst.drawless, hst.steady⟩
  onCourse hst c := by
    obtain ⟨l, n, d, b, rfl, hl, hb⟩ := anew_iff.1 hst.alike
    exact ⟨anew_iff.2 ⟨l, n, d, b, rfl, hl, hb⟩, hst.drawless, hst.steady⟩
  atTime hst clock := by
    obtain ⟨l, n, d, b, rfl, hl, hb⟩ := anew_iff.1 hst.alike
    exact ⟨anew_iff.2 ⟨l, n, d, b, rfl, hl, hb⟩, hst.drawless, hst.steady⟩

/-- Scenes that are alike and at rest stay so. -/
theorem play_at_rest (hst : (Likeness.anew launch).Alike s t) (hfinal : s.proc.status.isFinal)
    (clocks : Nat → Clock) (n : Nat) :
    Beside (fun s t => (Likeness.anew launch).Alike s t ∧ s.proc.status.isFinal)
      (s.play clocks n) (t.play clocks n) := by
  induction n with
  | zero =>
      obtain ⟨l, n, d, b, rfl, -⟩ := anew_iff.1 hst
      exact ⟨rfl, hst, hfinal⟩
  | succ k ih =>
      obtain ⟨-, halike, hrest⟩ := ih
      unfold play
      generalize (s.play clocks k).2 = s, (t.play clocks k).2 = t at halike hrest ⊢
      obtain ⟨l, n, d, b, rfl, hl, hb⟩ := anew_iff.1 halike
      have hs : (s.atTime (clocks k)).proc.status.isFinal := hrest
      have ht : ((s.staged { s.backdrop with launch := l, faultCount := n, draws := d } b).atTime
          (clocks k)).proc.status.isFinal := hrest
      rw [tick_final hs, tick_final ht]
      exact ⟨rfl, anew_iff.2 ⟨l, n, d, b, rfl, hl, hb⟩, hrest⟩

-- =============================================================== loading

/-- A new processor with the same setup and the same parts, in the same
world, where other numbers may be drawn. -/
def afresh (s : Scene) (draws : Draws) : Scene where
  proc := { Processor.ofConfig s.proc.config with this := s.proc.this, links := s.proc.links }
  world := { s.world with draws }

/-- After a reset a processor and a new one with its setup are alike. -/
theorem reset_afresh (s : Scene) (draws : Draws) :
    (Likeness.anew fun _ _ => True).Alike s.reset (s.afresh draws).reset := by
  have hreset : ∀ s : Scene, s.world.arena.SameEntities s.reset.world.arena := fun s =>
    (Arena.SameEntities.releaseAll _).trans (.releaseAll _)
  exact anew_iff.2 ⟨_, _, draws, (s.afresh draws).reset.world.arena, rfl, trivial,
    (hreset s).symm.trans (hreset (s.afresh draws))⟩

/-- Installing sets the time of launch, so that is the same after it. -/
theorem install_anew (hst : (Likeness.anew launch).Alike s t) (c : Compiled) :
    (Likeness.anew Eq).Alike (s.install c) (t.install c) := by
  obtain ⟨l, n, d, b, rfl, -, hb⟩ := anew_iff.1 hst
  exact anew_iff.2 ⟨s.world.clock.seconds, n + c.faults.length, d, b, rfl, rfl, hb⟩

/-- A source is loaded alike, at the same time unless the parts could not be
declared. -/
theorem load_afresh (s : Scene) (source : String) (draws : Draws) :
    ((s.afresh draws).load source).1 = (s.load source).1
      ∧ ((Likeness.anew Eq).Alike (s.load source).2 ((s.afresh draws).load source).2
        ∨ (Likeness.anew fun _ _ => True).Alike (s.load source).2 ((s.afresh draws).load source).2
          ∧ (s.load source).2.proc.status = .halted) := by
  have hparts : (s.afresh draws).reset.proc.parts = s.reset.proc.parts := rfl
  have hdeclared := declareParts_alike s.reset.proc.parts (reset_afresh s draws)
  unfold load
  simp only
  rw [hparts]
  generalize s.reset.declareParts s.reset.proc.parts = r,
    (s.afresh draws).reset.declareParts s.reset.proc.parts = r' at hdeclared ⊢
  obtain ⟨fault?, s₁⟩ := r
  obtain ⟨_, t₁⟩ := r'
  obtain ⟨hfault, halike⟩ := hdeclared
  cases hfault
  cases fault? with
  | some fault =>
      obtain ⟨l, n, d, b, rfl, hl, hb⟩ := anew_iff.1 halike
      exact ⟨rfl, .inr ⟨anew_iff.2 ⟨l, n + 1, d, b, rfl, hl, hb⟩, rfl⟩⟩
  | none =>
      have hsame : compile source t₁.proc.vars t₁.world.registry
          = compile source s₁.proc.vars s₁.world.registry := by
        obtain ⟨l, n, d, b, rfl, -⟩ := anew_iff.1 halike
        rfl
      simp only [hsame, true_and]
      exact .inl (install_anew halike _)

end Scene

-- ================================================================ faults

namespace Processor

/-- The processor has counted so many faults, and then those on record. -/
def Counts (past : Nat) (p : Processor) : Prop := p.faultCount = past + p.faults.length

theorem Counts.ofRecord (past : Nat) : OfRecord (Counts past) where
  same {p p'} h hsame := by
    unfold Counts
    rw [hsame.faultCount, hsame.faults]
    exact h
  fail {p} _ h fault := by
    show p.faultCount + 1 = past + (p.faults ++ [fault.atLine (some p.pc)]).length
    rw [h, List.length_append]
    rfl

end Processor

namespace Scene

variable {s s' : Scene} {source : String}

/-- Declaring a part touches variables and usages. -/
theorem declareParts_eq : ∀ (parts : List (String × Handle)) {s : Scene},
    ∃ vars arena, (s.declareParts parts).2
      = { proc := { s.proc with vars }, world := { s.world with arena } }
  | [], s => ⟨s.proc.vars, s.world.arena, rfl⟩
  | (name, part) :: parts, s => by
      unfold declareParts
      split
      next s₁ hpart =>
        unfold declarePart at hpart
        split at hpart
        next =>
          obtain ⟨⟨id, vars⟩, -, hstore⟩ := bind_eq_ok.1 hpart
          obtain ⟨var, -, -, -, rfl⟩ := store_eq_ok hstore
          exact declareParts_eq parts
        next => cases hpart
      next => exact ⟨s.proc.vars, s.world.arena, rfl⟩

/-- Loading counts on from all faults so far. -/
theorem load_counts {past : Nat} (h : s.proc.Counts past) :
    (s.load source).2.proc.Counts (past + s.proc.faults.length) := by
  have hparts : (s.reset.declareParts s.reset.proc.parts).2.proc.SameFaults s.reset.proc := by
    obtain ⟨vars, arena, hdeclared⟩ := declareParts_eq s.reset.proc.parts (s := s.reset)
    rw [hdeclared]
    exact ⟨rfl, rfl, rfl⟩
  unfold load
  simp only
  generalize s.reset.declareParts s.reset.proc.parts = r at hparts ⊢
  obtain ⟨fault?, s₁⟩ := r
  have hcount : s₁.proc.faultCount = past + s.proc.faults.length := hparts.faultCount.symm.trans h
  have hnone : s₁.proc.faults = [] := hparts.faults.symm
  cases fault? with
  | some fault =>
      show s₁.proc.faultCount + 1 = _ + (s₁.proc.faults ++ [fault.atLine _]).length
      rw [hcount, hnone]
      rfl
  | none =>
      show s₁.proc.faultCount + _ = _
      rw [hcount]
      rfl

/-- The life of a processor, with the faults recorded before the last
load. -/
inductive Life : List Fault → Scene → Prop where
  | made (config : Config) (world : World) : Life [] ⟨.ofConfig config, world⟩
  | load {past : List Fault} {s : Scene} (before : Life past s) (source : String) :
      Life (past ++ s.proc.faults) (s.load source).2
  | move {past : List Fault} {s s' : Scene} (before : Life past s) (move : Move s s') : Life past s'

theorem Life.counts {past : List Fault} (h : Life past s) : s.proc.Counts past.length := by
  induction h with
  | made => rfl
  | load _ source ih =>
      rw [List.length_append]
      exact load_counts ih
  | move _ move ih => exact (Processor.Counts.ofRecord _).move move ih

-- ================================================================ reload

/-- Reloading starts fresh.

Whatever has happened to a processor, loading a source gives the same result
as on a new processor with the same setup and parts in the same world, where
other numbers may be drawn. It leaves the same processor, with its script,
variables and memory, its place, wait and standing, the faults on record,
the buffers and the frames, but for when it was launched and how many faults
it has had. Without random draws and with methods that go by entities, any
number of frames gives the same events and leaves the same processor again,
and the same on the console and in the memories of entities.

The faults counted are those on record and all that were on record at
earlier loads. -/
theorem reload_fresh (s : Scene) (source : String) (draws : Draws) :
    ((s.afresh draws).load source).1 = (s.load source).1
      ∧ ((s.afresh draws).load source).2.proc.withoutPast = (s.load source).2.proc.withoutPast
      ∧ (s.world.registry.Steady → (s.load source).2.proc.script.Drawless →
          ∀ clocks n,
            (((s.afresh draws).load source).2.play clocks n).1
                = ((s.load source).2.play clocks n).1
              ∧ (((s.afresh draws).load source).2.play clocks n).2.proc.withoutPast
                = ((s.load source).2.play clocks n).2.proc.withoutPast
              ∧ (((s.afresh draws).load source).2.play clocks n).2.world.console
                = ((s.load source).2.play clocks n).2.world.console
              ∧ ∀ h, (((s.afresh draws).load source).2.play clocks n).2.world.arena.entity? h
                = ((s.load source).2.play clocks n).2.world.arena.entity? h)
      ∧ ∀ past, Life past s → s.proc.faultCount = (past ++ s.proc.faults).length := by
  obtain ⟨hloaded, hload⟩ := load_afresh s source draws
  refine ⟨hloaded, ?_, fun hsteady hdrawless clocks n => ?_, fun past hlife => ?_⟩
  · rcases hload with halike | ⟨halike, -⟩
    · exact (anew_observed halike).1
    · exact (anew_observed halike).1
  · rcases hload with halike | ⟨halike, hhalted⟩
    · have hregistry : (s.load source).2.world.registry.Steady := by
        rw [load_registry]
        exact hsteady
      obtain ⟨hevent, hrenewed⟩ :=
        renewed_bisimulation.play ⟨halike, hdrawless, hregistry⟩ clocks n
      exact ⟨hevent, anew_observed hrenewed.alike⟩
    · have hfinal : (s.load source).2.proc.status.isFinal := by
        rw [hhalted]
        rfl
      obtain ⟨hevent, halike', -⟩ := play_at_rest halike hfinal clocks n
      exact ⟨hevent, anew_observed halike'⟩
  · rw [List.length_append]
    exact hlife.counts

/-- Leaves something in the output and divides by zero. -/
def mess : String := "console push(7)\nvar int x 0\nset x 1 / x"

/-- Writes, after a wait. -/
def tidy : String := "console push(1)\ntime wait(2)\nconsole write()"

/-- A part. -/
def bench : Handle := ⟨0, 0, .part⟩

/-- A processor on the part. -/
def mounted : Scene :=
  ⟨(Processor.ofConfig .standard).mount bench, ((World.start (.start 0) ⟨0⟩).spawn 1).2⟩

/-- The same, after it has failed. -/
def littered : Scene := (mounted.load mess).2.tick.2

/-- The fault, the output and the usage of the part are from the script
before. After the reload the usage differs from what it is with a new
processor beside, but the runs are the same, and the fault is counted. -/
theorem reload_fresh_littered :
    littered.proc.status = .halted ∧ littered.proc.output = "7" ∧ littered.proc.faultCount = 1
      ∧ (littered.load tidy).2.world.arena.usings bench = 1
      ∧ ((littered.afresh ⟨5⟩).load tidy).2.world.arena.usings bench = 2
      ∧ ((littered.afresh ⟨5⟩).load tidy).1 = true
      ∧ ∀ n, (((littered.afresh ⟨5⟩).load tidy).2.play (fun _ => .start 0) n).1
            = ((littered.load tidy).2.play (fun _ => .start 0) n).1
          ∧ (((littered.afresh ⟨5⟩).load tidy).2.play (fun _ => .start 0) n).2.world.console
            = ((littered.load tidy).2.play (fun _ => .start 0) n).2.world.console := by
  have hrun : littered.proc.status = .halted ∧ littered.proc.output = "7"
      ∧ littered.proc.faults.length = 1 ∧ mounted.proc.faults = []
      ∧ (littered.load tidy).1 = true ∧ (littered.load tidy).2.proc.script.Drawless
      ∧ (littered.load tidy).2.world.arena.usings bench = 1
      ∧ ((littered.afresh ⟨5⟩).load tidy).2.world.arena.usings bench = 2 := by
    decide +kernel
  obtain ⟨hhalted, houtput, hfaults, hclean, hloaded, hdrawless, hold, hnew⟩ := hrun
  have hregistry : littered.world.registry.Steady := by
    obtain ⟨ids, hwrites⟩ := tick_writes (mounted.load mess).2
    unfold littered
    rw [hwrites.registry, load_registry]
    exact Registry.standard_steady
  have hmade : Life [] ⟨.ofConfig .standard, mounted.world⟩ := .made _ _
  have hmounted : Life [] mounted := hmade.move (.mount _ bench)
  have hlife : Life ([] ++ mounted.proc.faults) littered := (hmounted.load mess).move (.tick _)
  obtain ⟨hsame, -, hplay, hcount⟩ := reload_fresh littered tidy ⟨5⟩
  refine ⟨hhalted, houtput, ?_, hold, hnew, hsame.trans hloaded, fun n => ?_⟩
  · rw [hcount _ hlife, List.length_append, hclean, hfaults]
    rfl
  · obtain ⟨hevent, -, hconsole, -⟩ := hplay hregistry hdrawless (fun _ => .start 0) n
    exact ⟨hevent, hconsole⟩

end Scene

end TickScript
