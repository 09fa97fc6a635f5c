/-
Readonly variables are never overwritten.

The compiler alone sees to that: nothing at run time looks at whether a
variable is readonly. What the compiler promises is that no instruction
has such a variable for a destination and that the only instruction to
write to it comes from its own `var` line; a line that asks for anything
else is at fault. Shapes of variables do not change while a script runs,
nor does the script, so the promise lasts through every run: of all that
can happen to a processor (`Scene.Move`), a readonly variable is changed
by running the line that declares it, and by a sweep that finds its entity
gone.

Scripts get such variables in three ways: names in braces, labels, and the
parts that the processor knows.
-/
import Mathlib.Logic.Relation
import TickScript.Proofs.Processor.Frame
import TickScript.Proofs.Processor.Load
import TickScript.Proofs.Script.Entries

namespace TickScript

-- ================================================================ shapes

namespace Storage

variable {s s' : Storage} {id : VarId} {name : String}

theorem id?_eq_shapes (s : Storage) (name : String) :
    s.id? name = s.shapes.findIdx? (·.name == name) := by
  unfold id? shapes
  rw [List.findIdx?_map]
  rfl

/-- Whether a name is that of a readonly variable is a matter of shapes. -/
theorem Readonly.reshape (h : s'.shapes = s.shapes) (hs : s.Readonly name) : s'.Readonly name := by
  obtain ⟨id, v, hid, hget, hreadonly⟩ := hs
  have hshape : s'.shapes[id]? = some v.clear := by rw [h, getElem?_shapes, hget]; rfl
  rw [getElem?_shapes] at hshape
  obtain ⟨v', hget', hclear⟩ := Option.map_eq_some_iff.1 hshape
  refine ⟨id, v', ?_, hget', ?_⟩
  · rw [id?_eq_shapes, h, ← id?_eq_shapes]
    exact hid
  · have hsame : v'.clear.readonly = v.clear.readonly := by rw [hclear]
    exact hsame.trans hreadonly

/-- A shape is that of a variable with some value. -/
theorem get?_of_shape {v : Variable} (h : s.shapes[id]? = some v.clear) :
    ∃ value, s.get? id = some { v with value } := by
  rw [getElem?_shapes] at h
  obtain ⟨v', hget, hclear⟩ := Option.map_eq_some_iff.1 h
  refine ⟨v'.value, hget.trans (congrArg some ?_)⟩
  calc v' = { v'.clear with value := v'.value } := rfl
    _ = { v.clear with value := v'.value } := by rw [hclear]
    _ = { v with value := v'.value } := rfl

/-- A variable whose shape is kept has another value at most. -/
theorem get?_of_shapes {v : Variable} (h : s'.shapes = s.shapes) (hget : s.get? id = some v) :
    ∃ value, s'.get? id = some { v with value } := by
  refine get?_of_shape ?_
  rw [h, getElem?_shapes, hget]
  rfl

theorem shapes_sweep (s : Storage) (alive : Handle → Bool) :
    (s.sweep alive).2.shapes = s.shapes := by
  unfold sweep shapes
  rw [List.map_map]
  refine List.map_congr_left fun v _ => ?_
  simp only [Function.comp_apply]
  split <;> rfl

/-- A sweep empties variables whose entities are gone. -/
theorem get?_sweep (s : Storage) (alive : Handle → Bool) (id : VarId) :
    (s.sweep alive).2.get? id
      = (s.get? id).map fun v => if Memory.isDead alive v.value then v.clear else v :=
  List.getElem?_map

end Storage

namespace Scene

variable {s s' s'' s₁ s₂ s₃ : Scene} {id : VarId} {var : Variable} {source name : String}

-- =============================================================== loading

/-- Parts are declared readonly. -/
theorem declarePart_readonly {part : Handle} (h : s.declarePart name part = .ok s') :
    s'.proc.vars.Readonly name
      ∧ ∀ other, s.proc.vars.Readonly other → s'.proc.vars.Readonly other := by
  unfold declarePart at h
  split at h
  next =>
    obtain ⟨⟨id, vars⟩, hadd, hstore⟩ := bind_eq_ok.1 h
    have hwrites : Writes [id] { s with proc := { s.proc with vars } } s' :=
      store_writes hstore List.mem_cons_self
    have hshapes : s'.proc.vars.shapes = vars.shapes := hwrites.shapes
    refine ⟨.reshape hshapes ?_, fun other hother => .reshape hshapes ?_⟩
    · exact ⟨id, _, Storage.id?_add hadd, Storage.get?_add hadd, rfl⟩
    · exact hother.extend (Storage.extends_add hadd)
  next => cases h

theorem declareParts_readonly : ∀ {parts : List (String × Handle)} {s : Scene},
    s.declareParts parts = (none, s') →
    (∀ p ∈ parts, s'.proc.vars.Readonly p.1)
      ∧ ∀ other, s.proc.vars.Readonly other → s'.proc.vars.Readonly other
  | [], s, h => by
      cases h
      exact ⟨fun p hp => (by cases hp), fun _ hother => hother⟩
  | (name, part) :: parts, s, h => by
      unfold declareParts at h
      split at h
      next s₁ hpart =>
        obtain ⟨hname, hkept⟩ := declarePart_readonly hpart
        obtain ⟨hparts, hkept'⟩ := declareParts_readonly h
        refine ⟨fun p hp => ?_, fun other hother => hkept' other (hkept other hother)⟩
        rcases List.mem_cons.1 hp with rfl | hp
        · exact hkept' _ hname
        · exact hparts p hp
      next => cases h

/-- What is loaded without a fault is the compiled source. -/
theorem load_eq_true (h : s.load source = (true, s')) :
    ∃ s₁, s.reset.declareParts s.proc.parts = (none, s₁)
      ∧ (compile source s₁.proc.vars s₁.world.registry).faults = []
      ∧ s' = s₁.install (compile source s₁.proc.vars s₁.world.registry) := by
  unfold load at h
  simp only at h
  split at h
  next => cases h
  next s₁ hparts =>
    have hfaults := congrArg Prod.fst h
    exact ⟨s₁, hparts, List.isEmpty_iff.1 hfaults, (congrArg Prod.snd h).symm⟩

-- ================================================================= moves

/-- What can happen to a processor that has a script. The host may do
anything to the world. -/
inductive Move : Scene → Scene → Prop where
  | tick (s : Scene) : Move s s.tick.2
  /-- A tick begins. -/
  | age (s : Scene) : Move s s.aged
  /-- One line of a tick. -/
  | line {s : Scene} (running : s.proc.status = .running) : Move s s.step
  | sweep (s : Scene) : Move s s.swept
  | interrupt (s : Scene) : Move s { s with proc := s.proc.interrupt }
  | feed (s : Scene) (text : String) : Move s { s with proc := s.proc.feed text }
  | mount (s : Scene) (part : Handle) : Move s { s with proc := s.proc.mount part }
  | connect {s : Scene} {name : String} {part : Handle} {proc : Processor}
      (made : s.proc.connect name part = .ok proc) : Move s { s with proc }
  | host (s : Scene) (world : World) : Move s { s with world }

/-- Things that happen one after the other. -/
abbrev Moves : Scene → Scene → Prop := Relation.ReflTransGen Move

/-- The scenes from which a line is run in a move. -/
inductive Runs : Scene → Scene → Scene → Prop where
  | tick {s m : Scene} (during : During s m) : Runs s s.tick.2 m
  | line {s : Scene} (running : s.proc.status = .running) : Runs s s.step s

/-- Making a part known changes nothing else. -/
theorem connect_eq_ok {p p' : Processor} {part : Handle} (h : p.connect name part = .ok p') :
    ∃ links, p' = { p with links } := by
  obtain ⟨checked, -, h⟩ := bind_eq_ok.1 h
  split at h
  next => cases h
  next =>
    cases h
    exact ⟨_, rfl⟩

/-- Nothing changes scripts and the shapes of variables. -/
theorem Move.same (h : Move s s') :
    s'.proc.script = s.proc.script ∧ s'.proc.vars.shapes = s.proc.vars.shapes := by
  cases h with
  | tick =>
      obtain ⟨ids, hwrites⟩ := tick_writes s
      exact ⟨hwrites.script, hwrites.shapes⟩
  | line => exact ⟨(step_writes s).script, (step_writes s).shapes⟩
  | sweep => exact ⟨rfl, Storage.shapes_sweep _ _⟩
  | connect made =>
      obtain ⟨links, rfl⟩ := connect_eq_ok made
      exact ⟨rfl, rfl⟩
  | age | interrupt | feed | mount | host => exact ⟨rfl, rfl⟩

theorem Moves.same (h : Moves s s') :
    s'.proc.script = s.proc.script ∧ s'.proc.vars.shapes = s.proc.vars.shapes := by
  induction h with
  | refl => exact ⟨rfl, rfl⟩
  | tail _ move ih =>
      obtain ⟨hscript, hshapes⟩ := move.same
      exact ⟨hscript.trans ih.1, hshapes.trans ih.2⟩

theorem Lines.script {n : Nat} (h : Lines s n s') : s'.proc.script = s.proc.script := by
  obtain ⟨ids, hwrites⟩ := h.writes
  exact hwrites.script

/-- A variable keeps its value unless a line writes to it or its entity is
found gone. -/
theorem Move.value_cases (h : Move s s') (hget : s.proc.vars.get? id = some var) :
    s'.proc.vars.get? id = some var
      ∨ (∃ m, Runs s s' m ∧ m.proc.script = s.proc.script ∧ id ∈ m.written)
      ∨ (s' = s.swept ∧ s'.proc.vars.get? id = some var.clear
          ∧ Memory.isDead s.world.arena.isAlive var.value) := by
  cases h with
  | tick =>
      by_cases hsame : s.tick.2.proc.vars.get? id = s.proc.vars.get? id
      · exact .inl (hsame.trans hget)
      · obtain ⟨m, hduring, hid⟩ := tick_written_of_ne hsame
        obtain ⟨k, j, hlines, -⟩ := hduring.2.2
        exact .inr (.inl ⟨m, .tick hduring, hlines.script, hid⟩)
  | line running =>
      by_cases hid : id ∈ s.written
      · exact .inr (.inl ⟨s, .line running, rfl, hid⟩)
      · exact .inl (((step_writes s).others id hid).trans hget)
  | sweep =>
      have hswept : s.swept.proc.vars.get? id = _ :=
        Storage.get?_sweep s.proc.vars s.world.arena.isAlive id
      rw [hget, Option.map_some] at hswept
      split at hswept
      next hdead => exact .inr (.inr ⟨rfl, hswept, hdead⟩)
      next => exact .inl hswept
  | connect made =>
      obtain ⟨links, rfl⟩ := connect_eq_ok made
      exact .inl hget
  | age | interrupt | feed | mount | host => exact .inl hget

-- =============================================================== readonly

/-- Something dead is a handle to an entity that is gone. -/
theorem dead_handle {alive : Handle → Bool} {value : Option Value}
    (h : Memory.isDead alive value) : ∃ g, value = some (.entity g) ∧ alive g = false := by
  unfold Memory.isDead at h
  split at h
  next g => exact ⟨g, rfl, by simpa using h⟩
  next => cases h

/-- The line that a readonly variable is written to by is the one that
declares it, and then it is no label. -/
theorem declares_of_written {m : Scene} {vars : Storage} {registry : Registry}
    (hscript : m.proc.script = (compile source vars registry).script) (hid : id ∈ m.written)
    (hget : (compile source vars registry).vars.get? id = some var) (hreadonly : var.readonly) :
    (∃ l, (Line.ofSource source)[m.proc.pc]? = some l ∧ l.declared? = some ⟨var.name, true⟩)
      ∧ var.kind ≠ .label := by
  unfold written at hid
  rw [hscript] at hid
  split at hid
  next i hi =>
    cases i with
    | declare dest o =>
        cases List.mem_singleton.1 hid
        exact compile_declares hi hget hreadonly
    | _ =>
        rw [compile_destination hi hid hget] at hreadonly
        cases hreadonly
  next => cases hid

/-- In whatever happens to a loaded script, a readonly variable keeps its
value, or its own line is run, or its entity is found gone. -/
theorem Move.readonly_cases (hload : s.load source = (true, s₁)) (hmoves : Moves s₁ s₂)
    (hmove : Move s₂ s₃) (hget : s₂.proc.vars.get? id = some var) (hreadonly : var.readonly) :
    ∃ value, s₃.proc.vars.get? id = some { var with value }
      ∧ (value = var.value
        ∨ (∃ m l, Runs s₂ s₃ m ∧ (Line.ofSource source)[m.proc.pc]? = some l
            ∧ l.declared? = some ⟨var.name, true⟩)
        ∨ (s₃ = s₂.swept ∧ value = none
            ∧ ∃ h, var.value = some (.entity h) ∧ s₂.world.arena.isAlive h = false)) := by
  obtain ⟨s', -, -, rfl⟩ := load_eq_true hload
  obtain ⟨hscript, hshapes⟩ := hmoves.same
  rcases hmove.value_cases hget with hsame | ⟨m, hruns, hscript', hid⟩ | ⟨rfl, hclear, hdead⟩
  · exact ⟨var.value, hsame, .inl rfl⟩
  · -- the variable is still the one that was compiled, up to its value
    obtain ⟨before, hbefore⟩ := Storage.get?_of_shapes hshapes.symm hget
    obtain ⟨⟨l, hl, hname⟩, -⟩ :=
      declares_of_written (hscript'.trans hscript) hid hbefore hreadonly
    obtain ⟨value, hvalue⟩ := Storage.get?_of_shapes hmove.same.2 hget
    exact ⟨value, hvalue, .inr (.inl ⟨m, l, hruns, hl, hname⟩)⟩
  · exact ⟨none, hclear, .inr (.inr ⟨rfl, rfl, dead_handle hdead⟩)⟩

/-- Readonly variables are never overwritten.

When a source has loaded, the parts of the processor, the labels and the
names in braces are readonly variables, and whatever happens then, a
readonly variable keeps its value unless the line that declares it is run
or a sweep finds its entity gone. In no script, loaded or not, is a
readonly variable the destination of an instruction, and every line that
names one for its result has no entry in the script and a fault. -/
theorem readonly_kept (source : String) :
    (∀ s s₁ : Scene, s.load source = (true, s₁) →
      (∀ name, name ∈ s.proc.parts.map Prod.fst
            ∨ (∃ l ∈ Line.ofSource source, l.readonly? = some name) →
          s₁.proc.vars.Readonly name)
      ∧ ∀ s₂ s₃ : Scene, Moves s₁ s₂ → Move s₂ s₃ → ∀ (id : VarId) (var : Variable),
          s₂.proc.vars.get? id = some var → var.readonly →
          ∃ value, s₃.proc.vars.get? id = some { var with value }
            ∧ (value = var.value
              ∨ (∃ m l, Runs s₂ s₃ m ∧ (Line.ofSource source)[m.proc.pc]? = some l
                  ∧ l.declared? = some ⟨var.name, true⟩)
              ∨ (s₃ = s₂.swept ∧ value = none
                  ∧ ∃ h, var.value = some (.entity h) ∧ s₂.world.arena.isAlive h = false)))
    ∧ ∀ (vars : Storage) (registry : Registry),
        (∀ i, some i ∈ (compile source vars registry).script.toList →
          ∀ id ∈ i.destinations, ∀ var,
            (compile source vars registry).vars.get? id = some var → var.readonly = false)
        ∧ ∀ n l name, (Line.ofSource source)[n]? = some l → l.destination? = some name →
            (compile source vars registry).vars.Readonly name →
            (compile source vars registry).script[n]? = some none
              ∧ ∃ fault ∈ (compile source vars registry).faults, fault.line = some n := by
  refine ⟨fun s s₁ hload => ⟨fun name hname => ?_, fun _ _ hmoves hmove _ _ =>
    hmove.readonly_cases hload hmoves⟩,
    fun vars registry => ⟨fun i hi id hid var hget => ?_, fun n l name => compile_refuses⟩⟩
  · obtain ⟨s', hparts, hfaults, rfl⟩ := load_eq_true hload
    show (compile source s'.proc.vars s'.world.registry).vars.Readonly name
    rcases hname with hname | ⟨l, hl, hname⟩
    · obtain ⟨p, hp, rfl⟩ := List.mem_map.1 hname
      exact ((declareParts_readonly hparts).1 p hp).extend (compile_adds source _ _).extends
    · exact compile_readonly hfaults hl hname
  · obtain ⟨n, hn⟩ := List.mem_iff_getElem?.1 hi
    exact compile_destination ((Array.getElem?_toList ..).symm.trans hn) hid hget

/-- Declares a readonly variable and reads it. -/
def steady : String := "var int \x7bk\x7d 3\nlabel top\nvar int x k"

/-- Declares a readonly variable and assigns it. -/
def meddling : String := "var int \x7bk\x7d 3\nset k 4"

/-- The text of what a variable holds. -/
def heldText (s : Scene) (id : VarId) : Option String :=
  (s.proc.vars.get? id).bind fun var => var.value.map Value.display

/-- The first tick of the steady source gives its readonly variable a
value, by running its line; the other source is refused on its second
line. -/
theorem readonly_kept_steady :
    (bare.load steady).1 = true
      ∧ (∃ m l, Runs (bare.load steady).2 (bare.load steady).2.tick.2 m
          ∧ (Line.ofSource steady)[m.proc.pc]? = some l ∧ l.declared? = some ⟨"k", true⟩)
      ∧ ∃ fault ∈ (compile meddling (.empty 4) .standard).faults, fault.line = some 1 := by
  have hrun : (bare.load steady).1 = true ∧ (bare.load steady).2.proc.vars.names[1]? = some "k"
      ∧ (bare.load steady).2.proc.vars.id? "k" = some 1
      ∧ (bare.load steady).2.heldText 1 = some "0"
      ∧ (bare.load steady).2.tick.2.heldText 1 = some "3" := by
    decide +kernel
  obtain ⟨hloaded, hname, hfound, hbefore, hafter⟩ := hrun
  have hload : bare.load steady = (true, (bare.load steady).2) := Prod.ext hloaded rfl
  refine ⟨hloaded, ?_, ?_⟩
  · generalize (bare.load steady).2 = s₁ at hname hfound hbefore hafter hload ⊢
    obtain ⟨hdeclared, hkept⟩ := (readonly_kept steady).1 bare s₁ hload
    have hline : Line.readonly? ⟨"var int \x7bk\x7d 3"⟩ = some "k" := by decide +kernel
    obtain ⟨id, var, hid, hget, hreadonly⟩ := hdeclared "k" (.inr ⟨_, by decide +kernel, hline⟩)
    obtain rfl : 1 = id := Option.some.inj (hfound.symm.trans hid)
    have hk : some var.name = some "k" := by
      rw [← hname, Storage.names, List.getElem?_map]
      exact (congrArg (Option.map Variable.name) hget).symm
    obtain ⟨value, hvalue, hcases⟩ := hkept s₁ s₁.tick.2 .refl (.tick s₁) 1 var hget hreadonly
    rw [heldText, hget] at hbefore
    rw [heldText, hvalue] at hafter
    rcases hcases with rfl | ⟨m, l, hruns, hl, hdeclared⟩ | ⟨-, rfl, -⟩
    · exact absurd (hafter.symm.trans hbefore) (by decide)
    · rw [Option.some.inj hk] at hdeclared
      exact ⟨m, l, hruns, hl, hdeclared⟩
    · cases hafter
  · have hread : (compile meddling (.empty 4) .standard).vars.id? "k" = some 0
        ∧ ((compile meddling (.empty 4) .standard).vars.get? 0).any Variable.readonly
        ∧ (Line.ofSource meddling)[1]? = some ⟨"set k 4"⟩
        ∧ Line.destination? ⟨"set k 4"⟩ = some "k" := by
      decide +kernel
    obtain ⟨hid, hreadonly, hl, hname⟩ := hread
    obtain ⟨var, hget, hreadonly⟩ := (Option.any_eq_true _ _).1 hreadonly
    obtain ⟨-, hrefused⟩ := (readonly_kept meddling).2 (.empty 4) .standard
    exact (hrefused 1 _ "k" hl hname ⟨0, var, hid, hget, hreadonly⟩).2

end Scene

end TickScript
