/-
The entries of a script.

Every line has its entry in the script (`Compiler.Entry`): what it was
compiled to among the variables declared so far, or the fault on that line.
What a line is compiled to starts with its keyword (`Compiler.line_keyword`).
Variables are only added, so what was found out about them when a line was
compiled still holds of those declared in the end. That makes what lines do
to readonly variables a matter of the source: none has one for a
destination, a `var` line that declares one declares its name, and a line
that names one for its result is at fault.
-/
import TickScript.Proofs.Script.Destinations
import TickScript.Proofs.Script.Passes

namespace TickScript

/-- The word that the line of an instruction starts with. -/
def Instruction.keyword : Instruction → String
  | declare .. => "var"
  | assign .. => "set"
  | jump .. => "jump"
  | label => "label"
  | stop => "stop"
  | time _ => "time"
  | console _ => "console"
  | memory .. => "memory"
  | create | call .. => "comp"

namespace Compiler

variable {l : Line}

-- ============================================================== keywords

section

variable {vars vars' : Storage} {registry : Registry} {c : Call} {i : Instruction}

theorem assign_keyword (h : assign vars l = .ok i) : i.keyword = "set" := by
  unfold assign at h
  split at h
  next =>
    obtain ⟨id, -, h⟩ := bind_eq_ok.1 h
    obtain ⟨v, -, h⟩ := bind_eq_ok.1 h
    split at h
    next =>
      obtain ⟨o, -, h⟩ := bind_eq_ok.1 h
      cases h
      rfl
    next => cases h
  next => cases h

/-- A jump goes where the label is bound that it names. -/
theorem jump_eq_jump (h : jump vars l = .ok i) :
    ∃ first name condition target o v, l.split 3 = [first, name, condition] ∧ i = .jump target o
      ∧ vars.find name = .ok v ∧ v.kind = .label ∧ v.value = some (.line target) := by
  unfold jump at h
  split at h
  next first name condition hsplit =>
    obtain ⟨v, hv, h⟩ := bind_eq_ok.1 h
    split at h
    next target hkind hvalue =>
      obtain ⟨o, -, h⟩ := bind_eq_ok.1 h
      cases h
      exact ⟨first, name, condition, target, o, v, hsplit, rfl, hv, hkind, hvalue⟩
    next => cases h
  next => cases h

theorem memory_keyword (h : memory vars c = .ok i) : i.keyword = "memory" := by
  unfold memory at h
  split at h
  next =>
    obtain ⟨op, -, rfl⟩ := map_eq_ok.1 h
    rfl
  next =>
    obtain ⟨id, -, h⟩ := bind_eq_ok.1 h
    obtain ⟨op, -, rfl⟩ := map_eq_ok.1 h
    rfl
  next => cases h

theorem create_eq_create (h : (create registry c).run vars = .ok i vars') : i = .create := by
  obtain ⟨⟨first, second⟩, -, h⟩ := InPlace.check_bind_eq_ok.1 h
  obtain ⟨-, -, h⟩ := InPlace.check_bind_eq_ok.1 h
  obtain ⟨name, -, h⟩ := InPlace.look_bind_eq_ok.1 h
  obtain ⟨typeName, -, h⟩ := InPlace.look_bind_eq_ok.1 h
  split at h
  next =>
    obtain ⟨name', -, h⟩ := InPlace.check_bind_eq_ok.1 h
    split at h
    next => cases h
    next =>
      split at h
      next => cases h
      next =>
        obtain ⟨id, vars₁, -, h⟩ := InPlace.bind_eq_ok.1 h
        cases h
        rfl
  next => cases h

theorem methodCall_keyword {target method : String}
    (h : methodCall registry vars c target method = .ok i) : i.keyword = "comp" := by
  obtain ⟨id, -, h⟩ := bind_eq_ok.1 h
  obtain ⟨v, -, h⟩ := bind_eq_ok.1 h
  obtain ⟨typeName, -, h⟩ := bind_eq_ok.1 h
  split at h
  next => cases h
  next =>
    simp only at h
    split at h
    next =>
      obtain ⟨args, -, h⟩ := bind_eq_ok.1 h
      obtain ⟨ret, -, h⟩ := bind_eq_ok.1 h
      cases h
      rfl
    next => cases h

/-- A line is compiled to an instruction of its keyword. -/
theorem line_keyword (h : (line registry l).run vars = .ok i vars') : l.keyword = i.keyword := by
  by_cases hvar : l.keyword = "var"
  · obtain ⟨name, word, o, -, rfl, -⟩ := line_declares hvar h
    exact hvar
  · unfold line at h
    split at h
    next hkeyword => exact absurd hkeyword hvar
    next hkeyword => rw [hkeyword, assign_keyword (InPlace.look_eq_ok.1 h).1]
    next hkeyword =>
      obtain ⟨-, -, -, -, -, -, -, rfl, -⟩ := jump_eq_jump (InPlace.look_eq_ok.1 h).1
      exact hkeyword
    next hkeyword =>
      split at h
      next =>
        cases h
        exact hkeyword
      next => cases h
    next hkeyword =>
      obtain ⟨c, -, h⟩ := InPlace.check_bind_eq_ok.1 h
      obtain ⟨op, -, rfl⟩ := map_eq_ok.1 (InPlace.look_eq_ok.1 h).1
      exact hkeyword
    next hkeyword =>
      obtain ⟨c, -, h⟩ := InPlace.check_bind_eq_ok.1 h
      obtain ⟨op, -, rfl⟩ := map_eq_ok.1 (InPlace.look_eq_ok.1 h).1
      exact hkeyword
    next hkeyword =>
      obtain ⟨c, -, h⟩ := InPlace.check_bind_eq_ok.1 h
      rw [hkeyword, memory_keyword (InPlace.look_eq_ok.1 h).1]
    next hkeyword =>
      obtain ⟨c, -, h⟩ := InPlace.check_bind_eq_ok.1 h
      unfold component at h
      split at h
      next =>
        cases create_eq_create h
        exact hkeyword
      next =>
        split at h
        next => rw [hkeyword, methodCall_keyword (InPlace.look_eq_ok.1 h).1]
        next => cases h
    next => cases h

end

-- ============================================================ first pass

/-- The first pass adds labels at most. -/
theorem labels_adds : ∀ (ls : List Line) (index : Nat) (vars : Storage),
    vars.Adds (labels index ls vars).2
  | [], _, vars => .refl vars
  | l :: ls, index, vars => by
      obtain ⟨first, vars', hbinding, hlabels⟩ := labels_cons index l ls vars
      rw [hlabels]
      refine .trans ?_ (labels_adds ls (index + 1) vars')
      cases hbinding with
      | passed | refused => exact .refl vars
      | bound _ bound =>
          obtain ⟨name, -, hadd⟩ := bindLabel_eq_ok bound
          exact Storage.adds_add hadd (.label name _)

/-- A label that is not at fault is a variable, bound to the first line
after it that is no label. -/
theorem labels_bound : ∀ {ls : List Line} {index n : Nat} {vars : Storage},
    ls[n]? = some l → l.isLabel → (labels index ls vars).1[n]? = some none →
    ∃ name id, labelName l = .ok name ∧ (labels index ls vars).2.id? name = some id
      ∧ (labels index ls vars).2.get? id = some (.label name
          (index + n + 1 + ((ls.drop (n + 1)).takeWhile Line.isLabel).length))
  | [], _, _, _, hl, _, _ => by cases hl
  | l' :: ls, index, n, vars, hl, hlabel, hfine => by
      obtain ⟨first, vars', hbinding, hlabels⟩ := labels_cons index l' ls vars
      rw [hlabels] at hfine ⊢
      cases n with
      | zero =>
          cases hl
          cases hfine
          cases hbinding with
          | passed noLabel => simp [hlabel] at noLabel
          | bound _ bound =>
              obtain ⟨name, hname, hadd⟩ := bindLabel_eq_ok bound
              have hextends := (labels_adds ls (index + 1) vars').extends
              exact ⟨name, _, hname, Storage.id?_extend hextends (Storage.id?_add hadd),
                Storage.get?_extend hextends (Storage.get?_add hadd)⟩
      | succ n =>
          have hindex : index + (n + 1) = index + 1 + n := by omega
          rw [hindex]
          exact labels_bound hl hlabel hfine

/-- A label that is not at fault is a readonly variable. -/
theorem labels_readonly {ls : List Line} {index n : Nat} {vars : Storage} (hl : ls[n]? = some l)
    (hlabel : l.isLabel) (hfine : (labels index ls vars).1[n]? = some none) :
    ∃ name, labelName l = .ok name ∧ (labels index ls vars).2.Readonly name := by
  obtain ⟨name, id, hname, hid, hget⟩ := labels_bound hl hlabel hfine
  exact ⟨name, hname, id, _, hid, hget, rfl⟩

-- =========================================================== second pass

theorem Making.adds {registry : Registry} {vars vars' : Storage} {index : Nat}
    {labelFault : Option Fault} {entry : Except Fault Instruction}
    (h : Making registry vars index l labelFault entry vars') : vars.Adds vars' := by
  cases h with
  | compiled _ made => exact line_adds made
  | label | mislabel | refused => exact .refl vars

/-- The second pass adds variables at most. -/
theorem instructions_adds (registry : Registry) :
    ∀ (ls : List (Line × Option Fault)) (index : Nat) (vars : Storage),
    vars.Adds (instructions registry index ls vars).2
  | [], _, vars => .refl vars
  | (l, labelFault) :: ls, index, vars => by
      obtain ⟨first, vars', hmaking, hall⟩ := instructions_cons registry index l labelFault ls vars
      rw [hall]
      exact hmaking.adds.trans (instructions_adds registry ls (index + 1) vars')

/-- What a line, with what the first pass found wrong with it, gives for
its entry, given the variables that are declared in the end. -/
inductive Entry (registry : Registry) (vars : Storage) (index : Nat) (l : Line) :
    Option Fault → Except Fault Instruction → Prop where
  | label (isLabel : l.isLabel) : Entry registry vars index l none (.ok .label)
  | mislabel {fault : Fault} (isLabel : l.isLabel) :
      Entry registry vars index l (some fault) (.error fault)
  | compiled {labelFault : Option Fault} {sofar now : Storage} {i : Instruction}
      (noLabel : l.isLabel = false) (made : (line registry l).run sofar = .ok i now)
      (later : now.vars <+: vars.vars) : Entry registry vars index l labelFault (.ok i)
  | refused {labelFault : Option Fault} {sofar : Storage} {fault : Fault}
      (noLabel : l.isLabel = false) (refused : (line registry l).run sofar = .error fault sofar) :
      Entry registry vars index l labelFault (.error (fault.atLine (some index)))

theorem Making.entry {registry : Registry} {vars sofar now : Storage} {index : Nat}
    {labelFault : Option Fault} {entry : Except Fault Instruction}
    (h : Making registry sofar index l labelFault entry now) (later : now.vars <+: vars.vars) :
    Entry registry vars index l labelFault entry := by
  cases h with
  | label isLabel => exact .label isLabel
  | mislabel isLabel => exact .mislabel isLabel
  | compiled noLabel made => exact .compiled noLabel made later
  | refused noLabel refused => exact .refused noLabel refused

/-- Every line has its entry. -/
theorem instructions_entry {registry : Registry} {labelFault : Option Fault}
    {entry : Except Fault Instruction} :
    ∀ {ls : List (Line × Option Fault)} {index n : Nat} {vars : Storage},
    ls[n]? = some (l, labelFault) → (instructions registry index ls vars).1[n]? = some entry →
    Entry registry (instructions registry index ls vars).2 (index + n) l labelFault entry
  | [], _, _, _, hl, _ => by cases hl
  | (l', labelFault') :: ls, index, n, vars, hl, hentry => by
      obtain ⟨first, vars', hmaking, hall⟩ :=
        instructions_cons registry index l' labelFault' ls vars
      rw [hall] at hentry ⊢
      cases n with
      | zero =>
          cases hl
          cases hentry
          exact hmaking.entry (instructions_adds registry ls (index + 1) vars').extends
      | succ n =>
          have hindex : index + (n + 1) = index + 1 + n := by omega
          rw [hindex]
          exact instructions_entry hl hentry

/-- Every entry of a source is that of its line. -/
theorem entries_entry {source : String} {vars : Storage} {registry : Registry} {n : Nat}
    {entry : Except Fault Instruction} (h : (entries source vars registry)[n]? = some entry) :
    ∃ l labelFault, (Line.ofSource source)[n]? = some l
      ∧ (labels 0 (Line.ofSource source) vars).1[n]? = some labelFault
      ∧ Entry registry (compile source vars registry).vars n l labelFault entry := by
  have hlt := (List.getElem?_eq_some_iff.1 h).1
  rw [entries, length_instructions] at hlt
  have hboth := List.getElem?_eq_getElem hlt
  obtain ⟨hl, hlabelFault⟩ := labelled_getElem?_eq_some.1 hboth
  have hentry := instructions_entry hboth h
  rw [Nat.zero_add] at hentry
  rw [compile_vars]
  exact ⟨_, _, hl, hlabelFault, hentry⟩

end Compiler

-- =============================================================== sources

section

open Compiler

variable {source name : String} {vars : Storage} {registry : Registry} {n : Nat} {l : Line}
  {id : VarId} {var : Variable}

theorem Instruction.mem_written {i : Instruction} (h : id ∈ i.destinations) : id ∈ i.written := by
  cases i with
  | declare => cases h
  | _ => exact h

theorem compile_script_getElem? : (compile source vars registry).script[n]?
    = (entries source vars registry)[n]?.map Except.toOption := by
  rw [compile_eq, List.getElem?_toArray, List.getElem?_map]

/-- Every line of a source has its entry in the script, and its fault is
reported. -/
theorem compile_entry (vars : Storage) (registry : Registry)
    (hl : (Line.ofSource source)[n]? = some l) :
    ∃ entry labelFault, (labels 0 (Line.ofSource source) vars).1[n]? = some labelFault
      ∧ Entry registry (compile source vars registry).vars n l labelFault entry
      ∧ (compile source vars registry).script[n]? = some entry.toOption
      ∧ ∀ fault, entry = .error fault → fault ∈ (compile source vars registry).faults := by
  have hlt : n < (entries source vars registry).length := by
    rw [length_entries]
    exact (List.getElem?_eq_some_iff.1 hl).1
  have hentry := List.getElem?_eq_getElem hlt
  obtain ⟨l', labelFault, hl', hlabelFault, hmade⟩ := entries_entry hentry
  rw [hl] at hl'
  cases hl'
  refine ⟨_, labelFault, hlabelFault, hmade, ?_, fun fault hfault => ?_⟩
  · rw [compile_script_getElem?, hentry]
    rfl
  · rw [compile_eq]
    refine List.mem_filterMap.2 ⟨_, List.getElem_mem hlt, ?_⟩
    rw [hfault]
    rfl

/-- Compiling a source adds variables at most. -/
theorem compile_adds (source : String) (vars : Storage) (registry : Registry) :
    vars.Adds (compile source vars registry).vars := by
  rw [compile_vars]
  exact (labels_adds (Line.ofSource source) 0 vars).trans (instructions_adds registry _ 0 _)

/-- An instruction of the script is a label, or was made from its line. -/
theorem compile_made {i : Instruction}
    (hi : (compile source vars registry).script[n]? = some (some i)) :
    i = .label ∨ ∃ (l : Line) (sofar now : Storage), (Line.ofSource source)[n]? = some l
      ∧ (line registry l).run sofar = .ok i now
      ∧ sofar.vars <+: now.vars ∧ now.vars <+: (compile source vars registry).vars.vars := by
  have hlt : n < (Line.ofSource source).length := by
    rw [← compile_size source vars registry]
    exact (Array.getElem?_eq_some_iff.1 hi).1
  have hl := List.getElem?_eq_getElem hlt
  obtain ⟨entry, labelFault, -, hentry, hscript, -⟩ := compile_entry vars registry hl
  rw [hi] at hscript
  cases hentry with
  | label isLabel =>
      cases hscript
      exact .inl rfl
  | mislabel isLabel => cases hscript
  | compiled noLabel made later =>
      cases hscript
      exact .inr ⟨_, _, _, hl, made, (line_adds made).extends, later⟩
  | refused noLabel refused => cases hscript

/-- No instruction of a script has a readonly variable for a destination. -/
theorem compile_destination {i : Instruction}
    (hi : (compile source vars registry).script[n]? = some (some i)) (hid : id ∈ i.destinations)
    (hget : (compile source vars registry).vars.get? id = some var) : var.readonly = false := by
  rcases compile_made hi with rfl | ⟨l, sofar, now, -, hline, hnow, hlater⟩
  · cases hid
  · by_cases hvar : l.keyword = "var"
    · obtain ⟨name, word, o, -, rfl, -⟩ := line_declares hvar hline
      cases hid
    · obtain ⟨v, hv, hassignable⟩ := (line_respects hvar hline).written id (i.mem_written hid)
      rw [Storage.get?_extend (hnow.trans hlater) hv] at hget
      cases hget
      exact hassignable

theorem Kind.ofWord_ne_label (word : String) : Kind.ofWord word ≠ .label := by
  unfold Kind.ofWord
  split <;> simp

/-- An instruction that declares a readonly variable was made from the
line that declares its name, and the variable is no label. -/
theorem compile_declares {o : Operand}
    (hi : (compile source vars registry).script[n]? = some (some (.declare id o)))
    (hget : (compile source vars registry).vars.get? id = some var) (hreadonly : var.readonly) :
    (∃ l, (Line.ofSource source)[n]? = some l ∧ l.declared? = some ⟨var.name, true⟩)
      ∧ var.kind ≠ .label := by
  rcases compile_made hi with heq | ⟨l, sofar, now, hl, hline, hnow, hlater⟩
  · cases heq
  · by_cases hvar : l.keyword = "var"
    · obtain ⟨name, word, o', hname, heq, hadd⟩ := line_declares hvar hline
      cases heq
      rw [Storage.get?_extend hlater (Storage.get?_add hadd)] at hget
      cases hget
      refine ⟨⟨l, hl, ?_⟩, Kind.ofWord_ne_label word⟩
      rw [hname, ← hreadonly]
      rfl
    · obtain ⟨v, hv, hassignable⟩ := (line_respects hvar hline).written id List.mem_cons_self
      rw [Storage.get?_extend (hnow.trans hlater) hv] at hget
      cases hget
      rw [hassignable] at hreadonly
      cases hreadonly

/-- A line that names a readonly variable for its result is at fault. -/
theorem compile_refuses (hl : (Line.ofSource source)[n]? = some l)
    (hname : l.destination? = some name)
    (hreadonly : (compile source vars registry).vars.Readonly name) :
    (compile source vars registry).script[n]? = some none
      ∧ ∃ fault ∈ (compile source vars registry).faults, fault.line = some n := by
  have hlabel : l.isLabel = true → False := by
    intro hlabel
    have hkeyword : l.keyword = "label" := by
      simp only [Line.isLabel, Bool.and_eq_true, beq_iff_eq] at hlabel
      exact hlabel.2
    simp [Line.destination?, hkeyword] at hname
  obtain ⟨entry, labelFault, -, hentry, hscript, hfaults⟩ := compile_entry vars registry hl
  cases hentry with
  | label isLabel => exact (hlabel isLabel).elim
  | mislabel isLabel => exact (hlabel isLabel).elim
  | compiled noLabel made later =>
      have hvar : l.keyword ≠ "var" := fun hvar => by simp [Line.destination?, hvar] at hname
      have hextends := (line_adds made).extends.trans later
      obtain ⟨id, hid, v, hv, hassignable⟩ := (line_respects hvar made).named name hname
      obtain ⟨id', v', hid', hv', hreadonly⟩ := hreadonly
      rw [Storage.id?_extend hextends hid] at hid'
      cases hid'
      rw [Storage.get?_extend hextends hv] at hv'
      cases hv'
      rw [hassignable] at hreadonly
      cases hreadonly
  | @refused _ sofar fault noLabel refused =>
      refine ⟨hscript, _, hfaults _ rfl, ?_⟩
      simp [Fault.atLine, (line_fault refused).1]

/-- Labels and names in braces are readonly in a source without faults. -/
theorem compile_readonly (hfaults : (compile source vars registry).faults = [])
    (hl : l ∈ Line.ofSource source) (hname : l.readonly? = some name) :
    (compile source vars registry).vars.Readonly name := by
  obtain ⟨n, hl⟩ := List.mem_iff_getElem?.1 hl
  obtain ⟨entry, labelFault, hlabelFault, hentry, -, hreported⟩ := compile_entry vars registry hl
  rw [hfaults] at hreported
  cases hentry with
  | label isLabel =>
      obtain ⟨name', hname', hreadonly⟩ := labels_readonly hl isLabel hlabelFault
      rw [Line.readonly?, if_pos isLabel, hname'] at hname
      cases hname
      rw [compile_vars]
      exact hreadonly.extend (instructions_adds registry _ 0 _).extends
  | mislabel isLabel => cases hreported _ rfl
  | compiled noLabel made later =>
      rw [Line.readonly?, if_neg (by simp [noLabel])] at hname
      obtain ⟨found, hfound, hname⟩ := Option.bind_eq_some_iff.1 hname
      have hvar : l.keyword = "var" := by
        unfold Line.declared? at hfound
        split at hfound
        next hkeyword _ => exact hkeyword
        next => cases hfound
      obtain ⟨name', word, o, hname', -, hadd⟩ := line_declares hvar made
      rw [hfound] at hname'
      cases hname'
      split at hname
      next hreadonly =>
        cases hname
        refine Storage.Readonly.extend later ?_
        exact ⟨_, _, Storage.id?_add hadd, Storage.get?_add hadd, hreadonly⟩
      next => cases hname
  | refused noLabel refused => cases hreported _ rfl

end

end TickScript
