/-
Where labels and jumps lead.

A label that is compiled binds its name to the first line after it that is
no label, or to the end of the script (`Line.IsNext`). A jump is compiled to
the line that its label is bound to, and it makes no difference whether the
label is before or after it: all labels are declared before the first jump
is compiled. So a jump never leads past the end, and never to a label.

# Where the labels come from

A jump only looks at the variable that its name stands for. That this
variable was declared by a label of the same source, and is bound to where
that label leads, takes an account of all variables there are in the end
(`compile_gains`): those from before, which are no labels, those of labels,
and those of `var` and `comp create`, which are of other kinds.

# Layout

None of it depends on comments or on the blanks around lines, since a source
is compiled through its lines (`Line.ofSource_restyle`).
-/
import Mathlib.Data.List.TakeWhile
import TickScript.Proofs.Script.Declarations
import TickScript.Proofs.Syntax.Layout

namespace TickScript

-- ============================================================= next lines

/-- Line `t` is the first after line `n` that is no label, or the end of
the lines if there is none. -/
structure Line.IsNext (lines : List Line) (n t : Nat) : Prop where
  after : n < t
  within : t ≤ lines.length
  labels : ∀ k l, n < k → k < t → lines[k]? = some l → l.isLabel
  stops : ∀ l, lines[t]? = some l → l.isLabel = false

namespace Line

/-- What comes after the longest start of a list whose members satisfy `p`
does not. -/
theorem getElem?_length_takeWhile {α : Type} {p : α → Bool} {a : α} : ∀ {as : List α},
    as[(as.takeWhile p).length]? = some a → p a = false
  | [], h => by cases h
  | b :: as, h => by
      by_cases hb : p b
      · rw [List.takeWhile_cons_of_pos hb] at h
        exact getElem?_length_takeWhile h
      · rw [List.takeWhile_cons_of_neg hb] at h
        cases h
        simpa using hb

theorem isNext_nextLine {lines : List Line} {n : Nat} (hn : n < lines.length) :
    IsNext lines n (nextLine lines n) where
  after := by
    unfold nextLine
    omega
  within := by
    have hle : ((lines.drop (n + 1)).takeWhile isLabel).length ≤ (lines.drop (n + 1)).length :=
      (List.takeWhile_sublist isLabel).length_le
    rw [List.length_drop] at hle
    unfold nextLine
    omega
  labels k l hafter hbefore hl := by
    obtain ⟨m, rfl⟩ := Nat.exists_eq_add_of_le hafter
    have hm : m < ((lines.drop (n + 1)).takeWhile isLabel).length := by
      unfold nextLine at hbefore
      omega
    rw [← List.getElem?_drop, List.prefix_iff_getElem?.1 (List.takeWhile_prefix isLabel) m hm] at hl
    cases hl
    exact List.mem_takeWhile_imp (List.getElem_mem hm)
  stops l hl := by
    rw [nextLine, ← List.getElem?_drop] at hl
    exact getElem?_length_takeWhile hl

/-- There is one such line. -/
theorem IsNext.unique {lines : List Line} {n t t' : Nat} (h : IsNext lines n t)
    (h' : IsNext lines n t') : t = t' := by
  have hle : ∀ {t t' : Nat}, IsNext lines n t → IsNext lines n t' → t' ≤ t := by
    intro t t' h h'
    by_contra hlt
    have hlt : t < t' := Nat.lt_of_not_le hlt
    have hl := List.getElem?_eq_getElem (Nat.lt_of_lt_of_le hlt h'.within)
    have hlabel := h'.labels t _ h.after hlt hl
    rw [h.stops _ hl] at hlabel
    cases hlabel
  exact Nat.le_antisymm (hle h' h) (hle h h')

end Line

/-- The label on line `n` binds its name to line `t`. -/
structure Compiled.Binds (c : Compiled) (lines : List Line) (n : Nat) (name : String) (t : Nat) :
    Prop where
  isLabel : ∃ l, lines[n]? = some l ∧ l.isLabel ∧ Compiler.labelName l = .ok name
  compiled : c.script[n]? = some (some .label)
  bound : c.vars.value? name = some (.line t)
  next : Line.IsNext lines n t

open Compiler

variable {source : String} {vars : Storage} {registry : Registry} {n : Nat} {l : Line}
  {i : Instruction}

namespace Storage

variable {s : Storage} {name : String} {id : VarId} {v : Variable}

theorem value?_of_get? (hid : s.id? name = some id) (hget : s.get? id = some v) :
    s.value? name = v.value := by
  simp [value?, hid, hget]

theorem name_of_id? (hid : s.id? name = some id) (hget : s.get? id = some v) : v.name = name := by
  obtain ⟨hlt, hname, -⟩ := List.findIdx?_eq_some_iff_getElem.1 hid
  obtain ⟨-, rfl⟩ := List.getElem?_eq_some_iff.1 hget
  simpa using hname

end Storage

-- ================================================================ labels

/-- Other declarations declare no labels. -/
theorem Line.declaration?_kind {target : Nat} {v : Variable} (hlabel : l.isLabel = false)
    (h : l.declaration? target = some v) : v.kind ≠ .label := by
  unfold declaration? at h
  rw [if_neg (by simp [hlabel])] at h
  split at h
  next =>
    unfold varDeclaration? at h
    split at h
    next first word name value hsplit =>
      obtain ⟨name', -, rfl⟩ := Option.map_eq_some_iff.1 h
      exact Kind.ofWord_ne_label word
    next => cases h
  next =>
    split at h
    next =>
      obtain ⟨c, -, h⟩ := Option.bind_eq_some_iff.1 h
      unfold Call.created? at h
      split at h
      next =>
        obtain ⟨name, -, h⟩ := Option.bind_eq_some_iff.1 h
        obtain ⟨typeName, -, h⟩ := Option.bind_eq_some_iff.1 h
        obtain ⟨name', -, h⟩ := Option.bind_eq_some_iff.1 h
        cases h
        simp [Variable.ofComponent, Variable.empty]
      next => cases h
    next => cases h

/-- A label that has an instruction is bound. -/
theorem compile_binds (hl : (Line.ofSource source)[n]? = some l) (hlabel : l.isLabel)
    (hi : (compile source vars registry).script[n]? = some (some i)) :
    ∃ name, labelName l = .ok name ∧ (compile source vars registry).Binds (Line.ofSource source) n
      name (Line.nextLine (Line.ofSource source) n) := by
  have hlt := (List.getElem?_eq_some_iff.1 hl).1
  obtain ⟨entry, labelFault, hlabelFault, hentry, hscript, -⟩ := compile_entry vars registry hl
  rw [hi] at hscript
  cases hentry with
  | label =>
      cases hscript
      obtain ⟨name, id, hname, hid, hget⟩ := labels_bound hl hlabel hlabelFault
      have hextends : (labels 0 (Line.ofSource source) vars).2.vars
          <+: (compile source vars registry).vars.vars := by
        rw [compile_vars]
        exact (instructions_adds registry _ 0 _).extends
      refine ⟨name, hname, ⟨l, hl, hlabel, hname⟩, hi, ?_, Line.isNext_nextLine hlt⟩
      rw [Nat.zero_add] at hget
      exact Storage.value?_of_get? (Storage.id?_extend hextends hid)
        (Storage.get?_extend hextends hget)
  | mislabel => cases hscript
  | compiled noLabel => simp [hlabel] at noLabel
  | refused noLabel => simp [hlabel] at noLabel

/-- The lines that declare the variables in a list of declarations. -/
theorem Compiled.mem_declared {c : Compiled} {lines : List Line} {p : Line → Bool}
    {declared : List Variable} {v : Variable} (hdeclared : declared.map some = c.declared lines p)
    (hv : v ∈ declared) :
    ∃ n l i, lines[n]? = some l ∧ p l ∧ c.script[n]? = some (some i)
      ∧ l.declaration? (Line.nextLine lines n) = some v := by
  have hmem : some v ∈ c.declared lines p := by
    rw [← hdeclared]
    exact List.mem_map_of_mem hv
  obtain ⟨⟨l, n⟩, hline, hdeclaration⟩ := List.mem_map.1 hmem
  obtain ⟨hsucceeded, hp⟩ := List.mem_filter.1 hline
  obtain ⟨hl, hi⟩ := List.mem_filter.1 hsucceeded
  obtain ⟨i, hi⟩ := Option.isSome_iff_exists.1 hi
  exact ⟨n, l, i, List.mem_zipIdx_iff_getElem?.1 hl, hp, Option.join_eq_some_iff.1 hi, hdeclaration⟩

/-- A label among the variables is one of the source. -/
theorem compile_label_of_mem (hvars : ∀ v ∈ vars.vars, v.kind ≠ .label) {v : Variable}
    (hv : v ∈ (compile source vars registry).vars.vars) (hkind : v.kind = .label) :
    ∃ n l name i, (Line.ofSource source)[n]? = some l ∧ l.isLabel ∧ labelName l = .ok name
      ∧ v = .label name (Line.nextLine (Line.ofSource source) n)
      ∧ (compile source vars registry).script[n]? = some (some i) := by
  obtain ⟨labels, others, hall, hlabels, hothers⟩ := compile_gains source vars registry
  rw [hall, List.mem_append, List.mem_append] at hv
  rcases hv with (hv | hv) | hv
  · exact absurd hkind (hvars v hv)
  · obtain ⟨n, l, i, hl, hlabel, hi, hdeclaration⟩ := Compiled.mem_declared hlabels hv
    rw [Line.declaration?, if_pos hlabel] at hdeclaration
    obtain ⟨name, hname, rfl⟩ := Option.map_eq_some_iff.1 hdeclaration
    exact ⟨n, l, name, i, hl, hlabel, toOption_eq_some.1 hname, rfl, hi⟩
  · obtain ⟨n, l, i, hl, hother, hi, hdeclaration⟩ := Compiled.mem_declared hothers hv
    have hlabel : l.isLabel = false := by
      rw [Bool.and_eq_true, Bool.not_eq_true'] at hother
      exact hother.1
    exact absurd hkind (Line.declaration?_kind hlabel hdeclaration)

/-- Lines other than labels are not compiled to labels. -/
theorem isLabel_of_compile
    (hi : (compile source vars registry).script[n]? = some (some .label)) :
    ∃ l, (Line.ofSource source)[n]? = some l ∧ l.isLabel := by
  have hlt : n < (Line.ofSource source).length := by
    rw [← compile_size source vars registry]
    exact (Array.getElem?_eq_some_iff.1 hi).1
  have hl := List.getElem?_eq_getElem hlt
  refine ⟨_, hl, ?_⟩
  obtain ⟨entry, labelFault, -, hentry, hscript, -⟩ := compile_entry vars registry hl
  rw [hi] at hscript
  cases hentry with
  | label isLabel => exact isLabel
  | mislabel isLabel => exact isLabel
  | compiled noLabel made later =>
      cases hscript
      have hkeyword : Line.keyword _ = "label" := line_keyword made
      simp only [line, hkeyword] at made
      cases made
  | refused => cases hscript

-- ================================================================= jumps

/-- Cutting a line starts with its keyword. -/
theorem Line.split_keyword {k : Nat} {first second : String} {rest : List String}
    (h : l.split (k + 2) = first :: second :: rest) : first = l.keyword := by
  unfold split Text.splitUpTo Text.splitUpToChars at h
  split at h
  next => simp at h
  next =>
    rw [List.map_cons] at h
    exact (List.cons.inj h).1.symm

/-- A jump leads to where the label is bound that it names. -/
theorem compile_jump (hvars : ∀ v ∈ vars.vars, v.kind ≠ .label) {t : Nat} {o : Operand}
    (hi : (compile source vars registry).script[n]? = some (some (.jump t o))) :
    ∃ l name condition k, (Line.ofSource source)[n]? = some l
      ∧ l.split 3 = ["jump", name, condition]
      ∧ (compile source vars registry).Binds (Line.ofSource source) k name t := by
  rcases compile_made hi with heq | ⟨l, sofar, now, hl, hline, hnow, hlater⟩
  · cases heq
  have hkeyword : l.keyword = "jump" := line_keyword hline
  simp only [line, hkeyword] at hline
  obtain ⟨first, name, condition, target, o, v, hsplit, heq, hfind, hkind, hvalue⟩ :=
    jump_eq_jump (InPlace.look_eq_ok.1 hline).1
  cases heq
  obtain rfl : first = "jump" := (Line.split_keyword hsplit).trans hkeyword
  -- the variable is still the one of that name in the end
  obtain ⟨id, hid, hget⟩ := bind_eq_ok.1 hfind
  have hid := Storage.id?_extend (hnow.trans hlater) (Storage.id_eq_ok_iff.1 hid)
  have hget := Storage.get?_extend (hnow.trans hlater) (Storage.get_eq_ok_iff.1 hget)
  obtain ⟨k, label, name', i, hlabelled, hlabel, hname', rfl, hi'⟩ :=
    compile_label_of_mem hvars (List.mem_of_getElem? hget) hkind
  obtain rfl : name' = name := Storage.name_of_id? hid hget
  obtain ⟨name, hname, hbinds⟩ := compile_binds hlabelled hlabel hi'
  obtain rfl : name' = name := by
    rw [hname'] at hname
    exact Except.ok.inj hname
  cases hvalue
  exact ⟨l, name', condition, k, hl, hsplit, hbinds⟩

/-- Labels lead to the first line after them that is no label. Jumps lead to
where their labels do, so not past the end and not to a label. The layout
of the source does not matter. -/
theorem compile_resolves (source : String) (vars : Storage) (registry : Registry)
    (hvars : ∀ v ∈ vars.vars, v.kind ≠ .label) :
    let lines := Line.ofSource source
    let c := compile source vars registry
    (∀ (n : Nat) (l : Line) (i : Instruction), lines[n]? = some l → l.isLabel →
        c.script[n]? = some (some i) → ∃ name t, labelName l = .ok name ∧ c.Binds lines n name t)
      ∧ (∀ (n t : Nat) (o : Operand), c.script[n]? = some (some (.jump t o)) →
          (∃ (l : Line) (name condition : String) (k : Nat), lines[n]? = some l
            ∧ l.split 3 = ["jump", name, condition] ∧ c.Binds lines k name t)
          ∧ t ≤ c.script.size ∧ c.script[t]? ≠ some (some .label))
      ∧ ∀ parts parts', source = "\n".intercalate parts →
          Relation.EqvGen Line.Restyle parts parts' →
          compile ("\n".intercalate parts') vars registry = c := by
  intro lines c
  refine ⟨fun n l i hl hlabel hi => ?_, fun n t o hi => ?_, ?_⟩
  · obtain ⟨name, hname, hbinds⟩ := compile_binds hl hlabel hi
    exact ⟨name, _, hname, hbinds⟩
  · obtain ⟨l, name, condition, k, hl, hsplit, hbinds⟩ := compile_jump hvars hi
    refine ⟨⟨l, name, condition, k, hl, hsplit, hbinds⟩, ?_, fun htarget => ?_⟩
    · rw [compile_size]
      exact hbinds.next.within
    · obtain ⟨l', hl', hlabel⟩ := isLabel_of_compile htarget
      rw [hbinds.next.stops l' hl'] at hlabel
      cases hlabel
  · rintro parts parts' rfl hrestyle
    have hlines := Line.ofSource_restyle hrestyle
    simp only [c, compile, hlines]

/-- Two labels in a row, and a jump to a label at the end. -/
def leavingParts : List String := ["label a", "label b", "jump c true", "label c"]

/-- The same with a comment and other blanks. -/
def leavingParts' : List String := ["label a", "# twice", " label b\r", "jump c true", "label c"]

theorem restyle_leaving : Relation.EqvGen Line.Restyle leavingParts leavingParts' := by
  have hremark : Line.IsRemark "# twice" :=
    ⟨by decide, "", "# twice", rfl, by simp [Line.IsBlank], .inr rfl⟩
  have hblanks : Line.IsBlank "" ∧ Line.IsBlank " " ∧ Line.IsBlank "\r" := by
    simp [Line.IsBlank]
  obtain ⟨hnone, hspace, hreturn⟩ := hblanks
  refine .trans _ _ _ (.rel _ _ (.remark ["label a"] ["label b", "jump c true", "label c"] hremark))
    (.rel _ _ ?_)
  exact @Line.Restyle.margins "label b" "" "" " " "\r" ["label a", "# twice"]
    ["jump c true", "label c"] (by decide) hnone hnone hspace hreturn

/-- The first label of the source leads to the jump, and the jump past the
last label, to the end. -/
theorem compile_resolves_leaving :
    let source := "\n".intercalate leavingParts
    let c := compile source (.empty 4) .standard
    c.Binds (Line.ofSource source) 0 "a" 2
      ∧ (∃ o k, c.script[2]? = some (some (.jump 4 o)) ∧ c.Binds (Line.ofSource source) k "c" 4)
      ∧ compile ("\n".intercalate leavingParts') (.empty 4) .standard = c := by
  intro source c
  have hrun : c.script[0]?.join.isSome
      ∧ c.script[2]?.join.map (fun i => (i.keyword, i.lines)) = some ("jump", [4])
      ∧ Line.ofSource source = [⟨"label a"⟩, ⟨"label b"⟩, ⟨"jump c true"⟩, ⟨"label c"⟩]
      ∧ Line.nextLine (Line.ofSource source) 0 = 2
      ∧ (labelName ⟨"label a"⟩).toOption = some "a"
      ∧ Line.split ⟨"jump c true"⟩ 3 = ["jump", "c", "true"] := by
    decide +kernel
  obtain ⟨hfirst, hthird, hlines, hnext, hname, hsplit⟩ := hrun
  obtain ⟨hlabels, hjumps, hlayout⟩ :=
    compile_resolves source (.empty 4) .standard (by simp [Storage.empty])
  refine ⟨?_, ?_, hlayout leavingParts leavingParts' rfl restyle_leaving⟩
  · obtain ⟨i, hi⟩ := Option.isSome_iff_exists.1 hfirst
    obtain ⟨name, t, hname', hbinds⟩ := hlabels 0 ⟨"label a"⟩ i (by rw [hlines]; rfl) (by decide)
      (Option.join_eq_some_iff.1 hi)
    rw [toOption_eq_some.1 hname] at hname'
    cases hname'
    have hlt : 0 < (Line.ofSource source).length := by simp [hlines]
    rwa [← hnext, ← hbinds.next.unique (Line.isNext_nextLine hlt)]
  · obtain ⟨i, hi, hkeyword⟩ := Option.map_eq_some_iff.1 hthird
    have hi := Option.join_eq_some_iff.1 hi
    cases i with
    | jump t o =>
        obtain rfl : t = 4 := by simpa [Instruction.keyword, Instruction.lines] using hkeyword
        obtain ⟨⟨l, name, condition, k, hl, hsplit', hbinds⟩, -⟩ := hjumps 2 4 o hi
        rw [hlines] at hl
        cases hl
        rw [hsplit] at hsplit'
        cases hsplit'
        exact ⟨o, k, hi, hbinds⟩
    | _ => simp [Instruction.keyword] at hkeyword

end TickScript
