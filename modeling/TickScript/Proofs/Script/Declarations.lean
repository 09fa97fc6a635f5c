/-
What compiling a source reports and declares.

Every line that is not a comment is one entry of the script, and a line is
reported if and only if its entry is empty: once, and in order of lines.
The variables afterwards are those from before, untouched, and one more for
each declaration that was compiled, the labels first.

# Declarations

Three sorts of lines declare a variable (`Line.isDeclaration`): a label,
`var`, and `comp create`. Which variable that is can be read off the line
(`Line.declaration?`); only the line that a label is bound to depends on
where the label stands (`Line.nextLine`).

# The two passes

A label is declared by the first pass, which places what is wrong with it
on its line (`Compiler.labels_placed`); any other line is compiled by the
second. All is said of the passes as they go line by line, which is what
they come to with their queue and their sorting (`compile_eq`). For both,
what a single line adds is settled first
(`Compiler.Binding.gains`, `Compiler.Making.gains`): its one variable if it
is a declaration and succeeds, and nothing otherwise. The passes then add
these up (`Storage.Gains`) in order of lines.
-/
import TickScript.Proofs.Script.Entries

namespace TickScript

-- ========================================================== declarations

/-- The variable that `create("<name>", "<type>")` declares. -/
def Call.created? (c : Call) : Option Variable :=
  match c.args with
  | [first, second] => do
    let name ← Text.insideQuotes '"' first
    let typeName ← Text.insideQuotes '"' second
    let name ← (Name.check name).toOption
    some (.ofComponent name.name typeName)
  | _ => none

namespace Line

/-- A line `comp create(…)`. -/
def isCreate (l : Line) : Bool :=
  l.keyword == "comp" && (Call.parse l.text).toOption.any (·.name == "create")

/-- A line that is to declare a variable. -/
def isDeclaration (l : Line) : Bool := l.isLabel || l.keyword == "var" || l.isCreate

/-- The variable that `var <type> <name> <value>` declares. -/
def varDeclaration? (l : Line) : Option Variable :=
  match l.split 4 with
  | [_, word, name, _] => (Name.check name).toOption.map fun name =>
      .zeroed name.name (Kind.ofWord word) name.readonly
  | _ => none

/-- The variable that a line declares if it is compiled; a label is bound
to `target`. -/
def declaration? (target : Nat) (l : Line) : Option Variable :=
  if l.isLabel then (Compiler.labelName l).toOption.map fun name => .label name target
  else if l.keyword = "var" then l.varDeclaration?
  else if l.isCreate then (Call.parse l.text).toOption.bind Call.created?
  else none

/-- The first line after a line that is not a label, or the end of the
lines. -/
def nextLine (lines : List Line) (n : Nat) : Nat :=
  n + 1 + ((lines.drop (n + 1)).takeWhile isLabel).length

end Line

namespace Compiled

/-- The lines that a compiled source has an instruction for, with their
indices. -/
def succeeded (c : Compiled) (lines : List Line) : List (Line × Nat) :=
  lines.zipIdx.filter fun (_, n) => c.script[n]?.join.isSome

/-- What is declared by those of them that satisfy `p`, in order. -/
def declared (c : Compiled) (lines : List Line) (p : Line → Bool) : List (Option Variable) :=
  ((c.succeeded lines).filter fun (l, _) => p l).map
    fun (l, n) => l.declaration? (Line.nextLine lines n)

end Compiled

namespace Storage

variable {s s' s'' : Storage} {v : Variable} {id : VarId}

/-- Variables were added at the end, one for each of the declarations. -/
def Gains (s s' : Storage) (declarations : List (Option Variable)) : Prop :=
  ∃ added, s' = { s with vars := s.vars ++ added } ∧ added.map some = declarations

/-- Nothing is gained by doing nothing. -/
theorem Gains.refl (s : Storage) : Gains s s [] := ⟨[], by simp, rfl⟩

/-- What is gained in turn is gained together. -/
theorem Gains.trans {ds ds' : List (Option Variable)} (h : Gains s s' ds) (h' : Gains s' s'' ds') :
    Gains s s'' (ds ++ ds') := by
  obtain ⟨added, rfl, rfl⟩ := h
  obtain ⟨more, rfl, rfl⟩ := h'
  exact ⟨added ++ more, by simp, by simp⟩

/-- An addition gains its variable. -/
theorem gains_add (h : s.add v = .ok (id, s')) : Gains s s' [some v] := by
  obtain ⟨-, rfl⟩ := add_eq_ok h
  exact ⟨[v], rfl, rfl⟩

end Storage

namespace Compiler

variable {l : Line} {registry : Registry} {vars vars' : Storage} {i : Instruction} {target : Nat}

-- ================================================================= lines

/-- Only text in double quotes is a string. -/
theorem insideQuotes_of_string? {text inner : String} {o : Operand}
    (h : Operand.ofText text vars = .ok o) (ho : o.string? = some inner) :
    Text.insideQuotes '"' text = some inner := by
  have hexpression : Operand.expression text vars = .ok o → False := by
    intro h
    obtain ⟨f, -, h⟩ := bind_eq_ok.1 h
    split at h
    next =>
      cases h
      cases ho
    next =>
      cases h
      cases ho
  unfold Operand.ofText at h
  split at h
  next =>
    split at h
    next inner' hinner =>
      split at h
      next => cases h
      next =>
        cases h
        cases ho
        exact hinner
    next => cases h
  next =>
    split at h
    next =>
      split at h
      next =>
        -- a character
        obtain ⟨id, -, h⟩ := bind_eq_ok.1 h
        obtain ⟨v, -, h⟩ := bind_eq_ok.1 h
        split at h
        next =>
          cases h
          cases ho
        next => cases h
      next => cases h
    next =>
      split at h
      next =>
        split at h
        next =>
          split at h
          next => exact (hexpression h).elim
          next =>
            cases h
            cases ho
        next => exact (hexpression h).elim
      next => exact (hexpression h).elim

/-- A component is declared under the name and with the type that its line
says. -/
theorem create_declares {c : Call} (h : (create registry c).run vars = .ok i vars') :
    ∃ id v, c.created? = some v ∧ vars.add v = .ok (id, vars') := by
  obtain ⟨⟨first, second⟩, hargs, h⟩ := InPlace.check_bind_eq_ok.1 h
  obtain ⟨-, -, h⟩ := InPlace.check_bind_eq_ok.1 h
  obtain ⟨o, ho, h⟩ := InPlace.look_bind_eq_ok.1 h
  obtain ⟨o', ho', h⟩ := InPlace.look_bind_eq_ok.1 h
  have hargs : c.args = [first, second] := by
    unfold twoArgs at hargs
    split at hargs
    next hargs' =>
      cases hargs
      exact hargs'
    next => cases hargs
  split at h
  next text typeName htext htype =>
    obtain ⟨name, hname, h⟩ := InPlace.check_bind_eq_ok.1 h
    split at h
    next => cases h
    next =>
      split at h
      next => cases h
      next =>
        obtain ⟨id, vars₁, hadd, h⟩ := InPlace.bind_eq_ok.1 h
        cases h
        refine ⟨id, _, ?_, InPlace.once_eq_ok.1 hadd⟩
        simp [Call.created?, hargs, insideQuotes_of_string? ho htext,
          insideQuotes_of_string? ho' htype, hname, Except.toOption]
  next => cases h

/-- A `var` line declares the variable that can be read off it. -/
theorem declare_declares (h : (declare l).run vars = .ok i vars') :
    ∃ id v, l.varDeclaration? = some v ∧ vars.add v = .ok (id, vars') := by
  unfold declare at h
  split at h
  next first word text value hsplit =>
    simp only at h
    split at h
    next => cases h
    next =>
      obtain ⟨name, hname, h⟩ := InPlace.check_bind_eq_ok.1 h
      obtain ⟨o, -, h⟩ := InPlace.look_bind_eq_ok.1 h
      obtain ⟨id, vars₁, hadd, h⟩ := InPlace.bind_eq_ok.1 h
      cases h
      refine ⟨_, _, ?_, InPlace.once_eq_ok.1 hadd⟩
      simp [Line.varDeclaration?, hsplit, hname, Except.toOption]
  next => cases h

/-- A line creates a component by its keyword and the name of its call. -/
theorem isCreate_iff : l.isCreate ↔
    l.keyword = "comp" ∧ ∃ c, Call.parse l.text = .ok c ∧ c.name = "create" := by
  unfold Line.isCreate
  cases Call.parse l.text with
  | error fault => simp [Except.toOption]
  | ok c => simp [Except.toOption]

/-- A line that is compiled adds its variable if it is a declaration, and
nothing otherwise. -/
theorem line_gains (target : Nat) (hlabel : l.isLabel = false)
    (h : (line registry l).run vars = .ok i vars') :
    vars.Gains vars' (if l.isDeclaration then [l.declaration? target] else []) := by
  by_cases hvar : l.keyword = "var"
  · have hdeclaration : l.isDeclaration := by simp [Line.isDeclaration, hvar]
    simp only [line, hvar] at h
    obtain ⟨id, v, hv, hadd⟩ := declare_declares h
    rw [if_pos hdeclaration, Line.declaration?, if_neg (by simp [hlabel]), if_pos hvar, hv]
    exact Storage.gains_add hadd
  by_cases hcreate : l.isCreate
  · have hdeclaration : l.isDeclaration := by simp [Line.isDeclaration, hcreate]
    obtain ⟨hcomp, c, hc, hname⟩ := isCreate_iff.1 hcreate
    obtain ⟨id, v, hv, hadd⟩ := create_declares (line_create hcomp hc hname h)
    have hdeclared : l.declaration? target = some v := by
      simp [Line.declaration?, hlabel, hvar, hcreate, hc, hv, Except.toOption]
    rw [if_pos hdeclaration, hdeclared]
    exact Storage.gains_add hadd
  · have hdeclaration : l.isDeclaration = false := by
      simp [Line.isDeclaration, hlabel, hvar, hcreate]
    have hkeep : vars' = vars := line_keeps hvar
      (fun c hc hcomp hname => hcreate (isCreate_iff.2 ⟨hcomp, c, hc, hname⟩)) h
    rw [hdeclaration, hkeep]
    exact .refl _

/-- The first pass declares a label unless it finds something wrong with
it. -/
theorem Binding.gains {index : Nat} {first : Option Fault}
    (h : Binding vars index target l first vars') :
    vars.Gains vars' (if l.isLabel ∧ first = none then [l.declaration? target] else []) := by
  cases h with
  | passed noLabel =>
      rw [if_neg (by simp [noLabel])]
      exact .refl vars
  | bound isLabel bound =>
      obtain ⟨name, hname, hadd⟩ := bindLabel_eq_ok bound
      have hdeclaration : l.declaration? target = some (.label name target) := by
        simp [Line.declaration?, isLabel, hname, Except.toOption]
      rw [if_pos ⟨isLabel, rfl⟩, hdeclaration]
      exact Storage.gains_add hadd
  | refused =>
      rw [if_neg (by simp)]
      exact .refl vars

/-- The second declares what the other lines do that it compiles. -/
theorem Making.gains {registry : Registry} {index : Nat} {labelFault : Option Fault}
    {entry : Except Fault Instruction} (target : Nat)
    (h : Making registry vars index l labelFault entry vars') :
    vars.Gains vars' (if l.isLabel = false ∧ l.isDeclaration ∧ entry.toOption.isSome
      then [l.declaration? target] else []) := by
  cases h with
  | label isLabel | mislabel isLabel =>
      rw [if_neg (by simp [isLabel])]
      exact .refl vars
  | compiled noLabel made =>
      have hgains := line_gains target noLabel made
      by_cases hdeclaration : l.isDeclaration
      · rw [if_pos hdeclaration] at hgains
        rw [if_pos ⟨noLabel, hdeclaration, rfl⟩]
        exact hgains
      · rw [if_neg hdeclaration] at hgains
        rw [if_neg fun h => hdeclaration h.2.1]
        exact hgains
  | refused =>
      rw [if_neg (by simp [Except.toOption])]
      exact .refl vars

-- ================================================================ passes

/-- The labels declared are those that the first pass finds nothing wrong
with. -/
theorem labels_gains (lines : List Line) (p : Line × Nat → Bool) :
    ∀ {ls : List Line} {index : Nat} {vars : Storage}, lines.drop index = ls →
    (∀ k l, ls[k]? = some l →
      (p (l, index + k) ↔ l.isLabel ∧ (labels index ls vars).1[k]? = some none)) →
    vars.Gains (labels index ls vars).2
      (((ls.zipIdx index).filter p).map fun (l, n) => l.declaration? (Line.nextLine lines n))
  | [], _, vars, _, _ => .refl vars
  | l :: ls, index, vars, hdrop, hp => by
      have hrest : lines.drop (index + 1) = ls := by
        rw [← List.drop_drop, hdrop]
        rfl
      have hnext : Line.nextLine lines index
          = index + 1 + (ls.takeWhile Line.isLabel).length := by
        rw [Line.nextLine, hrest]
      obtain ⟨first, vars', hbinding, hlabels⟩ := labels_cons index l ls vars
      rw [← hnext] at hbinding
      rw [hlabels] at hp
      have hhead : p (l, index) ↔ l.isLabel ∧ first = none := by simpa using hp 0 l rfl
      have htail := labels_gains lines p hrest fun k l' hl' => by
        have hp' := hp (k + 1) l' hl'
        rw [List.getElem?_cons_succ] at hp'
        rwa [Nat.add_right_comm]
      have hgains := hbinding.gains.trans htail
      rw [hlabels, List.zipIdx_cons]
      by_cases hfine : l.isLabel ∧ first = none
      · rw [if_pos hfine] at hgains
        rw [List.filter_cons_of_pos (hhead.2 hfine)]
        exact hgains
      · rw [if_neg hfine] at hgains
        rw [List.filter_cons_of_neg (mt hhead.1 hfine)]
        exact hgains

/-- The variables declared after that are those of the declarations that the
second pass compiles. -/
theorem instructions_gains {registry : Registry} (target : Nat → Nat) (p : Line × Nat → Bool) :
    ∀ {ls : List (Line × Option Fault)} {index : Nat} {vars : Storage},
    (∀ k q, ls[k]? = some q → (p (q.1, index + k) ↔ q.1.isLabel = false ∧ q.1.isDeclaration
      ∧ ((instructions registry index ls vars).1[k]?.bind Except.toOption).isSome)) →
    vars.Gains (instructions registry index ls vars).2
      ((((ls.map Prod.fst).zipIdx index).filter p).map fun (l, n) => l.declaration? (target n))
  | [], _, vars, _ => .refl vars
  | (l, labelFault) :: ls, index, vars, hp => by
      obtain ⟨first, vars', hmaking, hall⟩ := instructions_cons registry index l labelFault ls vars
      rw [hall] at hp
      have hhead : p (l, index) ↔ l.isLabel = false ∧ l.isDeclaration ∧ first.toOption.isSome :=
        hp 0 (l, labelFault) rfl
      have htail : ∀ k q, ls[k]? = some q → (p (q.1, index + 1 + k) ↔ q.1.isLabel = false
          ∧ q.1.isDeclaration
          ∧ ((instructions registry (index + 1) ls vars').1[k]?.bind Except.toOption).isSome) := by
        intro k q hq
        have hp' := hp (k + 1) q hq
        rw [List.getElem?_cons_succ] at hp'
        rwa [Nat.add_right_comm]
      have hgains := (hmaking.gains (target index)).trans (instructions_gains target p htail)
      rw [hall, List.map_cons, List.zipIdx_cons]
      by_cases hfine : l.isLabel = false ∧ l.isDeclaration ∧ first.toOption.isSome
      · rw [if_pos hfine] at hgains
        rw [List.filter_cons_of_pos (hhead.2 hfine)]
        exact hgains
      · rw [if_neg hfine] at hgains
        rw [List.filter_cons_of_neg (mt hhead.1 hfine)]
        exact hgains

variable {source : String} {n : Nat}

/-- A label has an instruction if the first pass finds nothing wrong with
it. -/
theorem entries_label (hl : (Line.ofSource source)[n]? = some l) (hlabel : l.isLabel) :
    ((entries source vars registry)[n]?.bind Except.toOption).isSome
      ↔ (labels 0 (Line.ofSource source) vars).1[n]? = some none := by
  have hlt : n < (entries source vars registry).length := by
    rw [length_entries]
    exact (List.getElem?_eq_some_iff.1 hl).1
  have hentry := List.getElem?_eq_getElem hlt
  obtain ⟨l', labelFault, hl', hlabelFault, hmade⟩ := entries_entry hentry
  rw [hl] at hl'
  cases hl'
  rw [hlabelFault, hentry]
  generalize (entries source vars registry)[n] = entry at hmade
  cases hmade with
  | label => simp [Except.toOption]
  | mislabel => simp [Except.toOption]
  | compiled noLabel => simp [hlabel] at noLabel
  | refused noLabel => simp [hlabel] at noLabel

end Compiler

-- =============================================================== sources

section

open Compiler

variable {source : String} {vars : Storage} {registry : Registry} {n : Nat}

theorem compile_script_join : (compile source vars registry).script[n]?.join
    = (entries source vars registry)[n]?.bind Except.toOption := by
  rw [compile_script_getElem?]
  cases (entries source vars registry)[n]? <;> rfl

theorem compile_isNone_iff : (compile source vars registry).script[n]? = some none
    ↔ ∃ fault, (entries source vars registry)[n]? = some (.error fault) := by
  rw [compile_script_getElem?]
  rcases (entries source vars registry)[n]? with _ | fault | _ <;> simp [Except.toOption]

/-- The lines at fault are reported in order, each once. -/
theorem compile_reports (source : String) (vars : Storage) (registry : Registry) :
    ∃ bad : List Nat, (compile source vars registry).faults.map Fault.line = bad.map some
      ∧ bad.Pairwise (· < ·)
      ∧ ∀ n, n ∈ bad ↔ (compile source vars registry).script[n]? = some none := by
  obtain ⟨bad, hlines, hlt, hbad⟩ := entries_report source vars registry
  refine ⟨bad, ?_, hlt, fun n => ?_⟩
  · rw [compile_eq]
    exact hlines
  · rw [compile_isNone_iff]
    exact hbad n

/-- The variables declared are those of the labels that were compiled, then
those of the other declarations that were, in order of lines. -/
theorem compile_gains (source : String) (vars : Storage) (registry : Registry) :
    let lines := Line.ofSource source
    let c := compile source vars registry
    ∃ labels others : List Variable,
      c.vars = { vars with vars := vars.vars ++ labels ++ others }
      ∧ labels.map some = c.declared lines Line.isLabel
      ∧ others.map some = c.declared lines fun l => !l.isLabel && l.isDeclaration := by
  intro lines c
  have hlabels := labels_gains lines (fun q => q.1.isLabel && c.script[q.2]?.join.isSome)
    (lines.drop_zero) fun k l hl => by
      rw [Nat.zero_add, Bool.and_eq_true, compile_script_join]
      exact and_congr_right fun hlabel => entries_label hl hlabel
  have hothers := instructions_gains (Line.nextLine lines)
    (fun q => (!q.1.isLabel && q.1.isDeclaration) && c.script[q.2]?.join.isSome)
    fun k (q : Line × Option Fault) (_ : (labelled source vars)[k]? = some q) => by
      rw [Nat.zero_add, Bool.and_eq_true, Bool.and_eq_true, compile_script_join, and_assoc,
        Bool.not_eq_true']
      rfl
  rw [labelled_map_fst] at hothers
  obtain ⟨added, hadded, hsome⟩ := hlabels
  obtain ⟨more, hmore, hsome'⟩ := hothers
  refine ⟨added, more, ?_, ?_, ?_⟩
  · show (compile source vars registry).vars = _
    rw [compile_vars, hmore, hadded]
  · rw [hsome, Compiled.declared, Compiled.succeeded, List.filter_filter]
  · rw [hsome', Compiled.declared, Compiled.succeeded, List.filter_filter]

/-- Compiling reports every bad line once and goes on: the script has an
entry for each line, the lines reported are in order and are those whose
entry is empty, and the variables afterwards are those from before and one
for each declaration that has an instruction, labels first. -/
theorem compile_exact (source : String) (vars : Storage) (registry : Registry) :
    let lines := Line.ofSource source
    let c := compile source vars registry
    c.script.size = lines.length
      ∧ (∃ bad : List Nat, c.faults.map Fault.line = bad.map some ∧ bad.Pairwise (· < ·)
          ∧ ∀ n, n ∈ bad ↔ c.script[n]? = some none)
      ∧ ∃ labels others : List Variable,
          c.vars = { vars with vars := vars.vars ++ labels ++ others }
          ∧ labels.map some = c.declared lines Line.isLabel
          ∧ others.map some = c.declared lines fun l => !l.isLabel && l.isDeclaration :=
  ⟨compile_size source vars registry, compile_reports source vars registry,
    compile_gains source vars registry⟩

-- Lines at fault do not keep the others from being compiled.
example :
    let c := compile "var int x 1\nbogus\nset y 2\nlabel a" (.empty 4) .standard
    c.faults.map Fault.line = [some 1, some 2] ∧ c.vars.names = ["a", "x"] := by
  decide +kernel

end

end TickScript
