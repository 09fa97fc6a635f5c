/-
The numbers of compile faults. Every fault that compiling a source
reports is numbered below 50, with one exception: an expression whose
operands pile up too deep is reported with the overflow of the
generator's stack, although text that cannot be parsed, for whatever
reason, is reported as an invalid expression.

Each fault of the source is that of one line, a label or another one,
placed there; placing it changes neither its cause nor its detail.
-/
import TickScript.Proofs.Script.Declarations
import TickScript.Proofs.Syntax.Layout

namespace TickScript

open Compiler

/-- Placing a fault keeps its family. -/
theorem Fault.OfCompiling.atLine {fault : Fault} (h : fault.OfCompiling) (line : Option Nat) :
    (fault.atLine line).OfCompiling := h

variable {source : String} {vars : Storage} {registry : Registry} {n : Nat} {fault : Fault}

/-- The fault of an entry is of compiling. -/
theorem Compiler.entries_ofCompiling
    (h : (entries source vars registry)[n]? = some (.error fault)) : fault.OfCompiling := by
  obtain ⟨l, labelFault, -, hlabelFault, hentry⟩ := entries_entry h
  cases hentry with
  | mislabel isLabel =>
      obtain ⟨_, _, _, reason, -, -, hreason, rfl⟩ := labels_refused hlabelFault
      exact (bindLabel_fault hreason).2.atLine _
  | refused noLabel refused => exact (line_fault refused).2.atLine _

/-- Every fault of a source is numbered below 50, except that of an
expression that is too deep. -/
theorem compile_faults_number (source : String) (vars : Storage) (registry : Registry) :
    ∀ fault ∈ (compile source vars registry).faults,
      (fault.cause.number < 50 ∧ fault.cause.isRuntime = false)
        ∨ (fault.cause = .overflow ∧ fault.detail = "EXPRESSION OVERFLOW") := by
  intro fault hfault
  rw [compile_eq] at hfault
  obtain ⟨entry, hentry, hfault⟩ := List.mem_filterMap.1 hfault
  cases entry with
  | ok i => cases hfault
  | error reason =>
      cases hfault
      obtain ⟨n, hn⟩ := List.mem_iff_getElem?.1 hentry
      refine (entries_ofCompiling hn).imp_left fun hcompiling => ⟨?_, hcompiling⟩
      simpa [Cause.isRuntime] using hcompiling

/-- A jump to a label that is nowhere is such a fault. -/
theorem compile_faults_number_nowhere :
    ∃ fault ∈ (compile "jump nowhere true" (.empty 8) .standard).faults,
      (fault.cause.number < 50 ∧ fault.cause.isRuntime = false)
        ∨ (fault.cause = .overflow ∧ fault.detail = "EXPRESSION OVERFLOW") := by
  have hfaulty : (compile "jump nowhere true" (.empty 8) .standard).faults ≠ [] := by
    decide +kernel
  obtain ⟨fault, hfault⟩ := List.exists_mem_of_ne_nil _ hfaulty
  exact ⟨fault, hfault, compile_faults_number _ _ _ fault hfault⟩

-- =========================================================== deep nesting

/-- The cause of what went wrong, if something did. -/
def causeOf? {α : Type} : Except Fault α → Option Cause
  | .ok _ => none
  | .error fault => some fault.cause

theorem causeOf?_eq_some {α : Type} {x : Except Fault α} {cause : Cause}
    (h : causeOf? x = some cause) : ∃ fault, x = .error fault ∧ fault.cause = cause := by
  cases x with
  | ok a => cases h
  | error fault => exact ⟨fault, rfl, Option.some.inj h⟩

/-- The characters of a declaration of an integer variable. -/
def declaring (value : List Char) : List Char :=
  'v' :: 'a' :: 'r' :: ' ' :: 'i' :: 'n' :: 't' :: ' ' :: 'x' :: ' ' :: value

/-- What is wrong with the value of a declaration is what is wrong with
the source. -/
theorem compile_declaring {value : List Char} (hline : '\n' ∉ declaring value)
    (htrim : Text.trimBoth Line.isMargin (declaring value) = declaring value)
    (hvalue : Formula.compile (String.ofList value) vars = .error fault) :
    (compile (String.ofList (declaring value)) vars registry).faults
      = [fault.atLine (some 0)] := by
  generalize hl : Line.mk (String.ofList (declaring value)) = l
  have hcomment : l.isComment = false := by
    rw [← hl, Line.isComment, String.toList_ofList]
    rfl
  have hkeyword : l.keyword = "var" := by
    rw [← hl, Line.keyword, String.toList_ofList]
    rfl
  have hsplit : l.split 4 = ["var", "int", "x", String.ofList value] := by
    rw [← hl, Line.split, Text.splitUpTo, String.toList_ofList]
    rfl
  have hlines : Line.ofSource (String.ofList (declaring value)) = [l] := by
    rw [Line.ofSource_line (by rwa [String.toList_ofList]), Line.ofText, String.toList_ofList,
      htrim, hl]
    simp [hcomment]
  have hname : Name.check "x" = .ok ⟨"x", false⟩ := rfl
  have hsource : Compiler.source vars .int none (String.ofList value) = .error fault := by
    simp [Compiler.source, Kind.isValue, Operand.expression, hvalue]
  have hoperand : (declare l).run vars = .error fault vars := by
    unfold declare
    rw [hsplit]
    simp [Kind.ofWord, hname, hsource, InPlace.check, InPlace.run_look]
  have hfault : (line registry l).run vars = .error fault vars := by
    simpa only [line, hkeyword] using hoperand
  simp [compile_eq, entries, labelled, hlines, labels, instructions, Line.isLabel, hkeyword, hfault,
    lineFault?]

/-- What generating an expression without variables fails with, once it
is parsed. -/
def deepCause? (value : List Char) : Option Cause := do
  let t ← (Parser.ofLexemes (Lexer.lexFrom 0 0 value)).toOption
  if t.parameters = [] then causeOf? (t.generate []) else none

theorem compile_of_deepCause {value : List Char} {cause : Cause} (vars : Storage)
    (h : deepCause? value = some cause) :
    ∃ fault, Formula.compile (String.ofList value) vars = .error fault ∧ fault.cause = cause := by
  obtain ⟨t, ht, h⟩ := Option.bind_eq_some_iff.1 h
  have hparse : parse (String.ofList value) = .ok t := by
    rw [parse, lex, String.toList_ofList]
    exact toOption_eq_some.1 ht
  split at h
  next hparams =>
    obtain ⟨fault, hfault, hcause⟩ := causeOf?_eq_some h
    refine ⟨fault, ?_, hcause⟩
    simp [Formula.compile, hparse, hparams, Formula.resolve, hfault]
  next => cases h

/-- Sums nested in each other, so many of them. -/
def sums (count : Nat) : List Char :=
  (List.replicate count ['1', '+', '(']).flatten ++ '1' :: List.replicate count ')'

/-- A declaration whose value nests sums 256 deep is reported with the
number 61, among those of running. -/
theorem compile_sums_number :
    (compile (String.ofList (declaring (sums 256))) (.empty 8) .standard).faults.map
        (fun fault => (fault.cause.number, fault.cause.isRuntime)) = [(61, true)] := by
  have hline : '\n' ∉ declaring (sums 256) := by decide +kernel
  have htrim : Text.trimBoth Line.isMargin (declaring (sums 256)) = declaring (sums 256) := by
    decide +kernel
  have hdeep : deepCause? (sums 256) = some .overflow := by decide +kernel
  obtain ⟨fault, hfault, hcause⟩ := compile_of_deepCause (.empty 8) hdeep
  rw [compile_declaring hline htrim hfault]
  simp [Fault.atLine, hcause, Cause.isRuntime, Cause.number]

end TickScript
