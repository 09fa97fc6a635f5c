/-
Well-formed instructions: what compiling promises of an instruction, and
all that running it relies on.

An instruction names variables, reads operands, stores values of a kind
that it knows without converting them, and goes to lines. It is well
formed, among variables of some kinds and in a script of some length, if
the variables exist, its formulas are compiled terms, what it stores
without conversion is of the kind of the variable, and the lines are of
the script. Only the kinds of the variables matter, and a running script
never changes these; declaring further variables does no harm
(`Instruction.WellFormed.mono`).
-/
import TickScript.Instruction
import TickScript.Proofs.Code.Correct

namespace TickScript

-- ================================================== parts of instructions

/-- The variables an operand reads. -/
def Operand.varIds : Operand → List VarId
  | var id | char id => [id]
  | formula f => f.params.map Prod.snd
  | literal _ | text _ => []

def TimeOp.operands : TimeOp → List Operand
  | wait ticks => [ticks]
  | _ => []

def TimeOp.targets : TimeOp → List VarId
  | framesSinceLaunch dest | secondsSinceLaunch dest | deltaTime dest => [dest]
  | wait _ => []

def ConsoleOp.operands : ConsoleOp → List Operand
  | push args => args
  | _ => []

def ConsoleOp.targets : ConsoleOp → List VarId
  | pop target => [target.id]
  | canPop probe dest => [probe.id, dest]
  | _ => []

def MemoryOp.operands : MemoryOp → List Operand
  | get addr _ | getType addr _ | isNull addr _ | clear addr => [addr]
  | set addr value => [addr, value]

def MemoryOp.targets : MemoryOp → List VarId
  | get _ dest | getType _ dest | isNull _ dest => [dest]
  | _ => []

namespace Instruction

/-- The operands an instruction reads. -/
def operands : Instruction → List Operand
  | declare _ source | assign _ source => [source]
  | jump _ condition => [condition]
  | time op => op.operands
  | console op => op.operands
  | memory _ op => op.operands
  | call _ _ args _ => args
  | label | stop | create => []

/-- The variables an instruction names beside its operands. -/
def targets : Instruction → List VarId
  | declare dest _ | assign dest _ => [dest]
  | time op => op.targets
  | console op => op.targets
  | memory device op => device.toList ++ op.targets
  | call target _ _ ret => target :: ret.toList
  | jump _ _ | label | stop | create => []

/-- All variables an instruction uses. -/
def varIds (i : Instruction) : List VarId := i.targets ++ i.operands.flatMap Operand.varIds

/-- The variables an instruction stores into without converting, and the
kind of what it stores. -/
def stores : Instruction → List (VarId × Kind)
  | console (.pop (.char dest)) => [(dest, .int)]
  | console (.canPop _ dest) => [(dest, .bool)]
  | memory _ (.getType _ dest) => [(dest, .int)]
  | memory _ (.isNull _ dest) => [(dest, .bool)]
  | _ => []

/-- The lines an instruction may go to. -/
def lines : Instruction → List Nat
  | jump target _ => [target]
  | _ => []

end Instruction

-- =========================================================== well-formed

/-- The formula is a compiled term. -/
def Formula.Generated (f : Formula) : Prop :=
  ∃ t : Term, t.generate (f.params.map Prod.fst) = .ok f.code

/-- The variables of the operand are among so many, it holds no handle
of its own, and its code is that of a term. -/
structure Operand.WellFormed (count : Nat) (o : Operand) : Prop where
  known : ∀ id ∈ o.varIds, id < count
  plain : ∀ v, o = .literal v → v.handle? = none
  generated : ∀ f, o = .formula f → f.Generated

/-- The instruction can be carried out among variables of these kinds, in
a script of this length. -/
structure Instruction.WellFormed (kinds : List Kind) (size : Nat) (i : Instruction) : Prop where
  targets : ∀ id ∈ i.targets, id < kinds.length
  operands : ∀ o ∈ i.operands, o.WellFormed kinds.length
  typed : ∀ store ∈ i.stores, kinds[store.1]? = some store.2
  lines : ∀ line ∈ i.lines, line ≤ size

/-- More variables leave an operand well formed. -/
theorem Operand.WellFormed.mono {count count' : Nat} {o : Operand} (h : o.WellFormed count)
    (hle : count ≤ count') : o.WellFormed count' where
  known id hid := Nat.lt_of_lt_of_le (h.known id hid) hle
  plain := h.plain
  generated := h.generated

/-- More variables leave an instruction well formed. -/
theorem Instruction.WellFormed.mono {kinds kinds' : List Kind} {size : Nat} {i : Instruction}
    (h : i.WellFormed kinds size) (hkinds : kinds <+: kinds') : i.WellFormed kinds' size where
  targets id hid := Nat.lt_of_lt_of_le (h.targets id hid) hkinds.length_le
  operands o ho := (h.operands o ho).mono hkinds.length_le
  typed store hstore := by
    obtain ⟨more, rfl⟩ := hkinds
    have hold := h.typed store hstore
    rw [List.getElem?_append_left (List.getElem?_eq_some_iff.1 hold).1]
    exact hold
  lines := h.lines

/-- All variables of a well-formed instruction exist. -/
theorem Instruction.WellFormed.varId_lt {kinds : List Kind} {size : Nat} {i : Instruction}
    (h : i.WellFormed kinds size) {id : VarId} (hid : id ∈ i.varIds) : id < kinds.length := by
  rcases List.mem_append.1 hid with hid | hid
  · exact h.targets id hid
  · obtain ⟨o, ho, hid⟩ := List.mem_flatMap.1 hid
    exact (h.operands o ho).known id hid

-- ============================================================= variables

/-- The kinds of the variables, in order of declaration. -/
def Storage.kinds (s : Storage) : List Kind := s.vars.map Variable.kind

namespace Storage

variable {s : Storage} {id : VarId}

theorem length_kinds (s : Storage) : s.kinds.length = s.vars.length := List.length_map _

/-- The kind in a place is that of the variable there. -/
theorem getElem?_kinds (s : Storage) (id : VarId) :
    s.kinds[id]? = (s.get? id).map Variable.kind := List.getElem?_map

/-- An index in range finds its variable. -/
theorem get_of_lt (h : id < s.kinds.length) :
    ∃ v, s.get? id = some v ∧ s.get id = .ok v ∧ s.kinds[id]? = some v.kind := by
  rw [length_kinds] at h
  have hget : s.get? id = some s.vars[id] := List.getElem?_eq_getElem h
  refine ⟨s.vars[id], hget, ?_, ?_⟩
  · simp [get, hget]
  · rw [getElem?_kinds, hget, Option.map_some]

/-- Looking up an index succeeds where there is a variable. -/
theorem get_eq_ok_iff {v : Variable} : s.get id = .ok v ↔ s.get? id = some v := by
  unfold get
  cases s.get? id with
  | none => simp
  | some w => simp

/-- An index that a variable is found at is in range. -/
theorem lt_of_get {v : Variable} (h : s.get id = .ok v) : id < s.kinds.length := by
  rw [length_kinds]
  exact (List.getElem?_eq_some_iff.1 (get_eq_ok_iff.1 h)).1

/-- The kinds have the variable's own in its place. -/
theorem kinds_of_get {v : Variable} (h : s.get id = .ok v) : s.kinds[id]? = some v.kind := by
  rw [getElem?_kinds, get_eq_ok_iff.1 h, Option.map_some]

end Storage

end TickScript
