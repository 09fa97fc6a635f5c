/-
Compiling yields well-formed instructions.

Each function of the compiler that reads a part of a line has one lemma
here that says what it promises of the part: a name that is found is the
index of a variable, a return variable of a kind has that kind, an
operand is well formed. The lemmas for whole lines put these together.

Compiling a line may declare a variable. The variables only grow
(`Storage.Grows`): those declared before keep their places, and a new
one holds no handle, and no line beyond the end of the script. That the
lines of labels are within the script is what makes jumps to them well
formed; it is promised by the first pass, which counts the lines itself.
-/
import TickScript.Proofs.InPlace
import TickScript.Proofs.Script.WellFormed
import TickScript.Script

namespace TickScript

-- ============================================================= variables

/-- A value that is no handle and no line beyond the end. -/
structure Value.Fresh (size : Nat) (v : Value) : Prop where
  plain : v.handle? = none
  line_le : ∀ n, v = .line n → n ≤ size

namespace Storage

variable {s s' s'' : Storage} {size : Nat}

/-- Variables were declared, with fresh values or none. -/
def Grows (size : Nat) (s s' : Storage) : Prop :=
  ∃ added, s'.vars = s.vars ++ added ∧ ∀ v ∈ added, ∀ w, v.value = some w → w.Fresh size

theorem Grows.refl (s : Storage) : Grows size s s := ⟨[], by simp, by simp⟩

/-- What is declared later comes after, and is fresh as well. -/
theorem Grows.trans (h : Grows size s s') (h' : Grows size s' s'') : Grows size s s'' := by
  obtain ⟨added, hadded, hfresh⟩ := h
  obtain ⟨more, hmore, hfresh'⟩ := h'
  refine ⟨added ++ more, by rw [hmore, hadded, List.append_assoc], fun v hv => ?_⟩
  rcases List.mem_append.1 hv with hv | hv
  · exact hfresh v hv
  · exact hfresh' v hv

/-- The kinds of the variables there were do not change. -/
theorem Grows.kinds (h : Grows size s s') : s.kinds <+: s'.kinds := by
  obtain ⟨added, hadded, -⟩ := h
  exact ⟨added.map Variable.kind, by rw [Storage.kinds, Storage.kinds, hadded, List.map_append]⟩

/-- The lines that variables hold are within the script. -/
def LinesWithin (size : Nat) (s : Storage) : Prop :=
  ∀ v ∈ s.vars, ∀ n, v.value = some (.line n) → n ≤ size

/-- A label that was within the script is still there. -/
theorem Grows.linesWithin (h : Grows size s s') (hs : LinesWithin size s) :
    LinesWithin size s' := by
  obtain ⟨added, hadded, hfresh⟩ := h
  intro v hv n hn
  rw [hadded] at hv
  rcases List.mem_append.1 hv with hv | hv
  · exact hs v hv n hn
  · exact (hfresh v hv _ hn).line_le n rfl

/-- Adding a variable puts it at the end. -/
theorem add_eq_ok {v : Variable} {id : VarId} (h : s.add v = .ok (id, s')) :
    id = s.vars.length ∧ s' = { s with vars := s.vars ++ [v] } := by
  unfold add at h
  split at h
  next => cases h
  next =>
    split at h
    next =>
      cases h
      exact ⟨rfl, rfl⟩
    next => cases h

/-- One variable is declared, with a fresh value or none. -/
theorem grows_add {v : Variable} {id : VarId} (h : s.add v = .ok (id, s'))
    (hv : ∀ w, v.value = some w → w.Fresh size) : Grows size s s' := by
  obtain ⟨-, rfl⟩ := add_eq_ok h
  refine ⟨[v], rfl, fun v' hv' => ?_⟩
  rw [List.mem_singleton] at hv'
  subst hv'
  exact hv

/-- A variable without a value may be declared anywhere. -/
theorem grows_add_null {v : Variable} {id : VarId} (h : s.add v = .ok (id, s'))
    (hv : v.value = none) : Grows size s s' := by
  refine grows_add h fun w hw => ?_
  rw [hv] at hw
  cases hw

/-- The index of a new variable is in range. -/
theorem lt_of_add {v : Variable} {id : VarId} (h : s.add v = .ok (id, s')) :
    id < s'.kinds.length := by
  obtain ⟨rfl, rfl⟩ := add_eq_ok h
  simp [length_kinds]

/-- A name that is found is the index of a variable. -/
theorem lt_of_id {name : String} {id : VarId} (h : s.id name = .ok id) :
    id < s.kinds.length := by
  unfold Storage.id at h
  split at h
  next id' hid =>
    cases h
    rw [length_kinds]
    exact (List.findIdx?_eq_some_iff_getElem.1 hid).1
  next => cases h

end Storage

/-- A zero is no handle and no line. -/
theorem fresh_zero {size : Nat} {kind : Kind} {w : Value} (h : Variable.zero? kind = some w) :
    w.Fresh size := by
  cases kind <;> cases h <;> exact ⟨rfl, fun _ hn => by cases hn⟩

-- ============================================================== formulas

/-- Code that is a single literal holds a value of no entity. -/
theorem Emits.plain_of_literal {params : List String} {n : Nat} {t : Term} {code : Code}
    {v : Value} (h : Emits params n t code) (hcode : code = [.literal v]) : v.handle? = none := by
  -- all other code ends with an instruction of its own, or is longer
  cases h with
  | int | float | bool =>
      cases hcode
      rfl
  | var found => cases hcode
  | unary inner =>
      have hlast := congrArg List.getLast? hcode
      simp at hlast
  | binary first second =>
      have hlast := congrArg List.getLast? hcode
      simp at hlast
  | conditional isConditional first second third =>
      have hlength := congrArg List.length hcode
      simp only [Generate.conditional, Code.length_link, List.length_append,
        List.length_singleton] at hlength
      omega
  | call isFunction known fewest most inner =>
      have hlast := congrArg List.getLast? hcode
      simp [Builtin.instructions] at hlast

namespace Formula

variable {source : String} {vars : Storage}

/-- The parameters are resolved one by one, to variables there are. -/
theorem resolve_eq_ok : ∀ {names : List String} {params : List (String × VarId)},
    resolve source vars names = .ok params →
    params.map Prod.fst = names ∧ ∀ p ∈ params, p.2 < vars.kinds.length
  | [], params, h => by
      cases h
      exact ⟨rfl, by simp⟩
  | name :: names, params, h => by
      unfold resolve at h
      split at h
      next => cases h
      next id hid =>
        obtain ⟨more, hmore, rfl⟩ := map_eq_ok.1 h
        obtain ⟨hnames, hknown⟩ := resolve_eq_ok hmore
        refine ⟨by rw [List.map_cons, hnames], fun p hp => ?_⟩
        rcases List.mem_cons.1 hp with rfl | hp
        · exact Storage.lt_of_id hid
        · exact hknown p hp

/-- A compiled formula is the code of a term, over variables there are. -/
theorem compile_eq_ok {f : Formula} (h : compile source vars = .ok f) :
    f.Generated ∧ ∀ p ∈ f.params, p.2 < vars.kinds.length := by
  unfold compile at h
  split at h
  next => cases h
  next term hterm =>
    obtain ⟨params, hparams, h⟩ := bind_eq_ok.1 h
    obtain ⟨code, hcode, h⟩ := bind_eq_ok.1 h
    cases h
    obtain ⟨hnames, hknown⟩ := resolve_eq_ok hparams
    exact ⟨⟨term, by simpa only [hnames] using hcode⟩, hknown⟩

end Formula

-- ============================================================== operands

namespace Operand

variable {text name : String} {vars : Storage} {o : Operand}

/-- A literal reads no variable. -/
theorem wellFormed_literal {v : Value} (count : Nat) (h : v.handle? = none) :
    (literal v).WellFormed count := by
  refine ⟨by simp [varIds], fun w hw => ?_, fun _ heq => by cases heq⟩
  cases hw
  exact h

/-- An expression is a literal or the code of a term. -/
theorem expression_eq_ok (h : expression text vars = .ok o) : o.WellFormed vars.kinds.length := by
  obtain ⟨f, hf, h⟩ := bind_eq_ok.1 h
  obtain ⟨hgenerated, hknown⟩ := Formula.compile_eq_ok hf
  split at h
  next v hv =>
    cases h
    refine wellFormed_literal _ ?_
    obtain ⟨t, ht⟩ := hgenerated
    unfold Formula.constant? at hv
    split at hv
    next w hcode =>
      cases hv
      exact (Term.generate_emits ht).plain_of_literal hcode
    next => cases hv
  next =>
    cases h
    refine ⟨fun id hid => ?_, fun _ hw => (by cases hw), fun f' hf' => ?_⟩
    · obtain ⟨p, hp, rfl⟩ := List.mem_map.1 hid
      exact hknown p hp
    · cases hf'
      exact hgenerated

theorem wellFormed_var {count : Nat} {id : VarId} (h : id < count) :
    (var id).WellFormed count :=
  ⟨by simpa [varIds] using h, fun _ heq => (by cases heq), fun _ heq => by cases heq⟩

theorem wellFormed_char {count : Nat} {id : VarId} (h : id < count) :
    (char id).WellFormed count :=
  ⟨by simpa [varIds] using h, fun _ heq => (by cases heq), fun _ heq => by cases heq⟩

/-- A text reads no variable. -/
theorem wellFormed_text (count : Nat) (s : String) : (Operand.text s).WellFormed count :=
  ⟨by simp [varIds], fun _ heq => (by cases heq), fun _ heq => by cases heq⟩

/-- A variable read as a character is an integer. -/
theorem character_eq_ok (h : character name vars = .ok o) :
    ∃ id, vars.id name = .ok id ∧ o = .char id ∧ vars.kinds[id]? = some .int := by
  obtain ⟨id, hid, h⟩ := bind_eq_ok.1 h
  obtain ⟨v, hv, h⟩ := bind_eq_ok.1 h
  split at h
  next hkind =>
    cases h
    exact ⟨id, hid, rfl, hkind ▸ Storage.kinds_of_get hv⟩
  next => cases h

/-- Whatever form an operand has, what it reads is there. -/
theorem ofText_eq_ok (h : ofText text vars = .ok o) : o.WellFormed vars.kinds.length := by
  unfold ofText at h
  split at h
  next =>
    split at h
    next =>
      split at h
      next => cases h
      next =>
        cases h
        exact wellFormed_text _ _
    next => cases h
  next =>
    split at h
    next =>
      split at h
      next =>
        obtain ⟨id, hid, rfl, -⟩ := character_eq_ok h
        exact wellFormed_char (Storage.lt_of_id hid)
      next => cases h
    next =>
      split at h
      next id hid =>
        split at h
        next v hv =>
          split at h
          next => exact expression_eq_ok h
          next =>
            cases h
            exact wellFormed_var (Storage.lt_of_get (Storage.get_eq_ok_iff.2 hv))
        next => exact expression_eq_ok h
      next => exact expression_eq_ok h

end Operand

namespace Compiler

variable {vars : Storage} {size : Nat} {c : Call} {id : VarId} {o : Operand}

/-- One after the other. -/
theorem operands_eq_ok : ∀ {texts : List String} {os : List Operand},
    operands vars texts = .ok os → ∀ o ∈ os, o.WellFormed vars.kinds.length
  | [], os, h => by
      cases h
      simp
  | text :: texts, os, h => by
      obtain ⟨o, ho, h⟩ := bind_eq_ok.1 h
      obtain ⟨more, hmore, h⟩ := bind_eq_ok.1 h
      cases h
      intro o' ho'
      rcases List.mem_cons.1 ho' with rfl | ho'
      · exact Operand.ofText_eq_ok ho
      · exact operands_eq_ok hmore o' ho'

theorem address_eq_ok {text : String} (h : address vars text = .ok o) :
    o.WellFormed vars.kinds.length := by
  obtain ⟨o', ho, h⟩ := bind_eq_ok.1 h
  split at h
  next =>
    cases h
    exact Operand.expression_eq_ok ho
  next => cases h

/-- An entity is assigned from a variable, which is there. -/
theorem source_eq_ok {kind : Kind} {component : Option String} {text : String}
    (h : source vars kind component text = .ok o) : o.WellFormed vars.kinds.length := by
  unfold source at h
  split at h
  next => exact Operand.expression_eq_ok h
  next =>
    obtain ⟨id, hid, h⟩ := bind_eq_ok.1 h
    obtain ⟨v, hv, h⟩ := bind_eq_ok.1 h
    split at h
    next =>
      cases h
      exact Operand.wellFormed_var (Storage.lt_of_id hid)
    next => cases h

-- ========================================================= return variables

/-- A variable that may be assigned is there. -/
theorem writable_lt {name : String} (h : writable vars name = .ok id) :
    id < vars.kinds.length := by
  obtain ⟨id', hid, h⟩ := bind_eq_ok.1 h
  obtain ⟨v, hv, h⟩ := bind_eq_ok.1 h
  split at h
  next => cases h
  next =>
    cases h
    exact Storage.lt_of_id hid

theorem returnVar_lt (h : returnVar vars c = .ok id) : id < vars.kinds.length := by
  unfold returnVar at h
  split at h
  next => exact writable_lt h
  next => cases h

/-- The kind that was asked for is that of the variable. -/
theorem returnVarOf_kind {kind : Kind} (h : returnVarOf vars c kind = .ok id) :
    vars.kinds[id]? = some kind := by
  obtain ⟨id', hid, h⟩ := bind_eq_ok.1 h
  obtain ⟨v, hv, h⟩ := bind_eq_ok.1 h
  split at h
  next hkind =>
    cases h
    exact hkind ▸ Storage.kinds_of_get hv
  next => cases h

theorem timeVar_lt {whole : Bool} (h : timeVar vars c whole = .ok id) :
    id < vars.kinds.length := by
  obtain ⟨-, -, h⟩ := bind_eq_ok.1 h
  obtain ⟨id', hid, h⟩ := bind_eq_ok.1 h
  obtain ⟨v, hv, h⟩ := bind_eq_ok.1 h
  split at h
  next =>
    cases h
    exact returnVar_lt hid
  next => cases h

/-- The variable for a result is there, if one is named. -/
theorem methodReturn_lt {method : String} {returns : Returns} {ret : Option VarId}
    (h : methodReturn vars c method returns = .ok ret) :
    ∀ id ∈ ret.toList, id < vars.kinds.length := by
  unfold methodReturn at h
  split at h
  next =>
    cases h
    simp
  next name =>
    obtain ⟨id, hid, h⟩ := bind_eq_ok.1 h
    obtain ⟨v, hv, h⟩ := bind_eq_ok.1 h
    have hlt : ∀ id' ∈ (some id).toList, id' < vars.kinds.length := by
      simpa using writable_lt hid
    split at h
    next => cases h
    next =>
      cases h
      exact hlt
    next =>
      split at h
      next =>
        cases h
        exact hlt
      next => cases h

/-- Input is taken into a variable that is there, as a character only into an
integer. -/
theorem intake_eq_ok {text : String} {target : Intake} (h : intake vars text = .ok target) :
    target.id < vars.kinds.length
      ∧ ∀ id, target = .char id → vars.kinds[id]? = some .int := by
  unfold intake at h
  split at h
  next name hname =>
    obtain ⟨id, hid, h⟩ := bind_eq_ok.1 h
    obtain ⟨o, ho, h⟩ := bind_eq_ok.1 h
    cases h
    obtain ⟨id', hid', -, hkind⟩ := Operand.character_eq_ok ho
    rw [hid] at hid'
    cases hid'
    refine ⟨Storage.lt_of_id hid, fun id' heq => ?_⟩
    cases heq
    exact hkind
  next =>
    obtain ⟨id, hid, h⟩ := bind_eq_ok.1 h
    obtain ⟨v, hv, h⟩ := bind_eq_ok.1 h
    split at h
    next =>
      cases h
      exact ⟨Storage.lt_of_id hid, fun _ heq => by cases heq⟩
    next => cases h

-- ========================================================== instructions

section

variable {l : Line} {i : Instruction}

/-- An instruction with one operand and one target, which it converts
to. -/
theorem wellFormed_store {kinds : List Kind} (htargets : i.targets = [id])
    (hoperands : i.operands = [o]) (hstores : i.stores = []) (hlines : i.lines = [])
    (hid : id < kinds.length) (ho : o.WellFormed kinds.length) : i.WellFormed kinds size where
  targets := by simpa [htargets] using hid
  operands := by simpa [hoperands] using ho
  typed := by simp [hstores]
  lines := by simp [hlines]

/-- A declaration yields what stores the value in the variable that it
adds. -/
theorem declare_eq_ok {vars' : Storage} (h : (declare l).run vars = .ok i vars') :
    i.WellFormed vars'.kinds size ∧ Storage.Grows size vars vars' := by
  unfold declare at h
  split at h
  next word name value _ =>
    simp only at h
    split at h
    next => cases h
    next =>
      obtain ⟨name', hname, h⟩ := InPlace.check_bind_eq_ok.1 h
      obtain ⟨o, ho, h⟩ := InPlace.look_bind_eq_ok.1 h
      obtain ⟨id, vars₁, hadd, h⟩ := InPlace.bind_eq_ok.1 h
      have hadd := InPlace.once_eq_ok.1 hadd
      cases h
      have hgrows : Storage.Grows size vars vars' := Storage.grows_add hadd fun w hw =>
        fresh_zero hw
      have ho' := (source_eq_ok ho).mono hgrows.kinds.length_le
      exact ⟨wellFormed_store rfl rfl rfl rfl (Storage.lt_of_add hadd) ho', hgrows⟩
  next => cases h

theorem assign_eq_ok (h : assign vars l = .ok i) : i.WellFormed vars.kinds size := by
  unfold assign at h
  split at h
  next =>
    obtain ⟨id, hid, h⟩ := bind_eq_ok.1 h
    obtain ⟨v, hv, h⟩ := bind_eq_ok.1 h
    split at h
    next =>
      obtain ⟨o, ho, h⟩ := bind_eq_ok.1 h
      cases h
      exact wellFormed_store rfl rfl rfl rfl (writable_lt hid) (source_eq_ok ho)
    next => cases h
  next => cases h

/-- A jump goes to where its label is bound, which is within the script. -/
theorem jump_eq_ok (h : jump vars l = .ok i) (hlines : vars.LinesWithin size) :
    i.WellFormed vars.kinds size := by
  unfold jump at h
  split at h
  next =>
    obtain ⟨v, hv, h⟩ := bind_eq_ok.1 h
    obtain ⟨id, -, hget⟩ := bind_eq_ok.1 hv
    split at h
    next target _ hvalue =>
      obtain ⟨o, ho, h⟩ := bind_eq_ok.1 h
      cases h
      have hmem : v ∈ vars.vars := List.mem_of_getElem? (Storage.get_eq_ok_iff.1 hget)
      exact ⟨by simp [Instruction.targets],
        by simpa [Instruction.operands] using Operand.expression_eq_ok ho,
        by simp [Instruction.stores],
        by simpa [Instruction.lines] using hlines v hmem target hvalue⟩
    next => cases h
  next => cases h

/-- A reading of the clock goes to a variable that is there. -/
theorem time_eq_ok {op : TimeOp} (h : time vars c = .ok op) :
    (Instruction.time op).WellFormed vars.kinds size := by
  have hread : ∀ {whole : Bool} {f : VarId → TimeOp}, (timeVar vars c whole).map f = .ok op →
      (∀ id, (f id).targets = [id]) → (∀ id, (f id).operands = []) →
      (Instruction.time op).WellFormed vars.kinds size := by
    intro whole f h htargets hoperands
    obtain ⟨id, hid, rfl⟩ := map_eq_ok.1 h
    exact ⟨by simpa [Instruction.targets, htargets] using timeVar_lt hid,
      by simp [Instruction.operands, hoperands], by simp [Instruction.stores],
      by simp [Instruction.lines]⟩
  unfold time at h
  split at h
  next => exact hread h (fun _ => rfl) fun _ => rfl
  next => exact hread h (fun _ => rfl) fun _ => rfl
  next => exact hread h (fun _ => rfl) fun _ => rfl
  next =>
    obtain ⟨arg, -, h⟩ := bind_eq_ok.1 h
    obtain ⟨-, -, h⟩ := bind_eq_ok.1 h
    obtain ⟨o, ho, h⟩ := bind_eq_ok.1 h
    cases h
    exact ⟨by simp [Instruction.targets, TimeOp.targets],
      by simpa [Instruction.operands, TimeOp.operands] using Operand.expression_eq_ok ho,
      by simp [Instruction.stores], by simp [Instruction.lines]⟩
  next => cases h

/-- Console functions without operands and targets. -/
theorem wellFormed_plain {kinds : List Kind} {op : ConsoleOp} (htargets : op.targets = [])
    (hoperands : op.operands = []) : (Instruction.console op).WellFormed kinds size := by
  refine ⟨by simp [Instruction.targets, htargets], by simp [Instruction.operands, hoperands],
    ?_, by simp [Instruction.lines]⟩
  cases op with
  | pop | canPop => cases htargets
  | _ => simp [Instruction.stores]

/-- A console function without arguments is compiled to itself. -/
theorem plain_eq_ok {op op' : ConsoleOp} (h : plain c op = .ok op') : op' = op := by
  obtain ⟨-, -, h⟩ := bind_eq_ok.1 h
  obtain ⟨-, -, h⟩ := bind_eq_ok.1 h
  cases h
  rfl

/-- A value is popped into a variable that can take it. -/
theorem wellFormed_pop {target : Intake} (hlt : target.id < vars.kinds.length)
    (hchar : ∀ id, target = .char id → vars.kinds[id]? = some .int) :
    (Instruction.console (.pop target)).WellFormed vars.kinds size := by
  refine ⟨by simpa [Instruction.targets, ConsoleOp.targets] using hlt,
    by simp [Instruction.operands, ConsoleOp.operands], ?_, by simp [Instruction.lines]⟩
  cases target with
  | char id => simpa [Instruction.stores] using hchar id rfl
  | number id => simp [Instruction.stores]

/-- Whether a value can be popped is stored as a truth value. -/
theorem wellFormed_canPop {probe : Intake} {dest : VarId}
    (hprobe : probe.id < vars.kinds.length) (hkind : vars.kinds[dest]? = some .bool) :
    (Instruction.console (.canPop probe dest)).WellFormed vars.kinds size := by
  have hlt : dest < vars.kinds.length := (List.getElem?_eq_some_iff.1 hkind).1
  exact ⟨by simpa [Instruction.targets, ConsoleOp.targets] using ⟨hprobe, hlt⟩,
    by simp [Instruction.operands, ConsoleOp.operands],
    by simpa [Instruction.stores] using hkind, by simp [Instruction.lines]⟩

/-- Each console function is well formed by its arguments and its return
variable. -/
theorem console_eq_ok {op : ConsoleOp} (h : console vars c = .ok op) :
    (Instruction.console op).WellFormed vars.kinds size := by
  unfold console at h
  split at h
  next =>
    cases plain_eq_ok h
    exact wellFormed_plain rfl rfl
  next =>
    cases plain_eq_ok h
    exact wellFormed_plain rfl rfl
  next =>
    cases plain_eq_ok h
    exact wellFormed_plain rfl rfl
  next =>
    cases plain_eq_ok h
    exact wellFormed_plain rfl rfl
  next =>
    -- `clear` with the name of a buffer
    obtain ⟨arg, -, h⟩ := bind_eq_ok.1 h
    obtain ⟨-, -, h⟩ := bind_eq_ok.1 h
    obtain ⟨o, -, h⟩ := bind_eq_ok.1 h
    split at h
    next =>
      cases h
      exact wellFormed_plain rfl rfl
    next =>
      cases h
      exact wellFormed_plain rfl rfl
    next => cases h
  next =>
    -- `pop`
    obtain ⟨-, -, h⟩ := bind_eq_ok.1 h
    split at h
    next name _ =>
      obtain ⟨target, htarget, h⟩ := bind_eq_ok.1 h
      obtain ⟨v, -, h⟩ := bind_eq_ok.1 h
      obtain ⟨hlt, hchar⟩ := intake_eq_ok htarget
      split at h
      next => cases h
      next =>
        cases h
        exact wellFormed_pop hlt hchar
    next => cases h
  next =>
    -- `can_pop`
    obtain ⟨arg, -, h⟩ := bind_eq_ok.1 h
    obtain ⟨dest, hdest, h⟩ := bind_eq_ok.1 h
    obtain ⟨probe, hprobe, h⟩ := bind_eq_ok.1 h
    cases h
    exact wellFormed_canPop (intake_eq_ok hprobe).1 (returnVarOf_kind hdest)
  next =>
    -- `push`
    split at h
    next => cases h
    next =>
      obtain ⟨-, -, h⟩ := bind_eq_ok.1 h
      obtain ⟨os, hos, h⟩ := bind_eq_ok.1 h
      cases h
      exact ⟨by simp [Instruction.targets, ConsoleOp.targets],
        by simpa [Instruction.operands, ConsoleOp.operands] using operands_eq_ok hos,
        by simp [Instruction.stores], by simp [Instruction.lines]⟩
  next =>
    cases h
    exact wellFormed_plain rfl rfl
  next => cases h

theorem memoryVar_lt {name : String} (h : memoryVar vars name = .ok id) :
    id < vars.kinds.length := by
  obtain ⟨id', hid, h⟩ := bind_eq_ok.1 h
  obtain ⟨v, -, h⟩ := bind_eq_ok.1 h
  split at h
  next =>
    cases h
    exact Storage.lt_of_id hid
  next => cases h

/-- Looking at a cell. The result goes to a variable whose kind is known,
except that of `get`. -/
theorem wellFormed_recall {device : Option VarId} {addr : Operand} {dest : VarId} {op : MemoryOp}
    (hdevice : ∀ id ∈ device.toList, id < vars.kinds.length)
    (haddr : addr.WellFormed vars.kinds.length) (hdest : dest < vars.kinds.length)
    (htargets : op.targets = [dest]) (hoperands : op.operands = [addr])
    (hstores : ∀ store ∈ (Instruction.memory device op).stores,
      vars.kinds[store.1]? = some store.2) :
    (Instruction.memory device op).WellFormed vars.kinds size := by
  refine ⟨fun id hid => ?_, by simpa [Instruction.operands, hoperands] using haddr, hstores,
    by simp [Instruction.lines]⟩
  rcases List.mem_append.1 hid with hid | hid
  · exact hdevice id hid
  · rw [htargets, List.mem_singleton] at hid
    rw [hid]
    exact hdest

/-- Each memory function is well formed by its device, its operands and its
return variable. -/
theorem memoryOp_eq_ok {method : String} {op : MemoryOp} (h : memoryOp vars c method = .ok op)
    {device : Option VarId} (hdevice : ∀ id ∈ device.toList, id < vars.kinds.length) :
    (Instruction.memory device op).WellFormed vars.kinds size := by
  unfold memoryOp at h
  split at h
  next =>
    obtain ⟨arg, -, h⟩ := bind_eq_ok.1 h
    obtain ⟨addr, haddr, h⟩ := bind_eq_ok.1 h
    obtain ⟨dest, hdest, h⟩ := bind_eq_ok.1 h
    cases h
    exact wellFormed_recall hdevice (address_eq_ok haddr) (returnVar_lt hdest) rfl rfl
      (by simp [Instruction.stores])
  next =>
    obtain ⟨arg, -, h⟩ := bind_eq_ok.1 h
    obtain ⟨addr, haddr, h⟩ := bind_eq_ok.1 h
    obtain ⟨dest, hdest, h⟩ := bind_eq_ok.1 h
    cases h
    have hkind := returnVarOf_kind hdest
    exact wellFormed_recall hdevice (address_eq_ok haddr) (List.getElem?_eq_some_iff.1 hkind).1
      rfl rfl (by simpa [Instruction.stores] using hkind)
  next =>
    obtain ⟨arg, -, h⟩ := bind_eq_ok.1 h
    obtain ⟨addr, haddr, h⟩ := bind_eq_ok.1 h
    obtain ⟨dest, hdest, h⟩ := bind_eq_ok.1 h
    cases h
    have hkind := returnVarOf_kind hdest
    exact wellFormed_recall hdevice (address_eq_ok haddr) (List.getElem?_eq_some_iff.1 hkind).1
      rfl rfl (by simpa [Instruction.stores] using hkind)
  next =>
    obtain ⟨⟨first, second⟩, -, h⟩ := bind_eq_ok.1 h
    obtain ⟨-, -, h⟩ := bind_eq_ok.1 h
    obtain ⟨value, hvalue, h⟩ := bind_eq_ok.1 h
    have hvalue' := Operand.ofText_eq_ok hvalue
    split at h
    next => cases h
    next => cases h
    next =>
      obtain ⟨addr, haddr, h⟩ := bind_eq_ok.1 h
      cases h
      exact ⟨by simpa [Instruction.targets, MemoryOp.targets] using hdevice,
        by simpa [Instruction.operands, MemoryOp.operands] using ⟨address_eq_ok haddr, hvalue'⟩,
        by simp [Instruction.stores], by simp [Instruction.lines]⟩
  next =>
    obtain ⟨arg, -, h⟩ := bind_eq_ok.1 h
    obtain ⟨-, -, h⟩ := bind_eq_ok.1 h
    obtain ⟨addr, haddr, h⟩ := bind_eq_ok.1 h
    cases h
    exact ⟨by simpa [Instruction.targets, MemoryOp.targets] using hdevice,
      by simpa [Instruction.operands, MemoryOp.operands] using address_eq_ok haddr,
      by simp [Instruction.stores], by simp [Instruction.lines]⟩
  next => cases h

theorem memory_eq_ok (h : memory vars c = .ok i) : i.WellFormed vars.kinds size := by
  unfold memory at h
  split at h
  next =>
    obtain ⟨op, hop, rfl⟩ := map_eq_ok.1 h
    exact memoryOp_eq_ok hop (by simp)
  next =>
    obtain ⟨id, hid, h⟩ := bind_eq_ok.1 h
    obtain ⟨op, hop, rfl⟩ := map_eq_ok.1 h
    exact memoryOp_eq_ok hop (by simpa using memoryVar_lt hid)
  next => cases h

/-- A call is well formed by its target, its operands and its return variable.
-/
theorem methodCall_eq_ok {registry : Registry} {target method : String}
    (h : methodCall registry vars c target method = .ok i) : i.WellFormed vars.kinds size := by
  obtain ⟨id, hid, h⟩ := bind_eq_ok.1 h
  obtain ⟨v, -, h⟩ := bind_eq_ok.1 h
  obtain ⟨typeName, -, h⟩ := bind_eq_ok.1 h
  split at h
  next => cases h
  next m _ =>
    simp only at h
    split at h
    next =>
      obtain ⟨args, hargs, h⟩ := bind_eq_ok.1 h
      obtain ⟨ret, hret, h⟩ := bind_eq_ok.1 h
      cases h
      refine ⟨fun id' hid' => ?_, operands_eq_ok hargs, by simp [Instruction.stores],
        by simp [Instruction.lines]⟩
      rcases List.mem_cons.1 hid' with rfl | hid'
      · exact Storage.lt_of_id hid
      · exact methodReturn_lt hret id' hid'
    next => cases h

/-- An instruction that names and reads nothing. -/
theorem wellFormed_bare {kinds : List Kind} (htargets : i.targets = [])
    (hoperands : i.operands = []) (hstores : i.stores = []) (hlines : i.lines = []) :
    i.WellFormed kinds size where
  targets := by simp [htargets]
  operands := by simp [hoperands]
  typed := by simp [hstores]
  lines := by simp [hlines]

/-- A component that is created is a variable without a value. -/
theorem create_eq_ok {registry : Registry} {vars' : Storage}
    (h : (create registry c).run vars = .ok i vars') :
    i.WellFormed vars'.kinds size ∧ Storage.Grows size vars vars' := by
  obtain ⟨⟨first, second⟩, -, h⟩ := InPlace.check_bind_eq_ok.1 h
  obtain ⟨-, -, h⟩ := InPlace.check_bind_eq_ok.1 h
  obtain ⟨name, -, h⟩ := InPlace.look_bind_eq_ok.1 h
  obtain ⟨typeName, -, h⟩ := InPlace.look_bind_eq_ok.1 h
  split at h
  next =>
    obtain ⟨name', -, h⟩ := InPlace.check_bind_eq_ok.1 h
    split at h
    next => cases h
    next =>
      split at h
      next => cases h
      next =>
        obtain ⟨id, vars₁, hadd, h⟩ := InPlace.bind_eq_ok.1 h
        cases h
        exact ⟨wellFormed_bare rfl rfl rfl rfl,
          Storage.grows_add_null (InPlace.once_eq_ok.1 hadd) rfl⟩
  next => cases h

theorem component_eq_ok {registry : Registry} {vars' : Storage}
    (h : (component registry c).run vars = .ok i vars') :
    i.WellFormed vars'.kinds size ∧ Storage.Grows size vars vars' := by
  unfold component at h
  split at h
  next => exact create_eq_ok h
  next =>
    split at h
    next =>
      obtain ⟨hi, rfl⟩ := InPlace.look_eq_ok.1 h
      exact ⟨methodCall_eq_ok hi, .refl _⟩
    next => cases h

/-- A compiled line is well formed, and declares fresh variables only. -/
theorem line_eq_ok {registry : Registry} {vars' : Storage}
    (h : (line registry l).run vars = .ok i vars') (hlines : vars.LinesWithin size) :
    i.WellFormed vars'.kinds size ∧ Storage.Grows size vars vars' := by
  unfold line at h
  split at h
  next => exact declare_eq_ok h
  next =>
    obtain ⟨hi, rfl⟩ := InPlace.look_eq_ok.1 h
    exact ⟨assign_eq_ok hi, .refl _⟩
  next =>
    obtain ⟨hi, rfl⟩ := InPlace.look_eq_ok.1 h
    exact ⟨jump_eq_ok hi hlines, .refl _⟩
  next =>
    split at h
    next =>
      cases h
      exact ⟨wellFormed_bare rfl rfl rfl rfl, .refl _⟩
    next => cases h
  next =>
    obtain ⟨c, -, h⟩ := InPlace.check_bind_eq_ok.1 h
    obtain ⟨h, rfl⟩ := InPlace.look_eq_ok.1 h
    obtain ⟨op, hop, rfl⟩ := map_eq_ok.1 h
    exact ⟨time_eq_ok hop, .refl _⟩
  next =>
    obtain ⟨c, -, h⟩ := InPlace.check_bind_eq_ok.1 h
    obtain ⟨h, rfl⟩ := InPlace.look_eq_ok.1 h
    obtain ⟨op, hop, rfl⟩ := map_eq_ok.1 h
    exact ⟨console_eq_ok hop, .refl _⟩
  next =>
    obtain ⟨c, -, h⟩ := InPlace.check_bind_eq_ok.1 h
    obtain ⟨hi, rfl⟩ := InPlace.look_eq_ok.1 h
    exact ⟨memory_eq_ok hi, .refl _⟩
  next =>
    obtain ⟨c, -, h⟩ := InPlace.check_bind_eq_ok.1 h
    exact component_eq_ok h
  next => cases h

end

end Compiler

end TickScript
