/-
Readonly variables are no destinations.

A line that stores a result names the variable that it goes to
(`Line.destination?`), and the compiler looks this variable up in one of a
few ways. Each refuses a readonly one, so for every function that compiles
a line with a result, the variables that the instruction puts its result
into may be assigned, and so may the one that the line names
(`Compiler.Respects`). What a line does to the variables themselves is to
add some (`Storage.Adds`), so names keep what they stand for.
-/
import TickScript.Proofs.Processor.Effects
import TickScript.Proofs.Script.Compile

namespace TickScript

-- ============================================================= variables

/-- A variable as a line of a script declares it: a label, one of `var`, or
one of `comp create`. -/
inductive Variable.Declared : Variable → Prop where
  | label (name : String) (line : Nat) : Declared (.label name line)
  | var (name word : String) (readonly : Bool) :
      Declared (.zeroed name (Kind.ofWord word) readonly)
  | component (name typeName : String) : Declared (.ofComponent name typeName)

namespace Storage

variable {s s' s'' : Storage} {id : VarId} {name : String} {v : Variable}

/-- The variable is there and is not readonly. -/
def Assignable (s : Storage) (id : VarId) : Prop :=
  ∃ v, s.get? id = some v ∧ v.readonly = false

/-- The name is that of a readonly variable. -/
def Readonly (s : Storage) (name : String) : Prop :=
  ∃ id v, s.id? name = some id ∧ s.get? id = some v ∧ v.readonly = true

/-- Looking a name up succeeds when there is a variable with it. -/
theorem id_eq_ok_iff : s.id name = .ok id ↔ s.id? name = some id := by
  unfold Storage.id
  cases s.id? name with
  | none => simp
  | some id' => simp

/-- Variables keep their places when others are added. -/
theorem get?_extend (h : s.vars <+: s'.vars) (hget : s.get? id = some v) :
    s'.get? id = some v := by
  obtain ⟨added, hadded⟩ := h
  have hlt := (List.getElem?_eq_some_iff.1 hget).1
  show s'.vars[id]? = some v
  rw [← hadded, List.getElem?_append_left hlt]
  exact hget

/-- Names stand for the same variables when others are added. -/
theorem id?_extend (h : s.vars <+: s'.vars) (hid : s.id? name = some id) :
    s'.id? name = some id := by
  obtain ⟨added, hadded⟩ := h
  unfold id? at hid ⊢
  rw [← hadded, List.findIdx?_append, hid]
  rfl

/-- A readonly variable stays readonly when others are added. -/
theorem Readonly.extend (h : s.vars <+: s'.vars) (hs : s.Readonly name) : s'.Readonly name := by
  obtain ⟨id, v, hid, hget, hreadonly⟩ := hs
  exact ⟨id, v, id?_extend h hid, get?_extend h hget, hreadonly⟩

/-- Adding puts a variable at the end. -/
theorem extends_add (h : s.add v = .ok (id, s')) : s.vars <+: s'.vars := by
  obtain ⟨-, rfl⟩ := add_eq_ok h
  exact ⟨[v], rfl⟩

/-- Variables were added, as lines of a script declare them. -/
def Adds (s s' : Storage) : Prop := ∃ added, s'.vars = s.vars ++ added ∧ ∀ v ∈ added, v.Declared

theorem Adds.refl (s : Storage) : Adds s s := ⟨[], by simp, by simp⟩

/-- What is added later comes after. -/
theorem Adds.trans (h : Adds s s') (h' : Adds s' s'') : Adds s s'' := by
  obtain ⟨added, hadded, hdeclared⟩ := h
  obtain ⟨more, hmore, hdeclared'⟩ := h'
  refine ⟨added ++ more, by rw [hmore, hadded, List.append_assoc], fun v hv => ?_⟩
  exact (List.mem_append.1 hv).elim (hdeclared v) (hdeclared' v)

/-- The variables that there were stay where they are. -/
theorem Adds.extends (h : Adds s s') : s.vars <+: s'.vars := by
  obtain ⟨added, hadded, -⟩ := h
  exact ⟨added, hadded.symm⟩

/-- To add one variable that a line declares is to add variables. -/
theorem adds_add (h : s.add v = .ok (id, s')) (hv : v.Declared) : Adds s s' := by
  obtain ⟨-, rfl⟩ := add_eq_ok h
  refine ⟨[v], rfl, fun v' hv' => ?_⟩
  cases List.mem_singleton.1 hv'
  exact hv

/-- The index that adding gives back is that of the new variable. -/
theorem get?_add (h : s.add v = .ok (id, s')) : s'.get? id = some v := by
  obtain ⟨rfl, rfl⟩ := add_eq_ok h
  exact List.getElem?_concat_length

/-- A variable that was added is found by its name. -/
theorem id?_add (h : s.add v = .ok (id, s')) : s'.id? v.name = some id := by
  obtain ⟨rfl, rfl⟩ := add_eq_ok h
  have hnew : s.id? v.name = none := by
    unfold add at h
    split at h
    next => cases h
    next hfree => simpa [contains] using hfree
  unfold id? at hnew ⊢
  simp [List.findIdx?_append, hnew]

end Storage

-- ================================================================ naming

/-- The variable that a call of the console names for its result. A pop
may have it in single quotes, and a filter ignores it. -/
def Call.consoleDestination? (c : Call) : Option String :=
  match c.name with
  | "filter" => none
  | "pop" => c.ret.map fun ret => (Text.insideQuotes '\'' ret).getD ret
  | _ => c.ret

namespace Line

/-- The variable that a line other than a declaration names as the one to
be set or to take a result. -/
def destination? (l : Line) : Option String :=
  match l.keyword with
  | "set" => (l.split 3)[1]?
  | "time" | "memory" | "comp" => (Call.parse l.text).toOption.bind Call.ret
  | "console" => (Call.parse l.text).toOption.bind Call.consoleDestination?
  | _ => none

/-- The name that a `var` line declares. -/
def declared? (l : Line) : Option Name :=
  match l.keyword, l.split 4 with
  | "var", [_, _, name, _] => (Name.check name).toOption
  | _, _ => none

/-- The readonly variable that a line declares: a label, or one whose name
is in braces. -/
def readonly? (l : Line) : Option String :=
  if l.isLabel then (Compiler.labelName l).toOption
  else l.declared?.bind fun name => if name.readonly then some name.name else none

end Line

namespace Compiler

variable {vars vars' : Storage} {c : Call} {id : VarId} {i : Instruction} {name : String}
  {name? : Option String} {l : Line} {registry : Registry}

/-- The instruction writes to variables that may be assigned, and a
variable that is named for a result may be assigned. -/
structure Respects (vars : Storage) (name? : Option String) (i : Instruction) : Prop where
  written : ∀ id ∈ i.written, vars.Assignable id
  named : ∀ name, name? = some name → ∃ id, vars.id? name = some id ∧ vars.Assignable id

/-- A line that names no destination, and writes to none. -/
theorem Respects.of_none (hname : name? = none) (hi : i.written = []) :
    Respects vars name? i where
  written := by simp [hi]
  named := by simp [hname]

/-- A line that names one destination, which is looked up and may be assigned.
-/
theorem Respects.of_some (hname : name? = some name) (hi : i.written = [id])
    (hid : vars.id? name = some id) (hassignable : vars.Assignable id) :
    Respects vars name? i where
  written := by simpa [hi] using hassignable
  named name' hname' := by
    rw [hname] at hname'
    cases hname'
    exact ⟨id, hid, hassignable⟩

-- ======================================================= looking variables up

theorem writable_eq_ok (h : writable vars name = .ok id) :
    vars.id? name = some id ∧ vars.Assignable id := by
  obtain ⟨id', hid, h⟩ := bind_eq_ok.1 h
  obtain ⟨v, hv, h⟩ := bind_eq_ok.1 h
  split at h
  next => cases h
  next hreadonly =>
    cases h
    exact ⟨Storage.id_eq_ok_iff.1 hid, v, Storage.get_eq_ok_iff.1 hv, by simpa using hreadonly⟩

/-- The variable is the one that the call names, and may be assigned. -/
def Returned (vars : Storage) (c : Call) (id : VarId) : Prop :=
  ∃ name, c.ret = some name ∧ vars.id? name = some id ∧ vars.Assignable id

theorem Returned.respects (h : Returned vars c id) (hi : i.written = [id]) :
    Respects vars c.ret i := by
  obtain ⟨name, hret, hid, hassignable⟩ := h
  exact .of_some hret hi hid hassignable

theorem returnVar_returned (h : returnVar vars c = .ok id) : Returned vars c id := by
  unfold returnVar at h
  split at h
  next name hret => exact ⟨name, hret, writable_eq_ok h⟩
  next => cases h

theorem returnVarOf_returned {kind : Kind} (h : returnVarOf vars c kind = .ok id) :
    Returned vars c id := by
  obtain ⟨id', hid, h⟩ := bind_eq_ok.1 h
  obtain ⟨v, -, h⟩ := bind_eq_ok.1 h
  split at h
  next =>
    cases h
    exact returnVar_returned hid
  next => cases h

/-- A reading of the clock goes to the return variable. -/
theorem timeVar_returned {whole : Bool} (h : timeVar vars c whole = .ok id) :
    Returned vars c id := by
  obtain ⟨-, -, h⟩ := bind_eq_ok.1 h
  obtain ⟨id', hid, h⟩ := bind_eq_ok.1 h
  obtain ⟨v, -, h⟩ := bind_eq_ok.1 h
  split at h
  next =>
    cases h
    exact returnVar_returned hid
  next => cases h

/-- Where no return variable is allowed, there is none. -/
theorem noReturn_eq_ok {u : Unit} (h : noReturn c = .ok u) : c.ret = none := by
  unfold noReturn at h
  split at h
  next => cases h
  next hret => exact hret

/-- What a method returns goes to the return variable, if there is one. -/
theorem methodReturn_respects {target : VarId} {method : String} {returns : Returns}
    {args : List Operand} {ret : Option VarId}
    (h : methodReturn vars c method returns = .ok ret) :
    Respects vars c.ret (.call target method args ret) := by
  unfold methodReturn at h
  split at h
  next hret =>
    cases h
    exact .of_none hret rfl
  next name hret =>
    obtain ⟨id, hid, h⟩ := bind_eq_ok.1 h
    obtain ⟨v, -, h⟩ := bind_eq_ok.1 h
    have hreturned : Returned vars c id := ⟨name, hret, writable_eq_ok hid⟩
    split at h
    next => cases h
    next =>
      cases h
      exact hreturned.respects rfl
    next =>
      split at h
      next =>
        cases h
        exact hreturned.respects rfl
      next => cases h

/-- What is popped into is what the text names, in quotes or without. -/
theorem intake_id {text : String} {target : Intake} (h : intake vars text = .ok target) :
    vars.id? ((Text.insideQuotes '\'' text).getD text) = some target.id := by
  unfold intake at h
  split at h
  next name hname =>
    obtain ⟨id, hid, h⟩ := bind_eq_ok.1 h
    obtain ⟨o, -, h⟩ := bind_eq_ok.1 h
    cases h
    rw [hname]
    exact Storage.id_eq_ok_iff.1 hid
  next hname =>
    obtain ⟨id, hid, h⟩ := bind_eq_ok.1 h
    obtain ⟨v, -, h⟩ := bind_eq_ok.1 h
    split at h
    next =>
      cases h
      rw [hname]
      exact Storage.id_eq_ok_iff.1 hid
    next => cases h

-- ================================================================= lines

/-- An assignment goes to the variable that its line names. -/
theorem assign_respects (h : assign vars l = .ok i) : Respects vars (l.split 3)[1]? i := by
  unfold assign at h
  split at h
  next first name value hsplit =>
    obtain ⟨id, hid, h⟩ := bind_eq_ok.1 h
    obtain ⟨v, -, h⟩ := bind_eq_ok.1 h
    obtain ⟨hid', hassignable⟩ := writable_eq_ok hid
    split at h
    next =>
      obtain ⟨o, -, h⟩ := bind_eq_ok.1 h
      cases h
      exact .of_some (by rw [hsplit]; rfl) rfl hid' hassignable
    next => cases h
  next => cases h

theorem time_respects {op : TimeOp} (h : time vars c = .ok op) :
    Respects vars c.ret (.time op) := by
  have hread : ∀ {whole : Bool} {f : VarId → TimeOp}, (timeVar vars c whole).map f = .ok op →
      (∀ id, (f id).destinations = [id]) → Respects vars c.ret (.time op) := by
    intro whole f h hf
    obtain ⟨id, hid, rfl⟩ := map_eq_ok.1 h
    exact (timeVar_returned hid).respects (hf id)
  unfold time at h
  split at h
  next => exact hread h fun _ => rfl
  next => exact hread h fun _ => rfl
  next => exact hread h fun _ => rfl
  next =>
    obtain ⟨arg, -, h⟩ := bind_eq_ok.1 h
    obtain ⟨⟨⟩, hreturn, h⟩ := bind_eq_ok.1 h
    obtain ⟨o, -, h⟩ := bind_eq_ok.1 h
    cases h
    exact .of_none (noReturn_eq_ok hreturn) rfl
  next => cases h

theorem plain_respects {op op' : ConsoleOp} (h : plain c op = .ok op')
    (hname : c.consoleDestination? = c.ret) (hop : op.destinations = []) :
    Respects vars c.consoleDestination? (.console op') := by
  obtain rfl := plain_eq_ok h
  obtain ⟨-, -, h⟩ := bind_eq_ok.1 h
  obtain ⟨⟨⟩, hreturn, h⟩ := bind_eq_ok.1 h
  exact .of_none (hname.trans (noReturn_eq_ok hreturn)) hop

/-- What is popped, or found to be there, goes to the variable that the call
names. -/
theorem console_respects {op : ConsoleOp} (h : console vars c = .ok op) :
    Respects vars c.consoleDestination? (.console op) := by
  have hret : c.name ≠ "filter" → c.name ≠ "pop" → c.consoleDestination? = c.ret := by
    intro hfilter hpop
    unfold Call.consoleDestination?
    split
    next hname => exact absurd hname hfilter
    next hname => exact absurd hname hpop
    next => rfl
  unfold console at h
  split at h
  next hname => exact plain_respects h (hret (by simp [hname]) (by simp [hname])) rfl
  next hname => exact plain_respects h (hret (by simp [hname]) (by simp [hname])) rfl
  next hname => exact plain_respects h (hret (by simp [hname]) (by simp [hname])) rfl
  next hname => exact plain_respects h (hret (by simp [hname]) (by simp [hname])) rfl
  next hname =>
    -- `clear` with the name of a buffer
    obtain ⟨arg, -, h⟩ := bind_eq_ok.1 h
    obtain ⟨⟨⟩, hreturn, h⟩ := bind_eq_ok.1 h
    obtain ⟨o, -, h⟩ := bind_eq_ok.1 h
    have hnone : c.consoleDestination? = none :=
      (hret (by simp [hname]) (by simp [hname])).trans (noReturn_eq_ok hreturn)
    split at h
    next =>
      cases h
      exact .of_none hnone rfl
    next =>
      cases h
      exact .of_none hnone rfl
    next => cases h
  next hname =>
    -- `pop`, which checks for itself
    obtain ⟨-, -, h⟩ := bind_eq_ok.1 h
    split at h
    next name hname' =>
      obtain ⟨target, htarget, h⟩ := bind_eq_ok.1 h
      obtain ⟨v, hv, h⟩ := bind_eq_ok.1 h
      split at h
      next => cases h
      next hreadonly =>
        cases h
        have hdestination : c.consoleDestination?
            = some ((Text.insideQuotes '\'' name).getD name) := by
          simp [Call.consoleDestination?, hname, hname']
        exact .of_some hdestination rfl (intake_id htarget)
          ⟨v, Storage.get_eq_ok_iff.1 hv, by simpa using hreadonly⟩
    next => cases h
  next hname =>
    -- `can_pop`
    obtain ⟨arg, -, h⟩ := bind_eq_ok.1 h
    obtain ⟨dest, hdest, h⟩ := bind_eq_ok.1 h
    obtain ⟨probe, -, h⟩ := bind_eq_ok.1 h
    cases h
    rw [hret (by simp [hname]) (by simp [hname])]
    exact (returnVarOf_returned hdest).respects rfl
  next hname =>
    -- `push`
    split at h
    next => cases h
    next =>
      obtain ⟨⟨⟩, hreturn, h⟩ := bind_eq_ok.1 h
      obtain ⟨os, -, h⟩ := bind_eq_ok.1 h
      cases h
      exact .of_none ((hret (by simp [hname]) (by simp [hname])).trans (noReturn_eq_ok hreturn)) rfl
  next hname =>
    cases h
    exact .of_none (by simp [Call.consoleDestination?, hname]) rfl
  next => cases h

/-- What is read from a cell goes to the return variable; what is written goes
to none. -/
theorem memoryOp_respects {method : String} {op : MemoryOp} (device : Option VarId)
    (h : memoryOp vars c method = .ok op) : Respects vars c.ret (.memory device op) := by
  unfold memoryOp at h
  split at h
  next =>
    obtain ⟨arg, -, h⟩ := bind_eq_ok.1 h
    obtain ⟨addr, -, h⟩ := bind_eq_ok.1 h
    obtain ⟨dest, hdest, h⟩ := bind_eq_ok.1 h
    cases h
    exact (returnVar_returned hdest).respects rfl
  next =>
    obtain ⟨arg, -, h⟩ := bind_eq_ok.1 h
    obtain ⟨addr, -, h⟩ := bind_eq_ok.1 h
    obtain ⟨dest, hdest, h⟩ := bind_eq_ok.1 h
    cases h
    exact (returnVarOf_returned hdest).respects rfl
  next =>
    obtain ⟨arg, -, h⟩ := bind_eq_ok.1 h
    obtain ⟨addr, -, h⟩ := bind_eq_ok.1 h
    obtain ⟨dest, hdest, h⟩ := bind_eq_ok.1 h
    cases h
    exact (returnVarOf_returned hdest).respects rfl
  next =>
    obtain ⟨⟨first, second⟩, -, h⟩ := bind_eq_ok.1 h
    obtain ⟨⟨⟩, hreturn, h⟩ := bind_eq_ok.1 h
    obtain ⟨value, -, h⟩ := bind_eq_ok.1 h
    split at h
    next => cases h
    next => cases h
    next =>
      obtain ⟨addr, -, h⟩ := bind_eq_ok.1 h
      cases h
      exact .of_none (noReturn_eq_ok hreturn) rfl
  next =>
    obtain ⟨arg, -, h⟩ := bind_eq_ok.1 h
    obtain ⟨⟨⟩, hreturn, h⟩ := bind_eq_ok.1 h
    obtain ⟨addr, -, h⟩ := bind_eq_ok.1 h
    cases h
    exact .of_none (noReturn_eq_ok hreturn) rfl
  next => cases h

theorem memory_respects (h : memory vars c = .ok i) : Respects vars c.ret i := by
  unfold memory at h
  split at h
  next =>
    obtain ⟨op, hop, rfl⟩ := map_eq_ok.1 h
    exact memoryOp_respects none hop
  next =>
    obtain ⟨id, -, h⟩ := bind_eq_ok.1 h
    obtain ⟨op, hop, rfl⟩ := map_eq_ok.1 h
    exact memoryOp_respects (some id) hop
  next => cases h

/-- `create` declares a variable and has no result. -/
theorem create_respects (h : (create registry c).run vars = .ok i vars') :
    Respects vars c.ret i ∧ vars.Adds vars' := by
  obtain ⟨⟨first, second⟩, -, h⟩ := InPlace.check_bind_eq_ok.1 h
  obtain ⟨⟨⟩, hreturn, h⟩ := InPlace.check_bind_eq_ok.1 h
  obtain ⟨name, -, h⟩ := InPlace.look_bind_eq_ok.1 h
  obtain ⟨typeName, -, h⟩ := InPlace.look_bind_eq_ok.1 h
  split at h
  next =>
    obtain ⟨name', -, h⟩ := InPlace.check_bind_eq_ok.1 h
    split at h
    next => cases h
    next =>
      split at h
      next => cases h
      next =>
        obtain ⟨id, vars₁, hadd, h⟩ := InPlace.bind_eq_ok.1 h
        cases h
        exact ⟨.of_none (noReturn_eq_ok hreturn) rfl,
          Storage.adds_add (InPlace.once_eq_ok.1 hadd) (.component _ _)⟩
  next => cases h

theorem methodCall_respects {target method : String}
    (h : methodCall registry vars c target method = .ok i) : Respects vars c.ret i := by
  obtain ⟨id, -, h⟩ := bind_eq_ok.1 h
  obtain ⟨v, -, h⟩ := bind_eq_ok.1 h
  obtain ⟨typeName, -, h⟩ := bind_eq_ok.1 h
  split at h
  next => cases h
  next m _ =>
    simp only at h
    split at h
    next =>
      obtain ⟨args, -, h⟩ := bind_eq_ok.1 h
      obtain ⟨ret, hret, h⟩ := bind_eq_ok.1 h
      cases h
      exact methodReturn_respects hret
    next => cases h

/-- A component line declares, or calls a method. -/
theorem component_respects (h : (component registry c).run vars = .ok i vars') :
    Respects vars c.ret i := by
  unfold component at h
  split at h
  next => exact (create_respects h).1
  next =>
    split at h
    next => exact methodCall_respects (InPlace.look_eq_ok.1 h).1
    next => cases h

/-- A `var` line declares a new variable with the name in it. -/
theorem line_declares (hvar : l.keyword = "var") (h : (line registry l).run vars = .ok i vars') :
    ∃ name word o, l.declared? = some name ∧ i = .declare vars.vars.length o
      ∧ vars.add (.zeroed name.name (Kind.ofWord word) name.readonly)
          = .ok (vars.vars.length, vars') := by
  simp only [line, hvar] at h
  unfold declare at h
  split at h
  next first word text value hsplit =>
    simp only at h
    split at h
    next => cases h
    next =>
      obtain ⟨name, hname, h⟩ := InPlace.check_bind_eq_ok.1 h
      obtain ⟨o, -, h⟩ := InPlace.look_bind_eq_ok.1 h
      obtain ⟨id, vars₁, hadd, h⟩ := InPlace.bind_eq_ok.1 h
      have hadd := InPlace.once_eq_ok.1 hadd
      cases h
      obtain ⟨rfl, -⟩ := Storage.add_eq_ok hadd
      refine ⟨name, word, o, ?_, rfl, hadd⟩
      simp only [Line.declared?, hvar, hsplit, hname]
      rfl
  next => cases h

/-- Any other line leaves readonly variables alone. -/
theorem line_respects (hvar : l.keyword ≠ "var") (h : (line registry l).run vars = .ok i vars') :
    Respects vars l.destination? i := by
  unfold line at h
  split at h
  next hkeyword => exact absurd hkeyword hvar
  next hkeyword =>
    obtain ⟨hi, -⟩ := InPlace.look_eq_ok.1 h
    simpa only [Line.destination?, hkeyword] using assign_respects hi
  next hkeyword =>
    obtain ⟨hi, -⟩ := InPlace.look_eq_ok.1 h
    refine .of_none (by simp [Line.destination?, hkeyword]) ?_
    unfold jump at hi
    split at hi
    next =>
      obtain ⟨v, -, hi⟩ := bind_eq_ok.1 hi
      split at hi
      next =>
        obtain ⟨o, -, hi⟩ := bind_eq_ok.1 hi
        cases hi
        rfl
      next => cases hi
    next => cases hi
  next hkeyword =>
    split at h
    next =>
      cases h
      exact .of_none (by simp [Line.destination?, hkeyword]) rfl
    next => cases h
  next hkeyword =>
    obtain ⟨c, hc, h⟩ := InPlace.check_bind_eq_ok.1 h
    obtain ⟨op, hop, rfl⟩ := map_eq_ok.1 (InPlace.look_eq_ok.1 h).1
    simpa [Line.destination?, hkeyword, hc, Except.toOption] using time_respects hop
  next hkeyword =>
    obtain ⟨c, hc, h⟩ := InPlace.check_bind_eq_ok.1 h
    obtain ⟨op, hop, rfl⟩ := map_eq_ok.1 (InPlace.look_eq_ok.1 h).1
    simpa [Line.destination?, hkeyword, hc, Except.toOption] using console_respects hop
  next hkeyword =>
    obtain ⟨c, hc, h⟩ := InPlace.check_bind_eq_ok.1 h
    obtain ⟨hi, -⟩ := InPlace.look_eq_ok.1 h
    simpa [Line.destination?, hkeyword, hc, Except.toOption] using memory_respects hi
  next hkeyword =>
    obtain ⟨c, hc, h⟩ := InPlace.check_bind_eq_ok.1 h
    simpa [Line.destination?, hkeyword, hc, Except.toOption] using component_respects h
  next => cases h

/-- Lines other than `var` and `comp create` declare nothing. -/
theorem line_keeps (hvar : l.keyword ≠ "var")
    (hcreate : ∀ c, Call.parse l.text = .ok c → l.keyword = "comp" → c.name ≠ "create")
    (h : (line registry l).run vars = .ok i vars') : vars' = vars := by
  unfold line at h
  split at h
  next hkeyword => exact absurd hkeyword hvar
  next => exact (InPlace.look_eq_ok.1 h).2
  next => exact (InPlace.look_eq_ok.1 h).2
  next =>
    split at h
    next =>
      cases h
      rfl
    next => cases h
  next =>
    obtain ⟨c, -, h⟩ := InPlace.check_bind_eq_ok.1 h
    exact (InPlace.look_eq_ok.1 h).2
  next =>
    obtain ⟨c, -, h⟩ := InPlace.check_bind_eq_ok.1 h
    exact (InPlace.look_eq_ok.1 h).2
  next =>
    obtain ⟨c, -, h⟩ := InPlace.check_bind_eq_ok.1 h
    exact (InPlace.look_eq_ok.1 h).2
  next hkeyword =>
    obtain ⟨c, hc, h⟩ := InPlace.check_bind_eq_ok.1 h
    unfold component at h
    rw [if_neg (hcreate c hc hkeyword)] at h
    split at h
    next => exact (InPlace.look_eq_ok.1 h).2
    next => cases h
  next => cases h

/-- A `comp create` line is compiled by `create`. -/
theorem line_create (hcomp : l.keyword = "comp") (hc : Call.parse l.text = .ok c)
    (hname : c.name = "create") (h : (line registry l).run vars = .ok i vars') :
    (create registry c).run vars = .ok i vars' := by
  simp only [line, hcomp] at h
  obtain ⟨c', hc', h⟩ := InPlace.check_bind_eq_ok.1 h
  rw [hc] at hc'
  cases hc'
  unfold component at h
  rwa [if_pos hname] at h

/-- Compiling a line adds variables at most. -/
theorem line_adds (h : (line registry l).run vars = .ok i vars') : vars.Adds vars' := by
  by_cases hvar : l.keyword = "var"
  · obtain ⟨name, word, o, -, -, hadd⟩ := line_declares hvar h
    exact Storage.adds_add hadd (.var _ word _)
  by_cases hcreate : ∀ c, Call.parse l.text = .ok c → l.keyword = "comp" → c.name ≠ "create"
  · rw [line_keeps hvar hcreate h]
    exact .refl vars
  · push Not at hcreate
    obtain ⟨c, hc, hcomp, hname⟩ := hcreate
    exact (create_respects (line_create hcomp hc hname h)).2

end Compiler

end TickScript
