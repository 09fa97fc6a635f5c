/-
What the compiler settles about calls of methods.

A line `comp <variable>.<method>(…)` is compiled only if its method is
found, and the method is found by the type that the variable is declared
with (`Compiler.Checked`). The instruction keeps the variable and the name
of the method and nothing else of this; the method is found again when the
line is run. What was checked then is that the line has an argument for
each parameter, and a variable for the result only if there may be one.

Variables are only added by later lines, so the declaration that was looked
at is still there in the end.
-/
import TickScript.Proofs.Script.Entries

namespace TickScript

namespace Compiler

/-- What is known of a call that was compiled among some variables: it is
on a variable whose declaration has a type, the type has the method, and
the method takes as many arguments and returns something if that is asked
for. -/
structure Checked (vars : Storage) (registry : Registry) (target : VarId) (method : String)
    (args : List Operand) (ret : Option VarId) (var : Variable) (typeName : String)
    (m : Method) : Prop where
  declared : vars.get? target = some var
  typed : targetType var.name var = .ok typeName
  found : registry.find? typeName method = some m
  count : args.length = m.signature.params.length
  returns : ret ≠ none → m.signature.returns ≠ .nothing

variable {vars vars' : Storage} {registry : Registry} {c : Call} {l : Line}
  {name method typeName : String} {target : VarId} {args : List Operand} {ret : Option VarId}
  {var : Variable} {m : Method}

/-- What is declared later does not matter. -/
theorem Checked.extend (h : vars.vars <+: vars'.vars)
    (hchecked : Checked vars registry target method args ret var typeName m) :
    Checked vars' registry target method args ret var typeName m :=
  { hchecked with declared := Storage.get?_extend h hchecked.declared }

-- ================================================================= calls

/-- A variable answers to the methods of parts, or of its component
type. -/
theorem targetType_eq_ok_iff : targetType name var = .ok typeName ↔
    (var.kind = .part ∧ typeName = Entity.partType)
      ∨ (var.kind = .component ∧ var.component = some typeName) := by
  unfold targetType
  split
  next hkind => simp [hkind, eq_comm]
  next type hkind hcomponent => simp [hkind, hcomponent]
  next hpart hcomponent =>
    refine ⟨nofun, ?_⟩
    rintro (⟨hkind, -⟩ | ⟨hkind, htype⟩)
    · exact (hpart hkind).elim
    · exact (hcomponent _ hkind htype).elim

/-- There is an operand for each argument. -/
theorem length_operands : ∀ {texts : List String} {os : List Operand},
    operands vars texts = .ok os → os.length = texts.length
  | [], os, h => by
      cases h
      rfl
  | text :: texts, os, h => by
      obtain ⟨o, -, h⟩ := bind_eq_ok.1 h
      obtain ⟨more, hmore, h⟩ := bind_eq_ok.1 h
      cases h
      simp [length_operands hmore]

/-- A variable takes a result only of a method that has one. -/
theorem methodReturn_returns {returns : Returns}
    (h : methodReturn vars c method returns = .ok ret) (hret : ret ≠ none) :
    returns ≠ .nothing := by
  unfold methodReturn at h
  split at h
  next =>
    cases h
    exact absurd rfl hret
  next =>
    obtain ⟨id, -, h⟩ := bind_eq_ok.1 h
    obtain ⟨v, -, h⟩ := bind_eq_ok.1 h
    rintro rfl
    cases h

/-- A call is compiled as it was checked. -/
theorem methodCall_checked {i : Instruction}
    (h : methodCall registry vars c name method = .ok i) :
    ∃ target args ret var typeName m, i = .call target method args ret
      ∧ vars.id? name = some target
      ∧ Checked vars registry target method args ret var typeName m := by
  obtain ⟨target, htarget, h⟩ := bind_eq_ok.1 h
  obtain ⟨var, hvar, h⟩ := bind_eq_ok.1 h
  obtain ⟨typeName, htype, h⟩ := bind_eq_ok.1 h
  split at h
  next => cases h
  next m hm =>
    simp only at h
    split at h
    next hcount =>
      obtain ⟨args, hargs, h⟩ := bind_eq_ok.1 h
      obtain ⟨ret, hret, h⟩ := bind_eq_ok.1 h
      cases h
      refine ⟨target, args, ret, var, typeName, m, rfl, Storage.id_eq_ok_iff.1 htarget,
        Storage.get_eq_ok_iff.1 hvar, ?_, hm, (length_operands hargs).trans hcount,
        methodReturn_returns hret⟩
      exact targetType_eq_ok_iff.2 (targetType_eq_ok_iff.1 htype)
    next => cases h

-- ================================================================= lines

/-- Only a line `comp <variable>.<method>(…)` is compiled to a call, and
the call is checked. -/
theorem line_checked
    (h : (line registry l).run vars = .ok (.call target method args ret) vars') :
    ∃ c name var typeName m, l.keyword = "comp" ∧ Call.parse l.text = .ok c
      ∧ Text.split '.' c.name = [name, method] ∧ vars.id? name = some target
      ∧ Checked vars registry target method args ret var typeName m := by
  have hkeyword : l.keyword = "comp" := line_keyword h
  simp only [line, hkeyword] at h
  obtain ⟨c, hc, h⟩ := InPlace.check_bind_eq_ok.1 h
  unfold component at h
  split at h
  next => cases create_eq_create h
  next =>
    split at h
    next name method' hsplit =>
      obtain ⟨_, _, _, var, typeName, m, heq, hid, hchecked⟩ :=
        methodCall_checked (InPlace.look_eq_ok.1 h).1
      cases heq
      exact ⟨c, name, var, typeName, m, hkeyword, hc, hsplit, hid, hchecked⟩
    next => cases h

end Compiler

/-- Every call in a script comes from a line that names the variable and
the method, and was checked against the variables declared in the end. -/
theorem compile_checked {source method : String} {vars : Storage} {registry : Registry} {n : Nat}
    {target : VarId} {args : List Operand} {ret : Option VarId}
    (hi : (compile source vars registry).script[n]? = some (some (.call target method args ret))) :
    ∃ l c name var typeName m, (Line.ofSource source)[n]? = some l ∧ l.keyword = "comp"
      ∧ Call.parse l.text = .ok c ∧ Text.split '.' c.name = [name, method]
      ∧ (compile source vars registry).vars.id? name = some target
      ∧ Compiler.Checked (compile source vars registry).vars registry target method args ret
          var typeName m := by
  rcases compile_made hi with heq | ⟨l, sofar, now, hl, hline, hnow, hlater⟩
  · cases heq
  · obtain ⟨c, name, var, typeName, m, hkeyword, hc, hsplit, hid, hchecked⟩ :=
      Compiler.line_checked hline
    have hextends := hnow.trans hlater
    exact ⟨l, c, name, var, typeName, m, hl, hkeyword, hc, hsplit,
      Storage.id?_extend hextends hid, hchecked.extend hextends⟩

end TickScript
