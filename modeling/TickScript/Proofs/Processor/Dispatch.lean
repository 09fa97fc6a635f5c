/-
Methods are found again.

A method is looked up twice: when a line is compiled, by the type that the
variable is declared with, and each time the line is run, by the type of
the entity that the variable then holds. Variables stay typed
(`Scene.Fit`), so the two types are one. With the methods that the line was
compiled against the two lookups find the same method, and the arguments,
of which there is one for each operand, are as many as it takes. All that
is left to go wrong is what the arguments are, what the method itself does
and what becomes of its result.
-/
import TickScript.Proofs.Processor.Faults
import TickScript.Proofs.Processor.Typed
import TickScript.Proofs.Script.Calls

namespace TickScript

-- ================================================================= calls

/-- A call with as many arguments as there are parameters. -/
theorem Method.invoke_of_length {m : Method} {vs : List Value} (a : Arena) (target : Handle)
    (h : vs.length = m.signature.params.length) :
    m.invoke a target vs = (m.checkArgs 0 m.signature.params vs >>= m.action a target) :=
  if_pos h

/-- The fault of a call with too many or too few arguments. -/
def Method.miscount (m : Method) : Fault := .of .invalidOperand (m.name ++ " ARGUMENT COUNT")

/-- An argument that does not fit is another fault than a wrong number of
them. The message is longer, whatever the name of the method. -/
theorem Method.checkArgs_error {m : Method} {fault : Fault} :
    ∀ {ps : List Param} {vs : List Value} {i : Nat}, m.checkArgs i ps vs = .error fault →
    fault.cause = .invalidOperand ∧ fault ≠ m.miscount
  | [], _, _, h => by cases h
  | _ :: _, [], _, h => by cases h
  | p :: ps, v :: vs, i, h => by
      unfold checkArgs at h
      split at h
      next => exact checkArgs_error (map_eq_error.1 h)
      next =>
        cases h
        refine ⟨rfl, fun heq => ?_⟩
        have hlength := congrArg (fun f => f.detail.length) heq
        simp only [Fault.of, miscount, String.length_append] at hlength
        have hcount : " ARGUMENT COUNT".length = 15 := rfl
        have hargument : "ARGUMENT ".length = 9 := rfl
        have hof : " OF ".length = 4 := rfl
        have his : " IS ".length = 4 := rfl
        omega

/-- What was checked holds of variables of the same shapes, whatever they
hold. -/
theorem Compiler.Checked.reshape {vars vars' : Storage} {registry : Registry}
    {method typeName : String}
    {target : VarId} {args : List Operand} {ret : Option VarId} {var : Variable} {m : Method}
    (hshapes : vars'.shapes = vars.shapes)
    (h : Checked vars registry target method args ret var typeName m) :
    ∃ value, Checked vars' registry target method args ret { var with value } typeName
      m := by
  obtain ⟨value, hget⟩ := Storage.get?_of_shapes hshapes h.declared
  refine ⟨value, hget, ?_, h.found, h.count, h.returns⟩
  exact Compiler.targetType_eq_ok_iff.2 (Compiler.targetType_eq_ok_iff.1 h.typed)

namespace Scene

variable {s s' s₂ s₃ : Scene} {id : VarId} {h : Handle}

theorem length_readAll : ∀ {os : List Operand} {s s' : Scene} {vs : List Value},
    s.readAll os = .ok (vs, s') → vs.length = os.length
  | [], s, s', vs, hread => by
      cases hread
      rfl
  | o :: os, s, s', vs, hread => by
      obtain ⟨⟨v, s₁⟩, -, hread⟩ := bind_eq_ok.1 hread
      obtain ⟨⟨more, s₂⟩, hmore, hread⟩ := bind_eq_ok.1 hread
      cases hread
      simp [length_readAll hmore]

/-- What a call does once the entity is reached, the arguments are read and
the method is found. -/
theorem call_eq {target : VarId} {method : String} {args : List Operand} {ret : Option VarId}
    {e : Entity} {m : Method} {vs : List Value} (hreach : s.reach target = .ok h)
    (he : s.world.arena.entity? h = some e) (hargs : s.readAll args = .ok (vs, s'))
    (hm : s'.world.registry.find? e.typeName method = some m)
    (hcount : vs.length = m.signature.params.length) :
    s.call target method args ret = (do
      let ws ← m.checkArgs 0 m.signature.params vs
      let (result, arena) ← m.action s'.world.arena h ws
      (s'.withArena arena).storeResult method ret result) := by
  unfold call
  rw [hreach, ok_bind]
  simp only [he]
  rw [hargs, ok_bind]
  simp only [hm]
  rw [Method.invoke_of_length _ _ hcount, bind_assoc]

/-- The entity in a variable is of the type that the variable is declared
with. -/
theorem Fit.typeName_eq {var : Variable} {typeName : String} {e : Entity} (hs : s.Fit)
    (hget : s.proc.vars.get? id = some var)
    (htype : Compiler.targetType var.name var = .ok typeName)
    (hvalue : var.value = some (.entity h)) (he : s.world.arena.entity? h = some e) :
    e.typeName = typeName := by
  have hmem := List.mem_of_getElem? hget
  have htyped := hs.typed var hmem
  rcases Compiler.targetType_eq_ok_iff.1 htype with ⟨hkind, rfl⟩ | ⟨-, hcomponent⟩
  · have hissued := hs.held h (mem_held.2 (.inl ⟨var, hmem, hvalue⟩))
    have hpart : Kind.ofEntity e.kind = .part := by
      rw [hissued.kind_eq he, ← hkind]
      exact htyped.kind _ hvalue
    unfold Entity.kind at hpart
    unfold Entity.typeName
    split
    next => rfl
    next hrole =>
      rw [hrole] at hpart
      cases hpart
  · exact htyped.typeName hcomponent hvalue he

theorem load_registry (s : Scene) (source : String) :
    (s.load source).2.world.registry = s.world.registry := by
  obtain ⟨s', hdeclares, ⟨fault, hload⟩ | hload⟩ := load_cases s source <;> rw [hload]
  · exact hdeclares.registry
  · exact hdeclares.registry

/-- A call in a loaded script was checked against the variables that are
declared by the script. -/
theorem load_checked {source method : String} {n : Nat} {target : VarId} {args : List Operand}
    {ret : Option VarId}
    (hentry : (s.load source).2.proc.script[n]? = some (some (.call target method args ret))) :
    ∃ l c name var typeName m, (Line.ofSource source)[n]? = some l ∧ l.keyword = "comp"
      ∧ Call.parse l.text = .ok c ∧ Text.split '.' c.name = [name, method]
      ∧ (s.load source).2.proc.vars.id? name = some target
      ∧ Compiler.Checked (s.load source).2.proc.vars s.world.registry target method args ret
          var typeName m := by
  obtain ⟨s', hdeclares, ⟨fault, hload⟩ | hload⟩ := load_cases s source
  · rw [hload] at hentry
    have hscript : s'.proc.script = #[] := hdeclares.script
    change s'.proc.script[n]? = _ at hentry
    rw [hscript] at hentry
    cases hentry
  · have hregistry : s'.world.registry = s.world.registry := hdeclares.registry
    rw [hload] at hentry ⊢
    rw [← hregistry]
    exact compile_checked hentry

/-- A fault of a call that is about the method itself or the number of its
arguments is one that the method made, and the standard methods make
none. -/
theorem call_fault {target : VarId} {method : String} {args : List Operand} {ret : Option VarId}
    {e : Entity} {m : Method} {vs : List Value} {fault : Fault}
    (hreach : s.reach target = .ok h) (he : s.world.arena.entity? h = some e)
    (hargs : s.readAll args = .ok (vs, s'))
    (hm : s'.world.registry.find? e.typeName method = some m)
    (hcount : vs.length = m.signature.params.length)
    (hfault : s.call target method args ret = .error fault)
    (hcause : fault.cause = .notSupported ∨ fault = m.miscount) :
    (∃ ws, m.action s'.world.arena h ws = .error fault) ∧ s'.world.registry ≠ .standard := by
  have houter : ¬ fault.cause.IsInner := by
    rintro ⟨hsupported, hoperand⟩
    rcases hcause with hcause | rfl
    · exact hsupported hcause
    · exact hoperand rfl
  rw [call_eq hreach he hargs hm hcount] at hfault
  rcases bind_eq_error.1 hfault with hfault | ⟨ws, -, hfault⟩
  · obtain ⟨hoperand, hother⟩ := Method.checkArgs_error hfault
    rcases hcause with hcause | hcause
    · rw [hcause] at hoperand
      cases hoperand
    · exact absurd hcause hother
  · rcases bind_eq_error.1 hfault with hfault | ⟨⟨result, arena⟩, -, hfault⟩
    · refine ⟨⟨ws, hfault⟩, fun hstandard => houter ?_⟩
      rw [hstandard] at hm
      exact (Method.action_raises _ h ws hm).causes fault hfault
    · exact absurd ((storeResult_raises _ method ret result).causes fault hfault) houter

/-- Methods are found again when their lines are run.

Take a line `comp <variable>.<method>(…)` of a loaded script that was
compiled to a call, and any scene that the processor gets into later, while
no generation wraps, in which the methods are those that the line was
compiled against. If the entity in the variable is reached and the
arguments can be read, then the type of the entity has that very method
whose signature was checked when the line was compiled, by the type that
the variable is declared with. There are as many arguments as it takes, so
all that is left of the call is to check their kinds, to act and to store
the result. The call does not fail because a method is not supported or
because of the number of arguments, unless a method of the host itself says
so. -/
theorem method_found_again {source method : String} {n : Nat} {target : VarId}
    {args : List Operand} {ret : Option VarId} {vs : List Value} (hreached : Reached s)
    (hsteady : Arena.Unwrapped s.world.arena (s.load source).2.world.arena)
    (hgoes : Relation.ReflTransGen Goes (s.load source).2 s₂)
    (hregistry : s₂.world.registry = s.world.registry)
    (hentry : s₂.proc.script[n]? = some (some (.call target method args ret)))
    (hreach : s₂.reach target = .ok h) (hargs : s₂.readAll args = .ok (vs, s₃)) :
    ∃ l c name var typeName m e, (Line.ofSource source)[n]? = some l ∧ l.keyword = "comp"
      ∧ Call.parse l.text = .ok c ∧ Text.split '.' c.name = [name, method]
      ∧ (s.load source).2.proc.vars.id? name = some target
      ∧ Compiler.Checked (s.load source).2.proc.vars s.world.registry target method args ret
          var typeName m
      ∧ s₂.world.arena.entity? h = some e ∧ e.typeName = typeName
      ∧ s₂.world.registry.find? e.typeName method = some m
      ∧ vs.length = m.signature.params.length
      ∧ (Instruction.call target method args ret).execute s₂ = (do
          let ws ← m.checkArgs 0 m.signature.params vs
          let (result, arena) ← m.action s₃.world.arena h ws
          let s' ← (s₃.withArena arena).storeResult method ret result
          .ok (.next, s'))
      ∧ ∀ fault, (Instruction.call target method args ret).execute s₂ = .error fault →
          fault.cause = .notSupported ∨ fault = m.miscount →
          (∃ ws, m.action s₃.world.arena h ws = .error fault)
            ∧ s₂.world.registry ≠ .standard := by
  obtain ⟨hs₂, hmoves, -⟩ := label_kept (hreached.fit.load source hsteady) hgoes
  obtain ⟨hscript, hshapes⟩ := hmoves.same
  rw [hscript] at hentry
  obtain ⟨l, c, name, var, typeName, m, hl, hkeyword, hc, hsplit, hid, hchecked⟩ :=
    load_checked hentry
  obtain ⟨value, hnow⟩ := hchecked.reshape hshapes
  obtain ⟨var', this, hget, hvalue, halive, -⟩ := reach_eq_ok hreach
  rw [hnow.declared] at hget
  cases hget
  obtain ⟨e, he⟩ := Option.isSome_iff_exists.1 halive
  have htype : e.typeName = typeName := hs₂.typeName_eq hnow.declared hnow.typed hvalue he
  have hfound : s₂.world.registry.find? e.typeName method = some m := by
    rw [hregistry, htype]
    exact hchecked.found
  have hfound' : s₃.world.registry.find? e.typeName method = some m := by
    rw [(readAll_quiet hargs).1.registry]
    exact hfound
  have hcount := (length_readAll hargs).trans hchecked.count
  refine ⟨l, c, name, var, typeName, m, e, hl, hkeyword, hc, hsplit, hid, hchecked, he, htype,
    hfound, hcount, ?_, fun fault hfault hcause => ?_⟩
  · show (s₂.call target method args ret).map _ = _
    rw [call_eq hreach he hargs hfound' hcount]
    simp only [map_bind, bind_ok]
  · obtain ⟨hown, hhost⟩ := call_fault hreach he hargs hfound' hcount (map_eq_error.1 hfault) hcause
    rw [(readAll_quiet hargs).1.registry] at hhost
    exact ⟨hown, hhost⟩

/-- Fetches the memory on its part and puts a number in it. -/
def stockUp : String := fetch ++ "\ncomp m.set_value(1, n)"

/-- The workshop before the last line of that. -/
def stocking : Scene := (workshop.load stockUp).2.step.step.step

/-- Whether a line is a call of something that is reached, with arguments
that can be read. -/
def ready (s : Scene) (n : Nat) : Bool :=
  match s.proc.script[n]? with
  | some (some (.call target _ args _)) => (s.reach target).isOk && (s.readAll args).isOk
  | _ => false

/-- The last line calls a method of the memory that was fetched. The method
is found by the type of that component, and whatever may go wrong then, it
is neither the method nor the number of its arguments. -/
theorem method_found_again_stockUp :
    ∃ target method args ret h e m,
      stocking.proc.script[3]? = some (some (.call target method args ret))
        ∧ stocking.reach target = .ok h ∧ stocking.world.arena.entity? h = some e
        ∧ Registry.standard.find? e.typeName method = some m
        ∧ ∀ fault, (Instruction.call target method args ret).execute stocking = .error fault →
            fault.cause ≠ .notSupported ∧ fault ≠ m.miscount := by
  have hrun : Arena.Unwrapped workshop.world.arena (workshop.load stockUp).2.world.arena
      ∧ (workshop.load stockUp).2.proc.status = .running
      ∧ Arena.Unwrapped (workshop.load stockUp).2.world.arena
          (workshop.load stockUp).2.step.world.arena
      ∧ (workshop.load stockUp).2.step.proc.status = .running
      ∧ Arena.Unwrapped (workshop.load stockUp).2.step.world.arena
          (workshop.load stockUp).2.step.step.world.arena
      ∧ (workshop.load stockUp).2.step.step.proc.status = .running
      ∧ Arena.Unwrapped (workshop.load stockUp).2.step.step.world.arena
          (workshop.load stockUp).2.step.step.step.world.arena
      ∧ stocking.ready 3 := by
    decide +kernel
  obtain ⟨hload, hfirst, hfirst', hsecond, hsecond', hthird, hthird', hready⟩ := hrun
  have hgoes : Relation.ReflTransGen Goes (workshop.load stockUp).2 stocking :=
    ((Relation.ReflTransGen.single (.line hfirst hfirst')).tail (.line hsecond hsecond')).tail
      (.line hthird hthird')
  have hsteps (s : Scene) : s.step.step.step.world.registry = s.world.registry := by
    rw [(step_writes s.step.step).registry, (step_writes s.step).registry,
      (step_writes s).registry]
  have hregistry : stocking.world.registry = workshop.world.registry := by
    rw [stocking, hsteps, load_registry]
  generalize stocking = s₂ at hready hgoes hregistry ⊢
  unfold ready at hready
  split at hready
  next target method args ret hentry =>
    rw [Bool.and_eq_true] at hready
    cases hreach : s₂.reach target with
    | error fault =>
        rw [hreach] at hready
        cases hready.1
    | ok h =>
        cases hargs : s₂.readAll args with
        | error fault =>
            rw [hargs] at hready
            cases hready.2
        | ok r =>
            obtain ⟨l, c, name, var, typeName, m, e, -, -, -, -, -, -, he, -, hfound, -, -, hfaults⟩ :=
              method_found_again reached_workshop hload hgoes hregistry hentry hreach hargs
            rw [hregistry] at hfound hfaults
            refine ⟨target, method, args, ret, h, e, m, hentry, hreach, he, hfound, ?_⟩
            intro fault hfault
            constructor
            · intro hcause
              exact (hfaults fault hfault (.inl hcause)).2 rfl
            · intro hcause
              exact (hfaults fault hfault (.inr hcause)).2 rfl
  next => cases hready

end Scene

end TickScript
