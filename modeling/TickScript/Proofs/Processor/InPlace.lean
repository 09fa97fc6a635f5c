/-
Instructions carried out in place.

`Instruction.execute` makes a new scene or fails with none, so half-done
work cannot show. A processor at work on its world is not like that: it
writes to one place after the other, and what is written stays written when
a later check fails. `Instruction.perform` carries instructions out that
way. Checks and writes stand in it one by one, in the order in which they
are made, and a fault leaves the scene as it is at that moment.

What comes of work in place, the scene being lost if it fails, is its
`outcome`. Step by step and chain by chain (`outcome_bind`) the outcome of
`perform` is shown to be what `execute` yields
(`Instruction.outcome_perform`).
-/
import TickScript.Proofs.InPlace
import TickScript.Proofs.Processor.Faults

namespace TickScript

namespace InPlace

-- =============================================================== storing

/-- Takes a usage of a value. -/
def retain (v : Value) : InPlace Scene Unit :=
  change fun s => s.withArena (s.world.arena.retainValue v)

/-- Drops the usages of what was displaced. -/
def release (old : Option Value) : InPlace Scene Unit :=
  change fun s => s.withArena (s.world.arena.releaseAll old.toList)

/-- Sets a variable of a processor; gives back what it held. -/
def setVariable (id : VarId) (v : Value) : InPlace Scene (Option Value) :=
  once fun s => (s.proc.vars.set id v).map fun r =>
    (r.1, { s with proc := { s.proc with vars := r.2 } })

/-- Puts a value of its own kind into a variable. What the variable held is
released only after the new value is retained. -/
def store (id : VarId) (v : Value) : InPlace Scene Unit := do
  let var ← look fun s => s.proc.vars.get id
  look fun s => s.checkType var v
  let old ← setVariable id v
  retain v
  release old

/-- Converts a value to the kind of a variable and stores it there. -/
def assign (id : VarId) (v : Value) : InPlace Scene Unit := do
  let var ← look fun s => s.proc.vars.get id
  let v ← look fun s => var.kind.convert s.world.arena.resolve v
  store id v

/-- The check comes before the first write, so nothing is left behind. -/
theorem outcome_store (id : VarId) (v : Value) (s : Scene) :
    outcome (store id v) s = (s.store id v).map fun s => ((), s) := by
  simp only [store, setVariable, retain, release, outcome_bind, outcome_look, outcome_once,
    outcome_change]
  refine map_bind_relabel fun var => ?_
  refine map_bind_relabel fun _ => ?_
  exact map_bind_relabel fun _ => rfl

/-- A value is converted before it is stored. -/
theorem outcome_assign (id : VarId) (v : Value) (s : Scene) :
    outcome (assign id v) s = (s.assign id v).map fun s => ((), s) := by
  simp only [assign, outcome_bind, outcome_look, outcome_store]
  refine map_bind_relabel fun var => ?_
  exact map_bind_relabel fun w => rfl

-- ============================================================== operands

/-- Reads an operand. That draws at most. -/
def read (o : Operand) : InPlace Scene Value := once fun s => s.read o

/-- Reads operands from left to right. -/
def readAll (os : List Operand) : InPlace Scene (List Value) := once fun s => s.readAll os

/-- Reads an operand as an address. -/
def readAddress (o : Operand) : InPlace Scene Int64 := once fun s => s.readAddress o

-- ====================================================== time and console

/-- Carries out an instruction of the clock. -/
def time : TimeOp → InPlace Scene Unit
  | .framesSinceLaunch dest => do
    let frames ← look fun s => .ok s.proc.frames
    assign dest (.int (Int64.ofNat frames))
  | .secondsSinceLaunch dest => do
    let seconds ← look fun s => .ok (s.world.clock.seconds - s.proc.launch)
    assign dest (.float seconds)
  | .deltaTime dest => do
    let delta ← look fun s => .ok s.world.clock.delta
    assign dest (.float delta)
  | .wait ticks => do
    let v ← read ticks
    once fun s => (s.wait v).map fun s => ((), s)

/-- Leaves so much of the input. -/
def leave (rest : List Char) : InPlace Scene Unit :=
  change fun s => { s with proc := { s.proc with input := String.ofList rest } }

/-- The first character of the input and the rest. -/
def firstChar (s : Scene) : Except Fault (Char × List Char) :=
  match s.proc.input.toList with
  | [] => .error (.bare .inputEmpty)
  | c :: cs => .ok (c, cs)

/-- The value of the first number in the input, and the rest. -/
def firstNumber (dest : VarId) (s : Scene) : Except Fault (Value × List Char) := do
  if s.proc.input = "" then .error (.bare .inputEmpty)
  else
    let var ← s.proc.vars.get dest
    match Scene.findNumber? (var.kind = .float) s.proc.input.toList with
    | some (digits, rest) => (Scene.numberValue (String.ofList digits)).map fun v => (v, rest)
    | none => .error (.bare .numberNotFound)

/-- Carries out an instruction of the console. Input is left as it is until
what was taken from it is stored. -/
def console : ConsoleOp → InPlace Scene Unit
  | .read => do
    let text ← once fun s =>
      let (text, console) := s.world.console.read
      .ok (text, { s with world := { s.world with console } })
    change fun s => { s with proc := s.proc.feed text }
  | .write =>
    change fun s => { s with world := { s.world with console := s.world.console.write s.proc.output } }
  | .pop (.char dest) => do
    let (c, rest) ← look firstChar
    store dest (.int (Int64.ofNat c.toNat))
    leave rest
  | .pop (.number dest) => do
    let (v, rest) ← look (firstNumber dest)
    assign dest v
    leave rest
  | .canPop probe dest => do
    let ready ← look fun s => s.canPop probe
    store dest (.bool ready)
  | .push args => do
    let vs ← readAll args
    let text := String.join (vs.map Value.render)
    change fun s => { s with proc := { s.proc with output := s.proc.output ++ text } }
  | .clear .input => change fun s => { s with proc := { s.proc with input := "" } }
  | .clear .output => change fun s => { s with proc := { s.proc with output := "" } }
  | .filter => throw (.of .notSupported "FILTER")

/-- Taking a character is to look at the input, to store, and only then to
shorten the input. -/
theorem popChar_eq (s : Scene) (dest : VarId) : s.popChar dest = (do
    let (c, rest) ← firstChar s
    let s ← s.store dest (.int (Int64.ofNat c.toNat))
    .ok { s with proc := { s.proc with input := String.ofList rest } }) := by
  unfold Scene.popChar firstChar
  cases s.proc.input.toList <;> rfl

/-- Taking a number goes the same three steps. -/
theorem popNumber_eq (s : Scene) (dest : VarId) : s.popNumber dest = (do
    let (v, rest) ← firstNumber dest s
    let s ← s.assign dest v
    .ok { s with proc := { s.proc with input := String.ofList rest } }) := by
  unfold Scene.popNumber firstNumber
  split
  next => rfl
  next =>
    cases s.proc.vars.get dest with
    | error fault => rfl
    | ok var =>
        simp only [ok_bind]
        rcases Scene.findNumber? (var.kind = .float) s.proc.input.toList with - | ⟨digits, rest⟩
        · rfl
        · simp only
          cases Scene.numberValue (String.ofList digits) <;> rfl

/-- Each reading of the clock is one assignment. -/
theorem outcome_time (op : TimeOp) (s : Scene) :
    outcome (time op) s = (s.time op).map fun s => ((), s) := by
  cases op with
  | framesSinceLaunch dest | secondsSinceLaunch dest | deltaTime dest =>
      simp only [time, outcome_bind, outcome_look, outcome_assign]
      rfl
  | wait ticks =>
      simp only [time, read, outcome_bind, outcome_once]
      exact bind_relabel fun _ => rfl

/-- The buffers change in one write each; what is popped is stored before. -/
theorem outcome_console (op : ConsoleOp) (s : Scene) :
    outcome (console op) s = (s.console op).map fun s => ((), s) := by
  cases op with
  | read | write | filter => rfl
  | clear stream => cases stream <;> rfl
  | push args =>
      simp only [console, readAll, outcome_bind, outcome_once, outcome_change]
      exact bind_relabel fun _ => rfl
  | canPop probe dest =>
      simp only [console, outcome_bind, outcome_look, outcome_store]
      exact map_bind_relabel fun ready => rfl
  | pop target =>
      cases target with
      | char dest =>
          simp only [console, leave, outcome_bind, outcome_look, outcome_store, outcome_change,
            Scene.console, popChar_eq]
          refine map_bind_relabel ?_
          rintro ⟨c, rest⟩
          exact map_bind_relabel fun s' => rfl
      | number dest =>
          simp only [console, leave, outcome_bind, outcome_look, outcome_assign, outcome_change,
            Scene.console, popNumber_eq]
          refine map_bind_relabel ?_
          rintro ⟨v, rest⟩
          exact map_bind_relabel fun s' => rfl

-- ================================================================ memory

/-- Fills a cell of a memory; gives back what it held. -/
def fillCell (target : Option Handle) (addr : Int64) (v : Value) : InPlace Scene (Option Value) :=
  once fun s => do
    let m ← s.device target
    let (old, m) ← m.set addr v
    .ok (old, s.setDevice target m)

/-- Empties a cell of a memory; gives back what it held. -/
def emptyCell (target : Option Handle) (addr : Int64) : InPlace Scene (Option Value) :=
  once fun s => do
    let m ← s.device target
    let (old, m) ← m.clear addr
    .ok (old, s.setDevice target m)

/-- Carries out an instruction of a memory, that of the processor or that of
a component. -/
def memory (target : Option Handle) : MemoryOp → InPlace Scene Unit
  | .get addr dest => do
    let n ← readAddress addr
    let m ← look fun s => s.device target
    match ← look fun s => m.present s.world.arena.isAlive n with
    | some v => assign dest v
    | none => throw (.of .nullParameter ("MEMORY " ++ toString n.toInt))
  | .getType addr dest => do
    let n ← readAddress addr
    let m ← look fun s => s.device target
    let kind ← look fun s => m.kind s.world.arena.isAlive n
    store dest (.int kind.code)
  | .isNull addr dest => do
    let n ← readAddress addr
    let m ← look fun s => s.device target
    let null ← look fun s => m.isNull s.world.arena.isAlive n
    store dest (.bool null)
  | .set addr value => do
    let n ← readAddress addr
    let v ← read value
    let old ← fillCell target n v
    retain v
    release old
  | .clear addr => do
    let n ← readAddress addr
    let old ← emptyCell target n
    release old

/-- A cell is written to after both operands are read, and the usages move
after that. -/
theorem outcome_memory (target : Option Handle) (op : MemoryOp) (s : Scene) :
    outcome (memory target op) s = (s.memory target op).map fun s => ((), s) := by
  cases op with
  | get addr dest =>
      simp only [memory, readAddress, outcome_bind, outcome_once, outcome_look]
      refine bind_relabel ?_
      rintro ⟨n, s'⟩
      refine map_bind_relabel fun m => ?_
      refine map_bind_relabel fun cell => ?_
      cases cell with
      | none => rfl
      | some v => exact outcome_assign dest v s'
  | getType addr dest | isNull addr dest =>
      simp only [memory, readAddress, outcome_bind, outcome_once, outcome_look, outcome_store]
      refine bind_relabel ?_
      rintro ⟨n, s'⟩
      refine map_bind_relabel fun m => ?_
      exact map_bind_relabel fun _ => rfl
  | set addr value =>
      simp only [memory, readAddress, read, fillCell, retain, release, outcome_bind, outcome_once,
        outcome_change]
      refine bind_relabel ?_
      rintro ⟨n, s₁⟩
      refine bind_relabel ?_
      rintro ⟨v, s₂⟩
      rw [bind_assoc]
      refine bind_relabel fun m => ?_
      rw [bind_assoc]
      exact bind_relabel fun _ => rfl
  | clear addr =>
      simp only [memory, readAddress, emptyCell, release, outcome_bind, outcome_once,
        outcome_change]
      refine bind_relabel ?_
      rintro ⟨n, s₁⟩
      rw [bind_assoc]
      refine bind_relabel fun m => ?_
      rw [bind_assoc]
      exact bind_relabel fun _ => rfl

-- =============================================================== methods

/-- What a method does to the scene it is called in. -/
abbrev Body := Handle → List Value → InPlace Scene (Option Value)

/-- A method that looks and changes nothing. -/
def looking (action : Standard.Action) : Body := fun target args =>
  look fun s => (action s.world.arena target args).map Prod.fst

/-- Refuses a handle to an entity that is gone. -/
def living (v : Value) (s : Scene) : Except Fault Unit :=
  match v with
  | .entity h =>
    if s.world.arena.isAlive h then .ok () else .error (.of .nullParameter "DEAD ENTITY")
  | _ => .ok ()

/-- The method that fills a cell. Its arguments are looked at before the
cell is. -/
def setValue : Body := fun target args => do
  let addr ← look fun _ => Standard.intArg args 0
  let v ← look fun _ => Standard.anyArg args 1
  look (living v)
  let old ← fillCell (some target) addr v
  retain v
  release old
  pure none

/-- The method that empties a cell. -/
def clear : Body := fun target args => do
  let addr ← look fun _ => Standard.intArg args 0
  let old ← emptyCell (some target) addr
  release old
  pure none

/-- The standard methods. Two of them write, the others look. -/
def body (m : Method) : Body :=
  if m.name = "set_value" then setValue
  else if m.name = "clear" then clear
  else looking m.action

/-- Stores what a method has returned, after the method has done its work. -/
def storeResult (method : String) (ret : Option VarId) (result : Option Value) :
    InPlace Scene Unit :=
  match ret, result with
  | none, _ => pure ()
  | some dest, some v => assign dest v
  | some _, none => throw (.of .noReturnValue method)

/-- The arguments of a call as the method takes them, which are as many as
its parameters. -/
def taken (m : Method) (vs : List Value) : Except Fault (List Value) :=
  if vs.length = m.signature.params.length then m.checkArgs 0 m.signature.params vs
  else .error (.of .invalidOperand (m.name ++ " ARGUMENT COUNT"))

/-- Carries out a call: finds the component, reads the arguments, finds the
method by the type that the component has now, runs it and stores what it
returns. -/
def call (target : VarId) (method : String) (args : List Operand) (ret : Option VarId) :
    InPlace Scene Unit := do
  let h ← look fun s => s.reach target
  let entity ← look fun s =>
    match s.world.arena.entity? h with
    | none => .error (.bare .nullParameter)
    | some entity => .ok entity
  let vs ← readAll args
  let m ← look fun s =>
    match s.world.registry.find? entity.typeName method with
    | none => .error (.of .notSupported (entity.typeName ++ "." ++ method))
    | some m => .ok m
  let vs ← look fun _ => taken m vs
  let result ← body m h vs
  storeResult method ret result

/-- A cell of a component is filled and usages move. -/
theorem outcome_fill {target : Handle} {addr : Int64} {v : Value} {s : Scene} :
    outcome (do
        let old ← fillCell (some target) addr v
        retain v
        release old
        pure (none : Option Value)) s
      = (do
        let m ← Standard.device s.world.arena target
        let (old, m) ← m.set addr v
        .ok (none, (s.world.arena.setMemory target m).exchange v old)).map
          fun r : Option Value × Arena => (r.1, s.withArena r.2) := by
  simp only [fillCell, retain, release, outcome_bind, outcome_once, outcome_change, outcome_pure]
  rw [bind_assoc]
  refine bind_relabel fun m => ?_
  rw [bind_assoc]
  exact bind_relabel fun _ => rfl

/-- The entity that is to be stored is looked at before the cell is. -/
theorem outcome_setValue (target : Handle) (args : List Value) (s : Scene) :
    outcome (setValue target args) s
      = (Standard.memorySetValue s.world.arena target args).map fun r =>
          (r.1, s.withArena r.2) := by
  unfold setValue
  rw [outcome_bind, outcome_look]
  refine map_bind_relabel fun addr => ?_
  rw [outcome_bind, outcome_look]
  refine map_bind_relabel fun v => ?_
  rw [outcome_bind, outcome_look]
  cases v with
  | entity h =>
      simp only [living]
      split
      next => exact outcome_fill
      next => rfl
  | _ => exact outcome_fill

/-- Clearing a cell releases what it held. -/
theorem outcome_clear (target : Handle) (args : List Value) (s : Scene) :
    outcome (clear target args) s
      = (Standard.memoryClear s.world.arena target args).map fun r => (r.1, s.withArena r.2) := by
  simp only [clear, emptyCell, release, outcome_bind, outcome_look, outcome_once, outcome_change,
    outcome_pure]
  refine map_bind_relabel fun addr => ?_
  rw [bind_assoc]
  refine bind_relabel fun m => ?_
  rw [bind_assoc]
  exact bind_relabel fun _ => rfl

/-- An action that leaves the arena alone. -/
def Looking (action : Standard.Action) : Prop :=
  ∀ a a' target args result, action a target args = .ok (result, a') → a' = a

/-- An action that was made to look does so. -/
theorem looking_look (f : Arena → Handle → List Value → Except Fault (Option Value)) :
    Looking (Standard.look f) := by
  intro a a' target args result h
  obtain ⟨v, -, h⟩ := map_eq_ok.1 h
  cases h
  rfl

open Standard in
/-- Of the standard methods two write, and return nothing, and the others
look. -/
theorem standard_actions {typeName name : String} {m : Method}
    (hfound : Registry.standard.find? typeName name = some m) :
    (m.name = "set_value" ∧ m.action = memorySetValue ∧ m.signature.returns = .nothing)
      ∨ (m.name = "clear" ∧ m.action = memoryClear ∧ m.signature.returns = .nothing)
      ∨ (m.name ≠ "set_value" ∧ m.name ≠ "clear" ∧ Looking m.action) := by
  rcases Registry.standard_methods hfound with hmem | hmem
  · simp only [partMethods, List.mem_cons, List.not_mem_nil, or_false] at hmem
    rcases hmem with rfl | rfl | rfl
    · exact .inr (.inr ⟨by simp, by simp, looking_look fun _ target _ => .ok (count target.index)⟩)
    · exact .inr (.inr ⟨by simp, by simp, looking_look _⟩)
    · exact .inr (.inr ⟨by simp, by simp, looking_look _⟩)
  · simp only [memoryMethods, List.mem_cons, List.not_mem_nil, or_false] at hmem
    rcases hmem with rfl | rfl | rfl | rfl | rfl | rfl | rfl | rfl | rfl
    · exact .inr (.inr ⟨by simp, by simp, looking_look _⟩)
    · exact .inr (.inr ⟨by simp, by simp, looking_look _⟩)
    · exact .inr (.inr ⟨by simp, by simp, looking_look _⟩)
    · exact .inr (.inr ⟨by simp, by simp, looking_look _⟩)
    · exact .inr (.inr ⟨by simp, by simp, looking_look _⟩)
    · exact .inr (.inr ⟨by simp, by simp, looking_look _⟩)
    · exact .inr (.inr ⟨by simp, by simp, looking_look _⟩)
    · exact .inl ⟨rfl, rfl, rfl⟩
    · exact .inr (.inl ⟨rfl, rfl, rfl⟩)

/-- In place the standard methods do what they do. -/
theorem outcome_body {typeName name : String} {m : Method}
    (hfound : Registry.standard.find? typeName name = some m) (target : Handle)
    (args : List Value) (s : Scene) :
    outcome (body m target args) s
      = (m.action s.world.arena target args).map fun r => (r.1, s.withArena r.2) := by
  unfold body
  rcases standard_actions hfound with ⟨hset, haction, -⟩ | ⟨hclear, haction, -⟩
    | ⟨hset, hclear, haction⟩
  · rw [if_pos hset, haction]
    exact outcome_setValue target args s
  · rw [if_neg (by rw [hclear]; decide), if_pos hclear, haction]
    exact outcome_clear target args s
  · rw [if_neg hset, if_neg hclear]
    unfold looking
    rw [outcome_look, map_map]
    cases hresult : m.action s.world.arena target args with
    | error fault => rfl
    | ok r =>
        obtain ⟨result, a⟩ := r
        cases haction _ _ _ _ _ hresult
        rfl

/-- A result is assigned, unless none is asked for. -/
theorem outcome_storeResult (method : String) (ret : Option VarId) (result : Option Value)
    (s : Scene) :
    outcome (storeResult method ret result) s
      = (s.storeResult method ret result).map fun s => ((), s) := by
  cases ret with
  | none => rfl
  | some dest =>
      cases result with
      | none => rfl
      | some v => exact outcome_assign dest v s

/-- Invoking a method is counting and checking the arguments, and then its
action. -/
theorem invoke_eq (m : Method) (a : Arena) (target : Handle) (vs : List Value) :
    m.invoke a target vs = (taken m vs >>= m.action a target) := by
  unfold Method.invoke taken
  split <;> rfl

/-- With the standard methods a call in place comes to what a call yields. -/
theorem outcome_call {s : Scene} (target : VarId) (method : String) (args : List Operand)
    (ret : Option VarId) (hregistry : s.world.registry = .standard) :
    outcome (call target method args ret) s
      = (s.call target method args ret).map fun s => ((), s) := by
  simp only [call, readAll, outcome_bind, outcome_look, outcome_once, outcome_storeResult]
  unfold Scene.call
  refine map_bind_relabel fun h => ?_
  simp only
  cases s.world.arena.entity? h with
  | none => rfl
  | some entity =>
      show (s.readAll args >>= _) = _
      cases hargs : s.readAll args with
      | error fault => rfl
      | ok r =>
          obtain ⟨vs, s'⟩ := r
          have hregistry' : s'.world.registry = .standard :=
            (Scene.readAll_quiet hargs).1.registry.trans hregistry
          simp only [ok_bind, hregistry']
          cases hfound : Registry.standard.find? entity.typeName method with
          | none => rfl
          | some m =>
              show ((taken m vs).map (·, s') >>= fun r => outcome (body m h r.1) r.2 >>= fun r =>
                (r.2.storeResult method ret r.1).map fun s => ((), s)) = _
              simp only [outcome_body hfound, invoke_eq, bind_assoc]
              refine map_bind_relabel fun ws => ?_
              exact map_bind_relabel fun _ => rfl

end InPlace

/-- Carries out one instruction in place. -/
def Instruction.perform (i : Instruction) : InPlace Scene Signal :=
  match i with
  | declare dest source => do
    let done ← InPlace.look fun s => .ok (decide (s.proc.config.legacyVar ∧ dest ∈ s.proc.declared))
    if done then pure .next
    else
      let v ← InPlace.read source
      InPlace.assign dest v
      InPlace.change fun s =>
        { s with proc := { s.proc with declared := dest :: s.proc.declared } }
      pure .next
  | assign dest source => do
    let v ← InPlace.read source
    InPlace.assign dest v
    pure .next
  | jump target condition => do
    match ← InPlace.read condition with
    | .bool true => pure (.goto target)
    | .bool false => pure .next
    | v => throw (.of .invalidCondition (v.display ++ " IS NOT BOOL"))
  | label => pure .next
  | stop => do
    InPlace.change fun s => { s with proc := { s.proc with enabled := false } }
    pure .next
  | time op => do
    InPlace.time op
    pure .next
  | console op => do
    InPlace.console op
    pure .next
  | memory none op => do
    InPlace.memory none op
    pure .next
  | memory (some id) op => do
    let h ← InPlace.look fun s => s.reach id
    InPlace.memory (some h) op
    pure .next
  | create => pure .next
  | call target method args ret => do
    InPlace.call target method args ret
    pure .next

open InPlace in
/-- With the standard methods, what comes of an instruction that is carried
out in place is what it yields. -/
theorem Instruction.outcome_perform (i : Instruction) {s : Scene}
    (hregistry : s.world.registry = .standard) : outcome i.perform s = i.execute s := by
  have hnext {p : InPlace Scene Unit} {x : Except Fault Scene} {s : Scene}
      (h : outcome p s = x.map fun s => ((), s)) :
      outcome (p >>= fun _ => pure Signal.next) s = x.map fun s => (.next, s) := by
    rw [outcome_bind, h]
    cases x <;> rfl
  cases i with
  | declare dest source =>
      simp only [perform, execute]
      rw [outcome_bind, outcome_look]
      show outcome (if decide _ = true then _ else _) s = _
      simp only [decide_eq_true_eq]
      split
      next => rfl
      next =>
        simp only [InPlace.read, outcome_bind, outcome_once, outcome_assign]
        refine bind_congr ?_
        rintro ⟨v, s'⟩
        cases s'.assign dest v <;> rfl
  | assign dest source =>
      simp only [perform, execute, InPlace.read, outcome_bind, outcome_once, outcome_assign]
      refine bind_congr ?_
      rintro ⟨v, s'⟩
      cases s'.assign dest v <;> rfl
  | jump target condition =>
      simp only [perform, execute, InPlace.read, outcome_bind, outcome_once]
      refine bind_congr ?_
      rintro ⟨v, s'⟩
      cases v with
      | bool b => cases b <;> rfl
      | _ => rfl
  | label | stop | create => rfl
  | time op => exact hnext (outcome_time op s)
  | console op => exact hnext (outcome_console op s)
  | memory device op =>
      cases device with
      | none => exact hnext (outcome_memory none op s)
      | some id =>
          simp only [perform, execute]
          rw [outcome_bind, outcome_look]
          cases s.reach id with
          | error fault => rfl
          | ok h => exact hnext (outcome_memory (some h) op s)
  | call target method args ret => exact hnext (outcome_call target method args ret hregistry)

end TickScript
