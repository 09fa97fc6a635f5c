/-
What the standard methods do when scripts call them.

Checking the arguments first is what lets a method take them for granted:
in a place where the signature wants a kind there is a value of that kind
(`Fitting`), so the faults that a method has for other arguments never
come up. The methods of parts and most of those of memories only look.
The two that change a memory keep the balance of usages.
-/
import TickScript.Proofs.Arena.Balance
import TickScript.Proofs.Script.Values
import TickScript.Registry.Standard

namespace TickScript

-- ============================================================= arguments

/-- An argument that a parameter takes as it is. -/
def Param.Fits (p : Param) (v : Value) : Prop := ∀ k, p = .kind k → Kind.of v = k

/-- Arguments that the parameters take as they are. -/
abbrev Fitting (ps : List Param) (vs : List Value) : Prop := List.Forall₂ Param.Fits ps vs

/-- What a parameter takes fits it, and lives as the argument did. -/
theorem Param.accept?_eq_some {p : Param} {v w : Value} {alive : Handle → Bool}
    (h : p.accept? v = some w) (hv : v.Lives alive) : p.Fits w ∧ w.Lives alive := by
  unfold accept? at h
  split at h
  next =>
    cases h
    exact ⟨fun _ hk => (by cases hk), hv⟩
  next =>
    cases h
    refine ⟨fun k hk => ?_, Value.lives_of_plain rfl⟩
    cases hk
    rfl
  next =>
    split at h
    next hkind =>
      cases h
      refine ⟨fun k hk => ?_, hv⟩
      cases hk
      exact hkind
    next => cases h

/-- Arguments that pass the check fit the parameters. -/
theorem Method.checkArgs_spec {m : Method} {alive : Handle → Bool} :
    ∀ {ps : List Param} {vs : List Value} {i : Nat}, vs.length = ps.length →
    (∀ v ∈ vs, v.Lives alive) →
    Ordinary (m.checkArgs i ps vs)
      ∧ ∀ ws, m.checkArgs i ps vs = .ok ws → Fitting ps ws ∧ ∀ w ∈ ws, w.Lives alive
  | [], [], i, _, _ => by
      refine ⟨.ok _, fun ws h => ?_⟩
      cases h
      exact ⟨.nil, by simp⟩
  | p :: ps, v :: vs, i, hlength, hlives => by
      have hlength' : vs.length = ps.length := Nat.succ.inj hlength
      obtain ⟨hordinary, hrest⟩ := checkArgs_spec (m := m) (i := i + 1) hlength' fun w hw =>
        hlives w (List.mem_cons_of_mem v hw)
      unfold checkArgs
      split
      next w hw =>
        obtain ⟨hfits, hw⟩ := Param.accept?_eq_some hw (hlives v List.mem_cons_self)
        refine ⟨hordinary.map _, fun ws h => ?_⟩
        obtain ⟨ws', hws, rfl⟩ := map_eq_ok.1 h
        obtain ⟨hfitting, hlives'⟩ := hrest ws' hws
        refine ⟨.cons hfits hfitting, fun w' hw' => ?_⟩
        rcases List.mem_cons.1 hw' with rfl | hw'
        · exact hw
        · exact hlives' w' hw'
      next => exact ⟨ordinary_of (by decide), fun _ h => by cases h⟩

theorem Param.Fits.int {v : Value} (h : Param.Fits (.kind .int) v) : ∃ n, v = .int n := by
  have hkind := h .int rfl
  cases v with
  | int n => exact ⟨n, rfl⟩
  | entity g => cases hg : g.kind <;> simp [Kind.of, Kind.ofEntity, hg] at hkind
  | _ => cases hkind

theorem Param.Fits.text {v : Value} (h : Param.Fits (.kind .text) v) : ∃ s, v = .text s := by
  have hkind := h .text rfl
  cases v with
  | text s => exact ⟨s, rfl⟩
  | entity g => cases hg : g.kind <;> simp [Kind.of, Kind.ofEntity, hg] at hkind
  | _ => cases hkind

-- =============================================================== answers

/-- A call is answered or refused for an ordinary reason; a handle given
back lives; and the balance of usages is kept. -/
structure Answers (a : Arena) (x : Except Fault (Option Value × Arena)) : Prop where
  ordinary : Ordinary x
  lives : ∀ v a', x = .ok (some v, a') → v.Lives a'.isAlive
  balance : ∀ result a', x = .ok (result, a') → ∀ outside, Balanced a outside →
    Balanced a' outside

/-- A method may refuse for an ordinary reason. -/
theorem Answers.error {a : Arena} {fault : Fault} (h : fault.cause.IsOrdinary) :
    Answers a (.error fault) where
  ordinary := FailsOnly.error h
  lives _ _ heq := by cases heq
  balance _ _ heq := by cases heq

namespace Standard

variable {a : Arena} {target : Handle} {vs : List Value}

/-- Looking leaves the arena as it is. -/
theorem look_answers {f : Arena → Handle → List Value → Except Fault (Option Value)}
    (hordinary : Ordinary (f a target vs))
    (hlives : ∀ v, f a target vs = .ok (some v) → v.Lives a.isAlive) :
    Answers a (look f a target vs) := by
  refine ⟨hordinary.map _, fun v a' h => ?_, fun result a' h outside hb => ?_⟩
  · obtain ⟨r, hr, h⟩ := map_eq_ok.1 h
    cases h
    exact hlives v hr
  · obtain ⟨r, hr, h⟩ := map_eq_ok.1 h
    cases h
    exact hb

theorem device_ordinary : Ordinary (device a target) := by
  unfold device
  split
  · exact .ok _
  · exact ordinary_of (by decide)

/-- The device of a memory method is the memory of its target. -/
theorem device_eq_ok {m : Memory} (h : device a target = .ok m) : a.memory? target = some m := by
  unfold device at h
  split at h
  next m' hm =>
    cases h
    exact hm
  next => cases h

/-- Looking at a memory for something that is no handle. -/
theorem reading_answers (vs : List Value) {f : Memory → Value}
    (hf : ∀ m, (f m).handle? = none) :
    Answers a (look (fun a target _ => do let m ← device a target; .ok (some (f m)))
      a target vs) := by
  refine look_answers (device_ordinary.bind fun _ _ => .ok _) fun v h => ?_
  obtain ⟨m, -, h⟩ := bind_eq_ok.1 h
  cases h
  exact Value.lives_of_plain (hf m)

-- ================================================================= parts

/-- The number of a slot is no handle. -/
theorem partId_answers (vs : List Value) : Answers a (partId a target vs) := by
  refine look_answers (FailsOnly.ok (some (count target.index))) fun v h => ?_
  cases h
  exact Value.lives_of_plain rfl

/-- A component is found on the list of its part only if it is alive. -/
theorem isAlive_of_component? {part h : Handle} {typeName : String} {n : Nat}
    (hfound : a.component? part typeName n = some h) : a.isAlive h := by
  have hmem : h ∈ a.components part typeName := List.mem_of_getElem? hfound
  unfold Arena.components at hmem
  split at hmem
  next e _ =>
    have htype := (List.mem_filter.1 hmem).2
    unfold Arena.isAlive
    cases he : a.entity? h with
    | none => simp [he] at htype
    | some e => rfl
  next => cases hmem

/-- A component that is found lives. -/
theorem partComponent_answers (h : Fitting [.kind .text, .kind .int] vs) :
    Answers a (partComponent a target vs) := by
  obtain _ | ⟨hv, _ | ⟨hw, _ | _⟩⟩ := h
  obtain ⟨typeName, rfl⟩ := hv.text
  obtain ⟨n, rfl⟩ := hw.int
  refine look_answers ?_ fun r hr => ?_
  · show Ordinary (if n < 0 then _ else _)
    split
    · exact ordinary_of (by decide)
    · split
      · exact .ok _
      · exact ordinary_of (by decide)
  · change (if n < 0 then _ else _) = _ at hr
    split at hr
    next => cases hr
    next =>
      split at hr
      next g hg =>
        cases hr
        rintro g' ⟨⟩
        exact isAlive_of_component? hg
      next => cases hr

theorem partComponentCount_answers (h : Fitting [.kind .text] vs) :
    Answers a (partComponentCount a target vs) := by
  obtain _ | ⟨hv, _ | _⟩ := h
  obtain ⟨typeName, rfl⟩ := hv.text
  refine look_answers (.ok _) fun r hr => ?_
  cases hr
  exact Value.lives_of_plain rfl

-- ============================================================== memories

/-- Looking at a cell of a memory. -/
theorem cell_answers {f : Arena → Memory → Int64 → Except Fault (Option Value)}
    (h : Fitting [.kind .int] vs) (hordinary : ∀ m addr, Ordinary (f a m addr))
    (hlives : ∀ m addr v, f a m addr = .ok (some v) → v.Lives a.isAlive) :
    Answers a (look (fun a target args => do
      let addr ← intArg args 0
      let m ← device a target
      f a m addr) a target vs) := by
  obtain _ | ⟨hv, _ | _⟩ := h
  obtain ⟨addr, rfl⟩ := hv.int
  refine look_answers (device_ordinary.bind fun m _ => hordinary m addr) fun w hw => ?_
  obtain ⟨addr', -, hw⟩ := bind_eq_ok.1 hw
  obtain ⟨m, -, hw⟩ := bind_eq_ok.1 hw
  exact hlives m addr' w hw

/-- A handle that is alive is stored like any other value. -/
theorem memorySetValue_of_lives {addr : Int64} {v : Value} (hv : v.Lives a.isAlive) :
    memorySetValue a target [.int addr, v] = (do
      let m ← device a target
      let (old, m) ← m.set addr v
      .ok (none, (a.setMemory target m).exchange v old)) := by
  cases v with
  | entity g =>
      have halive : a.isAlive g = true := hv g rfl
      simp [memorySetValue, intArg, anyArg, halive]
  | _ => simp [memorySetValue, intArg, anyArg]

/-- The value that is put into the cell takes a usage, and the one that it
displaces gives one up. -/
theorem memorySetValue_answers (h : Fitting [.kind .int, .any] vs)
    (hlives : ∀ v ∈ vs, v.Lives a.isAlive) : Answers a (memorySetValue a target vs) := by
  obtain _ | ⟨hv, _ | ⟨hw, _ | _⟩⟩ := h
  next first second =>
    obtain ⟨addr, rfl⟩ := hv.int
    have hsecond : second.Lives a.isAlive := hlives second (by simp)
    rw [memorySetValue_of_lives hsecond]
    refine ⟨device_ordinary.bind fun m _ => (Memory.set_ordinary addr _).bind fun _ _ => .ok _,
      fun v a' h => ?_, fun result a' h outside hb => ?_⟩
    · obtain ⟨m, -, h⟩ := bind_eq_ok.1 h
      obtain ⟨r, -, h⟩ := bind_eq_ok.1 h
      cases h
    · obtain ⟨m, hm, h⟩ := bind_eq_ok.1 h
      obtain ⟨⟨old, m'⟩, hset, h⟩ := bind_eq_ok.1 h
      cases h
      exact hb.fillMemory (device_eq_ok hm) hsecond (Memory.values_of_set hset)

/-- The value that a cell gives up drops its usage. -/
theorem memoryClear_answers (h : Fitting [.kind .int] vs) :
    Answers a (memoryClear a target vs) := by
  obtain _ | ⟨hv, _ | _⟩ := h
  obtain ⟨addr, rfl⟩ := hv.int
  refine ⟨device_ordinary.bind fun m _ => (Memory.clear_ordinary addr).bind fun _ _ => .ok _,
    fun v a' h => ?_, fun result a' h outside hb => ?_⟩
  · obtain ⟨addr', -, h⟩ := bind_eq_ok.1 h
    obtain ⟨m, -, h⟩ := bind_eq_ok.1 h
    obtain ⟨r, -, h⟩ := bind_eq_ok.1 h
    cases h
  · obtain ⟨addr', -, h⟩ := bind_eq_ok.1 h
    obtain ⟨m, hm, h⟩ := bind_eq_ok.1 h
    obtain ⟨⟨old, m'⟩, hclear, h⟩ := bind_eq_ok.1 h
    cases h
    exact hb.emptyMemory (device_eq_ok hm) (Memory.values_of_clear hclear)

end Standard

open Standard in
/-- The standard methods answer if their arguments fit. -/
theorem Method.action_answers {m : Method} {typeName name : String} {a : Arena}
    {target : Handle} {vs : List Value}
    (hfound : Registry.standard.find? typeName name = some m)
    (hfitting : Fitting m.signature.params vs) (hlives : ∀ v ∈ vs, v.Lives a.isAlive) :
    Answers a (m.action a target vs) := by
  obtain ⟨⟨typeName', m'⟩, hentry, rfl⟩ := Option.map_eq_some_iff.1 hfound
  have hmem := List.mem_of_find?_eq_some hentry
  simp only [Registry.standard, Standard.partMethods, Standard.memoryMethods, Registry.register,
    Registry.empty, List.foldl_cons, List.foldl_nil, List.mem_cons, List.not_mem_nil, or_false,
    Prod.mk.injEq] at hmem
  rcases hmem with ⟨-, rfl⟩ | ⟨-, rfl⟩ | ⟨-, rfl⟩ | ⟨-, rfl⟩ | ⟨-, rfl⟩ | ⟨-, rfl⟩ | ⟨-, rfl⟩
    | ⟨-, rfl⟩ | ⟨-, rfl⟩ | ⟨-, rfl⟩ | ⟨-, rfl⟩ | ⟨-, rfl⟩
  · exact memoryClear_answers hfitting
  · exact memorySetValue_answers hfitting hlives
  · exact cell_answers (f := fun a m addr => m.present a.isAlive addr) hfitting
      (fun _ addr => (Memory.present_spec addr).1)
      fun _ addr v h => (Memory.present_spec addr).2 v h
  · refine cell_answers (f := fun a m addr => do
        let kind ← m.kind a.isAlive addr
        .ok (some (.int kind.code))) hfitting
      (fun _ addr => (Memory.kind_ordinary addr).bind fun _ _ => .ok _) fun m addr v h => ?_
    obtain ⟨kind, -, h⟩ := bind_eq_ok.1 h
    cases h
    exact Value.lives_of_plain rfl
  · refine cell_answers (f := fun a m addr => do
        let null ← m.isNull a.isAlive addr
        .ok (some (.bool null))) hfitting
      (fun _ addr => (Memory.isNull_ordinary addr).bind fun _ _ => .ok _) fun m addr v h => ?_
    obtain ⟨null, -, h⟩ := bind_eq_ok.1 h
    cases h
    exact Value.lives_of_plain rfl
  · exact reading_answers vs fun m => by cases m.lastFree <;> rfl
  · exact reading_answers vs fun m => by cases m.firstFree <;> rfl
  · exact reading_answers vs fun m => rfl
  · exact reading_answers vs fun m => rfl
  · exact partComponentCount_answers hfitting
  · exact partComponent_answers hfitting
  · exact partId_answers vs

/-- The standard methods answer whatever they are called with. -/
theorem Method.invoke_answers {m : Method} {typeName name : String} {a : Arena}
    (target : Handle) {vs : List Value}
    (hfound : Registry.standard.find? typeName name = some m)
    (hlives : ∀ v ∈ vs, v.Lives a.isAlive) : Answers a (m.invoke a target vs) := by
  unfold invoke
  split
  next hlength =>
    obtain ⟨hordinary, hspec⟩ := checkArgs_spec (m := m) (i := 0) hlength hlives
    cases hargs : m.checkArgs 0 m.signature.params vs with
    | error fault => exact .error (hordinary fault hargs)
    | ok ws =>
        obtain ⟨hfitting, hws⟩ := hspec ws hargs
        exact action_answers hfound hfitting hws
  next => exact .error (show Cause.invalidOperand.IsOrdinary by decide)

end TickScript
