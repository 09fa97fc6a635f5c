/-
Methods that keep to the operations of the arena.

Hosts register methods of their own, and nothing but the arena's interface
keeps these from handing out handles that were never issued. A fair method
does to the arena what can be done to it from outside, with handles that
it was given or has found there, and gives back such a handle or none.
The standard methods are fair.

One thing more is asked of it, since generations are counted over whole
lines of a script and not inside a call: a single call does not take a
slot through all its generations.
-/
import TickScript.Proofs.Processor.Effects

namespace TickScript

/-- An action on the arena that does nothing but run operations, with
handles that were issued. -/
structure FairAction (f : Standard.Action) : Prop where
  brief : ∀ {a a' : Arena} {target : Handle} {args : List Value} {result : Option Value},
    f a target args = .ok (result, a') → a.Brief a'
  run : ∀ {a a' : Arena} {target : Handle} {args : List Value} {result : Option Value},
    a.Sound → a.Issued target → (∀ g, .entity g ∈ args → a.Issued g) →
    f a target args = .ok (result, a') → a.Unwrapped a' →
    a.Run a' ∧ ∀ g, result = some (.entity g) → a'.Issued g

/-- All methods are fair. -/
def Registry.Fair (r : Registry) : Prop := ∀ entry ∈ r.methods, FairAction entry.2.action

/-- A method that is found is fair with all others. -/
theorem Registry.Fair.find {r : Registry} {typeName name : String} {m : Method} (hr : r.Fair)
    (hfound : r.find? typeName name = some m) : FairAction m.action := by
  obtain ⟨entry, hentry, rfl⟩ := Option.map_eq_some_iff.1 hfound
  exact hr entry (List.mem_of_find?_eq_some hentry)

/-- A parameter takes handles as they are. -/
theorem Param.accept?_handle {p : Param} {v : Value} {g : Handle}
    (h : p.accept? v = some (.entity g)) : v = .entity g := by
  unfold accept? at h
  split at h
  next =>
    cases h
    rfl
  next => cases h
  next =>
    split at h
    next =>
      cases h
      rfl
    next => cases h

/-- Checking the arguments makes no handle of another value. -/
theorem Method.checkArgs_handle {m : Method} {g : Handle} :
    ∀ {ps : List Param} {vs ws : List Value} {i : Nat}, m.checkArgs i ps vs = .ok ws →
    .entity g ∈ ws → .entity g ∈ vs
  | [], vs, ws, i, h, hg => by
      cases h
      cases hg
  | _ :: _, [], ws, i, h, hg => by
      cases h
      cases hg
  | p :: ps, v :: vs, ws, i, h, hg => by
      unfold checkArgs at h
      split at h
      next w hw =>
        obtain ⟨more, hmore, rfl⟩ := map_eq_ok.1 h
        rcases List.mem_cons.1 hg with rfl | hg
        · rw [Param.accept?_handle hw]
          exact List.mem_cons_self
        · exact List.mem_cons_of_mem v (checkArgs_handle hmore hg)
      next => cases h

/-- A call acts with no handles but those that it is given. -/
theorem Method.invoke_eq_ok {m : Method} {a : Arena} {target : Handle} {args : List Value}
    {r : Option Value × Arena} (h : m.invoke a target args = .ok r) :
    ∃ args', (∀ g, .entity g ∈ args' → .entity g ∈ args) ∧ m.action a target args' = .ok r := by
  unfold invoke at h
  split at h
  next =>
    obtain ⟨args', hargs, h⟩ := bind_eq_ok.1 h
    exact ⟨args', fun g => checkArgs_handle hargs, h⟩
  next => cases h

-- ================================================================== runs

namespace Arena

variable {a a' : Arena} {given : List Handle}

/-- Nothing is recycled where nothing happens. -/
theorem Brief.refl (a : Arena) : Brief a a := by
  intro i slot hslot
  rw [generationAt, hslot]
  exact next_ne slot.generation

/-- Settling recycles a slot once. -/
theorem Settles.brief (h : Settles given a a') : Brief a a' := by
  intro i slot' hslot'
  obtain ⟨slot, hslot, hsettles⟩ := h.before hslot'
  rw [generationAt, hslot]
  show slot'.generation + 1 ≠ slot.generation
  rcases hsettles.generation with ⟨hgen, -⟩ | ⟨hgen, -, -⟩
  · rw [hgen]
    exact next_ne _
  · rw [hgen]
    intro htwice
    have hnat := congrArg UInt32.toNat htwice
    have hlt := slot.generation.toNat_lt
    simp only [UInt32.toNat_add, UInt32.toNat_one] at hnat
    omega

/-- Moving usages is a run. -/
theorem Run.exchange {v : Value} (hrun : Run a a') (old : Option Value)
    (hv : ∀ g, v = .entity g → a'.Issued g) (hwrap : Unwrapped a' (a'.exchange v old)) :
    Run a (a'.exchange v old) := by
  have hsettles : Settles [] a' (a'.retainValue v) := settles_retainValue v
  have hfree := a'.free_retainValue v
  have hretained : Run a (a'.retainValue v) := by
    refine hrun.step (.retainValue v) (fun g hg => ?_) (hsettles.unwrapped_of_free hfree)
    refine hv g ?_
    cases v <;> simp_all [Op.handles, Op.retained?, Op.supplied, Value.handle?]
  cases old with
  | none => exact hretained
  | some w =>
      exact hretained.step (.releaseValue w) (fun g hg => by cases hg) (hwrap.after hsettles hfree)

/-- A memory with other contents and a move of usages settle. -/
theorem settles_refill {target : Handle} (m : Memory) (v : Value) (old : Option Value) :
    Settles (handlesOf m.values) a ((a.setMemory target m).exchange v old) :=
  (settles_setMemory fun _ hg => hg).trans (settles_exchange v old)

/-- Giving a memory other contents is a run. -/
theorem Sound.run_refill {target : Handle} {m : Memory} {v : Value} {old : Option Value}
    (hs : a.Sound) (hm : ∀ g ∈ handlesOf m.values, a.Issued g)
    (hv : ∀ g, v = .entity g → a.Issued g)
    (hwrap : Unwrapped a ((a.setMemory target m).exchange v old)) :
    Run a ((a.setMemory target m).exchange v old) := by
  have hsettles : Settles (handlesOf m.values) a (a.setMemory target m) :=
    settles_setMemory fun _ hg => hg
  have hfree := a.free_setMemory target m
  have hwritten : Run a (a.setMemory target m) :=
    Run.refl.step (.write target m) hm (hsettles.unwrapped_of_free hfree)
  have hfollows := (hs.setMemory (h := target) hm).2
  exact hwritten.exchange old (fun g hg => (hv g hg).follows hfollows)
    (hwrap.after hsettles hfree)

end Arena

-- =============================================================== standard

namespace Standard

/-- Looking is fair if a handle that is found was issued. -/
theorem fair_look {f : Arena → Handle → List Value → Except Fault (Option Value)}
    (hf : ∀ {a target args g}, a.Sound → f a target args = .ok (some (.entity g)) → a.Issued g) :
    FairAction (look f) where
  brief h := by
    obtain ⟨r, -, h⟩ := map_eq_ok.1 h
    cases h
    exact .refl _
  run hs _ _ h _ := by
    obtain ⟨r, hr, h⟩ := map_eq_ok.1 h
    cases h
    refine ⟨.refl, fun g hg => ?_⟩
    subst hg
    exact hf hs hr

/-- Looking at a memory for something that is no handle. -/
theorem fair_reading {f : Memory → Value} (hf : ∀ m g, f m ≠ .entity g) :
    FairAction (look fun a target _ => do let m ← device a target; .ok (some (f m))) := by
  refine fair_look fun _ h => ?_
  obtain ⟨m, -, h⟩ := bind_eq_ok.1 h
  exact absurd (Option.some.inj (Except.ok.inj h)) (hf m _)

theorem fair_partId : FairAction partId := fair_look fun _ h => by cases h

/-- A component that is found was issued when it was attached. -/
theorem fair_partComponent : FairAction partComponent := by
  refine fair_look fun hs h => ?_
  obtain ⟨typeName, -, h⟩ := bind_eq_ok.1 h
  obtain ⟨n, -, h⟩ := bind_eq_ok.1 h
  split at h
  next => cases h
  next =>
    split at h
    next g hg =>
      cases h
      exact hs.kept (Arena.keeps_component hg)
    next => cases h

theorem fair_partComponentCount : FairAction partComponentCount := by
  refine fair_look fun _ h => ?_
  obtain ⟨typeName, -, h⟩ := bind_eq_ok.1 h
  cases h

theorem fair_memoryIsNull : FairAction memoryIsNull := by
  refine fair_look fun _ h => ?_
  obtain ⟨addr, -, h⟩ := bind_eq_ok.1 h
  obtain ⟨m, -, h⟩ := bind_eq_ok.1 h
  obtain ⟨null, -, h⟩ := bind_eq_ok.1 h
  cases h

theorem fair_memoryGetType : FairAction memoryGetType := by
  refine fair_look fun _ h => ?_
  obtain ⟨addr, -, h⟩ := bind_eq_ok.1 h
  obtain ⟨m, -, h⟩ := bind_eq_ok.1 h
  obtain ⟨kind, -, h⟩ := bind_eq_ok.1 h
  cases h

/-- What a memory holds was put there, with a handle that was issued. -/
theorem fair_memoryGetValue : FairAction memoryGetValue := by
  refine fair_look fun hs h => ?_
  obtain ⟨addr, -, h⟩ := bind_eq_ok.1 h
  obtain ⟨m, hm, h⟩ := bind_eq_ok.1 h
  exact hs.kept (Arena.keeps_memory (device_eq_ok hm) (Memory.present_handle h))

/-- What storing a value in a cell comes to. -/
theorem memorySetValue_eq_ok {a a' : Arena} {target : Handle} {args : List Value}
    {result : Option Value} (h : memorySetValue a target args = .ok (result, a')) :
    ∃ addr v m m' old, v ∈ args ∧ device a target = .ok m ∧ m.set addr v = .ok (old, m')
      ∧ result = none ∧ a' = (a.setMemory target m').exchange v old := by
  obtain ⟨addr, -, h⟩ := bind_eq_ok.1 h
  obtain ⟨v, hv, h⟩ := bind_eq_ok.1 h
  have hmem : v ∈ args := by
    unfold anyArg at hv
    split at hv
    next w hw =>
      cases hv
      exact List.mem_of_getElem? hw
    next => cases hv
  have hrest : (do
      let m ← device a target
      let r ← m.set addr v
      .ok (none, (a.setMemory target r.2).exchange v r.1)) = Except.ok (result, a') := by
    cases v with
    | entity g =>
        simp only at h
        split at h
        next => exact h
        next => cases h
    | _ => exact h
  obtain ⟨m, hm, hrest⟩ := bind_eq_ok.1 hrest
  obtain ⟨⟨old, m'⟩, hset, hrest⟩ := bind_eq_ok.1 hrest
  cases hrest
  exact ⟨addr, v, m, m', old, hmem, hm, hset, rfl, rfl⟩

/-- Storing a value in a cell is to write a memory, to retain and to release. -/
theorem fair_memorySetValue : FairAction memorySetValue where
  brief h := by
    obtain ⟨addr, v, m, m', old, -, -, -, -, rfl⟩ := memorySetValue_eq_ok h
    exact (Arena.settles_refill m' v old).brief
  run {a _ _ _ _} hs _ hargs h hwrap := by
    obtain ⟨addr, v, m, m', old, hv, hm, hset, rfl, rfl⟩ := memorySetValue_eq_ok h
    have hissued : ∀ g, v = .entity g → a.Issued g := fun g hg => hargs g (hg ▸ hv)
    refine ⟨hs.run_refill (fun g hg => ?_) hissued hwrap, fun g hg => by cases hg⟩
    rcases Memory.handle_of_set hset hg with rfl | hg
    · exact hissued g rfl
    · exact hs.kept (Arena.keeps_memory (device_eq_ok hm) hg)

/-- Emptying a cell is to write a memory and to release. -/
theorem fair_memoryClear : FairAction memoryClear where
  brief h := by
    obtain ⟨addr, -, h⟩ := bind_eq_ok.1 h
    obtain ⟨m, -, h⟩ := bind_eq_ok.1 h
    obtain ⟨⟨old, m'⟩, -, h⟩ := bind_eq_ok.1 h
    cases h
    exact (Arena.settles_refill m' (.bool false) old).brief
  run {a _ _ _ _} hs _ _ h hwrap := by
    obtain ⟨addr, -, h⟩ := bind_eq_ok.1 h
    obtain ⟨m, hm, h⟩ := bind_eq_ok.1 h
    obtain ⟨⟨old, m'⟩, hclear, h⟩ := bind_eq_ok.1 h
    cases h
    -- releasing what was there is an exchange for something that is no handle
    have hplain : ∀ g, Value.bool false = .entity g → a.Issued g := fun g hg => by cases hg
    refine ⟨hs.run_refill (fun g hg => ?_) hplain hwrap, fun g hg => by cases hg⟩
    exact hs.kept (Arena.keeps_memory (device_eq_ok hm) (Memory.handle_of_clear hclear hg))

end Standard

open Standard in
/-- The standard methods are fair. -/
theorem Registry.fair_standard : Registry.standard.Fair := by
  intro entry hentry
  simp only [Registry.standard, partMethods, memoryMethods, Registry.register, Registry.empty,
    List.foldl_cons, List.foldl_nil, List.mem_cons, List.not_mem_nil, or_false] at hentry
  rcases hentry with rfl | rfl | rfl | rfl | rfl | rfl | rfl | rfl | rfl | rfl | rfl | rfl
  · exact fair_memoryClear
  · exact fair_memorySetValue
  · exact fair_memoryGetValue
  · exact fair_memoryGetType
  · exact fair_memoryIsNull
  · exact fair_reading fun m g => by cases m.lastFree <;> simp [cellNumber, count]
  · exact fair_reading fun m g => by cases m.firstFree <;> simp [cellNumber, count]
  · exact fair_reading fun m g h => by cases h
  · exact fair_reading fun m g h => by cases h
  · exact fair_partComponentCount
  · exact fair_partComponent
  · exact fair_partId

end TickScript
