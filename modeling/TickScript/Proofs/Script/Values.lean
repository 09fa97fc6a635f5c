/-
The values that scripts come by while they run.

Two things are said of every source of values. Its faults are ordinary:
of a kind that a running script may meet, none of those that tell of a
fault in the script itself. And a handle that it yields is to a living
entity (`Value.Lives`), so the handle may be stored. Expressions yield no
handles at all, since they see entities as numbers.
-/
import TickScript.Proofs.Arena.Tally
import TickScript.Proofs.Script.WellFormed

namespace TickScript

/-- Causes that a running script may meet. -/
def Cause.IsOrdinary (c : Cause) : Prop :=
  50 ≤ c.number ∧ c ≠ .internalError ∧ c ≠ .missingInstruction ∧ c ≠ .invalidJump

instance (c : Cause) : Decidable c.IsOrdinary := inferInstanceAs (Decidable (_ ∧ _))

/-- The result is found, or refused for an ordinary reason. -/
abbrev Ordinary {α : Type} (x : Except Fault α) : Prop := FailsOnly Cause.IsOrdinary x

/-- A fault of the model is ordinary by its cause. -/
theorem ordinary_of {α : Type} {c : Cause} {detail : String} (h : c.IsOrdinary) :
    Ordinary (.error (.of c detail) : Except Fault α) := .error h

/-- What goes wrong in computing may go wrong in a running script. -/
theorem Cause.IsComputing.isOrdinary {c : Cause} (h : c.IsComputing) : c.IsOrdinary := by
  rcases h with rfl | rfl | rfl <;> decide

/-- The value is no handle, or one to a living entity. -/
def Value.Lives (alive : Handle → Bool) (v : Value) : Prop := ∀ h, v = .entity h → alive h

/-- What is no handle lives in any arena. -/
theorem Value.lives_of_plain {alive : Handle → Bool} {v : Value} (h : v.handle? = none) :
    v.Lives alive := by
  rintro g rfl
  cases h

-- =========================================================== expressions

/-- Arithmetic gives numbers. -/
theorem Arith.exact_plain {i : Int} {v : Value} (h : Arith.exact i = .ok v) :
    v.handle? = none := by
  unfold Arith.exact at h
  split at h <;> cases h
  rfl

theorem Arith.onInts_plain {op : BinaryOp} {l r : Int64} {x : Except Fault Value} {v : Value}
    (hx : Arith.onInts op l r = some x) (h : x = .ok v) : v.handle? = none := by
  cases op <;> cases hx
  case multiply => exact exact_plain h
  case add => exact exact_plain h
  case subtract => exact exact_plain h
  case modulus =>
    unfold remainder at h
    split at h
    next => cases h
    next =>
      split at h
      next => exact exact_plain h
      next => cases h
  all_goals
    cases h
    rfl

/-- Operators give numbers and truth values. -/
theorem BinaryOp.apply_plain {op : BinaryOp} {l r v : Value} (h : op.apply l r = .ok v) :
    v.handle? = none := by
  unfold BinaryOp.apply at h
  split at h
  next =>
    split at h
    next w hw =>
      cases h
      cases op <;> cases hw <;> rfl
    next => cases h
  next =>
    split at h
    next a b _ =>
      cases hx : Arith.onInts op a b with
      | none => simp [hx] at h
      | some x => exact Arith.onInts_plain hx (by simpa [hx] using h)
    next =>
      split at h
      next w hw =>
        cases h
        cases op <;> cases hw <;> rfl
      next => cases h
    next => cases h

theorem UnaryOp.apply_plain {op : UnaryOp} {v w : Value} (h : op.apply v = .ok w) :
    w.handle? = none := by
  unfold UnaryOp.apply at h
  split at h
  next => exact Arith.exact_plain h
  next => cases h; rfl
  next => cases h
  next => cases h; rfl
  next => cases h

namespace Builtin

variable {v w : Value}

/-- Functions give numbers. -/
theorem absOf_plain (h : absOf v = .ok w) : w.handle? = none := by
  unfold absOf at h
  split at h
  next => exact Arith.exact_plain h
  next => cases h; rfl
  next => cases h

theorem signOf_plain (h : signOf v = .ok w) : w.handle? = none := by
  unfold signOf at h
  split at h
  next => cases h; rfl
  next =>
    split at h
    next => cases h
    next => split at h <;> cases h <;> rfl
  next => cases h

theorem logOf_plain {vs : List Value} (h : logOf vs = .ok w) : w.handle? = none := by
  unfold logOf at h
  split at h
  next =>
    obtain ⟨base, -, h⟩ := bind_eq_ok.1 h
    obtain ⟨x, -, h⟩ := bind_eq_ok.1 h
    cases h
    rfl
  next =>
    split at h
    next =>
      obtain ⟨x, -, h⟩ := bind_eq_ok.1 h
      cases h
      rfl
    next => cases h

/-- Two arguments taken as floats give a float. -/
theorem floats_plain {f : Builtin} {l r : Value} {g : Float → Float → Float}
    (h : (do let x ← f.floatArg l; let y ← f.floatArg r; .ok (Value.float (g x y))) = .ok w) :
    w.handle? = none := by
  obtain ⟨x, -, h⟩ := bind_eq_ok.1 h
  obtain ⟨y, -, h⟩ := bind_eq_ok.1 h
  cases h
  rfl

/-- The greater of two numbers is an integer or a float. -/
theorem maxOf_plain {l r : Value} (h : maxOf l r = .ok w) : w.handle? = none := by
  unfold maxOf at h
  split at h
  next => cases h; rfl
  next => exact floats_plain h

theorem minOf_plain {l r : Value} (h : minOf l r = .ok w) : w.handle? = none := by
  unfold minOf at h
  split at h
  next => cases h; rfl
  next => exact floats_plain h

theorem unary_plain {f : Builtin} (h : f.unary v = .ok w) : w.handle? = none := by
  obtain ⟨x, -, h⟩ := bind_eq_ok.1 h
  split at h
  next => cases h; rfl
  next => cases h

/-- A function that is called by its name gives a number. -/
theorem call_plain {f : Builtin} {vs : List Value} {draws draws' : Draws}
    (h : f.call vs draws = .ok (w, draws')) : w.handle? = none := by
  unfold call at h
  split at h
  case h_1 => cases h; rfl
  case h_10 => cases h
  all_goals
    obtain ⟨r, hr, h⟩ := map_eq_ok.1 h
    cases h
  case h_2 => exact absOf_plain hr
  case h_3 => exact signOf_plain hr
  case h_4 => exact logOf_plain hr
  case h_5 => exact logOf_plain hr
  case h_6 => exact maxOf_plain hr
  case h_7 => exact minOf_plain hr
  case h_8 => exact floats_plain hr
  case h_9 => exact unary_plain hr

end Builtin

namespace Term

variable {look : String → Option Value} {draws draws' : Draws} {v : Value} {span : Span}

/-- A variable has the value it is looked up with. -/
theorem var_plain {name : String} (hlook : ∀ w, look name = some w → w.handle? = none)
    (h : (var span name).eval look draws = .ok (v, draws')) : v.handle? = none := by
  rw [eval] at h
  cases hname : look name with
  | none =>
      rw [hname] at h
      cases h
  | some w =>
      rw [hname] at h
      cases h
      exact hlook _ hname

/-- Whatever the argument is, the operator gives no handle. -/
theorem unary_plain {op : UnaryOp} {arg : Term}
    (h : (unary span op arg).eval look draws = .ok (v, draws')) : v.handle? = none := by
  rw [eval] at h
  obtain ⟨r, -, h⟩ := bind_eq_ok.1 h
  obtain ⟨w, hw, h⟩ := bind_eq_ok.1 h
  cases h
  exact UnaryOp.apply_plain hw

/-- Nor does an operator with two arguments. -/
theorem binary_plain {op : BinaryOp} {lhs rhs : Term}
    (h : (binary span op lhs rhs).eval look draws = .ok (v, draws')) : v.handle? = none := by
  rw [eval] at h
  obtain ⟨l, -, h⟩ := bind_eq_ok.1 h
  obtain ⟨r, -, h⟩ := bind_eq_ok.1 h
  obtain ⟨w, hw, h⟩ := bind_eq_ok.1 h
  cases h
  exact BinaryOp.apply_plain hw

/-- The value of a conditional is that of a branch. -/
theorem conditional_eq_ok {name : String} {condition whenTrue whenFalse : Term}
    (isConditional : isIf name = true)
    (h : (call span name [condition, whenTrue, whenFalse]).eval look draws = .ok (v, draws')) :
    ∃ draws₁, whenTrue.eval look draws₁ = .ok (v, draws')
      ∨ whenFalse.eval look draws₁ = .ok (v, draws') := by
  rw [eval, if_pos isConditional, evalIf] at h
  obtain ⟨⟨w, draws₁⟩, -, h⟩ := bind_eq_ok.1 h
  cases w with
  | bool b =>
      cases b with
      | true => exact ⟨draws₁, .inl h⟩
      | false => exact ⟨draws₁, .inr h⟩
  | _ => cases h

/-- The arguments of a function are evaluated, and then the function is
applied. -/
theorem call_plain {name : String} {args : List Term} {f : Builtin}
    (isFunction : isIf name = false) (known : Builtin.ofName? name = some f)
    (h : (call span name args).eval look draws = .ok (v, draws')) : v.handle? = none := by
  simp only [eval, isFunction, known, Bool.false_eq_true, if_false] at h
  obtain ⟨r, -, h⟩ := bind_eq_ok.1 h
  exact Builtin.call_plain h

end Term

/-- Terms over values that are no handles yield none. -/
theorem Emits.eval_plain {params : List String} {look : String → Option Value}
    (hlook : ∀ name v, look name = some v → v.handle? = none) {n : Nat} : {t : Term} →
    {code : Code} → Emits params n t code → ∀ {draws draws' : Draws} {v : Value},
    t.eval look draws = .ok (v, draws') → v.handle? = none
  | _, _, .int, _, _, _, h => by cases h; rfl
  | _, _, .float, _, _, _, h => by cases h; rfl
  | _, _, .bool, _, _, _, h => by cases h; rfl
  | .var _ name, _, .var _, _, _, _, h => Term.var_plain (hlook name) h
  | _, _, .unary _, _, _, _, h => Term.unary_plain h
  | _, _, .binary _ _, _, _, _, h => Term.binary_plain h
  | _, _, .conditional isConditional _ second third, _, _, _, h =>
      (Term.conditional_eq_ok isConditional h).elim fun _ h =>
        h.elim (second.eval_plain hlook) (third.eval_plain hlook)
  | _, _, .call isFunction known _ _ _, _, _, _, h => Term.call_plain isFunction known h

/-- Expressions see an entity as the number of its slot. -/
theorem Value.scalar_plain (v : Value) : v.scalar.handle? = none := by
  cases v <;> rfl

namespace Formula

variable {vars : Storage} {alive : Handle → Bool}

/-- Parameters that are variables are bound, one value each, unless one
is null. -/
theorem bind_ordinary : ∀ {params : List (String × VarId)},
    (∀ p ∈ params, p.2 < vars.kinds.length) → Ordinary (bind vars alive params)
  | [], _ => .ok _
  | (name, id) :: params, hknown => by
      obtain ⟨v, -, hget, -⟩ := Storage.get_of_lt (hknown _ List.mem_cons_self)
      unfold bind
      simp only [hget, ok_bind]
      split
      next => exact (bind_ordinary fun p hp => hknown p (List.mem_cons_of_mem _ hp)).map _
      next => exact ordinary_of (by decide)

/-- Parameters are bound one by one, each to a value that is no handle. -/
theorem plain_of_bind : ∀ {params : List (String × VarId)} {bound : List Value},
    bind vars alive params = .ok bound →
    bound.length = params.length ∧ ∀ v ∈ bound, v.handle? = none
  | [], bound, h => by
      cases h
      simp
  | (name, id) :: params, bound, h => by
      obtain ⟨var, -, h⟩ := bind_eq_ok.1 h
      split at h
      next v _ =>
        obtain ⟨more, hmore, rfl⟩ := map_eq_ok.1 h
        obtain ⟨hlength, hplain⟩ := plain_of_bind hmore
        refine ⟨by simp [hlength], fun w hw => ?_⟩
        rcases List.mem_cons.1 hw with rfl | hw
        · exact v.scalar_plain
        · exact hplain w hw
      next => cases h

/-- A compiled term computes on the values of its variables, or finds one
of them null. It yields no handle. -/
theorem evaluate_spec {f : Formula} (hf : f.Generated)
    (hknown : ∀ p ∈ f.params, p.2 < vars.kinds.length) (draws : Draws) :
    Ordinary (f.evaluate vars alive draws)
      ∧ ∀ v draws', f.evaluate vars alive draws = .ok (v, draws') → v.handle? = none := by
  obtain ⟨t, ht⟩ := hf
  have hemits := Term.generate_emits ht
  refine ⟨(bind_ordinary hknown).bind fun bound hbound => ?_, fun v draws' h => ?_⟩
  · have hlength : bound.length = (f.params.map Prod.fst).length := by
      rw [List.length_map]
      exact (plain_of_bind hbound).1
    exact (hemits.computes_run (binds_lookUp hlength) draws).mono fun _ h => h.isOrdinary
  · obtain ⟨bound, hbound, h⟩ := bind_eq_ok.1 h
    obtain ⟨hlength, hplain⟩ := plain_of_bind hbound
    have hbinds : Binds (f.params.map Prod.fst) bound (lookUp (f.params.map Prod.fst) bound) :=
      binds_lookUp (by rw [List.length_map]; exact hlength)
    rcases hemits.run hbinds draws with heval | ⟨-, hfull⟩
    · rw [heval] at h
      refine hemits.eval_plain (fun name w hw => ?_) h
      obtain ⟨before, after, hzip, -⟩ := List.lookup_eq_some_iff.1 hw
      have hmem : (name, w) ∈ (f.params.map Prod.fst).zip bound := by simp [hzip]
      exact hplain w (List.of_mem_zip hmem).2
    · rw [hfull] at h
      cases h

end Formula

-- ============================================================== operands

/-- What is read of a variable that is not null lives. -/
theorem Variable.lives_of_present {alive : Handle → Bool} {var : Variable} {v : Value}
    (h : var.present? alive = some v) : v.Lives alive := by
  rintro g rfl
  unfold present? at h
  split at h
  next => cases h
  next hnull =>
    unfold isNull at hnull
    simpa [h] using hnull

/-- The value of an operand lives. -/
theorem Operand.value_spec {o : Operand} {vars : Storage} (alive : Handle → Bool)
    (ho : o.WellFormed vars.kinds.length) (draws : Draws) :
    Ordinary (o.value vars alive draws)
      ∧ ∀ v draws', o.value vars alive draws = .ok (v, draws') → v.Lives alive := by
  cases o with
  | literal v =>
      refine ⟨.ok _, fun w draws' h => ?_⟩
      cases h
      exact Value.lives_of_plain (ho.plain v rfl)
  | text s =>
      refine ⟨.ok _, fun w draws' h => ?_⟩
      cases h
      exact Value.lives_of_plain rfl
  | formula f =>
      have hknown : ∀ p ∈ f.params, p.2 < vars.kinds.length := fun p hp =>
        ho.known p.2 (List.mem_map.2 ⟨p, hp, rfl⟩)
      obtain ⟨hordinary, hplain⟩ := Formula.evaluate_spec (ho.generated f rfl) hknown draws
      exact ⟨hordinary, fun v draws' h => Value.lives_of_plain (hplain v draws' h)⟩
  | var id =>
      obtain ⟨var, -, hget, -⟩ := Storage.get_of_lt (ho.known id List.mem_cons_self)
      unfold value
      simp only [hget, ok_bind]
      split
      next w hw =>
        refine ⟨.ok _, fun v draws' h => ?_⟩
        cases h
        exact Variable.lives_of_present hw
      next => exact ⟨ordinary_of (by decide), fun _ _ h => by cases h⟩
  | char id =>
      obtain ⟨var, -, hget, -⟩ := Storage.get_of_lt (ho.known id List.mem_cons_self)
      unfold value
      simp only [hget, ok_bind]
      split
      next =>
        split
        next =>
          refine ⟨.ok _, fun v draws' h => ?_⟩
          cases h
          exact Value.lives_of_plain rfl
        next => exact ⟨ordinary_of (by decide), fun _ _ h => by cases h⟩
      next => exact ⟨ordinary_of (by decide), fun _ _ h => by cases h⟩

-- =========================================================== conversions

/-- The entity found in a slot is alive. -/
theorem Arena.isAlive_of_resolve {a : Arena} {i : Nat} {h : Handle}
    (hresolve : a.resolve i = some h) : a.isAlive h := by
  obtain ⟨slot, hslot, hresolve⟩ := Option.bind_eq_some_iff.1 hresolve
  obtain ⟨e, he, hresolve⟩ := Option.bind_eq_some_iff.1 hresolve
  cases hresolve
  exact Arena.isAlive_iff.2 ⟨slot, e, Arena.slot?_eq_some_iff.2 ⟨hslot, rfl⟩, he⟩

namespace Kind

variable {a : Arena} {kind : Kind} {v w : Value}

/-- A handle that is asked for by kind is of that kind, and lives. -/
theorem toHandle?_eq_some {h : Handle} (hconvert : toHandle? a.resolve kind v = some h)
    (hv : v.Lives a.isAlive) : ofEntity h.kind = kind ∧ a.isAlive h := by
  unfold toHandle? at hconvert
  split at hconvert
  next g =>
    split at hconvert
    next hkind =>
      cases hconvert
      exact ⟨hkind, hv _ rfl⟩
    next => cases hconvert
  next n =>
    split at hconvert
    next => cases hconvert
    next =>
      obtain ⟨hresolve, hkind⟩ := Option.filter_eq_some_iff.1 hconvert
      exact ⟨of_decide_eq_true hkind, Arena.isAlive_of_resolve hresolve⟩
  next => cases hconvert

/-- A converted value is of the kind exactly, and lives. -/
theorem convert_spec (kind : Kind) (hv : v.Lives a.isAlive) :
    Ordinary (kind.convert a.resolve v)
      ∧ ∀ w, kind.convert a.resolve v = .ok w → Kind.of w = kind ∧ w.Lives a.isAlive := by
  have hplain : ∀ {α : Type} {x : Option α} {f : α → Value} {w : Value}, x.map f = some w →
      (∀ y, Kind.of (f y) = kind ∧ (f y).handle? = Option.none) →
      Kind.of w = kind ∧ w.Lives a.isAlive := by
    intro α x f w hw hf
    obtain ⟨y, -, rfl⟩ := Option.map_eq_some_iff.1 hw
    exact ⟨(hf y).1, Value.lives_of_plain (hf y).2⟩
  have hhandle : ∀ {w : Value}, (toHandle? a.resolve kind v).map .entity = some w →
      Kind.of w = kind ∧ w.Lives a.isAlive := by
    intro w hw
    obtain ⟨h, hh, rfl⟩ := Option.map_eq_some_iff.1 hw
    obtain ⟨hkind, halive⟩ := toHandle?_eq_some hh hv
    refine ⟨hkind, fun g hg => ?_⟩
    cases hg
    exact halive
  unfold convert
  split
  next w' hw =>
    refine ⟨.ok _, fun w h => ?_⟩
    cases h
    cases kind with
    | none => cases hw
    | int | float | bool | label => exact hplain hw fun _ => ⟨rfl, rfl⟩
    | text =>
        cases hw
        exact ⟨rfl, Value.lives_of_plain rfl⟩
    | part | component => exact hhandle hw
  next => exact ⟨ordinary_of (by decide), fun _ h => by cases h⟩

end Kind

-- ================================================================ memory

namespace Memory

variable {m : Memory} {alive : Handle → Bool}

/-- An address out of bounds is an ordinary fault. -/
theorem index_ordinary (addr : Int64) : Ordinary (m.index addr) := by
  unfold index
  split
  · exact .ok _
  · exact ordinary_of (by decide)

/-- What a memory cell is found to hold lives. -/
theorem present_spec (addr : Int64) :
    Ordinary (m.present alive addr)
      ∧ ∀ v, m.present alive addr = .ok (some v) → v.Lives alive := by
  refine ⟨((index_ordinary addr).bind fun _ _ => .ok _).bind fun c _ => ?_, fun v h => ?_⟩
  · split <;> exact .ok _
  · obtain ⟨c, -, h⟩ := bind_eq_ok.1 h
    split at h
    next g =>
      split at h
      next halive =>
        cases h
        rintro g' ⟨⟩
        exact halive
      next => cases h
    next hcell =>
      cases h
      rintro g rfl
      exact absurd rfl (hcell g)

theorem isNull_ordinary (addr : Int64) : Ordinary (m.isNull alive addr) :=
  (present_spec addr).1.map _

theorem kind_ordinary (addr : Int64) : Ordinary (m.kind alive addr) :=
  (present_spec addr).1.map _

/-- Filling a cell fails for its address only. -/
theorem set_ordinary (addr : Int64) (v : Value) : Ordinary (m.set addr v) :=
  (index_ordinary addr).bind fun _ _ => .ok _

theorem clear_ordinary (addr : Int64) : Ordinary (m.clear addr) :=
  (index_ordinary addr).bind fun _ _ => .ok _

end Memory

end TickScript
