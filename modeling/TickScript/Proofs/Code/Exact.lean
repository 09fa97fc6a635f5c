/-
Whole numbers are exact or refused.

An expression of whole numbers and truth values has a value in which the
numbers may be of any size: `Term.exact`, which is said without stacks,
faults or a greatest number. If evaluating the expression gives a value, it
is this one. If it overflows, then some part that was evaluated is of a
size that script integers do not reach, or is the one remainder whose
quotient is; if it divides by zero, some part that was evaluated has a zero
for its divisor. There are no other faults.

Which parts are evaluated is said by `Needs`: operands and arguments from
left to right, each only after those before it gave a value, and of the
branches of a conditional only the one that is chosen.

# Proof

One operation on script integers is exact, or it is refused and the exact
result is too large (`Precise`); the remainder is the exception and has its
own lemma. Then the induction is over the derivation that an expression
is of whole numbers.
-/
import Mathlib.Logic.Relation
import TickScript.Formula
import TickScript.Proofs.Code.Acceptance
import TickScript.Proofs.Code.Correct
import TickScript.Proofs.Script.WellFormed
import TickScript.Proofs.Syntax.Parse

namespace TickScript

-- ========================================================== exact values

/-- A whole number of any size, or a truth value. -/
inductive Exact where
  | int (i : Int)
  | bool (b : Bool)
deriving DecidableEq

/-- The kind of values that an exact value can be one of. -/
def Exact.kind : Exact → Kind
  | int _ => .int
  | bool _ => .bool

/-- The whole number or truth value that a value is. -/
def Value.exact? : Value → Option Exact
  | .int n => some (.int n.toInt)
  | .bool b => some (.bool b)
  | _ => none

/-- An operator on one exact value. -/
def UnaryOp.exact : UnaryOp → Exact → Option Exact
  | negate, .int i => some (.int (-i))
  | not, .bool b => some (.bool !b)
  | _, _ => none

/-- An operator on two exact values. Remainders are toward zero, and there
are none by zero. -/
def BinaryOp.exact : BinaryOp → Exact → Exact → Option Exact
  | multiply, .int i, .int j => some (.int (i * j))
  | modulus, .int i, .int j => if j = 0 then none else some (.int (i.tmod j))
  | add, .int i, .int j => some (.int (i + j))
  | subtract, .int i, .int j => some (.int (i - j))
  | equal, .int i, .int j => some (.bool (i = j))
  | notEqual, .int i, .int j => some (.bool (i ≠ j))
  | less, .int i, .int j => some (.bool (i < j))
  | lessEqual, .int i, .int j => some (.bool (i ≤ j))
  | greater, .int i, .int j => some (.bool (j < i))
  | greaterEqual, .int i, .int j => some (.bool (j ≤ i))
  | equal, .bool a, .bool b => some (.bool (a = b))
  | notEqual, .bool a, .bool b => some (.bool (a ≠ b))
  | and, .bool a, .bool b => some (.bool (a && b))
  | or, .bool a, .bool b => some (.bool (a || b))
  | _, _, _ => none

/-- A function on exact values. -/
def Builtin.exact : Builtin → List Exact → Option Exact
  | abs, [.int i] => some (.int i.natAbs)
  | sign, [.int i] => some (.int i.sign)
  | max, [.int i, .int j] => some (.int (Max.max i j))
  | min, [.int i, .int j] => some (.int (Min.min i j))
  | _, _ => none

namespace Term

mutual

/-- The exact value of a term. -/
def exact (ρ : String → Int64) : Term → Option Exact
  | .int _ n => some (.int n.toInt)
  | .float .. => none
  | .bool _ b => some (.bool b)
  | .var _ name => some (.int (ρ name).toInt)
  | .call _ name args =>
    if isIf name then exactIf ρ args
    else do
      let f ← Builtin.ofName? name
      let xs ← exactAll ρ args
      f.exact xs
  | .unary _ op arg => do
    let x ← exact ρ arg
    op.exact x
  | .binary _ op lhs rhs => do
    let x ← exact ρ lhs
    let y ← exact ρ rhs
    op.exact x y

/-- The exact values of several terms. -/
def exactAll (ρ : String → Int64) : List Term → Option (List Exact)
  | [] => some []
  | t :: ts => do
    let x ← exact ρ t
    let xs ← exactAll ρ ts
    some (x :: xs)

/-- The exact value of a conditional, which is that of one branch. -/
def exactIf (ρ : String → Int64) : List Term → Option Exact
  | [condition, whenTrue, whenFalse] =>
    match exact ρ condition with
    | some (.bool true) => exact ρ whenTrue
    | some (.bool false) => exact ρ whenFalse
    | _ => none
  | _ => none

end

end Term

-- =============================================== terms of whole numbers

/-- The kind of the result, for operands of whole numbers and truth
values. -/
def UnaryOp.kind? : UnaryOp → Kind → Option Kind
  | negate, .int => some .int
  | not, .bool => some .bool
  | _, _ => none

/-- The same for two operands, which are of one kind. -/
def BinaryOp.kind? : BinaryOp → Kind → Option Kind
  | multiply, .int | modulus, .int | add, .int | subtract, .int => some .int
  | equal, .int | notEqual, .int | less, .int | lessEqual, .int | greater, .int
  | greaterEqual, .int => some .bool
  | equal, .bool | notEqual, .bool | and, .bool | or, .bool => some .bool
  | _, _ => none

/-- The functions on whole numbers, with how many they take. -/
def Builtin.wholeCount? : Builtin → Option Nat
  | abs | sign => some 1
  | max | min => some 2
  | _ => none

namespace Term

/-- A well-typed term of whole numbers and truth values. Its variables are
integers. -/
inductive Whole : Term → Kind → Prop
  | int {span : Span} {n : Int64} : Whole (.int span n) .int
  | bool {span : Span} {b : Bool} : Whole (.bool span b) .bool
  | var {span : Span} {name : String} : Whole (.var span name) .int
  | unary {span : Span} {op : UnaryOp} {arg : Term} {k k' : Kind} (harg : Whole arg k)
      (hop : op.kind? k = some k') : Whole (.unary span op arg) k'
  | binary {span : Span} {op : BinaryOp} {lhs rhs : Term} {k k' : Kind} (hlhs : Whole lhs k)
      (hrhs : Whole rhs k) (hop : op.kind? k = some k') : Whole (.binary span op lhs rhs) k'
  | call {span : Span} {name : String} {f : Builtin} {args : List Term}
      (known : Builtin.ofName? name = some f) (count : f.wholeCount? = some args.length)
      (hargs : ∀ a ∈ args, Whole a .int) : Whole (.call span name args) .int
  | conditional {span : Span} {name : String} {condition whenTrue whenFalse : Term} {k : Kind}
      (isConditional : isIf name = true) (hcondition : Whole condition .bool)
      (hwhenTrue : Whole whenTrue k) (hwhenFalse : Whole whenFalse k) :
      Whole (.call span name [condition, whenTrue, whenFalse]) k

/-- Variables that are integers. -/
def ints (ρ : String → Int64) (name : String) : Option Value := some (.int (ρ name))

/-- A term evaluates to a value, whatever draws are to come. -/
def Gives (ρ : String → Int64) (t : Term) (v : Value) : Prop :=
  ∀ draws, t.eval (ints ρ) draws = .ok (v, draws)

/-- A part of a term that is evaluated for it. -/
inductive Needs (ρ : String → Int64) : Term → Term → Prop
  | operand {span : Span} {op : UnaryOp} {arg : Term} : Needs ρ (.unary span op arg) arg
  | left {span : Span} {op : BinaryOp} {lhs rhs : Term} : Needs ρ (.binary span op lhs rhs) lhs
  | right {span : Span} {op : BinaryOp} {lhs rhs : Term} {v : Value} (hleft : Gives ρ lhs v) :
      Needs ρ (.binary span op lhs rhs) rhs
  | argument {span : Span} {name : String} {before after : List Term} {arg : Term}
      (isFunction : isIf name = false) (hbefore : ∀ b ∈ before, ∃ v, Gives ρ b v) :
      Needs ρ (.call span name (before ++ arg :: after)) arg
  | condition {span : Span} {name : String} {condition whenTrue whenFalse : Term}
      (isConditional : isIf name = true) :
      Needs ρ (.call span name [condition, whenTrue, whenFalse]) condition
  | chosen {span : Span} {name : String} {condition whenTrue whenFalse : Term} {b : Bool}
      (isConditional : isIf name = true) (hcondition : Gives ρ condition (.bool b)) :
      Needs ρ (.call span name [condition, whenTrue, whenFalse])
        (if b then whenTrue else whenFalse)

/-- A term, or a part of it that is evaluated. -/
def Evaluated (ρ : String → Int64) : Term → Term → Prop := Relation.ReflTransGen (Needs ρ)

/-- A term that no script integer is the value of, or the remainder of
the least one by minus one. -/
def Exceeds (ρ : String → Int64) (t : Term) : Prop :=
  (∃ i, t.exact ρ = some (.int i) ∧ ¬Number.Fits i)
    ∨ ∃ span lhs rhs, t = .binary span .modulus lhs rhs
        ∧ lhs.exact ρ = some (.int Number.least) ∧ rhs.exact ρ = some (.int (-1))

/-- A remainder by zero. -/
def DividesByZero (ρ : String → Int64) (t : Term) : Prop :=
  ∃ span lhs rhs, t = .binary span .modulus lhs rhs ∧ rhs.exact ρ = some (.int 0)

/-- What a part of a term was refused for. -/
def Blamed (ρ : String → Int64) (t : Term) (fault : Fault) : Prop :=
  (fault.cause = .overflow ∧ ∃ u, Evaluated ρ t u ∧ Exceeds ρ u)
    ∨ (fault.cause = .divisionByZero ∧ ∃ u, Evaluated ρ t u ∧ DividesByZero ρ u)

end Term

-- ============================================================ operations

/-- An operation gives the exact result, or is refused because that is too
large. -/
inductive Precise (exact : Option Exact) (k : Kind) : Except Fault Value → Prop
  | value {v : Value} {x : Exact} (hv : v.exact? = some x) (hexact : exact = some x)
      (hkind : x.kind = k) : Precise exact k (.ok v)
  | exceeds {fault : Fault} {i : Int} (hcause : fault.cause = .overflow)
      (hexact : exact = some (.int i)) (hlarge : ¬Number.Fits i) :
      Precise exact k (.error fault)

namespace Precise

theorem exact (i : Int) : Precise (some (.int i)) .int (Arith.exact i) := by
  unfold Arith.exact
  split
  next n hn => exact .value (congrArg _ (congrArg _ (Number.fit?_eq_some_iff.1 hn))) rfl rfl
  next hnone =>
    refine .exceeds rfl rfl fun hfits => ?_
    simp [Number.fit?, hfits] at hnone

/-- A script integer with the exact value. -/
theorem int {n : Int64} {i : Int} (h : n.toInt = i) :
    Precise (some (.int i)) .int (.ok (.int n)) :=
  .value (congrArg _ (congrArg _ h)) rfl rfl

/-- The exact truth value. -/
theorem bool {b c : Bool} (h : b = c) : Precise (some (.bool c)) .bool (.ok (.bool b)) :=
  .value (congrArg _ (congrArg _ h)) rfl rfl

end Precise

theorem Value.exact?_int {v : Value} {i : Int} (h : v.exact? = some (.int i)) :
    ∃ n, v = .int n ∧ n.toInt = i := by
  cases v with
  | int n =>
      cases h
      exact ⟨n, rfl, rfl⟩
  | _ => cases h

theorem Value.exact?_bool {v : Value} {b : Bool} (h : v.exact? = some (.bool b)) :
    v = .bool b := by
  cases v with
  | bool c =>
      cases h
      rfl
  | _ => cases h

/-- Operators on one value are precise. -/
theorem UnaryOp.precise {op : UnaryOp} {v : Value} {x : Exact} {k : Kind}
    (hv : v.exact? = some x) (hop : op.kind? x.kind = some k) :
    Precise (op.exact x) k (op.apply v) := by
  cases x with
  | int i =>
      obtain ⟨n, rfl, rfl⟩ := Value.exact?_int hv
      cases op with
      | negate =>
          cases hop
          exact .exact _
      | not => cases hop
  | bool b =>
      obtain rfl := Value.exact?_bool hv
      cases op with
      | negate => cases hop
      | not =>
          cases hop
          exact .bool rfl

/-- Operators on two values are precise, but for the remainder. -/
theorem BinaryOp.precise {op : BinaryOp} {l r : Value} {x y : Exact} {k : Kind}
    (hl : l.exact? = some x) (hr : r.exact? = some y) (hsame : y.kind = x.kind)
    (hop : op.kind? x.kind = some k) (hmodulus : op ≠ .modulus) :
    Precise (op.exact x y) k (op.apply l r) := by
  cases x with
  | int i =>
      cases y with
      | bool b => cases hsame
      | int j =>
          obtain ⟨m, rfl, rfl⟩ := Value.exact?_int hl
          obtain ⟨n, rfl, rfl⟩ := Value.exact?_int hr
          cases op with
          | modulus => exact absurd rfl hmodulus
          | multiply | add | subtract =>
              cases hop
              exact .exact _
          | equal | notEqual =>
              cases hop
              exact .bool (by simp [Int64.toInt_inj, bne, BEq.beq])
          | less | greater =>
              cases hop
              exact .bool (by simp [Int64.lt_iff_toInt_lt])
          | lessEqual | greaterEqual =>
              cases hop
              exact .bool (by simp [Int64.le_iff_toInt_le])
          | _ => cases hop
  | bool a =>
      cases y with
      | int j => cases hsame
      | bool b =>
          obtain rfl := Value.exact?_bool hl
          obtain rfl := Value.exact?_bool hr
          cases op with
          | equal | notEqual =>
              cases hop
              exact .bool (by cases a <;> cases b <;> rfl)
          | and | or =>
              cases hop
              exact .bool rfl
          | _ => cases hop

/-- A quotient of script integers is too large only for the least one by
minus one. -/
theorem Number.fits_tdiv {l r : Int64} (h : ¬Number.Fits (l.toInt.tdiv r.toInt)) :
    l.toInt = Number.least ∧ r.toInt = -1 := by
  have hleast := l.le_toInt
  have hgreatest := l.toInt_lt
  have habs := Int.natAbs_tdiv l.toInt r.toInt
  have hle : l.toInt.natAbs.div r.toInt.natAbs ≤ l.toInt.natAbs := Nat.div_le_self ..
  unfold Number.Fits Number.least Number.greatest at *
  have hl : l.toInt = -9223372036854775808 := by omega
  refine ⟨hl, ?_⟩
  -- what is divided by two or more halves
  by_cases hone : r.toInt.natAbs ≤ 1
  · have hr : r.toInt = 0 ∨ r.toInt = 1 ∨ r.toInt = -1 := by omega
    rcases hr with hr | hr | hr
    · simp [hr] at h
    · simp [hr, hl] at h
    · exact hr
  · have hhalf : l.toInt.natAbs.div r.toInt.natAbs ≤ l.toInt.natAbs / 2 :=
      Nat.div_le_div_left (by omega) (by decide)
    omega

namespace Arith

/-- The remainder is by zero, of the least script integer by minus one,
or precise. -/
theorem remainder_cases (l r : Int64) :
    (r.toInt = 0 ∧ remainder l r = .error (.bare .divisionByZero))
      ∨ (l.toInt = Number.least ∧ r.toInt = -1 ∧ remainder l r = .error (.bare .overflow))
      ∨ r.toInt ≠ 0 ∧ Precise (some (.int (l.toInt.tmod r.toInt))) .int (remainder l r) := by
  unfold remainder
  split
  next hzero =>
    subst hzero
    exact .inl ⟨rfl, rfl⟩
  next hzero =>
    split
    next => exact .inr (.inr ⟨fun h => hzero (Int64.toInt_inj.1 h), .exact _⟩)
    next hquotient =>
      obtain ⟨hl, hr⟩ := Number.fits_tdiv hquotient
      exact .inr (.inl ⟨hl, hr, rfl⟩)

end Arith

/-- Values that are whole numbers. -/
abbrev AreWhole : List Value → List Int → Prop :=
  List.Forall₂ fun v i => v.exact? = some (.int i)

/-- Functions on whole numbers are precise. -/
theorem Builtin.precise {f : Builtin} {vs : List Value} {is : List Int} (hvs : AreWhole vs is)
    (hcount : f.wholeCount? = some vs.length) :
    ∃ out, (∀ draws, f.call vs draws = out.map (·, draws))
      ∧ Precise (f.exact (is.map .int)) .int out := by
  cases f with
  | abs =>
      obtain ⟨v, rfl⟩ := List.length_eq_one_iff.1 (Option.some.inj hcount).symm
      obtain _ | ⟨hv, _ | _⟩ := hvs
      obtain ⟨n, rfl, rfl⟩ := Value.exact?_int hv
      exact ⟨_, fun _ => rfl, .exact _⟩
  | sign =>
      obtain ⟨v, rfl⟩ := List.length_eq_one_iff.1 (Option.some.inj hcount).symm
      obtain _ | ⟨hv, _ | _⟩ := hvs
      obtain ⟨n, rfl, rfl⟩ := Value.exact?_int hv
      have hsign := Int.sign_trichotomy n.toInt
      exact ⟨_, fun _ => rfl, .int (Int64.toInt_ofInt_of_le (by omega) (by omega))⟩
  | max | min =>
      obtain ⟨v, w, rfl⟩ := List.length_eq_two.1 (Option.some.inj hcount).symm
      obtain _ | ⟨hv, _ | ⟨hw, _ | _⟩⟩ := hvs
      obtain ⟨m, rfl, rfl⟩ := Value.exact?_int hv
      obtain ⟨n, rfl, rfl⟩ := Value.exact?_int hw
      refine ⟨_, fun _ => rfl, .int ?_⟩
      simp only [Int64.lt_iff_toInt_lt]
      split <;> omega
  | _ => cases hcount

-- ================================================================= terms

namespace Term

variable {ρ : String → Int64} {t u : Term} {k : Kind} {fault : Fault}

/-- A term is refused for what a part of it is refused for. -/
theorem Blamed.of_needs (hneeds : Needs ρ t u) (h : Blamed ρ u fault) : Blamed ρ t fault := by
  rcases h with ⟨hcause, v, hv, hexceeds⟩ | ⟨hcause, v, hv, hdivides⟩
  · exact .inl ⟨hcause, v, .head hneeds hv, hexceeds⟩
  · exact .inr ⟨hcause, v, .head hneeds hv, hdivides⟩

/-- What evaluating a term comes to: its exact value, or a fault that a
part of it is to blame for. -/
inductive Outcome (ρ : String → Int64) (t : Term) (k : Kind) : Prop
  | value {v : Value} {x : Exact} (hgives : Gives ρ t v) (hv : v.exact? = some x)
      (hexact : t.exact ρ = some x) (hkind : x.kind = k)
  | refused {fault : Fault}
      (hfails : ∀ draws, t.eval (ints ρ) draws = .error fault) (hblamed : Blamed ρ t fault)

/-- A term that ends with a precise operation. -/
theorem Outcome.of_precise {out : Except Fault Value} (h : Precise (t.exact ρ) k out)
    (heval : ∀ draws, t.eval (ints ρ) draws = out.map (·, draws)) : Outcome ρ t k := by
  cases h with
  | value hv hexact hkind => exact .value heval hv hexact hkind
  | exceeds hcause hexact hlarge =>
      exact .refused heval (.inl ⟨hcause, t, .refl, .inl ⟨_, hexact, hlarge⟩⟩)

theorem Outcome.unary {span : Span} {op : UnaryOp} {arg : Term} {k' : Kind}
    (harg : Outcome ρ arg k) (hop : op.kind? k = some k') :
    Outcome ρ (.unary span op arg) k' := by
  cases harg with
  | refused hfails hblamed =>
      refine .refused (fun draws => ?_) (hblamed.of_needs .operand)
      simp only [eval, hfails draws, error_bind]
  | @value v x hgives hv hexact hkind =>
      subst hkind
      have hprecise : Precise ((Term.unary span op arg).exact ρ) k' (op.apply v) := by
        simpa [exact, hexact] using UnaryOp.precise hv hop
      refine .of_precise hprecise fun draws => ?_
      simp only [eval, hgives draws, ok_bind]
      exact bind_ok ..

/-- A remainder comes to what its operands do, unless it is by zero or of
the least script integer by minus one. -/
theorem outcome_modulus {span : Span} {lhs rhs : Term} {m n : Int64}
    (hlhs : Gives ρ lhs (.int m)) (hrhs : Gives ρ rhs (.int n))
    (hexact : lhs.exact ρ = some (.int m.toInt)) (hexact' : rhs.exact ρ = some (.int n.toInt)) :
    Outcome ρ (.binary span .modulus lhs rhs) .int := by
  have heval : ∀ draws, (Term.binary span .modulus lhs rhs).eval (ints ρ) draws
      = (Arith.remainder m n).map (·, draws) := by
    intro draws
    simp only [eval, hlhs draws, hrhs draws, ok_bind]
    exact bind_ok ..
  rcases Arith.remainder_cases m n with ⟨hzero, hout⟩ | ⟨hm, hn, hout⟩ | ⟨hne, hprecise⟩
  · refine .refused (fun draws => by rw [heval, hout]; rfl) (.inr ⟨rfl, _, .refl, ?_⟩)
    exact ⟨span, lhs, rhs, rfl, by rw [hexact', hzero]⟩
  · refine .refused (fun draws => by rw [heval, hout]; rfl) (.inl ⟨rfl, _, .refl, .inr ?_⟩)
    exact ⟨span, lhs, rhs, rfl, by rw [hexact, hm], by rw [hexact', hn]⟩
  · refine .of_precise ?_ heval
    simpa [exact, hexact, hexact', BinaryOp.exact, hne] using hprecise

theorem Outcome.binary {span : Span} {op : BinaryOp} {lhs rhs : Term} {k' : Kind}
    (hlhs : Outcome ρ lhs k) (hrhs : Outcome ρ rhs k) (hop : op.kind? k = some k') :
    Outcome ρ (.binary span op lhs rhs) k' := by
  cases hlhs with
  | refused hfails hblamed =>
      refine .refused (fun draws => ?_) (hblamed.of_needs .left)
      simp only [eval, hfails draws, error_bind]
  | @value l x hgives hl hexact hkind =>
      cases hrhs with
      | refused hfails hblamed =>
          refine .refused (fun draws => ?_) (hblamed.of_needs (.right hgives))
          simp only [eval, hgives draws, hfails draws, ok_bind, error_bind]
      | @value r y hgives' hr hexact' hkind' =>
          subst hkind
          by_cases hmodulus : op = .modulus
          · subst hmodulus
            cases x with
            | bool a => cases hop
            | int i =>
                cases y with
                | bool b => cases hkind'
                | int j =>
                    cases hop
                    obtain ⟨m, rfl, rfl⟩ := Value.exact?_int hl
                    obtain ⟨n, rfl, rfl⟩ := Value.exact?_int hr
                    exact outcome_modulus hgives hgives' hexact hexact'
          · have hprecise : Precise ((Term.binary span op lhs rhs).exact ρ) k' (op.apply l r) := by
              simpa [exact, hexact, hexact'] using BinaryOp.precise hl hr hkind' hop hmodulus
            refine .of_precise hprecise fun draws => ?_
            simp only [eval, hgives draws, hgives' draws, ok_bind]
            exact bind_ok ..

/-- Arguments all have values, or one of them is refused after those
before it had theirs. -/
theorem evalAll_outcome : ∀ {args : List Term}, (∀ a ∈ args, Outcome ρ a .int) →
    (∃ vs is, (∀ draws, evalAll (ints ρ) args draws = .ok (vs, draws))
        ∧ exactAll ρ args = some (is.map .int) ∧ AreWhole vs is)
      ∨ ∃ before arg after fault, args = before ++ arg :: after
          ∧ (∀ b ∈ before, ∃ v, Gives ρ b v) ∧ Blamed ρ arg fault
          ∧ ∀ draws, evalAll (ints ρ) args draws = .error fault
  | [], _ => .inl ⟨[], [], fun _ => rfl, rfl, .nil⟩
  | arg :: args, h => by
      obtain ⟨hfirst, hrest⟩ := List.forall_mem_cons.1 h
      cases hfirst with
      | refused hfails hblamed =>
          refine .inr ⟨[], arg, args, _, rfl, nofun, hblamed, fun draws => ?_⟩
          simp only [evalAll, hfails draws, error_bind]
      | @value v x hgives hv hexact hkind =>
          cases x with
          | bool b => cases hkind
          | int i =>
              rcases evalAll_outcome hrest with ⟨vs, is, heval, hexacts, hwhole⟩
                | ⟨before, arg', after, fault, rfl, hbefore, hblamed, hfails⟩
              · refine .inl ⟨v :: vs, i :: is, fun draws => ?_, ?_, .cons hv hwhole⟩
                · simp only [evalAll, hgives draws, heval draws, ok_bind]
                · simp [exactAll, hexact, hexacts]
              · refine .inr ⟨arg :: before, arg', after, fault, rfl, ?_, hblamed, fun draws => ?_⟩
                · exact List.forall_mem_cons.2 ⟨⟨v, hgives⟩, hbefore⟩
                · simp only [evalAll, hgives draws, hfails draws, ok_bind, error_bind]

theorem Outcome.call {span : Span} {name : String} {f : Builtin} {args : List Term}
    (known : Builtin.ofName? name = some f) (count : f.wholeCount? = some args.length)
    (hargs : ∀ a ∈ args, Outcome ρ a .int) : Outcome ρ (.call span name args) .int := by
  have isFunction : isIf name = false := by
    by_contra h
    cases (ofName?_of_isIf (by simpa using h)).symm.trans known
  rcases evalAll_outcome hargs with ⟨vs, is, heval, hexacts, hwhole⟩
    | ⟨before, arg, after, fault, rfl, hbefore, hblamed, hfails⟩
  · rw [← length_evalAll (heval ⟨0⟩)] at count
    obtain ⟨out, hcall, hprecise⟩ := Builtin.precise hwhole count
    have hprecise' : Precise ((Term.call span name args).exact ρ) .int out := by
      simpa [exact, isFunction, known, hexacts] using hprecise
    refine .of_precise hprecise' fun draws => ?_
    simp only [eval, isFunction, known, heval draws, hcall, ok_bind, Bool.false_eq_true, if_false]
  · refine .refused (fun draws => ?_) (hblamed.of_needs (.argument isFunction hbefore))
    simp only [eval, isFunction, known, hfails draws, error_bind, Bool.false_eq_true, if_false]

/-- A conditional comes to what its condition does, and then to what the
chosen branch does. -/
theorem Outcome.conditional {span : Span} {name : String} {condition whenTrue whenFalse : Term}
    (isConditional : isIf name = true) (hcondition : Outcome ρ condition .bool)
    (hwhenTrue : Outcome ρ whenTrue k) (hwhenFalse : Outcome ρ whenFalse k) :
    Outcome ρ (.call span name [condition, whenTrue, whenFalse]) k := by
  cases hcondition with
  | refused hfails hblamed =>
      refine .refused (fun draws => ?_) (hblamed.of_needs (.condition isConditional))
      simp only [eval, isConditional, if_true, evalIf, hfails draws, error_bind]
  | @value v x hgives hv hexact hkind =>
      cases x with
      | int i => cases hkind
      | bool b =>
          obtain rfl := Value.exact?_bool hv
          have hneeds : Needs ρ (.call span name [condition, whenTrue, whenFalse])
              (if b then whenTrue else whenFalse) := .chosen isConditional hgives
          have hbranch : Outcome ρ (if b then whenTrue else whenFalse) k := by
            cases b <;> assumption
          have heval : ∀ draws,
              (Term.call span name [condition, whenTrue, whenFalse]).eval (ints ρ) draws
                = (if b then whenTrue else whenFalse).eval (ints ρ) draws := by
            intro draws
            simp only [eval, isConditional, if_true, evalIf, hgives draws, ok_bind]
            cases b <;> rfl
          cases hbranch with
          | refused hfails hblamed =>
              exact .refused (fun draws => (heval draws).trans (hfails draws))
                (hblamed.of_needs hneeds)
          | value hgives' hv' hexact' hkind' =>
              refine .value (fun draws => (heval draws).trans (hgives' draws)) hv' ?_ hkind'
              simp only [exact, isConditional, if_true, exactIf, hexact]
              cases b <;> exact hexact'

/-- A well-typed term of whole numbers has its exact value, or a part of
it is to blame. -/
theorem Whole.outcome (h : Whole t k) : Outcome ρ t k := by
  induction h with
  | int | bool | var => exact .value (fun _ => rfl) rfl rfl rfl
  | unary _ hop ih => exact ih.unary hop
  | binary _ _ hop ihl ihr => exact ihl.binary ihr hop
  | call known count _ ih => exact .call known count ih
  | conditional isConditional _ _ _ ihc iht ihf => exact .conditional isConditional ihc iht ihf

theorem callsLogAny_eq_false :
    ∀ {args : List Term}, (∀ a ∈ args, a.callsLog = false) → callsLogAny args = false
  | [], _ => rfl
  | arg :: args, h => by
      obtain ⟨hfirst, hrest⟩ := List.forall_mem_cons.1 h
      simp [callsLogAny, hfirst, callsLogAny_eq_false hrest]

/-- Nothing in a term of whole numbers is a logarithm. -/
theorem Whole.callsLog_eq_false (h : Whole t k) : t.callsLog = false := by
  induction h with
  | int | bool | var => rfl
  | unary _ _ ih => exact ih
  | binary _ _ _ ihl ihr => simp [callsLog, ihl, ihr]
  | @call span name f args known count _ ih =>
      have hlog : f ≠ .log := by
        intro hf
        subst hf
        cases count
      simp [callsLog, known, hlog, callsLogAny_eq_false ih]
  | @conditional span name condition whenTrue whenFalse k isConditional _ _ _ ihc iht ihf =>
      simp [callsLog, callsLogAny, ofName?_of_isIf isConditional, ihc, iht, ihf]

end Term

-- ============================================================== formulas

namespace Formula

/-- Integer variables are bound to their values. -/
theorem bind_ints {vars : Storage} {alive : Handle → Bool} {ρ : String → Int64} :
    ∀ {params : List (String × VarId)},
      (∀ p ∈ params, (vars.get? p.2).bind Variable.value = some (.int (ρ p.1))) →
      bind vars alive params = .ok (params.map fun p => .int (ρ p.1))
  | [], _ => rfl
  | (name, id) :: params, h => by
      obtain ⟨hfirst, hrest⟩ := List.forall_mem_cons.1 h
      obtain ⟨var, hvar, hvalue⟩ := Option.bind_eq_some_iff.1 hfirst
      have hpresent : var.present? alive = some (.int (ρ name)) := by
        simp [Variable.present?, Variable.isNull, hvalue]
      simp only [bind, Storage.get_eq_ok_iff.2 hvar, ok_bind, hpresent, bind_ints hrest]
      rfl

/-- Evaluating an expression of whole numbers is exact or refused.

A value that it gives is the exact value. If it overflows, a part that was
evaluated has an exact value that no script integer has, or is the
remainder of the least script integer by minus one. If it divides by zero,
a part that was evaluated is a remainder by zero. There is no other
fault. -/
theorem evaluate_exact {f : Formula} {t : Term} {k : Kind} {ρ : String → Int64} {vars : Storage}
    {alive : Handle → Bool} (hwhole : t.Whole k)
    (hcode : t.generate (f.params.map Prod.fst) = .ok f.code)
    (hvars : ∀ p ∈ f.params, (vars.get? p.2).bind Variable.value = some (.int (ρ p.1)))
    (draws : Draws) :
    (∃ v x, f.evaluate vars alive draws = .ok (v, draws) ∧ v.exact? = some x
        ∧ t.exact ρ = some x ∧ x.kind = k)
      ∨ ∃ fault, f.evaluate vars alive draws = .error fault
          ∧ ((fault.cause = .overflow ∧ ∃ u, t.Evaluated ρ u ∧ u.Exceeds ρ)
            ∨ (fault.cause = .divisionByZero ∧ ∃ u, t.Evaluated ρ u ∧ u.DividesByZero ρ)) := by
  have hbinds : Binds (f.params.map Prod.fst) (f.params.map fun p => .int (ρ p.1))
      (Term.ints ρ) := by
    intro name index hfound
    obtain ⟨hlt, hname, -⟩ := List.findIdx?_eq_some_iff_getElem.1 hfound
    have hlt' : index < f.params.length := by simpa using hlt
    refine ⟨.int (ρ name), ?_, rfl⟩
    have hname' : f.params[index].1 = name := by simpa using hname
    rw [List.getElem?_map, List.getElem?_eq_getElem hlt', Option.map_some, hname']
  have hrun : f.evaluate vars alive draws = t.eval (Term.ints ρ) draws := by
    rw [evaluate, bind_ints hvars, ok_bind]
    refine ((Term.generate_emits hcode).run hbinds draws).resolve_right fun h => ?_
    exact Bool.noConfusion (hwhole.callsLog_eq_false.symm.trans h.1)
  rw [hrun]
  cases hwhole.outcome with
  | value hgives hv hexact hkind => exact .inl ⟨_, _, hgives draws, hv, hexact, hkind⟩
  | refused hfails hblamed => exact .inr ⟨_, hfails draws, hblamed⟩

/-- The conditional `if(x < 3, max(x, 1), -x)`, compiled. -/
def ofLessThanThree : Formula where
  source := "if(x < 3, max(x, 1), -x)"
  code := [.push 0, .literal (.int 3), .binary .less, .ifNot 8, .push 0, .literal (.int 1),
    .builtin .max, .jump 10, .push 0, .unary .negate]
  params := [("x", 0)]

/-- A storage with `x = 5`. -/
def five : Storage := ⟨[{ Variable.zeroed "x" .int false with value := some (.int 5) }], 8⟩

theorem evaluate_exact_lessThanThree :
    lessThanThree.Whole .int
      ∧ lessThanThree.generate (ofLessThanThree.params.map Prod.fst) = .ok ofLessThanThree.code
      ∧ ofLessThanThree.evaluate five (fun _ => true) ⟨0⟩ = .ok (.int (-5), ⟨0⟩)
      ∧ lessThanThree.exact (fun _ => 5) = some (.int (-5)) := by
  have hwhole : lessThanThree.Whole .int := by
    refine .conditional rfl (.binary .var .int rfl) ?_ (.unary .var rfl)
    refine @Term.Whole.call _ _ .max _ rfl rfl ?_
    intro a ha
    simp only [List.mem_cons, List.not_mem_nil, or_false] at ha
    rcases ha with rfl | rfl
    · exact .var
    · exact .int
  have hcode : lessThanThree.generate (ofLessThanThree.params.map Prod.fst)
      = .ok ofLessThanThree.code := rfl
  have hrun : ofLessThanThree.evaluate five (fun _ => true) ⟨0⟩ = .ok (.int (-5), ⟨0⟩) := rfl
  refine ⟨hwhole, hcode, hrun, ?_⟩
  have hvars : ∀ p ∈ ofLessThanThree.params,
      (five.get? p.2).bind Variable.value = some (.int 5) := by
    decide
  rcases @evaluate_exact _ _ _ (fun _ => 5) _ _ hwhole hcode hvars ⟨0⟩ with
    ⟨v, x, heval, hv, hexact, -⟩ | ⟨_, hfault, -⟩
  · cases heval.symm.trans hrun
    exact hexact.trans hv.symm
  · cases hfault.symm.trans hrun

end Formula

end TickScript
