/-
What the code generator emits, said without its stack. `Emits params n t
code` holds if `code` is the code of `t` and the generator gets by with
`n` more places on its stack; `EmitsAll` says so for arguments, each of
which finds one place less than the one before it.

The generator's stack of fragments is thereby taken out of the picture:
`term_emits` is the one place that looks at it. Whoever reasons about
generated code does induction over `Emits`.
-/
import Mathlib.Data.List.Basic
import TickScript.Code.Generate
import TickScript.Proofs.Except

namespace TickScript

-- =============================================================== linking

namespace Op

/-- Moving an instruction by nothing leaves its address. -/
@[simp]
theorem relocate_zero (op : Op) : op.relocate 0 = op := by
  cases op <;> rfl

/-- Moving code twice moves it by the sum. -/
@[simp]
theorem relocate_relocate (op : Op) (a b : Nat) :
    (op.relocate a).relocate b = op.relocate (a + b) := by
  cases op <;> simp [relocate, Nat.add_assoc]

end Op

namespace Code

@[simp]
theorem length_link (a b : Code) : (a.link b).length = a.length + b.length := by
  simp [link]

@[simp]
theorem nil_link (c : Code) : link [] c = c := by
  simp [link, show Op.relocate 0 = id from funext Op.relocate_zero]

@[simp]
theorem link_nil (c : Code) : c.link [] = c := by
  simp [link]

/-- Linking in two steps moves the last piece by both lengths. -/
theorem link_assoc (a b c : Code) : (a.link b).link c = a.link (b.link c) := by
  simp only [link, List.length_append, List.length_map, List.map_append,
    List.map_map, List.append_assoc]
  congr 2
  refine List.map_congr_left fun op _ => ?_
  simp [Nat.add_comm]

/-- Several pieces of code, one after the other. -/
def join : List Code → Code
  | [] => []
  | c :: cs => c.link (join cs)

/-- Linking pieces one by one is linking them all. -/
theorem foldl_link (acc : Code) (cs : List Code) : cs.foldl link acc = acc.link (join cs) := by
  induction cs generalizing acc with
  | nil => simp [join]
  | cons c cs ih => rw [List.foldl_cons, ih, link_assoc, join]

end Code

-- ================================================================= emits

/-- The instructions of a call behind those of its arguments. A function
whose arguments vary in number is told how many there are. -/
def Builtin.instructions (f : Builtin) (count : Nat) : Code :=
  (if f.arity.1 = f.arity.2 then [] else [.literal (.int (Int64.ofNat count))])
    ++ [.builtin f]

mutual

/-- `code` is the code of the term, generated with `n` places to spare. -/
inductive Emits (params : List String) : (n : Nat) → Term → (code : Code) → Prop where
  | int {n span k} : Emits params (n + 1) (.int span k) [.literal (.int k)]
  | float {n span x} : Emits params (n + 1) (.float span x) [.literal (.float x)]
  | bool {n span b} : Emits params (n + 1) (.bool span b) [.literal (.bool b)]
  | var {n span name index} (found : params.findIdx? (· == name) = some index) :
      Emits params (n + 1) (.var span name) [.push index]
  | unary {n span op arg code} (inner : Emits params n arg code) :
      Emits params n (.unary span op arg) (code ++ [.unary op])
  | binary {n span op lhs rhs left right}
      (first : Emits params (n + 1) lhs left) (second : Emits params n rhs right) :
      Emits params (n + 1) (.binary span op lhs rhs) (left.link right ++ [.binary op])
  | conditional {n span name condition whenTrue whenFalse test yes no}
      (isConditional : isIf name = true)
      (first : Emits params (n + 2) condition test)
      (second : Emits params (n + 1) whenTrue yes) (third : Emits params n whenFalse no) :
      Emits params (n + 2) (.call span name [condition, whenTrue, whenFalse])
        (Generate.conditional test yes no)
  | call {n span name args f codes} (isFunction : isIf name = false)
      (known : Builtin.ofName? name = some f)
      (fewest : f.arity.1 ≤ args.length) (most : args.length ≤ f.arity.2)
      (inner : EmitsAll params (n + 1) args codes) :
      Emits params (n + 1) (.call span name args)
        (Code.join codes ++ f.instructions args.length)

/-- `codes` are the codes of the terms, the first of them generated with
`n` places to spare. -/
inductive EmitsAll (params : List String) :
    (n : Nat) → List Term → (codes : List Code) → Prop where
  | nil {n} : EmitsAll params n [] []
  | cons {n t ts code codes} (first : Emits params (n + 1) t code)
      (rest : EmitsAll params n ts codes) :
      EmitsAll params (n + 1) (t :: ts) (code :: codes)

end

/-- Code is generated only where there is a place for it. -/
theorem Emits.pos {params : List String} {n : Nat} :
    ∀ {t : Term} {code : Code}, Emits params n t code → 0 < n
  | _, _, .unary inner => inner.pos
  | _, _, .int | _, _, .float | _, _, .bool | _, _, .var _ | _, _, .binary .. => Nat.succ_pos _
  | _, _, .conditional .. | _, _, .call .. => Nat.succ_pos _

/-- There is a piece of code for each argument. -/
theorem EmitsAll.length_eq {params : List String} {n : Nat} :
    ∀ {ts : List Term} {codes : List Code}, EmitsAll params n ts codes →
      codes.length = ts.length
  | _, _, .nil => rfl
  | _, _, .cons _ rest => by simp [rest.length_eq]

-- ============================================================= generator

namespace Generate

/-- The code of the fragments is joined in their order. -/
theorem concat_eq_join (frags : List Fragment) :
    concat frags = Code.join (frags.map (·.code)) := by
  rw [concat, ← List.foldl_map, Code.foldl_link, Code.nil_link]

/-- A finished fragment found a place on the stack. -/
theorem finish_eq_ok {frags frags' : Fragments} {frag : Fragment}
    (h : finish frags frag = .ok frags') :
    frags.items.length < frags.limit
      ∧ frags' = { frags with items := frag :: frags.items } := by
  simp only [finish, Stack.push] at h
  split at h
  next hpush =>
    split at hpush
    next hlt =>
      cases hpush
      cases h
      exact ⟨hlt, rfl⟩
    next => cases hpush
  next => cases h

/-- The places left while there is one. -/
private theorem room_succ {frags : Fragments} (h : frags.items.length < frags.limit) :
    frags.limit - frags.items.length = frags.limit - (frags.items.length + 1) + 1 := by
  omega

/-- The fragment of a call takes the place of those of its arguments. -/
theorem callFragment_emits {params : List String} {frags frags' : Fragments}
    {fs : List Fragment} {args : List Term} {span : Span} {name : String} {frag : Fragment}
    (h : callFragment { frags with items := fs.reverse ++ frags.items } span name args.length
      = .ok (frag, frags'))
    (hargs : EmitsAll params (frags.limit - frags.items.length) args (fs.map (·.code))) :
    frags' = frags ∧ (frags.items.length < frags.limit →
      Emits params (frags.limit - frags.items.length) (.call span name args) frag.code) := by
  have hlen : fs.length = args.length := by simpa using hargs.length_eq
  unfold callFragment at h
  split at h
  next hif =>
    split at h
    next hthree =>
      obtain ⟨test, yes, no, rfl⟩ := List.length_eq_three.1 (hlen.trans hthree)
      obtain ⟨condition, whenTrue, whenFalse, rfl⟩ := List.length_eq_three.1 hthree
      cases h
      refine ⟨rfl, fun _ => ?_⟩
      revert hargs
      generalize frags.limit - frags.items.length = n
      rintro (_ | ⟨first, _ | ⟨second, _ | ⟨third, _⟩⟩⟩)
      exact .conditional hif first second third
    next => cases h
  next hif =>
    split at h
    next => cases h
    next f hf =>
      rcases hpair : f.arity with ⟨fewest, most⟩
      rw [hpair] at h
      dsimp only at h
      split at h
      next harity =>
        have hpop : Stack.popMany { frags with items := fs.reverse ++ frags.items } args.length
            = .ok (fs, frags) := by
          simp [Stack.popMany, ← hlen]
        rw [hpop] at h
        cases h
        refine ⟨rfl, fun hlt => ?_⟩
        rw [room_succ hlt] at hargs ⊢
        have hcall : Emits params _ (.call span name args) _ :=
          .call (by simpa using hif) hf (by simpa [hpair] using harity.1)
            (by simpa [hpair] using harity.2) hargs
        simpa [Builtin.instructions, hpair, concat_eq_join] using hcall
      next => cases h

mutual

/-- Generating a term leaves its code on top of the stack, and nothing
else changed. -/
theorem term_emits {params : List String} {frags frags' : Fragments} : {t : Term} →
    term params t frags = .ok frags' →
    ∃ frag, frags' = { frags with items := frag :: frags.items }
      ∧ Emits params (frags.limit - frags.items.length) t frag.code
  | .int span n, h => by
      obtain ⟨hlt, rfl⟩ := finish_eq_ok h
      rw [room_succ hlt]
      exact ⟨_, rfl, .int⟩
  | .float span x, h => by
      obtain ⟨hlt, rfl⟩ := finish_eq_ok h
      rw [room_succ hlt]
      exact ⟨_, rfl, .float⟩
  | .bool span b, h => by
      obtain ⟨hlt, rfl⟩ := finish_eq_ok h
      rw [room_succ hlt]
      exact ⟨_, rfl, .bool⟩
  | .var span name, h => by
      simp only [term] at h
      split at h
      next index hindex =>
        obtain ⟨hlt, rfl⟩ := finish_eq_ok h
        rw [room_succ hlt]
        exact ⟨_, rfl, .var hindex⟩
      next => cases h
  | .unary span op arg, h => by
      simp only [term] at h
      obtain ⟨frags₁, harg, h⟩ := bind_eq_ok.1 h
      obtain ⟨frag, rfl, hemits⟩ := term_emits harg
      obtain ⟨_, rfl⟩ := finish_eq_ok h
      exact ⟨_, rfl, .unary hemits⟩
  | .binary span op lhs rhs, h => by
      simp only [term] at h
      obtain ⟨frags₁, hlhs, h⟩ := bind_eq_ok.1 h
      obtain ⟨left, rfl, hleft⟩ := term_emits hlhs
      obtain ⟨frags₂, hrhs, h⟩ := bind_eq_ok.1 h
      obtain ⟨right, rfl, hright⟩ := term_emits hrhs
      obtain ⟨hlt, rfl⟩ := finish_eq_ok h
      rw [room_succ hlt] at hleft ⊢
      exact ⟨_, rfl, .binary hleft hright⟩
  | .call span name args, h => by
      simp only [term] at h
      obtain ⟨frags₁, hargs, h⟩ := bind_eq_ok.1 h
      obtain ⟨fs, rfl, hemits⟩ := terms_emits hargs
      obtain ⟨⟨frag, frags₂⟩, hcall, hfinish⟩ := bind_eq_ok.1 h
      obtain ⟨rfl, hfrag⟩ := callFragment_emits hcall hemits
      obtain ⟨hlt, rfl⟩ := finish_eq_ok hfinish
      exact ⟨_, rfl, hfrag hlt⟩

/-- Generating several terms leaves their codes on the stack, the last
one on top. -/
theorem terms_emits {params : List String} {frags frags' : Fragments} : {ts : List Term} →
    terms params ts frags = .ok frags' →
    ∃ fs : List Fragment, frags' = { frags with items := fs.reverse ++ frags.items }
      ∧ EmitsAll params (frags.limit - frags.items.length) ts (fs.map (·.code))
  | [], h => by
      cases h
      exact ⟨[], rfl, .nil⟩
  | t :: ts, h => by
      simp only [terms] at h
      obtain ⟨frags₁, ht, h⟩ := bind_eq_ok.1 h
      obtain ⟨f, rfl, hf⟩ := term_emits ht
      obtain ⟨fs, rfl, hfs⟩ := terms_emits h
      have hlt : frags.items.length < frags.limit := by
        have := hf.pos
        omega
      rw [room_succ hlt] at hf ⊢
      exact ⟨f :: fs, by simp, .cons hf hfs⟩

end

end Generate

end TickScript
