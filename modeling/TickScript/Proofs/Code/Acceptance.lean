/-
Which terms code is generated for.

A term is accepted if each of its calls is one that there is, and if its
parts do not pile up too deep. How deep they pile up is a number that can
be read off the term (`Term.depth`): while a part of it is generated, the
code of every operand and argument to its left is waiting on the
generator's stack, and a part that is finished takes one place. So the
stack has to be no higher than the depth of the term, and this is what
its limit is compared with.

# Both directions

That an accepted term is right is induction over `Emits`, which counts the
places that are left. That a term is refused for one of three reasons only
(`Refused`) is induction over the term, along with the generator. The two
faults which the generator could have beside these it never has: operands
are on the stack when they are taken off it, and the parameters of a term
are its names.
-/
import TickScript.Proofs.Code.Emits

namespace TickScript

-- ================================================================== depth

namespace Term

mutual

/-- The height that the generator's stack grows to over a term. -/
def depth : Term → Nat
  | .int .. | .float .. | .bool .. | .var .. => 1
  | .call _ _ args => max 1 (argsDepth 0 args)
  | .unary _ _ arg => arg.depth
  | .binary _ _ lhs rhs => max lhs.depth (1 + rhs.depth)

/-- The height that it grows to over arguments with `i` others before
them. -/
def argsDepth (i : Nat) : List Term → Nat
  | [] => 0
  | t :: ts => max (i + t.depth) (argsDepth (i + 1) ts)

end

mutual

/-- The calls in a term: the names called, each with the number of its
arguments. -/
def calls : Term → List (String × Nat)
  | .int .. | .float .. | .bool .. | .var .. => []
  | .call _ name args => (name, args.length) :: callsAll args
  | .unary _ _ arg => arg.calls
  | .binary _ _ lhs rhs => lhs.calls ++ rhs.calls

/-- The calls in several terms. -/
def callsAll : List Term → List (String × Nat)
  | [] => []
  | t :: ts => t.calls ++ callsAll ts

end

theorem depth_pos : ∀ t : Term, 0 < t.depth
  | .int .. | .float .. | .bool .. | .var .. => Nat.one_pos
  | .call .. => Nat.lt_of_lt_of_le Nat.one_pos (Nat.le_max_left ..)
  | .unary _ _ arg => arg.depth_pos
  | .binary _ _ lhs _ => Nat.lt_of_lt_of_le lhs.depth_pos (Nat.le_max_left ..)

/-- One more argument before the others takes one more place. -/
theorem argsDepth_succ_le {n : Nat} (ts : List Term) (i : Nat) :
    argsDepth (i + 1) ts ≤ n + 1 ↔ argsDepth i ts ≤ n := by
  induction ts generalizing i with
  | nil => simp [argsDepth]
  | cons t ts ih =>
      have hfirst : i + 1 + t.depth ≤ n + 1 ↔ i + t.depth ≤ n := by omega
      simp only [argsDepth, Nat.max_le, ih, hfirst]

end Term

-- ================================================================== names

namespace Term

mutual

/-- Collecting the names of a term loses none. -/
theorem subset_collect : ∀ (t : Term) (names : List String), names ⊆ t.collect names
  | .int .., _ | .float .., _ | .bool .., _ => List.Subset.refl _
  | .var _ name, names => by
      simp only [collect, addName]
      split
      · exact List.Subset.refl names
      · exact List.subset_append_left names _
  | .call _ _ args, names => subset_collectAll args names
  | .unary _ _ arg, names => arg.subset_collect names
  | .binary _ _ lhs rhs, names =>
      List.Subset.trans (lhs.subset_collect names) (rhs.subset_collect _)

theorem subset_collectAll :
    ∀ (ts : List Term) (names : List String), names ⊆ collectAll names ts
  | [], names => List.Subset.refl names
  | t :: ts, names => List.Subset.trans (t.subset_collect names) (subset_collectAll ts _)

end

theorem mem_addName (names : List String) (name : String) : name ∈ addName names name := by
  unfold addName
  split
  next h => exact h
  next => simp

end Term

-- ================================================================== calls

/-- A call that code can be generated for: the conditional with three
arguments, or a function with as many as it takes. -/
def Callable (name : String) (count : Nat) : Prop :=
  (isIf name = true ∧ count = 3)
    ∨ ∃ f, Builtin.ofName? name = some f ∧ f.arity.1 ≤ count ∧ count ≤ f.arity.2

/-- The conditional is no function. -/
theorem ofName?_of_isIf {name : String} (h : isIf name = true) :
    Builtin.ofName? name = none := by
  have hlower : Text.lower name = Text.lower "if" := by simpa [isIf, Text.sameWord] using h
  unfold Builtin.ofName?
  rw [hlower]
  rfl

mutual

/-- A term that code was generated for has no wrong calls, and fits into
the places that there were. -/
theorem Emits.accepts {params : List String} {n : Nat} : {t : Term} → {code : Code} →
    Emits params n t code → (∀ c ∈ t.calls, Callable c.1 c.2) ∧ t.depth ≤ n
  | _, _, .int | _, _, .float | _, _, .bool | _, _, .var _ => ⟨nofun, Nat.succ_pos _⟩
  | _, _, .unary inner => inner.accepts
  | _, _, .binary first second => by
      obtain ⟨hcalls, hdepth⟩ := first.accepts
      obtain ⟨hcalls', hdepth'⟩ := second.accepts
      refine ⟨fun c hc => ?_, ?_⟩
      · exact (List.mem_append.1 hc).elim (hcalls c) (hcalls' c)
      · simp only [Term.depth]
        omega
  | _, _, .conditional isConditional first second third => by
      obtain ⟨hcalls, hdepth⟩ := first.accepts
      obtain ⟨hcalls', hdepth'⟩ := second.accepts
      obtain ⟨hcalls'', hdepth''⟩ := third.accepts
      refine ⟨fun c hc => ?_, ?_⟩
      · simp only [Term.calls, Term.callsAll, List.append_nil, List.mem_cons,
          List.mem_append] at hc
        rcases hc with rfl | hc | hc | hc
        · exact .inl ⟨isConditional, rfl⟩
        · exact hcalls c hc
        · exact hcalls' c hc
        · exact hcalls'' c hc
      · simp only [Term.depth, Term.argsDepth]
        omega
  | _, _, .call _ known fewest most inner => by
      obtain ⟨hcalls, hdepth⟩ := inner.accepts
      refine ⟨fun c hc => ?_, ?_⟩
      · rcases List.mem_cons.1 hc with rfl | hc
        · exact .inr ⟨_, known, fewest, most⟩
        · exact hcalls c hc
      · simp only [Term.depth]
        omega

/-- The same for arguments. -/
theorem EmitsAll.accepts {params : List String} {n : Nat} : {ts : List Term} →
    {codes : List Code} → EmitsAll params n ts codes →
    (∀ c ∈ Term.callsAll ts, Callable c.1 c.2) ∧ Term.argsDepth 0 ts ≤ n
  | _, _, .nil => ⟨nofun, Nat.zero_le _⟩
  | _, _, .cons first rest => by
      obtain ⟨hcalls, hdepth⟩ := first.accepts
      obtain ⟨hcalls', hdepth'⟩ := rest.accepts
      refine ⟨fun c hc => ?_, ?_⟩
      · exact (List.mem_append.1 hc).elim (hcalls c) (hcalls' c)
      · rw [← Term.argsDepth_succ_le] at hdepth'
        simp only [Term.argsDepth]
        omega

end

-- ================================================================ refusal

/-- What a term with these calls is refused for, if `deep` says that it
is too deep. -/
inductive Refused (calls : List (String × Nat)) (deep : Prop) (fault : Fault) : Prop where
  | unknown {name : String} {count : Nat} (called : (name, count) ∈ calls)
      (noConditional : isIf name = false) (noFunction : Builtin.ofName? name = none)
      (cause : fault.cause = .unknownFunction)
  | miscounted {name : String} {count : Nat} (called : (name, count) ∈ calls)
      (known : isIf name = true ∨ (Builtin.ofName? name).isSome)
      (wrong : ¬Callable name count) (cause : fault.cause = .argumentCount)
  | tooDeep (deep : deep) (cause : fault.cause = .overflow)
      (detail : fault.detail = "EXPRESSION OVERFLOW")

namespace Refused

variable {calls calls' : List (String × Nat)} {deep deep' : Prop} {fault : Fault}

/-- A larger term is refused for what a part of it is refused for. -/
theorem mono (h : Refused calls deep fault) (hcalls : calls ⊆ calls') (hdeep : deep → deep') :
    Refused calls' deep' fault := by
  cases h with
  | unknown called noConditional noFunction cause =>
      exact .unknown (hcalls called) noConditional noFunction cause
  | miscounted called known wrong cause => exact .miscounted (hcalls called) known wrong cause
  | tooDeep deep cause detail => exact .tooDeep (hdeep deep) cause detail

/-- A term without wrong calls that is not too deep is not refused. -/
theorem elim (h : Refused calls deep fault) (hcalls : ∀ c ∈ calls, Callable c.1 c.2)
    (hfits : ¬deep) : False := by
  cases h with
  | unknown called noConditional noFunction _ =>
      rcases hcalls _ called with ⟨hif, -⟩ | ⟨f, hf, -⟩
      · exact Bool.noConfusion (noConditional.symm.trans hif)
      · cases noFunction.symm.trans hf
  | miscounted called _ wrong _ => exact wrong (hcalls _ called)
  | tooDeep deep _ _ => exact hfits deep

end Refused

namespace Generate

variable {params : List String} {frags : Fragments} {fault : Fault}

/-- The places left on the generator's stack. -/
def room (frags : Fragments) : Nat := frags.limit - frags.items.length

/-- A fragment on the stack takes one place. -/
theorem room_push (h : 0 < room frags) (frag : Fragment) :
    room frags = room { frags with items := frag :: frags.items } + 1 := by
  unfold room at *
  simp only [List.length_cons]
  omega

/-- A fragment is put on the stack unless there is no place left. -/
theorem finish_refused {frag : Fragment} {calls : List (String × Nat)} {t : Term}
    (h : finish frags frag = .error fault) (hfrags : frags.overflow = "EXPRESSION OVERFLOW") :
    Refused calls (room frags < t.depth) fault := by
  unfold finish Stack.push at h
  split at h
  next => cases h
  next reason hpush =>
    cases h
    split at hpush
    next => cases hpush
    next hfull =>
      cases hpush
      refine .tooDeep ?_ rfl hfrags
      have hpos := t.depth_pos
      unfold room
      omega

/-- A call whose arguments are on the stack is refused only if it is
wrong. -/
theorem callFragment_refused {fs : List Fragment} {span : Span} {name : String} {deep : Prop}
    (h : callFragment { frags with items := fs.reverse ++ frags.items } span name fs.length
      = .error fault) : Refused [(name, fs.length)] deep fault := by
  unfold callFragment at h
  split at h
  next hif =>
    split at h
    next hthree =>
      obtain ⟨test, yes, no, rfl⟩ := List.length_eq_three.1 hthree
      cases h
    next hthree =>
      cases h
      refine .miscounted List.mem_cons_self (.inl hif) ?_ rfl
      rintro (⟨-, hcount⟩ | ⟨f, hf, -⟩)
      · exact hthree hcount
      · cases (ofName?_of_isIf hif).symm.trans hf
  next hif =>
    split at h
    next hnone =>
      cases h
      exact .unknown List.mem_cons_self (by simpa using hif) hnone rfl
    next f hf =>
      simp only at h
      split at h
      next =>
        have hpop : Stack.popMany { frags with items := fs.reverse ++ frags.items } fs.length
            = .ok (fs, frags) := by
          simp [Stack.popMany]
        rw [hpop] at h
        cases h
      next harity =>
        cases h
        refine .miscounted List.mem_cons_self (.inr (by simp [hf])) ?_ rfl
        rintro (⟨htrue, -⟩ | ⟨g, hg, hcount⟩)
        · exact hif htrue
        · cases hf.symm.trans hg
          exact harity hcount

mutual

/-- A term whose names are parameters is refused for one of the reasons
that there are. -/
theorem term_refused : ∀ (t : Term) {names : List String} {frags : Fragments},
    t.collect names ⊆ params → term params t frags = .error fault →
    frags.overflow = "EXPRESSION OVERFLOW" → Refused t.calls (room frags < t.depth) fault
  | .int .., _, _, _, h, hfrags | .float .., _, _, _, h, hfrags | .bool .., _, _, _, h, hfrags =>
      finish_refused h hfrags
  | .var _ name, names, _, hnames, h, hfrags => by
      simp only [term] at h
      split at h
      next => exact finish_refused h hfrags
      next hnone =>
        have hmem : name ∈ params := hnames (Term.mem_addName names name)
        have hdiffers := List.findIdx?_eq_none_iff.1 hnone name hmem
        simp at hdiffers
  | .unary _ _ arg, _, _, hnames, h, hfrags => by
      simp only [term] at h
      rcases bind_eq_error.1 h with h | ⟨frags₁, harg, h⟩
      · exact term_refused arg hnames h hfrags
      · obtain ⟨frag, rfl, -⟩ := term_emits harg
        exact finish_refused h hfrags
  | .binary _ _ lhs rhs, names, frags, hnames, h, hfrags => by
      simp only [term] at h
      rcases bind_eq_error.1 h with h | ⟨frags₁, hlhs, h⟩
      · have hleft : lhs.collect names ⊆ params :=
          List.Subset.trans (rhs.subset_collect _) hnames
        apply (term_refused lhs hleft h hfrags).mono (List.subset_append_left ..)
        intro hdeep
        exact Nat.lt_of_lt_of_le hdeep (Nat.le_max_left ..)
      · obtain ⟨left, rfl, hemits⟩ := term_emits hlhs
        have hpos : 0 < room frags := hemits.pos
        rcases bind_eq_error.1 h with h | ⟨frags₂, hrhs, h⟩
        · apply (term_refused rhs hnames h hfrags).mono (List.subset_append_right ..)
          intro hdeep
          rw [room_push hpos left]
          simp only [Term.depth]
          omega
        · obtain ⟨right, rfl, -⟩ := term_emits hrhs
          exact finish_refused h hfrags
  | .call _ name args, _, _, hnames, h, hfrags => by
      simp only [term] at h
      rcases bind_eq_error.1 h with h | ⟨frags₁, hargs, h⟩
      · apply (terms_refused args hnames h hfrags).mono (List.subset_cons_self ..)
        intro hdeep
        exact Nat.lt_of_lt_of_le hdeep (Nat.le_max_right ..)
      · obtain ⟨fs, rfl, hemits⟩ := terms_emits hargs
        have hlength : fs.length = args.length := by simpa using hemits.length_eq
        rw [← hlength] at h
        rcases bind_eq_error.1 h with hcall | ⟨⟨frag, frags₂⟩, hcall, hfinish⟩
        · refine (callFragment_refused hcall).mono ?_ id
          simp [Term.calls, hlength]
        · rw [hlength] at hcall
          obtain ⟨rfl, -⟩ := callFragment_emits hcall hemits
          exact finish_refused hfinish hfrags

/-- The same for arguments. -/
theorem terms_refused : ∀ (ts : List Term) {names : List String} {frags : Fragments},
    Term.collectAll names ts ⊆ params → terms params ts frags = .error fault →
    frags.overflow = "EXPRESSION OVERFLOW" →
    Refused (Term.callsAll ts) (room frags < Term.argsDepth 0 ts) fault
  | [], _, _, _, h, _ => by cases h
  | t :: ts, names, frags, hnames, h, hfrags => by
      simp only [terms] at h
      rcases bind_eq_error.1 h with h | ⟨frags₁, ht, h⟩
      · have hfirst : t.collect names ⊆ params :=
          List.Subset.trans (Term.subset_collectAll ts _) hnames
        apply (term_refused t hfirst h hfrags).mono (List.subset_append_left ..)
        intro hdeep
        simp only [Term.argsDepth]
        omega
      · obtain ⟨frag, rfl, hemits⟩ := term_emits ht
        have hpos : 0 < room frags := hemits.pos
        apply (terms_refused ts hnames h hfrags).mono (List.subset_append_right ..)
        intro hdeep
        -- the first argument takes a place from the others
        have hmore := mt (Term.argsDepth_succ_le ts 0).1 (Nat.not_le.2 hdeep)
        rw [room_push hpos frag]
        exact Nat.lt_of_lt_of_le (Nat.not_le.1 hmore) (Nat.le_max_right ..)

end

end Generate

-- ============================================================= acceptance

/-- What a term is refused for, with its names as parameters. -/
theorem Term.generate_refused (t : Term) {fault : Fault}
    (h : t.generate t.parameters = .error fault) : Refused t.calls (256 < t.depth) fault := by
  rcases bind_eq_error.1 h with h | ⟨frags, hterm, h⟩
  · exact Generate.term_refused t (List.Subset.refl _) h rfl
  · obtain ⟨frag, rfl, -⟩ := Generate.term_emits hterm
    cases h

/-- Which terms code is generated for.

With its names as parameters, a term is accepted if and only if each of its
calls is one that there is and it is no deeper than the generator's stack.
Otherwise it is refused for a call that there is not, a call with a wrong
number of arguments or its depth. When the code of a term is finished,
nothing else is on the stack. -/
theorem generate_accepts (t : Term) :
    ((∃ code, t.generate t.parameters = .ok code)
        ↔ (∀ c ∈ t.calls, Callable c.1 c.2) ∧ t.depth ≤ 256)
      ∧ (∀ fault, t.generate t.parameters = .error fault →
          Refused t.calls (256 < t.depth) fault)
      ∧ ∀ frags,
          Generate.term t.parameters t (Stack.empty "EXPRESSION OVERFLOW") = .ok frags →
          frags.items.length = 1 := by
  refine ⟨⟨?_, fun ⟨hcalls, hdepth⟩ => ?_⟩, fun _ => t.generate_refused, fun frags hterm => ?_⟩
  · rintro ⟨code, h⟩
    obtain ⟨frags, hterm, -⟩ := bind_eq_ok.1 h
    obtain ⟨frag, -, hemits⟩ := Generate.term_emits hterm
    exact hemits.accepts
  · cases h : t.generate t.parameters with
    | ok code => exact ⟨code, rfl⟩
    | error fault => exact ((t.generate_refused h).elim hcalls (Nat.not_lt.2 hdepth)).elim
  · obtain ⟨frag, rfl, -⟩ := Generate.term_emits hterm
    rfl

end TickScript
