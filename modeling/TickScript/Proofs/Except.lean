/-
Taking computations apart that may fail. A chain of steps succeeds only
if every step does, and its fault is that of the first step to fail.
The first part turns an equation about a chain into equations about its
steps, so that no proof has to unfold `do` blocks.

The second part bounds what can go wrong: `FailsOnly p x` says that
every fault of `x` has a cause in `p`, and a chain inherits it from its
steps.

The last part is about two computations at once: `Agree R x y` says that
they fail alike or yield related results. Chains of steps that agree do
so, too.
-/
import TickScript.Fault

namespace TickScript

section

variable {ε α β γ : Type}

/-- A step that succeeded passes its result on. -/
@[simp]
theorem ok_bind (a : α) (f : α → Except ε β) : (Except.ok a >>= f) = f a := rfl

/-- A step that failed is the end of the chain. -/
@[simp]
theorem error_bind (e : ε) (f : α → Except ε β) :
    ((Except.error e : Except ε α) >>= f) = .error e := rfl

/-- A chain succeeds through its first step. -/
theorem bind_eq_ok {x : Except ε α} {f : α → Except ε β} {b : β} :
    (x >>= f) = .ok b ↔ ∃ a, x = .ok a ∧ f a = .ok b := by
  cases x with
  | error e => simp
  | ok a => simp

/-- A chain fails in its first step or after it. -/
theorem bind_eq_error {x : Except ε α} {f : α → Except ε β} {e : ε} :
    (x >>= f) = .error e ↔ x = .error e ∨ ∃ a, x = .ok a ∧ f a = .error e := by
  cases x with
  | error e' => simp
  | ok a => simp

/-- A result is relabelled only if there is one. -/
theorem map_eq_ok {x : Except ε α} {f : α → β} {b : β} :
    x.map f = .ok b ↔ ∃ a, x = .ok a ∧ f a = b := by
  cases x with
  | error e => simp [Except.map]
  | ok a => simp [Except.map]

/-- Relabelling the result keeps the fault. -/
theorem map_eq_error {x : Except ε α} {f : α → β} {e : ε} :
    x.map f = .error e ↔ x = .error e := by
  cases x with
  | error e' => simp [Except.map]
  | ok a => simp [Except.map]

/-- A result is kept as an option only if there is one. -/
theorem toOption_eq_some {x : Except ε α} {a : α} : x.toOption = some a ↔ x = .ok a := by
  cases x with
  | error e => simp [Except.toOption]
  | ok a => simp [Except.toOption]

/-- A chain whose last step cannot fail only relabels. -/
theorem bind_ok (x : Except ε α) (f : α → β) : (x >>= fun a => Except.ok (f a)) = x.map f := by
  cases x <;> rfl

/-- To relabel a chain is to relabel its last step. -/
theorem map_bind (x : Except ε α) (f : α → Except ε β) (g : β → γ) :
    (x >>= f).map g = x >>= fun a => (f a).map g := by
  cases x <;> rfl

/-- A chain whose last step relabels is relabelled. -/
theorem bind_relabel {x : Except ε α} {k : α → Except ε β} {k' : α → Except ε γ} {g : β → γ}
    (hk : ∀ a, k' a = (k a).map g) : (x >>= k') = (x >>= k).map g := by
  cases x with
  | error e => rfl
  | ok a => exact hk a

/-- A chain whose steps all relabel is relabelled. -/
theorem map_bind_relabel {δ : Type} {x : Except ε α} {f : α → δ} {k : α → Except ε β}
    {k' : δ → Except ε γ} {g : β → γ} (hk : ∀ a, k' (f a) = (k a).map g) :
    (x.map f >>= k') = (x >>= k).map g := by
  cases x with
  | error e => rfl
  | ok a => exact hk a

theorem map_map (x : Except ε α) (f : α → β) (g : β → γ) :
    (x.map f).map g = x.map fun a => g (f a) := by
  cases x <;> rfl

end

-- ================================================================ causes

/-- Every fault of `x` has a cause in `p`. -/
def FailsOnly {α : Type} (p : Cause → Prop) (x : Except Fault α) : Prop :=
  ∀ fault, x = .error fault → p fault.cause

namespace FailsOnly

variable {α β : Type} {p q : Cause → Prop}

/-- What succeeds does not fail. -/
theorem ok (a : α) : FailsOnly p (.ok a) := nofun

theorem error {fault : Fault} (h : p fault.cause) :
    FailsOnly p (.error fault : Except Fault α) := by
  rintro _ ⟨⟩
  exact h

/-- A chain fails for causes that its steps fail for. -/
theorem bind {x : Except Fault α} {f : α → Except Fault β} (hx : FailsOnly p x)
    (hf : ∀ a, x = .ok a → FailsOnly p (f a)) : FailsOnly p (x >>= f) := by
  intro fault h
  rcases bind_eq_error.1 h with h | ⟨a, ha, h⟩
  · exact hx fault h
  · exact hf a ha fault h

/-- Relabelling adds no fault. -/
theorem map {x : Except Fault α} (hx : FailsOnly p x) (f : α → β) : FailsOnly p (x.map f) :=
  fun fault h => hx fault (map_eq_error.1 h)

/-- More causes may be allowed. -/
theorem mono {x : Except Fault α} (hx : FailsOnly p x) (h : ∀ c, p c → q c) :
    FailsOnly q x :=
  fun fault hfault => h _ (hx fault hfault)

end FailsOnly

-- ============================================================= agreement

/-- Both fail with the same fault, or both succeed with related results. -/
inductive Agree {ε α β : Type} (R : α → β → Prop) : Except ε α → Except ε β → Prop where
  | error (e : ε) : Agree R (.error e) (.error e)
  | ok {a : α} {b : β} (related : R a b) : Agree R (.ok a) (.ok b)

/-- The same result, beside things that are related. -/
def Beside {α β γ : Type} (R : β → γ → Prop) (r : α × β) (r' : α × γ) : Prop :=
  r'.1 = r.1 ∧ R r.2 r'.2

namespace Agree

variable {ε α β γ δ : Type} {R : α → β → Prop} {S : γ → δ → Prop} {x : Except ε α}
  {y : Except ε β}

/-- Chains agree if each of their steps does. -/
theorem bind {k : α → Except ε γ} {l : β → Except ε δ} (hx : Agree R x y)
    (hk : ∀ a b, R a b → Agree S (k a) (l b)) : Agree S (x >>= k) (y >>= l) := by
  cases hx with
  | error e => exact .error e
  | ok related => exact hk _ _ related

/-- The first steps have the same result, beside what is related. -/
theorem bind_beside {α' : Type} {R : β → γ → Prop} {S : α' → δ → Prop} {x : Except ε (α × β)}
    {y : Except ε (α × γ)} {k : α × β → Except ε α'} {l : α × γ → Except ε δ}
    (hx : Agree (Beside R) x y)
    (hk : ∀ a b c, x = .ok (a, b) → R b c → Agree S (k (a, b)) (l (a, c))) :
    Agree S (x >>= k) (y >>= l) := by
  cases hx with
  | error e => exact .error e
  | @ok r r' related =>
      obtain ⟨a, b⟩ := r
      obtain ⟨a', c⟩ := r'
      obtain ⟨rfl, hbc⟩ := related
      exact hk _ b c rfl hbc

/-- Chains that have their first step in common. -/
theorem after {k : α → Except ε γ} {l : α → Except ε δ} (hk : ∀ a, Agree S (k a) (l a)) :
    Agree S (x >>= k) (x >>= l) := by
  cases x with
  | error e => exact .error e
  | ok a => exact hk a

/-- Results may be relabelled on both sides. -/
theorem map {f : α → γ} {g : β → δ} (hx : Agree R x y) (h : ∀ a b, R a b → S (f a) (g b)) :
    Agree S (x.map f) (y.map g) := by
  cases hx with
  | error e => exact .error e
  | ok related => exact .ok (h _ _ related)

theorem mono {S : α → β → Prop} (hx : Agree R x y) (h : ∀ a b, x = .ok a → R a b → S a b) :
    Agree S x y := by
  cases hx with
  | error e => exact .error e
  | ok related => exact .ok (h _ _ rfl related)

/-- A computation agrees with itself. -/
theorem refl {R : α → α → Prop} (hR : ∀ a, R a a) : Agree R x x := by
  cases x with
  | error e => exact .error e
  | ok a => exact .ok (hR a)

/-- If results are related as a function says, it relabels them. -/
theorem eq_map {f : α → β} (hx : Agree R x y) (hR : ∀ a b, R a b → b = f a) : y = x.map f := by
  cases hx with
  | error e => rfl
  | ok related => exact congrArg Except.ok (hR _ _ related)

/-- The same beside a result that both have. -/
theorem eq_map_beside {R : β → γ → Prop} {f : β → γ} {x : Except ε (α × β)}
    {y : Except ε (α × γ)} (hx : Agree (Beside R) x y) (hR : ∀ b c, R b c → c = f b) :
    y = x.map fun r => (r.1, f r.2) :=
  hx.eq_map fun _ _ h => Prod.ext h.1 (hR _ _ h.2)

end Agree

end TickScript
