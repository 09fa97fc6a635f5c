/-
Reasoning about work in place.

`outcome` forgets the state that a fault leaves. It turns a chain of steps
in place into the chain of their outcomes (`outcome_bind`), and so compares
work in place with a function that yields a new state or a fault.

What a fault leaves behind is said by three promises, up to a relation `R`
of states that differ in nothing that matters. Work `Looks` if it never
leaves another state than it finds; it is `Atomic` if it leaves none when it
fails; it is `Sure` if it does not fail. Work that looks first, then does
one thing that may be refused, and is sure from there on is atomic
(`Atomic.after`, `Atomic.before`).
-/
import TickScript.InPlace
import TickScript.Proofs.Except

namespace TickScript

namespace InPlace

variable {σ α β : Type} {s s' : σ} {fault : Fault} {a : α} {b : β}

-- ================================================================= steps

/-- A chain goes on with the state that its first step leaves. -/
theorem run_bind (p : InPlace σ α) (q : α → InPlace σ β) (s : σ) :
    (p >>= q).run s = match p.run s with
      | .ok a s' => (q a).run s'
      | .error fault s' => .error fault s' := by
  show EStateM.bind p q s = _
  unfold EStateM.bind EStateM.run
  cases p s <;> rfl

/-- To look is to leave the state, whatever comes of it. -/
theorem run_look (f : σ → Except Fault α) (s : σ) :
    (look f).run s = match f s with
      | .ok a => .ok a s
      | .error fault => .error fault s := rfl

theorem run_once (f : σ → Except Fault (α × σ)) (s : σ) :
    (once f).run s = match f s with
      | .ok (a, s') => .ok a s'
      | .error fault => .error fault s := rfl

-- ============================================================== outcomes

/-- What comes of work in place, the state being lost if it fails. -/
def outcome (p : InPlace σ α) (s : σ) : Except Fault (α × σ) :=
  match p.run s with
  | .ok a s' => .ok (a, s')
  | .error fault _ => .error fault

/-- Nothing is lost of work that succeeds. -/
theorem outcome_eq_ok_iff {p : InPlace σ α} : outcome p s = .ok (a, s') ↔ p.run s = .ok a s' := by
  unfold outcome
  split
  next h => simp [h]
  next h => simp [h]

/-- Of work that fails the fault is kept. -/
theorem outcome_eq_error_iff {p : InPlace σ α} :
    outcome p s = .error fault ↔ ∃ s', p.run s = .error fault s' := by
  unfold outcome
  split
  next h => simp [h]
  next h => simp [h]

/-- What only gives a result leaves the state. -/
@[simp]
theorem outcome_pure (a : α) (s : σ) : outcome (pure a) s = .ok (a, s) := rfl

@[simp]
theorem outcome_throw (fault : Fault) (s : σ) :
    outcome (throw fault : InPlace σ α) s = .error fault := rfl

/-- A chain comes out as the chain of what comes of its steps. -/
@[simp]
theorem outcome_bind (p : InPlace σ α) (q : α → InPlace σ β) (s : σ) :
    outcome (p >>= q) s = outcome p s >>= fun r => outcome (q r.1) r.2 := by
  unfold outcome
  rw [run_bind]
  cases p.run s with
  | ok a s' => rfl
  | error fault s' => rfl

/-- The outcome of a look is what was seen, beside the state. -/
@[simp]
theorem outcome_look (f : σ → Except Fault α) (s : σ) :
    outcome (look f) s = (f s).map fun a => (a, s) := by
  unfold outcome
  rw [run_look]
  cases f s <;> rfl

/-- A check is a look at nothing. -/
@[simp]
theorem outcome_check (x : Except Fault α) (s : σ) :
    outcome (check x) s = x.map fun a => (a, s) := outcome_look _ s

/-- One step is its own outcome. -/
@[simp]
theorem outcome_once (f : σ → Except Fault (α × σ)) (s : σ) : outcome (once f) s = f s := by
  unfold outcome
  rw [run_once]
  rcases f s with fault | ⟨a, s'⟩ <;> rfl

@[simp]
theorem outcome_change (f : σ → σ) (s : σ) : outcome (change f) s = .ok ((), f s) := rfl

-- =============================================================== results

/-- A chain succeeds through its first step. -/
theorem bind_eq_ok {p : InPlace σ α} {q : α → InPlace σ β} :
    (p >>= q).run s = .ok b s' ↔ ∃ a s₁, p.run s = .ok a s₁ ∧ (q a).run s₁ = .ok b s' := by
  rw [run_bind]
  cases p.run s with
  | ok a s₁ => simp [and_assoc]
  | error fault s₁ => simp

/-- A chain fails in its first step or after it. -/
theorem bind_eq_error {p : InPlace σ α} {q : α → InPlace σ β} :
    (p >>= q).run s = .error fault s' ↔
      p.run s = .error fault s' ∨ ∃ a s₁, p.run s = .ok a s₁ ∧ (q a).run s₁ = .error fault s' := by
  rw [run_bind]
  cases p.run s with
  | ok a s₁ => simp [and_assoc]
  | error fault s₁ => simp

/-- A look that succeeds leaves the state as it is. -/
theorem look_eq_ok {f : σ → Except Fault α} :
    (look f).run s = .ok a s' ↔ f s = .ok a ∧ s' = s := by
  rw [run_look]
  cases f s with
  | ok a => simp [eq_comm]
  | error fault => simp

/-- So does one that fails. -/
theorem look_eq_error {f : σ → Except Fault α} :
    (look f).run s = .error fault s' ↔ f s = .error fault ∧ s' = s := by
  rw [run_look]
  cases f s with
  | ok a => simp
  | error fault => simp [eq_comm]

/-- One step succeeds where its function does. -/
theorem once_eq_ok {f : σ → Except Fault (α × σ)} :
    (once f).run s = .ok a s' ↔ f s = .ok (a, s') := by
  rw [← outcome_eq_ok_iff, outcome_once]

/-- A step that is refused is not begun. -/
theorem once_eq_error {f : σ → Except Fault (α × σ)} :
    (once f).run s = .error fault s' ↔ f s = .error fault ∧ s' = s := by
  rw [run_once]
  cases f s with
  | ok r => simp
  | error fault => simp [eq_comm]

/-- What follows a look finds the same state. -/
theorem look_bind_eq_ok {f : σ → Except Fault α} {q : α → InPlace σ β} :
    (look f >>= q).run s = .ok b s' ↔ ∃ a, f s = .ok a ∧ (q a).run s = .ok b s' := by
  simp only [bind_eq_ok, look_eq_ok, and_assoc, exists_and_left, exists_eq_left]

/-- So does what follows a check. -/
theorem check_bind_eq_ok {x : Except Fault α} {q : α → InPlace σ β} :
    (check x >>= q).run s = .ok b s' ↔ ∃ a, x = .ok a ∧ (q a).run s = .ok b s' := look_bind_eq_ok

-- ========================================================= what is left

variable {R : σ → σ → Prop} {p : InPlace σ α} {q : α → InPlace σ β}

/-- Work that leaves the state it finds, whether it succeeds or fails. -/
structure Looks (R : σ → σ → Prop) (p : InPlace σ α) (s : σ) : Prop where
  ok : ∀ a s', p.run s = .ok a s' → R s s'
  error : ∀ fault s', p.run s = .error fault s' → R s s'

/-- Work that leaves the state it finds if it fails. -/
def Atomic (R : σ → σ → Prop) (p : InPlace σ α) (s : σ) : Prop :=
  ∀ fault s', p.run s = .error fault s' → R s s'

/-- Work that does not fail. -/
def Sure (p : InPlace σ α) : Prop := ∀ s fault s', p.run s ≠ .error fault s'

/-- Work that leaves every state leaves it when it fails. -/
theorem Looks.atomic (h : Looks R p s) : Atomic R p s := h.error

/-- What does not fail leaves nothing when it fails. -/
theorem Sure.atomic (h : Sure p) : Atomic R p s := fun fault s' hfault => absurd hfault (h s fault s')

/-- Looking first. -/
theorem Atomic.after [Trans R R R] (hp : Looks R p s)
    (hq : ∀ a s', p.run s = .ok a s' → Atomic R (q a) s') : Atomic R (p >>= q) s := by
  intro fault s' h
  rcases bind_eq_error.1 h with h | ⟨a, s₁, ha, h⟩
  · exact hp.error fault s' h
  · exact Trans.trans (hp.ok a s₁ ha) (hq a s₁ ha fault s' h)

/-- What follows does not fail. -/
theorem Atomic.before (hp : Atomic R p s) (hq : ∀ a, Sure (q a)) : Atomic R (p >>= q) s := by
  intro fault s' h
  rcases bind_eq_error.1 h with h | ⟨a, s₁, -, h⟩
  · exact hp fault s' h
  · exact absurd h (hq a s₁ fault s')

/-- A chain of sure steps is sure. -/
theorem Sure.bind (hp : Sure p) (hq : ∀ a, Sure (q a)) : Sure (p >>= q) := by
  intro s fault s' h
  rcases bind_eq_error.1 h with h | ⟨a, s₁, -, h⟩
  · exact hp s fault s' h
  · exact hq a s₁ fault s' h

theorem Sure.pure (a : α) : Sure (pure a : InPlace σ α) := by
  intro s fault s' h
  cases h

theorem Sure.change (f : σ → σ) : Sure (change f) := by
  intro s fault s' h
  cases h

variable [Std.Refl R]

theorem Looks.throw (fault : Fault) : Looks R (throw fault : InPlace σ α) s where
  ok b s' h := by cases h
  error fault s' h := by
    cases h
    exact Std.Refl.refl s

/-- A look leaves the state it finds. -/
theorem looks_look (f : σ → Except Fault α) : Looks R (look f) s where
  ok a s' h := by
    obtain ⟨-, rfl⟩ := look_eq_ok.1 h
    exact Std.Refl.refl s'
  error fault s' h := by
    obtain ⟨-, rfl⟩ := look_eq_error.1 h
    exact Std.Refl.refl s'

/-- A refused step is not begun. -/
theorem atomic_once (f : σ → Except Fault (α × σ)) : Atomic R (once f) s := by
  intro fault s' h
  obtain ⟨-, rfl⟩ := once_eq_error.1 h
  exact Std.Refl.refl s'

/-- A step that leaves the state it finds, if it is done, only looks. -/
theorem looks_once {f : σ → Except Fault (α × σ)} (hf : ∀ a s', f s = .ok (a, s') → R s s') :
    Looks R (once f) s :=
  ⟨fun a s' h => hf a s' (once_eq_ok.1 h), atomic_once f⟩

end InPlace

end TickScript
