import Mathlib.Logic.Basic

/-!
# Stateful computations whose failures leave no trace

A computation that can fail may have written state before it does. It fails clean if a
failure always leaves the state it was started in. A sequence fails clean if everything
before its last fallible step only reads and that step fails clean itself; what follows
may write as it likes but must not fail.
-/
namespace VaultplaneGateway.FailureAtomicity

variable {σ ε ε' α β : Type}

/-- The state survives a failure. -/
abbrev Action (σ ε α : Type) := ExceptT ε (StateM σ) α

/-- The answer and the state left behind. -/
def exec (x : Action σ ε α) (s : σ) : Except ε α × σ := StateT.run (ExceptT.run x) s

/-- A computation that touches no state. -/
def lift (x : Except ε α) : Action σ ε α := ExceptT.mk (pure x)

@[simp] theorem exec_pure (a : α) (s : σ) : exec (pure a : Action σ ε α) s = (.ok a, s) := rfl

@[simp] theorem exec_lift (x : Except ε α) (s : σ) : exec (lift x) s = (x, s) := rfl

@[simp] theorem exec_get (s : σ) : exec (get : Action σ ε σ) s = (.ok s, s) := rfl

@[simp] theorem exec_set (s s' : σ) : exec (set s' : Action σ ε PUnit) s = (.ok ⟨⟩, s') := rfl

@[simp] theorem exec_modify (f : σ → σ) (s : σ) :
    exec (modify f : Action σ ε PUnit) s = (.ok ⟨⟩, f s) := rfl

theorem exec_bind (x : Action σ ε α) (f : α → Action σ ε β) (s : σ) :
    exec (x >>= f) s =
      match exec x s with
      | (.ok a, s') => exec (f a) s'
      | (.error e, s') => (.error e, s') := by
  change StateT.run (ExceptT.run (ExceptT.bind x f)) s = _
  simp only [exec, ExceptT.run, ExceptT.bind, ExceptT.mk, StateT.run, bind, StateT.bind]
  rcases (x : σ → Except ε α × σ) s with ⟨_ | a, s'⟩
  · rfl
  · rfl

theorem exec_bind_ok {x : Action σ ε α} {f : α → Action σ ε β} {s t : σ} {b : β} :
    exec (x >>= f) s = (.ok b, t) ↔ ∃ a s', exec x s = (.ok a, s') ∧ exec (f a) s' = (.ok b, t) := by
  rw [exec_bind]
  rcases exec x s with ⟨_ | a, s'⟩
  · simp
  · constructor
    · intro h
      exact ⟨a, s', rfl, h⟩
    · rintro ⟨_, _, heq, h⟩
      cases heq
      exact h

theorem exec_lift_ok {x : Except ε α} {s t : σ} {a : α} :
    exec (lift x) s = (.ok a, t) ↔ x = .ok a ∧ t = s := by
  rw [exec_lift, Prod.mk.injEq, eq_comm (a := s)]

theorem exec_get_ok {s t : σ} {a : σ} :
    exec (get : Action σ ε σ) s = (.ok a, t) ↔ a = s ∧ t = s := by
  rw [exec_get, Prod.mk.injEq, Except.ok.injEq, eq_comm (a := s), eq_comm (a := s)]

theorem exec_modify_ok {f : σ → σ} {s t : σ} {u : PUnit} :
    exec (modify f : Action σ ε PUnit) s = (.ok u, t) ↔ t = f s := by
  rw [exec_modify, Prod.mk.injEq, eq_comm (a := f s)]
  exact and_iff_right rfl

/-- A failure leaves the state as it was. -/
def FailsClean (x : Action σ ε α) : Prop := ∀ s e t, exec x s = (.error e, t) → t = s

def ReadsOnly (x : Action σ ε α) : Prop := ∀ s, (exec x s).2 = s

def NeverFails (x : Action σ ε α) : Prop := ∀ s e t, exec x s ≠ (.error e, t)

theorem readsOnly_lift (x : Except ε α) : ReadsOnly (lift x : Action σ ε α) := fun _ => rfl

theorem readsOnly_get : ReadsOnly (get : Action σ ε σ) := fun _ => rfl

theorem readsOnly_pure (a : α) : ReadsOnly (pure a : Action σ ε α) := fun _ => rfl

theorem neverFails_modify (f : σ → σ) : NeverFails (modify f : Action σ ε PUnit) := by
  intro s e t h
  cases h

theorem ReadsOnly.failsClean {x : Action σ ε α} (h : ReadsOnly x) : FailsClean x := by
  intro s e t hx
  have := h s
  rwa [hx] at this

theorem NeverFails.failsClean {x : Action σ ε α} (h : NeverFails x) : FailsClean x :=
  fun s e t hx => (h s e t hx).elim

/-- Reading first does no harm. -/
theorem ReadsOnly.bind_failsClean {x : Action σ ε α} {f : α → Action σ ε β} (hx : ReadsOnly x)
    (hf : ∀ a, FailsClean (f a)) : FailsClean (x >>= f) := by
  intro s e t h
  have hread := hx s
  rw [exec_bind] at h
  rcases hxs : exec x s with ⟨e' | a, s'⟩
  · rw [hxs] at h hread
    cases h
    exact hread
  · rw [hxs] at h hread
    obtain rfl : s' = s := hread
    exact hf a s' e t h

/-- Nothing that may fail comes after the write. -/
theorem FailsClean.bind_neverFails {x : Action σ ε α} {f : α → Action σ ε β} (hx : FailsClean x)
    (hf : ∀ a, NeverFails (f a)) : FailsClean (x >>= f) := by
  intro s e t h
  rw [exec_bind] at h
  rcases hxs : exec x s with ⟨e' | a, s'⟩
  · rw [hxs] at h
    obtain ⟨-, rfl⟩ := Prod.mk.inj h
    exact hx s e' _ hxs
  · rw [hxs] at h
    exact (hf a s' e t h).elim

/-- A part of the state that the computation does not write, whether it fails or not. -/
def Keeps (read : σ → β) (x : Action σ ε α) : Prop := ∀ s, read (exec x s).2 = read s

theorem ReadsOnly.keeps {γ : Type} {read : σ → γ} {x : Action σ ε α} (h : ReadsOnly x) :
    Keeps read x := by
  intro s
  rw [h s]

theorem keeps_modify {γ : Type} {read : σ → γ} {f : σ → σ} (h : ∀ s, read (f s) = read s) :
    Keeps read (modify f : Action σ ε PUnit) := h

theorem Keeps.bind {γ : Type} {read : σ → γ} {x : Action σ ε α} {f : α → Action σ ε β}
    (hx : Keeps read x) (hf : ∀ a, Keeps read (f a)) : Keeps read (x >>= f) := by
  intro s
  have hread := hx s
  rw [exec_bind]
  rcases hxs : exec x s with ⟨e | a, s'⟩
  · rw [hxs] at hread
    exact hread
  · rw [hxs] at hread
    exact (hf a s').trans hread

end VaultplaneGateway.FailureAtomicity
