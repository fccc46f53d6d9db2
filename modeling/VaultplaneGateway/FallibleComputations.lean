import Mathlib.Data.List.Forall2

/-!
# Whether a computation succeeds

A computation in `Except` succeeds if it ends with a value. Where the success of each
step does not depend on the values of the earlier ones, a sequence of steps succeeds
exactly when every step does, and so does a traversal.
-/
namespace VaultplaneGateway.FallibleComputations

variable {ε ε' α β : Type}

def Succeeds (x : Except ε α) : Prop := ∃ a, x = .ok a

@[simp]
theorem succeeds_ok (a : α) : Succeeds (.ok a : Except ε α) := ⟨a, rfl⟩

@[simp]
theorem succeeds_pure (a : α) : Succeeds (pure a : Except ε α) := ⟨a, rfl⟩

@[simp]
theorem not_succeeds_error (e : ε) : ¬ Succeeds (.error e : Except ε α) := by
  rintro ⟨a, h⟩
  cases h

/-- A sequence ends with a value exactly when each step does in turn. -/
theorem bind_eq_ok {x : Except ε α} {f : α → Except ε β} {b : β} :
    (x >>= f) = .ok b ↔ ∃ a, x = .ok a ∧ f a = .ok b := by
  constructor
  · intro h
    cases x with
    | error e => cases h
    | ok a => exact ⟨a, rfl, h⟩
  · rintro ⟨a, rfl, h⟩
    exact h

theorem succeeds_bind {x : Except ε α} {f : α → Except ε β} :
    Succeeds (x >>= f) ↔ ∃ a, x = .ok a ∧ Succeeds (f a) := by
  simp only [Succeeds, bind_eq_ok]
  exact ⟨fun ⟨b, a, ha, hb⟩ => ⟨a, ha, b, hb⟩, fun ⟨a, ha, b, hb⟩ => ⟨b, a, ha, hb⟩⟩

/-- The rest succeeds under a condition that does not mention the value of the step. -/
theorem succeeds_bind_and {x : Except ε α} {f : α → Except ε β} {p : Prop}
    (h : ∀ a, x = .ok a → (Succeeds (f a) ↔ p)) : Succeeds (x >>= f) ↔ Succeeds x ∧ p := by
  rw [succeeds_bind]
  constructor
  · rintro ⟨a, ha, hf⟩
    exact ⟨⟨a, ha⟩, (h a ha).mp hf⟩
  · rintro ⟨⟨a, ha⟩, hp⟩
    exact ⟨a, ha, (h a ha).mpr hp⟩

theorem succeeds_bind_pure {x : Except ε α} {f : α → β} :
    Succeeds (x >>= fun a => pure (f a)) ↔ Succeeds x := by
  rw [succeeds_bind_and (p := True) fun a _ => iff_true_intro (succeeds_pure (f a)), and_true]

@[simp]
theorem succeeds_mapError {x : Except ε α} {f : ε → ε'} :
    Succeeds (x.mapError f) ↔ Succeeds x := by
  cases x with
  | error e => exact iff_of_false (not_succeeds_error (f e)) (not_succeeds_error e)
  | ok a => exact iff_of_true (succeeds_ok a) (succeeds_ok a)

theorem mapError_eq_ok {x : Except ε α} {f : ε → ε'} {a : α} :
    x.mapError f = .ok a ↔ x = .ok a := by
  cases x with
  | error e => exact iff_of_false (fun h => by cases h) (fun h => by cases h)
  | ok b =>
      constructor
      · intro h
        cases h
        rfl
      · intro h
        cases h
        rfl

theorem map_eq_ok {x : Except ε α} {f : α → β} {b : β} :
    x.map f = .ok b ↔ ∃ a, x = .ok a ∧ f a = b := by
  cases x <;> simp [Except.map]

/-- A traversal stops at the first failure, so its success covers every element. -/
theorem succeeds_mapM {f : α → Except ε β} {xs : List α} :
    Succeeds (xs.mapM f) ↔ ∀ x ∈ xs, Succeeds (f x) := by
  induction xs with
  | nil => simp
  | cons x xs ih =>
      rw [List.mapM_cons, List.forall_mem_cons]
      refine succeeds_bind_and fun y _ => ?_
      rw [succeeds_bind_pure, ih]

theorem exists_mem_of_forall₂ {R : α → β → Prop} {as : List α} {bs : List β}
    (h : List.Forall₂ R as bs) {b : β} (hb : b ∈ bs) : ∃ a ∈ as, R a b := by
  induction h with
  | nil => cases hb
  | cons hab _ ih =>
      rcases List.mem_cons.mp hb with rfl | hb
      · exact ⟨_, List.mem_cons_self, hab⟩
      · obtain ⟨a, ha, hr⟩ := ih hb
        exact ⟨a, List.mem_cons_of_mem _ ha, hr⟩

/-- The values of a traversal are those of its elements, in order. -/
theorem mapM_eq_ok {f : α → Except ε β} {xs : List α} {ys : List β} :
    xs.mapM f = .ok ys ↔ List.Forall₂ (fun x y => f x = .ok y) xs ys := by
  induction xs generalizing ys with
  | nil =>
      rw [List.mapM_nil, List.forall₂_nil_left_iff]
      constructor
      · intro h
        cases h
        rfl
      · rintro rfl
        rfl
  | cons x xs ih =>
      rw [List.mapM_cons, bind_eq_ok]
      constructor
      · rintro ⟨y, hy, h⟩
        obtain ⟨ys', hys, hcons⟩ := bind_eq_ok.mp h
        cases hcons
        exact .cons hy (ih.mp hys)
      · intro h
        cases h with
        | @cons _ y _ ys' hy hys => exact ⟨y, hy, bind_eq_ok.mpr ⟨ys', ih.mpr hys, rfl⟩⟩

/-- A fold whose steps succeed whatever was accumulated before them. -/
theorem succeeds_foldlM {f : β → α → Except ε β} {xs : List α} {p : α → Prop}
    (h : ∀ b x, Succeeds (f b x) ↔ p x) (b : β) :
    Succeeds (xs.foldlM f b) ↔ ∀ x ∈ xs, p x := by
  induction xs generalizing b with
  | nil => simp
  | cons x xs ih =>
      rw [List.foldlM_cons, List.forall_mem_cons, ← h b x]
      exact succeeds_bind_and fun b' _ => ih b'

end VaultplaneGateway.FallibleComputations
