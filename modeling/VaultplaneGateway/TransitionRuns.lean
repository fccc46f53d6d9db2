import Mathlib.Data.List.Basic

/-!
# Runs of a deterministic transition function

A run folds a step function over a finite list of events. Nondeterminism lives
in the events: a schedule, a clock reading or an oracle answer is part of the
event that consumes it. Four rules cover the developments below. An invariant
kept by every event holds after every run. An invariant kept by the events that
meet a condition in the state they happen in holds after every run of such
events, and if no other event keeps it, only then. A component that each event
either overwrites or leaves alone is determined by the last overwriting event. A
relation that tolerates the deleted events on one side and is kept by the
retained events on both sides relates a run to its filtered run.
-/
namespace VaultplaneGateway.TransitionRuns

variable {σ ε α : Type*}

def run (step : σ → ε → σ) (s : σ) (es : List ε) : σ := es.foldl step s

@[simp] theorem run_nil (step : σ → ε → σ) (s : σ) : run step s [] = s := rfl

@[simp] theorem run_cons (step : σ → ε → σ) (s : σ) (e : ε) (es : List ε) :
    run step s (e :: es) = run step (step s e) es := rfl

theorem run_append (step : σ → ε → σ) (s : σ) (es fs : List ε) :
    run step s (es ++ fs) = run step (run step s es) fs := List.foldl_append

/-- Only events that occur in the run need to keep the invariant. -/
theorem run_invariant (step : σ → ε → σ) (I : σ → Prop) (es : List ε)
    (hstep : ∀ s, ∀ e ∈ es, I s → I (step s e)) (s : σ) (hs : I s) :
    I (run step s es) := by
  induction es generalizing s with
  | nil => exact hs
  | cons e es ih =>
      rw [run_cons]
      apply ih
      · intro t f hf
        exact hstep t f (List.mem_cons_of_mem _ hf)
      · exact hstep s e List.mem_cons_self hs

/-- A component that no event of the run touches keeps its value. -/
theorem run_frame {step : σ → ε → σ} (read : σ → α) {es : List ε}
    (hstep : ∀ s, ∀ e ∈ es, read (step s e) = read s) (s : σ) :
    read (run step s es) = read s := by
  refine run_invariant step (fun t => read t = read s) es ?_ s rfl
  intro t e he ht
  rw [hstep t e he, ht]

/-- Every event of the run meets the condition in the state it happens in. -/
def Along (step : σ → ε → σ) (C : σ → ε → Prop) : σ → List ε → Prop
  | _, [] => True
  | s, e :: es => C s e ∧ Along step C (step s e) es

theorem run_along {step : σ → ε → σ} {C : σ → ε → Prop} {I : σ → Prop}
    (hstep : ∀ s e, I s → C s e → I (step s e)) {s : σ} (hs : I s) {es : List ε}
    (h : Along step C s es) : I (run step s es) := by
  induction es generalizing s with
  | nil => exact hs
  | cons e es ih =>
      obtain ⟨he, hrest⟩ := h
      rw [run_cons]
      exact ih (hstep s e hs he) hrest

/-- If an event keeps the invariant only under the condition, then the condition holds
along a run exactly if the invariant never fails on the way. -/
theorem along_iff_prefixes {step : σ → ε → σ} {C : σ → ε → Prop} {I : σ → Prop}
    (hstep : ∀ s e, I s → (I (step s e) ↔ C s e)) {s : σ} (hs : I s) (es : List ε) :
    Along step C s es ↔ ∀ fs, fs <+: es → I (run step s fs) := by
  induction es generalizing s with
  | nil => simp [Along, hs]
  | cons e es ih =>
      rw [Along, ← hstep s e hs]
      constructor
      · rintro ⟨he, hrest⟩ fs hfs
        rcases List.prefix_cons_iff.mp hfs with rfl | ⟨gs, rfl, hgs⟩
        · exact hs
        · exact (ih he).mp hrest gs hgs
      · intro hall
        have he : I (step s e) := hall [e] (by simp)
        refine ⟨he, (ih he).mpr ?_⟩
        intro gs hgs
        exact hall (e :: gs) (List.cons_prefix_cons.mpr ⟨rfl, hgs⟩)

/-- If an event that breaks the condition also breaks the property for good, then the
property holds after a run exactly if the condition held along it. The states of the run
may be assumed to be live. -/
theorem run_iff_along {step : σ → ε → σ} {C : σ → ε → Prop} {L A : σ → Prop}
    (hlive : ∀ s e, L s → L (step s e))
    (hstep : ∀ s e, L s → (A (step s e) ↔ A s ∧ C s e)) {s : σ} (hs : L s) (es : List ε) :
    A (run step s es) ↔ A s ∧ Along step C s es := by
  induction es generalizing s with
  | nil => simp [Along]
  | cons e es ih => rw [run_cons, ih (hlive s e hs), hstep s e hs, Along, and_assoc]

/-- A property that holds after a run and not before it was established by one of
its events. -/
theorem run_establishes (step : σ → ε → σ) (P : σ → Prop) (s : σ) (es : List ε) (hs : ¬ P s)
    (h : P (run step s es)) :
    ∃ es₁ e es₂, es = es₁ ++ e :: es₂ ∧ ¬ P (run step s es₁) ∧ P (step (run step s es₁) e) := by
  induction es generalizing s with
  | nil => exact (hs h).elim
  | cons e es ih =>
      by_cases he : P (step s e)
      · exact ⟨[], e, es, rfl, hs, he⟩
      · obtain ⟨es₁, f, es₂, rfl, hbefore, hafter⟩ := ih (step s e) he h
        exact ⟨e :: es₁, f, es₂, rfl, hbefore, hafter⟩

/-- The value written by the last writing event, if any event writes. -/
def lastWrite (write : ε → Option α) (es : List ε) : Option α := es.reverse.findSome? write

theorem lastWrite_cons (write : ε → Option α) (e : ε) (es : List ε) :
    lastWrite write (e :: es) = (lastWrite write es).or (write e) := by
  simp only [lastWrite, List.reverse_cons, List.findSome?_append, List.findSome?_cons,
    List.findSome?_nil]
  cases write e <;> rfl

/-- Reading the component after a run needs only the events, not the states the
run went through. -/
theorem run_lastWrite (step : σ → ε → σ) (read : σ → α) (write : ε → Option α)
    (hstep : ∀ s e, read (step s e) = (write e).getD (read s)) (s : σ) (es : List ε) :
    read (run step s es) = (lastWrite write es).getD (read s) := by
  induction es generalizing s with
  | nil => rfl
  | cons e es ih =>
      rw [run_cons, ih, lastWrite_cons, hstep]
      cases lastWrite write es <;> rfl

theorem lastWrite_map {β : Type*} (write : ε → Option α) (f : α → β) (es : List ε) :
    lastWrite (fun e => (write e).map f) es = (lastWrite write es).map f := by
  induction es with
  | nil => rfl
  | cons e es ih =>
      rw [lastWrite_cons, lastWrite_cons, ih]
      cases lastWrite write es <;> rfl

/-- An event of the run wrote the value `lastWrite` reports. -/
theorem exists_of_lastWrite (write : ε → Option α) (es : List ε) {v : α}
    (h : lastWrite write es = some v) : ∃ e ∈ es, write e = some v := by
  obtain ⟨e, he, hv⟩ := List.exists_of_findSome?_eq_some h
  exact ⟨e, List.mem_reverse.mp he, hv⟩

/-- Deleting the events that `keep` rejects preserves the relation, provided a
deleted event moves the left state within the relation and a retained event
moves both. -/
theorem run_filter_related (step : σ → ε → σ) (R : σ → σ → Prop) (keep : ε → Bool)
    (es : List ε)
    (hdrop : ∀ e ∈ es, keep e = false → ∀ s t, R s t → R (step s e) t)
    (hkeep : ∀ e ∈ es, keep e = true → ∀ s t, R s t → R (step s e) (step t e))
    (s t : σ) (h : R s t) : R (run step s es) (run step t (es.filter keep)) := by
  induction es generalizing s t with
  | nil => exact h
  | cons e es ih =>
      have ih' := ih (fun f hf => hdrop f (List.mem_cons_of_mem _ hf))
        (fun f hf => hkeep f (List.mem_cons_of_mem _ hf))
      cases hk : keep e with
      | false =>
          rw [List.filter_cons_of_neg (by simp [hk]), run_cons]
          exact ih' _ _ (hdrop e List.mem_cons_self hk s t h)
      | true =>
          rw [List.filter_cons_of_pos hk, run_cons, run_cons]
          exact ih' _ _ (hkeep e List.mem_cons_self hk s t h)

/-- A view of the state that every step maps to a step of its own can be run by itself. -/
theorem run_view {τ : Type*} {step : σ → ε → σ} {viewStep : τ → ε → τ} {view : σ → τ}
    {I : σ → Prop} (hinv : ∀ s e, I s → I (step s e))
    (hview : ∀ s e, I s → view (step s e) = viewStep (view s) e) {s : σ} (hs : I s) (es : List ε) :
    view (run step s es) = run viewStep (view s) es := by
  induction es generalizing s with
  | nil => rfl
  | cons e es ih => rw [run_cons, run_cons, ih (hinv s e hs), hview s e hs]

/-- Events that change nothing can be left out. -/
theorem run_filter_eq (step : σ → ε → σ) (keep : ε → Bool)
    (hdrop : ∀ s e, keep e = false → step s e = s) (s : σ) (es : List ε) :
    run step s es = run step s (es.filter keep) := by
  apply run_filter_related step Eq keep es _ _ s s rfl
  · rintro e - he s _ rfl
    exact hdrop s e he
  · rintro e - - s _ rfl
    rfl

end VaultplaneGateway.TransitionRuns
