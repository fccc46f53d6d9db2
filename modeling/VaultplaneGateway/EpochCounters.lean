import Mathlib.Algebra.BigOperators.Group.List.Basic
import Mathlib.Data.List.DropRight
import Mathlib.Order.Lattice

/-!
# Counters that are reset when an epoch ends

A counter keeps a single slot: the epoch of the last amount added and what was added
in it. Nothing happens when an epoch ends; the slot is reset by the next addition and
read as empty until then. As long as epochs do not go back, the slot answers for the
current epoch what a log of all additions would: the sum of the amounts of that epoch.
-/
namespace VaultplaneGateway.EpochCounters

variable {E M : Type*} [LinearOrder E] [AddMonoid M]

structure Slot (E M : Type*) where
  epoch : E
  total : M

/-- What the slot holds for an epoch. -/
def reading (slot : Option (Slot E M)) (e : E) : M :=
  match slot with
  | some s => if s.epoch = e then s.total else 0
  | none => 0

/-- An addition starts from what the slot holds for its own epoch. -/
def add (slot : Option (Slot E M)) (x : E × M) : Option (Slot E M) :=
  some ⟨x.1, reading slot x.1 + x.2⟩

/-- The slot after the additions of a log, oldest first. -/
def slotOf (log : List (E × M)) : Option (Slot E M) := log.foldl add none

/-- The sum of the amounts of one epoch. -/
def total (e : E) (log : List (E × M)) : M := ((log.filter fun x => x.1 = e).map Prod.snd).sum

theorem slotOf_concat (log : List (E × M)) (x : E × M) :
    slotOf (log ++ [x]) = add (slotOf log) x := by
  simp [slotOf]

theorem total_concat (e : E) (log : List (E × M)) (x : E × M) :
    total e (log ++ [x]) = total e log + if x.1 = e then x.2 else 0 := by
  unfold total
  by_cases h : x.1 = e <;> simp [List.filter_append, h]

/-- An epoch without additions sums to nothing. -/
theorem total_of_later {e : E} {log : List (E × M)} (h : ∀ x ∈ log, x.1 < e) : total e log = 0 := by
  have hnone : log.filter (fun x => x.1 = e) = [] := by
    apply List.filter_eq_nil_iff.mpr
    intro x hx
    simp [(h x hx).ne]
  rw [total, hnone]
  rfl

/-- The slot agrees with the log for the current epoch and every later one. -/
theorem reading_slotOf (log : List (E × M)) (hmono : log.Pairwise fun x y => x.1 ≤ y.1) {e : E}
    (he : ∀ x ∈ log, x.1 ≤ e) : reading (slotOf log) e = total e log := by
  induction log using List.reverseRecOn generalizing e with
  | nil => rfl
  | append_singleton log x ih =>
      obtain ⟨hlog, -, hlast⟩ := List.pairwise_append.mp hmono
      have hpast : ∀ y ∈ log, y.1 ≤ x.1 := fun y hy => hlast y hy x (by simp)
      rw [slotOf_concat, total_concat, add, reading]
      by_cases hx : x.1 = e
      · rw [if_pos hx, if_pos hx, ih hlog hpast, hx]
      · have hlt : x.1 < e := lt_of_le_of_ne (he x (by simp)) hx
        rw [if_neg hx, if_neg hx, total_of_later fun y hy => (hpast y hy).trans_lt hlt, add_zero]

end VaultplaneGateway.EpochCounters
