import Mathlib.Data.List.Basic

/-!
# Drawing items off a growing buffer

A decoder takes one item off the front of a buffer or reports that none is
complete. Two properties make it independent of how its input is cut: an item,
once complete, stays the same when more input arrives, and drawing it shortens
the buffer. Draining a buffer, appending and draining again then gives what
draining the whole gives.
-/
namespace VaultplaneGateway.BufferedDecoding

variable {α β : Type*}

structure Decoder (α β : Type*) where
  next : List α → Option (β × List α)
  shrinks : ∀ {b x rest}, next b = some (x, rest) → rest.length < b.length
  stable : ∀ {b x rest} (more), next b = some (x, rest) → next (b ++ more) = some (x, rest ++ more)

namespace Decoder

/-- At most `fuel` items. -/
def draw (d : Decoder α β) : ℕ → List α → List β × List α
  | 0, b => ([], b)
  | fuel + 1, b =>
      match d.next b with
      | none => ([], b)
      | some (x, rest) =>
          let r := d.draw fuel rest
          (x :: r.1, r.2)

/-- All complete items and what is left. An item takes at least one element, so
the length is enough fuel. -/
def drain (d : Decoder α β) (b : List α) : List β × List α := d.draw b.length b

theorem draw_of_none (d : Decoder α β) {b : List α} (h : d.next b = none) (fuel : ℕ) :
    d.draw fuel b = ([], b) := by
  cases fuel with
  | zero => rfl
  | succ fuel => simp only [draw, h]

theorem draw_of_some (d : Decoder α β) {b rest : List α} {x : β} (h : d.next b = some (x, rest))
    (fuel : ℕ) :
    d.draw (fuel + 1) b = (x :: (d.draw fuel rest).1, (d.draw fuel rest).2) := by
  simp only [draw, h]

/-- Fuel beyond the length makes no difference. -/
theorem draw_enough (d : Decoder α β) {fuel fuel' : ℕ} {b : List α} (h : b.length ≤ fuel)
    (h' : b.length ≤ fuel') : d.draw fuel b = d.draw fuel' b := by
  induction fuel generalizing fuel' b with
  | zero =>
      cases hnext : d.next b with
      | none => rw [d.draw_of_none hnext, d.draw_of_none hnext]
      | some r =>
          have hlt := d.shrinks hnext
          omega
  | succ fuel ih =>
      cases hnext : d.next b with
      | none => rw [d.draw_of_none hnext, d.draw_of_none hnext]
      | some r =>
          have hlt := d.shrinks hnext
          obtain ⟨n, rfl⟩ : ∃ n, fuel' = n + 1 := ⟨fuel' - 1, by omega⟩
          have hrest : d.draw fuel r.2 = d.draw n r.2 := ih (by omega) (by omega)
          rw [d.draw_of_some hnext, d.draw_of_some hnext, hrest]

theorem drain_of_none (d : Decoder α β) {b : List α} (h : d.next b = none) :
    d.drain b = ([], b) := d.draw_of_none h _

theorem drain_of_some (d : Decoder α β) {b rest : List α} {x : β} (h : d.next b = some (x, rest)) :
    d.drain b = (x :: (d.drain rest).1, (d.drain rest).2) := by
  have hlt := d.shrinks h
  obtain ⟨n, hn⟩ : ∃ n, b.length = n + 1 := ⟨b.length - 1, by omega⟩
  have hrest : d.draw n rest = d.draw rest.length rest := d.draw_enough (by omega) (Nat.le_refl _)
  unfold drain
  rw [hn, d.draw_of_some h, hrest]

/-- The induction every statement on `drain` uses: one item at a time. -/
theorem drain_induction (d : Decoder α β) {P : List α → Prop}
    (hnone : ∀ b, d.next b = none → P b)
    (hsome : ∀ b x rest, d.next b = some (x, rest) → P rest → P b) (b : List α) : P b := by
  induction hlen : b.length using Nat.strongRecOn generalizing b with
  | _ n ih =>
      cases hnext : d.next b with
      | none => exact hnone b hnext
      | some r =>
          have hlt := d.shrinks hnext
          exact hsome b r.1 r.2 hnext (ih _ (hlen ▸ hlt) r.2 rfl)

/-- Input that arrives later does not change what is drawn before. -/
theorem drain_append (d : Decoder α β) (b more : List α) :
    d.drain (b ++ more) =
      ((d.drain b).1 ++ (d.drain ((d.drain b).2 ++ more)).1,
        (d.drain ((d.drain b).2 ++ more)).2) := by
  induction b using d.drain_induction with
  | hnone b h => rw [d.drain_of_none h, List.nil_append]
  | hsome b x rest h ih => rw [d.drain_of_some h, d.drain_of_some (d.stable more h), ih,
      List.cons_append]

end Decoder

end VaultplaneGateway.BufferedDecoding
