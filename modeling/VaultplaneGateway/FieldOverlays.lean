import Mathlib.Logic.Basic

/-!
# Overlaying records field by field

A record of type `C` is overlaid with what a bundle of type `B` gives. A field is a way to
read a value off the record together with what a bundle gives for it, if anything. Where
the fields separate records, an overlay that takes each field from the bundle if it is
given there and from the base otherwise is idempotent.
-/
namespace VaultplaneGateway.FieldOverlays

variable {C B : Type*}

structure Field (C B : Type*) where
  Value : Type
  read : C → Value
  given : B → Option Value

/-- The field is taken from the bundle when present there and from the base otherwise. -/
def Overlays (apply : C → B → C) (f : Field C B) : Prop :=
  ∀ base b, f.read (apply base b) = (f.given b).getD (f.read base)

/-- Records that agree in the fields are equal. -/
def Separates (fields : List (Field C B)) : Prop :=
  ∀ c c', (∀ f ∈ fields, f.read c = f.read c') → c = c'

variable {apply : C → B → C} {fields : List (Field C B)}

/-- Overlaying the same bundle again changes no field. -/
theorem Overlays.again {f : Field C B} (h : Overlays apply f) (base : C) (b : B) :
    f.read (apply (apply base b) b) = f.read (apply base b) := by
  rw [h, h]
  cases f.given b <;> rfl

theorem apply_idempotent (hfields : ∀ f ∈ fields, Overlays apply f) (hsep : Separates fields)
    (base : C) (b : B) : apply (apply base b) b = apply base b :=
  hsep _ _ fun f hf => (hfields f hf).again base b

end VaultplaneGateway.FieldOverlays
