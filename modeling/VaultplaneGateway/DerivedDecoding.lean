import VaultplaneGateway.ProxyPipeline

/-!
# Derived struct decoders

How a derived decoder takes the fields of a struct out of a JSON value. A struct
is given by named members or by a sequence in declaration order. An absent field
is an error, a default or `None`, depending on how the field is declared; a null is
a value like any other, and only an optional field accepts it. A name that occurs
twice is an error, and members the struct does not declare are skipped.

An enumeration is given by the name of a variant. The reader also accepts a variant
as an object with one member, which no writer of this system produces; that form is
left out.
-/
namespace VaultplaneGateway.DerivedDecoding
open WireFormats ProxyPipeline

variable {τ : Type}

inductive Fields where
  | named (members : List (String × Json))
  | sequence (items : List Json)

/-- The fields of a struct with `arity` fields; a longer sequence is refused. -/
def fieldsOf (arity : ℕ) : Json → Option Fields
  | .object members => some (.named members)
  | .array items => if items.length ≤ arity then some (.sequence items) else none
  | _ => none

namespace Fields

/-- The value given for a field, if any. A repeated name fails the decoding. -/
def value (f : Fields) (index : ℕ) (name : String) : Option (Option Json) :=
  match f with
  | .named members => structField members name
  | .sequence items => some items[index]?

def required (f : Fields) (index : ℕ) (name : String) (read : Json → Option τ) : Option τ := do
  (← f.value index name).bind read

/-- A field with a default for the case that it is absent. -/
def defaulted (f : Fields) (index : ℕ) (name : String) (default : τ) (read : Json → Option τ) :
    Option τ := do
  match ← f.value index name with
  | some v => read v
  | none => some default

/-- An optional field without a declared default. As a member it may be absent; a
sequence that is too short is an error. -/
def optional (f : Fields) (index : ℕ) (name : String) (read : Json → Option τ) :
    Option (Option τ) := do
  match ← f.value index name, f with
  | some .null, _ => some none
  | some v, _ => (read v).map some
  | none, .named _ => some none
  | none, .sequence _ => none

end Fields

/-- An optional value: null stands for `None`. -/
def nullable (read : Json → Option τ) : Json → Option (Option τ)
  | .null => some none
  | v => (read v).map some

/-- A vector. -/
def vec (read : Json → Option τ) : Json → Option (List τ)
  | .array items => items.mapM read
  | _ => none

def u16 (v : Json) : Option UInt16 := do
  let n ← v.asU64
  if n.toNat < 2 ^ 16 then some n.toUInt16 else none

def u32 (v : Json) : Option UInt32 := do
  let n ← v.asU64
  if n.toNat < 2 ^ 32 then some n.toUInt32 else none

/-- A count of 32 bits as the JSON number that denotes it. -/
def count (n : UInt32) : Json := .number (.unsigned n.toUInt64)

@[simp] theorem asU64_count (n : UInt32) : (count n).asU64 = some n.toUInt64 := rfl

@[simp] theorem u32_count (n : UInt32) : u32 (count n) = some n := by
  simpa [u32] using n.toNat_lt

end VaultplaneGateway.DerivedDecoding
