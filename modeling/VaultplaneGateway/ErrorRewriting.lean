import VaultplaneGateway.ErrorEnvelopes

/-!
# Rewriting an upstream error

The body of an upstream error is arbitrary. Its rewriting takes the message of an error
envelope, or the beginning of the text, or a fixed text, and returns for every body but
those whose text is to be cut inside a character.
-/
namespace VaultplaneGateway.ErrorRewriting
open WireFormats StreamUsage ProviderConnectors ErrorEnvelopes

/-- A character of the text ends at byte `n`. -/
def EndsAt (n : ℕ) (text : String) : Prop :=
  ∃ start rest : String, text = start ++ rest ∧ start.utf8ByteSize = n

/-- What the message of the rewritten error is to be: that of the upstream, or else at
most 512 bytes of the text, or else the fixed text. -/
inductive MessageFor (lib : Externals) (body : Bytes) (message : String) : Prop
  | upstream (v : Json) (parses : lib.fromSlice body = some v)
      (stands : v.path ["error", "message"] = some (.string message))
  | text (other : ¬ IsEnvelope lib body) (rest : String)
      (utf8 : fromUtf8 body = some (message ++ rest)) (short : message.utf8ByteSize ≤ 512)
  | fixed (other : ¬ IsEnvelope lib body) (binary : fromUtf8 body = none)
      (stands : message = "upstream returned a non-JSON error")

/-- The bytes are a JSON object with the one field `error` and such a message in it. -/
def Rewrites (lib : Serde) (body out : Bytes) : Prop :=
  ∃ error message, out = asBytes (lib.toText (.object [("error", error)])) ∧
    error.get "message" = some (.string message) ∧ MessageFor lib.toExternals body message

theorem utf8ByteSize_cons (c : Char) (cs : List Char) :
    (String.ofList (c :: cs)).utf8ByteSize = c.utf8Size + (String.ofList cs).utf8ByteSize := by
  rw [String.ofList_cons, String.utf8ByteSize_append, String.utf8ByteSize_singleton]

/-- Only no characters have no bytes. -/
theorem sliceTo_zero_iff {cs start : List Char} :
    sliceTo 0 cs = some start ↔
      (∃ rest, cs = start ++ rest) ∧ (String.ofList start).utf8ByteSize = 0 := by
  simp only [sliceTo, Option.some.injEq]
  constructor
  · rintro rfl
    exact ⟨⟨cs, rfl⟩, rfl⟩
  · rintro ⟨-, hsize⟩
    cases start with
    | nil => rfl
    | cons c start =>
        rw [utf8ByteSize_cons] at hsize
        have := c.utf8Size_pos
        omega

/-- Cutting gives the characters up to a place where one ends. -/
theorem sliceTo_eq_some_iff {n : ℕ} {cs start : List Char} :
    sliceTo n cs = some start ↔
      (∃ rest, cs = start ++ rest) ∧ (String.ofList start).utf8ByteSize = n := by
  induction cs generalizing n start with
  | nil =>
      cases n with
      | zero => exact sliceTo_zero_iff
      | succ n =>
          simp only [sliceTo, reduceCtorEq, false_iff, not_and]
          rintro ⟨rest, hrest⟩
          rw [(List.append_eq_nil_iff.mp hrest.symm).1]
          exact (Nat.succ_ne_zero n).symm
  | cons c cs ih =>
      have hpos := c.utf8Size_pos
      cases n with
      | zero => exact sliceTo_zero_iff
      | succ n =>
          rw [sliceTo]
          cases start with
          | nil =>
              split_ifs <;> simp
          | cons d start =>
              rw [utf8ByteSize_cons]
              split_ifs with hfits
              · simp only [Option.map_eq_some_iff, List.cons.injEq, List.cons_append]
                constructor
                · rintro ⟨start', hslice, rfl, rfl⟩
                  obtain ⟨⟨rest, hrest⟩, hsize⟩ := ih.mp hslice
                  exact ⟨⟨rest, rfl, hrest⟩, by omega⟩
                · rintro ⟨⟨rest, rfl, hrest⟩, hsize⟩
                  exact ⟨start, ih.mpr ⟨⟨rest, hrest⟩, by omega⟩, rfl, rfl⟩
              · simp only [List.cons_append, List.cons.injEq, false_iff, not_and]
                rintro ⟨rest, rfl, -⟩
                omega

theorem sliceTo_eq_none_iff (n : ℕ) (text : String) :
    sliceTo n text.toList = none ↔ ¬ EndsAt n text := by
  rw [Option.eq_none_iff_forall_ne_some]
  constructor
  · rintro hnone ⟨start, rest, rfl, hsize⟩
    refine hnone start.toList (sliceTo_eq_some_iff.mpr ⟨⟨rest.toList, ?_⟩, ?_⟩)
    · rw [String.toList_append]
    · rwa [String.ofList_toList]
  · rintro hends start hslice
    obtain ⟨⟨rest, hrest⟩, hsize⟩ := sliceTo_eq_some_iff.mp hslice
    refine hends ⟨String.ofList start, String.ofList rest, ?_, hsize⟩
    apply String.toList_inj.mp
    rw [hrest, String.toList_append, String.toList_ofList, String.toList_ofList]

section
variable {lib : Serde} {body : Bytes}

theorem parsedError_eq_some {lib : Externals} {message : String} {kind : Option String}
    (h : parsedError lib body = some (message, kind)) :
    ∃ v, lib.fromSlice body = some v ∧ v.path ["error", "message"] = some (.string message) := by
  unfold parsedError at h
  cases hvalue : lib.fromSlice body with
  | none => simp [hvalue] at h
  | some v =>
      cases herror : v.get "error" with
      | none => simp [hvalue, herror] at h
      | some error =>
          cases hmessage : error.get "message" with
          | none => simp [hvalue, herror, hmessage] at h
          | some m =>
              cases m with
              | string s =>
                  simp only [hvalue, herror, hmessage, Json.asStr, Option.pure_def,
                    Option.bind_eq_bind, Option.bind_some, Option.some.injEq, Prod.mk.injEq] at h
                  refine ⟨v, rfl, ?_⟩
                  simp [Json.path, herror, hmessage, h.1]
              | _ => simp [hvalue, herror, hmessage, Json.asStr] at h

/-- The text is taken whole or cut where a character ends. -/
theorem messageFor_of_fallback {lib : Externals} {message : String}
    (hother : ¬ IsEnvelope lib body) (h : fallbackMessage body = some message) :
    MessageFor lib body message := by
  unfold fallbackMessage at h
  cases hutf8 : fromUtf8 body with
  | none =>
      have hshort : ¬ 512 < "upstream returned a non-JSON error".utf8ByteSize := by decide +kernel
      rw [hutf8, Option.getD_none, if_neg hshort] at h
      exact .fixed hother hutf8 (Option.some.inj h).symm
  | some text =>
      simp only [hutf8, Option.getD_some] at h
      split_ifs at h with hlong
      · obtain ⟨start, hslice, rfl⟩ := Option.map_eq_some_iff.mp h
        obtain ⟨⟨rest, hrest⟩, hsize⟩ := sliceTo_eq_some_iff.mp hslice
        refine .text hother (String.ofList rest) ?_ hsize.le
        rw [hutf8, ← String.ofList_append, ← hrest, String.ofList_toList]
      · obtain rfl := Option.some.inj h
        exact .text hother "" (by rw [hutf8, String.append_empty]) (Nat.not_lt.mp hlong)

theorem rewrites_of_errorEnvelope {v : Json} (h : errorEnvelope lib.toExternals body = some v) :
    Rewrites lib body (asBytes (lib.toText v)) := by
  unfold errorEnvelope at h
  cases hparsed : parsedError lib.toExternals body with
  | some parsed =>
      obtain ⟨message, kind⟩ := parsed
      rw [hparsed] at h
      obtain rfl := Option.some.inj h
      obtain ⟨v, hv, hpath⟩ := parsedError_eq_some hparsed
      refine ⟨_, message, rfl, ?_, .upstream v hv hpath⟩
      cases kind <;> simp [Json.get]
  | none =>
      rw [hparsed] at h
      obtain ⟨message, hmessage, rfl⟩ := Option.map_eq_some_iff.mp h
      have hother : ¬ IsEnvelope lib.toExternals body := by
        rw [← parsedError_isSome_iff, hparsed]
        simp
      exact ⟨_, message, rfl, by simp [Json.get], messageFor_of_fallback hother hmessage⟩

/-- For every body: the rewriting returns, with the object and the message that it is to
have, exactly if the body has the error envelope or its text need not be cut inside a
character. -/
theorem toOpenaiError_returns_iff (lib : Serde) (body : Bytes) :
    (∃ out, toOpenaiError lib body = some out ∧ Rewrites lib body out) ↔
      IsEnvelope lib.toExternals body ∨
        ∀ text, fromUtf8 body = some text → 512 < text.utf8ByteSize → EndsAt 512 text := by
  have hcuts : CutsCharacter lib.toExternals body ↔ ¬ (IsEnvelope lib.toExternals body ∨
      ∀ text, fromUtf8 body = some text → 512 < text.utf8ByteSize → EndsAt 512 text) := by
    unfold CutsCharacter
    simp only [sliceTo_eq_none_iff]
    push Not
    rfl
  rw [← not_iff_not, ← hcuts, ← errorEnvelope_eq_none_iff, toOpenaiError]
  cases henvelope : errorEnvelope lib.toExternals body with
  | none => simp
  | some v => simpa using rewrites_of_errorEnvelope henvelope

end

theorem utf8ByteSize_replicate (n : ℕ) (c : Char) :
    (String.ofList (List.replicate n c)).utf8ByteSize = n * c.utf8Size := by
  induction n with
  | zero => simp
  | succ n ih => rw [List.replicate_succ, utf8ByteSize_cons, ih, Nat.succ_mul, Nat.add_comm]

/-- 513 bytes; the last letter takes the 512th byte and the one after it. -/
def accented : String := String.ofList ('a' :: List.replicate 256 'é')

/-- Nothing that is read here is JSON. -/
def noJson : Serde where
  sha256 := id
  fromSlice _ := none
  fromSliceAs _ _ := none
  parseRfc3339 _ := none
  toText := Json.compact

theorem noJson_other (body : Bytes) : ¬ IsEnvelope noJson.toExternals body := by
  rintro ⟨v, message, hv, -⟩
  cases hv

theorem accented_cut : sliceTo 512 ('a' :: List.replicate 256 'é') = none := by decide +kernel

theorem accented_long : 512 < (String.ofList ('a' :: List.replicate 256 'é')).utf8ByteSize := by
  rw [utf8ByteSize_cons, utf8ByteSize_replicate]
  decide

theorem cuts_accented : CutsCharacter noJson.toExternals (asBytes accented) := by
  refine ⟨noJson_other _, accented, EventStreams.fromUtf8_asBytes accented, accented_long, ?_⟩
  rw [show accented.toList = _ from String.toList_ofList]
  exact accented_cut

theorem accented_panics :
    toOpenaiError noJson (asBytes accented) = none ∧
      ¬ ∃ out, toOpenaiError noJson (asBytes accented) = some out ∧
        Rewrites noJson (asBytes accented) out := by
  have hnone : toOpenaiError noJson (asBytes accented) = none := by
    rw [toOpenaiError, (errorEnvelope_eq_none_iff _ _).mpr cuts_accented, Option.map_none]
  refine ⟨hnone, ?_⟩
  rintro ⟨out, hout, -⟩
  exact Option.some_ne_none out (hout.symm.trans hnone)

end VaultplaneGateway.ErrorRewriting
