import VaultplaneGateway.BedrockSigning
import Mathlib.Data.List.TakeWhile

/-!
# Encoded path segments

What a percent-encoded segment may look like and what it stands for, as the grammar of
URIs has it: characters that need no escape, and escapes of two digits each. A decoder
reads an escape as one byte and goes on behind it, so it is in step with the encoder
again after every byte of the input.

A segment has no delimiter of a URI in it, so a path that is put together from segments
falls apart into the same ones.
-/
namespace VaultplaneGateway.PathEncoding
open WireFormats SignatureV4 BedrockSigning

/-- `ALPHA / DIGIT / "-" / "." / "_" / "~"`. -/
def unreservedChar (c : Char) : Bool := c.isAlphanum || c == '-' || c == '.' || c == '_' || c == '~'

/-- A digit of an escape in its normal form. -/
def upperHexDigit (c : Char) : Bool := c.isDigit || ('A' ≤ c && c ≤ 'F')

/-- Texts of unreserved characters and escapes. -/
inductive Encoded : List Char → Prop
  | nil : Encoded []
  | plain {c : Char} {cs : List Char} (hc : unreservedChar c = true) (hcs : Encoded cs) :
      Encoded (c :: cs)
  | escape {h l : Char} {cs : List Char} (hh : upperHexDigit h = true) (hl : upperHexDigit l = true)
      (hcs : Encoded cs) : Encoded ('%' :: h :: l :: cs)

/-- The value of a digit of an escape; small letters are read too. -/
def hexValue (b : UInt8) : Option ℕ :=
  if 48 ≤ b ∧ b ≤ 57 then some (b.toNat - 48)
  else if 65 ≤ b ∧ b ≤ 70 then some (b.toNat - 55)
  else if 97 ≤ b ∧ b ≤ 102 then some (b.toNat - 87)
  else none

/-- The bytes that a text stands for. A percent sign without two digits stands for itself. -/
def percentDecode : Bytes → Bytes
  | a :: h :: l :: rest =>
    match hexValue h, hexValue l with
    | some x, some y =>
      if a = 37 then UInt8.ofNat (16 * x + y) :: percentDecode rest
      else a :: percentDecode (h :: l :: rest)
    | _, _ => a :: percentDecode (h :: l :: rest)
  | a :: rest => a :: percentDecode rest
  | [] => []

theorem percentDecode_plain {a : UInt8} (h : a ≠ 37) (rest : Bytes) :
    percentDecode (a :: rest) = a :: percentDecode rest := by
  match rest with
  | [] => rfl
  | [_] => rfl
  | _ :: _ :: _ =>
    rw [percentDecode]
    split
    · rw [if_neg h]
    · rfl

theorem percentDecode_escape {h l : UInt8} {x y : ℕ} (hh : hexValue h = some x)
    (hl : hexValue l = some y) (rest : Bytes) :
    percentDecode (37 :: h :: l :: rest) = UInt8.ofNat (16 * x + y) :: percentDecode rest := by
  rw [percentDecode, hh, hl]
  exact if_pos rfl

theorem escapeDigit_spec :
    ∀ n < 16, upperHexDigit (escapeDigit n) = true ∧
      ∃ b, String.utf8EncodeChar (escapeDigit n) = [b] ∧ hexValue b = some n := by
  intro n hn
  have hall : (List.range 16).all (fun n => upperHexDigit (escapeDigit n) &&
      ((String.utf8EncodeChar (escapeDigit n)).length == 1 &&
        hexValue ((String.utf8EncodeChar (escapeDigit n)).headD 0) == some n)) = true := by
    decide +kernel
  have hdigit := List.all_eq_true.mp hall n (List.mem_range.mpr hn)
  rw [Bool.and_eq_true, Bool.and_eq_true, beq_iff_eq, beq_iff_eq, List.length_eq_one_iff] at hdigit
  obtain ⟨hupper, ⟨b, hb⟩, hvalue⟩ := hdigit
  rw [hb] at hvalue
  exact ⟨hupper, b, hb, hvalue⟩

theorem unreserved_spec {b : UInt8} (h : unreserved b = true) :
    unreservedChar (Char.ofNat b.toNat) = true ∧
      String.utf8EncodeChar (Char.ofNat b.toNat) = [b] ∧ b ≠ 37 := by
  have hall : (List.range 256).all (fun n => !unreserved (UInt8.ofNat n) ||
      (unreservedChar (Char.ofNat n) && n < 128 && n != 37)) = true := by
    decide +kernel
  have hb := List.all_eq_true.mp hall b.toNat (List.mem_range.mpr b.toNat_lt)
  rw [UInt8.ofNat_toNat, h, Bool.not_true, Bool.false_or, Bool.and_eq_true, Bool.and_eq_true,
    decide_eq_true_eq, bne_iff_ne] at hb
  obtain ⟨⟨hchar, hascii⟩, hne⟩ := hb
  refine ⟨hchar, ?_, ?_⟩
  · rw [utf8EncodeChar_ascii b.toNat hascii, UInt8.ofNat_toNat]
  · rintro rfl
    exact hne rfl

/-- A byte is read back as one byte, and what follows it as if it stood alone. -/
theorem percentDecode_encodeByte (b : UInt8) (rest : Bytes) :
    percentDecode ((encodeByte b).flatMap String.utf8EncodeChar ++ rest) =
      b :: percentDecode rest := by
  unfold encodeByte
  split_ifs with h
  · obtain ⟨-, hbyte, hne⟩ := unreserved_spec h
    rw [List.flatMap_singleton, hbyte]
    exact percentDecode_plain hne rest
  · have hlt := b.toNat_lt
    obtain ⟨-, high, hhigh, hx⟩ := escapeDigit_spec (b.toNat / 16) (by omega)
    obtain ⟨-, low, hlow, hy⟩ := escapeDigit_spec (b.toNat % 16) (by omega)
    have hsign : String.utf8EncodeChar '%' = [37] := by decide
    rw [List.flatMap_cons, List.flatMap_cons, List.flatMap_singleton, hsign, hhigh, hlow]
    refine (percentDecode_escape hx hy rest).trans ?_
    rw [Nat.div_add_mod, UInt8.ofNat_toNat]

theorem percentDecode_encodeBytes (bs : Bytes) :
    percentDecode ((bs.flatMap encodeByte).flatMap String.utf8EncodeChar) = bs := by
  induction bs with
  | nil => rfl
  | cons b bs ih => rw [List.flatMap_cons, List.flatMap_append, percentDecode_encodeByte, ih]

theorem percentDecode_uriEncodeSegment (s : String) :
    percentDecode (asBytes (uriEncodeSegment s)) = asBytes s := by
  rw [uriEncodeSegment, asBytes_ofList, percentDecode_encodeBytes]

theorem encoded_encodeBytes (bs : Bytes) : Encoded (bs.flatMap encodeByte) := by
  induction bs with
  | nil => exact .nil
  | cons b bs ih =>
      rw [List.flatMap_cons]
      unfold encodeByte
      split_ifs with h
      · exact .plain (unreserved_spec h).1 ih
      · have hlt := b.toNat_lt
        exact .escape (escapeDigit_spec (b.toNat / 16) (by omega)).1
          (escapeDigit_spec (b.toNat % 16) (by omega)).1 ih

theorem uriEncodeSegment_injective : Function.Injective uriEncodeSegment := by
  intro s t h
  have hbytes := congrArg (fun text => percentDecode (asBytes text)) h
  simp only [percentDecode_uriEncodeSegment] at hbytes
  exact asBytes_injective hbytes

theorem encoded_uriEncodeSegment (s : String) : Encoded (uriEncodeSegment s).toList := by
  rw [uriEncodeSegment, String.toList_ofList]
  exact encoded_encodeBytes (asBytes s)

theorem uriEncodeSegment_ne_empty {s : String} (h : s ≠ "") : uriEncodeSegment s ≠ "" := by
  intro hempty
  exact h (uriEncodeSegment_injective hempty)

theorem unreservedChar_of_upperHexDigit {c : Char} (h : upperHexDigit c = true) :
    unreservedChar c = true := by
  unfold upperHexDigit at h
  unfold unreservedChar Char.isAlphanum Char.isAlpha Char.isUpper
  rw [Bool.or_eq_true, Bool.and_eq_true, decide_eq_true_eq, decide_eq_true_eq] at h
  rcases h with hdigit | ⟨hlow, hhigh⟩
  · rw [hdigit, Bool.or_true]
    rfl
  · have hupper : c.val ≥ 'A'.val ∧ c.val ≤ 'Z'.val := 
      ⟨hlow, UInt32.le_trans hhigh (by decide)⟩
    rw [decide_eq_true hupper]
    rfl

theorem Encoded.letter {c : Char} {cs : List Char} (h : Encoded cs) (hc : c ∈ cs) :
    unreservedChar c = true ∨ c = '%' := by
  induction h with
  | nil => exact absurd hc List.not_mem_nil
  | plain hd _ ih =>
      rcases List.mem_cons.mp hc with rfl | hc
      · exact .inl hd
      · exact ih hc
  | escape hh hl _ ih =>
      rcases List.mem_cons.mp hc with rfl | hc
      · exact .inr rfl
      · rcases List.mem_cons.mp hc with rfl | hc
        · exact .inl (unreservedChar_of_upperHexDigit hh)
        · rcases List.mem_cons.mp hc with rfl | hc
          · exact .inl (unreservedChar_of_upperHexDigit hl)
          · exact ih hc

/-- What stands before the first `c`, and what stands behind it if there is one. -/
def splitFirst (c : Char) (cs : List Char) : List Char × Option (List Char) :=
  (cs.takeWhile (· != c), (cs.dropWhile (· != c)).tail?)

/-- Path, query and fragment of what follows the authority in a URI. -/
def uriParts (text : String) : List Char × Option (List Char) × Option (List Char) :=
  let (rest, fragment) := splitFirst '#' text.toList
  let (path, query) := splitFirst '?' rest
  (path, query, fragment)

/-- The segments of a path that begins with a slash. -/
def segments : List Char → Option (List String)
  | '/' :: cs => some ((cs.splitOn '/').map String.ofList)
  | _ => none

theorem splitFirst_of_not_mem {c : Char} {cs : List Char} (h : c ∉ cs) :
    splitFirst c cs = (cs, none) := by
  have hne : ∀ d ∈ cs, (d != c) = true := by
    intro d hd
    rw [bne_iff_ne]
    rintro rfl
    exact h hd
  rw [splitFirst, List.takeWhile_eq_self_iff.mpr hne, List.dropWhile_eq_nil_iff.mpr hne]
  rfl

theorem toList_invokePath (model : String) :
    (invokePath model).toList = '/' :: (['/'].intercalate
      ["model".toList, (uriEncodeSegment model).toList, "invoke".toList]) := by
  simp [invokePath, List.intercalate]

theorem not_mem_uriEncodeSegment {c : Char} (hchar : unreservedChar c = false) (hne : c ≠ '%')
    (s : String) : c ∉ (uriEncodeSegment s).toList := by
  intro hmem
  rcases (encoded_uriEncodeSegment s).letter hmem with h | h
  · rw [hchar] at h
    exact absurd h (by decide)
  · exact hne h

theorem fixed_letters :
    ("/model/".toList ++ "/invoke".toList).all (fun c => unreservedChar c || c == '/') = true := by
  decide

theorem not_mem_invokePath {c : Char} (hchar : unreservedChar c = false) (hne : c ≠ '%')
    (hslash : c ≠ '/') (model : String) : c ∉ (invokePath model).toList := by
  have hfixed : c ∉ "/model/".toList ++ "/invoke".toList := by
    intro hmem
    have hletter := List.all_eq_true.mp fixed_letters c hmem
    rw [hchar, Bool.false_or, beq_iff_eq] at hletter
    exact hslash hletter
  rw [List.mem_append, not_or] at hfixed
  rw [invokePath, String.toList_append, String.toList_append, List.mem_append, List.mem_append]
  rintro ((hmem | hmem) | hmem)
  · exact hfixed.1 hmem
  · exact not_mem_uriEncodeSegment hchar hne model hmem
  · exact hfixed.2 hmem

theorem segments_invokePath (model : String) :
    segments (invokePath model).toList = some ["model", uriEncodeSegment model, "invoke"] := by
  rw [toList_invokePath, segments, List.splitOn_intercalate]
  · rw [List.map_cons, List.map_cons, List.map_singleton, String.ofList_toList,
      String.ofList_toList, String.ofList_toList]
  · intro l hl
    have hslash := not_mem_uriEncodeSegment (c := '/') (by decide) (by decide) model
    simp only [List.mem_cons, List.not_mem_nil, or_false] at hl
    rcases hl with rfl | rfl | rfl
    · decide
    · exact hslash
    · decide
  · exact List.cons_ne_nil _ _

/-- A segment is encoded without loss and has no delimiter in it, so the path of a model has three
segments that are not empty, and nothing but them. -/
theorem path_encoding_is_lossless_and_inert :
    (∀ s : String, Encoded (uriEncodeSegment s).toList ∧
        percentDecode (asBytes (uriEncodeSegment s)) = asBytes s) ∧
      Function.Injective uriEncodeSegment ∧
      ∀ model : String, model ≠ "" →
        uriParts (invokePath model) = ((invokePath model).toList, none, none) ∧
          ∃ segs, segments (invokePath model).toList = some segs ∧
            segs = ["model", uriEncodeSegment model, "invoke"] ∧ ∀ seg ∈ segs, seg ≠ "" := by
  refine ⟨fun s => ⟨encoded_uriEncodeSegment s, percentDecode_uriEncodeSegment s⟩,
    uriEncodeSegment_injective, ?_⟩
  intro model hmodel
  refine ⟨?_, _, segments_invokePath model, rfl, ?_⟩
  · rw [uriParts, splitFirst_of_not_mem
      (not_mem_invokePath (by decide) (by decide) (by decide) model)]
    dsimp only
    rw [splitFirst_of_not_mem (not_mem_invokePath (by decide) (by decide) (by decide) model)]
  · intro seg hseg
    simp only [List.mem_cons, List.not_mem_nil, or_false] at hseg
    rcases hseg with rfl | rfl | rfl
    · decide
    · exact uriEncodeSegment_ne_empty hmodel
    · decide

/-- An id that is full of delimiters. -/
theorem delimiters_are_inert :
    "../a?b#c" ≠ "" ∧ uriParts (invokePath "../a?b#c") =
      ("/model/..%2Fa%3Fb%23c/invoke".toList, none, none) := by
  have hpath : invokePath "../a?b#c" = "/model/..%2Fa%3Fb%23c/invoke" := by decide +kernel
  refine ⟨by decide, ?_⟩
  rw [(path_encoding_is_lossless_and_inert.2.2 "../a?b#c" (by decide)).1, hpath]

end VaultplaneGateway.PathEncoding
