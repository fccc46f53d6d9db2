import Mathlib.Data.Rat.Defs
import Mathlib.Data.List.Basic
import Mathlib.Data.Fintype.Basic

/-!
# Bytes, header values, JSON trees and clocks

Everything the gateway reads off the wire is a byte list. Strings are Lean
strings; `asBytes` is their UTF-8 encoding. A header map is the list of its
entries in order, names already in lower case as the HTTP layer stores them,
and a header value is raw bytes until `toStr` accepts it.

Functions of other crates are inputs of the development and are never given a
body here: the SHA-256 digest, the two JSON readers and the RFC 3339 reader.
They are collected in `Externals`. Every hypothesis on them is stated where it
is used.
-/
namespace VaultplaneGateway.WireFormats

abbrev Bytes := List UInt8

/-- `str::as_bytes`. -/
def asBytes (s : String) : Bytes := s.toUTF8.data.toList

theorem asBytes_injective : Function.Injective asBytes := by
  intro s t h
  apply String.toByteArray_inj.mp
  have hd : s.toUTF8.data = t.toUTF8.data := Array.toList_inj.mp h
  exact ByteArray.ext hd

/-- One of the sixteen lower-case digits `hex::encode` prints. -/
def hexDigit (n : Fin 16) : Char :=
  ['0', '1', '2', '3', '4', '5', '6', '7', '8', '9', 'a', 'b', 'c', 'd', 'e', 'f'].get n

theorem hexDigit_injective : Function.Injective hexDigit := by decide

def hexByte (b : UInt8) : Char × Char :=
  (hexDigit ⟨b.toNat / 16, by have := b.toNat_lt; omega⟩,
    hexDigit ⟨b.toNat % 16, Nat.mod_lt _ (by decide)⟩)

theorem hexByte_injective : Function.Injective hexByte := by
  intro a b h
  have hh := Fin.mk.inj_iff.mp (hexDigit_injective (congrArg Prod.fst h))
  have hl := Fin.mk.inj_iff.mp (hexDigit_injective (congrArg Prod.snd h))
  apply UInt8.toNat_inj.mp
  omega

/-- `hex::encode`. -/
def hexEncode (b : Bytes) : String :=
  String.ofList (b.flatMap fun x => [(hexByte x).1, (hexByte x).2])

theorem hexEncode_injective : Function.Injective hexEncode := by
  intro a b h
  have hl := String.ofList_injective h
  clear h
  induction a generalizing b with
  | nil =>
      cases b with
      | nil => rfl
      | cons y ys => simp at hl
  | cons x xs ih =>
      cases b with
      | nil => simp at hl
      | cons y ys =>
          simp only [List.flatMap_cons, List.cons_append, List.nil_append,
            List.cons.injEq] at hl
          have hx : x = y := hexByte_injective (Prod.ext hl.1 hl.2.1)
          rw [hx, ih hl.2.2]

/-- Header names are lower case; `get` returns the first value of a name. -/
abbrev HeaderMap := List (String × Bytes)

def HeaderMap.get (headers : HeaderMap) (name : String) : Option Bytes :=
  (headers.find? fun e => e.1 == name).map Prod.snd

/-- The bytes `HeaderValue::to_str` accepts: visible ASCII, space and tab. -/
def visibleAscii (b : UInt8) : Bool := (32 ≤ b && b < 127) || b == 9

/-- `HeaderValue::to_str`: a value with any other byte is not a string, even
though the HTTP layer delivers it. -/
def toStr (value : Bytes) : Option String :=
  if value.all visibleAscii then
    some (String.ofList (value.map fun b => Char.ofNat b.toNat))
  else none

theorem asBytes_ofList (l : List Char) :
    asBytes (String.ofList l) = l.flatMap String.utf8EncodeChar := by
  change (String.ofList l).toByteArray.data.toList = _
  rw [String.toByteArray_ofList]
  simp [List.utf8Encode]

theorem utf8EncodeChar_ascii :
    ∀ n < 128, String.utf8EncodeChar (Char.ofNat n) = [UInt8.ofNat n] := by
  decide

theorem visibleAscii_lt {b : UInt8} (h : visibleAscii b = true) : b.toNat < 128 := by
  simp only [visibleAscii, Bool.or_eq_true, Bool.and_eq_true, decide_eq_true_eq,
    beq_iff_eq] at h
  rcases h with ⟨-, h⟩ | h
  · exact (UInt8.lt_iff_toNat_lt.mp h).trans (by decide)
  · rw [h]
    decide

/-- A header value that is a string consists of exactly that string's bytes. -/
theorem asBytes_of_toStr {value : Bytes} {s : String} (h : toStr value = some s) :
    asBytes s = value := by
  unfold toStr at h
  split_ifs at h with hv
  rw [← Option.some.inj h, asBytes_ofList]
  clear h
  induction value with
  | nil => rfl
  | cons b bs ih =>
      simp only [List.all_cons, Bool.and_eq_true] at hv
      simp only [List.map_cons, List.flatMap_cons,
        utf8EncodeChar_ascii b.toNat (visibleAscii_lt hv.1), ih hv.2]
      simp

/-- `str::strip_prefix`. -/
def stripPrefix (s pre : String) : Option String :=
  if pre.toList.isPrefixOf s.toList then
    some (String.ofList (s.toList.drop pre.toList.length))
  else none

theorem stripPrefix_eq_none {s pre : String} (h : ¬ pre.toList <+: s.toList) :
    stripPrefix s pre = none := by
  rw [stripPrefix, if_neg]
  rwa [List.isPrefixOf_iff_prefix]

theorem stripPrefix_append (pre s : String) : stripPrefix (pre ++ s) pre = some s := by
  simp [stripPrefix]

/-- The three number representations of the JSON reader. Only a nonnegative
integer that fits 64 bits answers `as_u64`. -/
inductive Number where
  | unsigned (n : UInt64)
  | negative (i : ℤ)
  | float (text : String)
  deriving DecidableEq, Repr

/-- A JSON tree with the members of an object in source order, repeated names
kept. -/
inductive Json where
  | null
  | bool (b : Bool)
  | number (n : Number)
  | string (s : String)
  | array (items : List Json)
  | object (members : List (String × Json))

/-- `Value::get` with a name: the last of repeated members is the one the
reader's map retains. -/
def Json.get : Json → String → Option Json
  | .object members, name => (members.reverse.find? fun m => m.1 == name).map Prod.snd
  | _, _ => none

/-- `Value::as_u64`. -/
def Json.asU64 : Json → Option UInt64
  | .number (.unsigned n) => some n
  | _ => none

/-- `Value::as_str`. -/
def Json.asStr : Json → Option String
  | .string s => some s
  | _ => none

/-- A chain of `get` calls, one for each name. -/
def Json.path (v : Json) : List String → Option Json
  | [] => some v
  | name :: names => (v.get name).bind fun w => w.path names

/-- The escapes of the JSON writer. -/
def escapeChar (c : Char) : List Char :=
  if c = '"' then ['\\', '"']
  else if c = '\\' then ['\\', '\\']
  else if c.toNat = 8 then ['\\', 'b']
  else if c.toNat = 9 then ['\\', 't']
  else if c.toNat = 10 then ['\\', 'n']
  else if c.toNat = 12 then ['\\', 'f']
  else if c.toNat = 13 then ['\\', 'r']
  else if c.toNat < 32 then
    ['\\', 'u', '0', '0', (hexByte c.toNat.toUInt8).1, (hexByte c.toNat.toUInt8).2]
  else [c]

def quoted (s : String) : String := String.ofList ('"' :: s.toList.flatMap escapeChar ++ ['"'])

def Number.text : Number → String
  | .unsigned n => String.ofList (Nat.toDigits 10 n.toNat)
  | .negative i => toString i
  | .float text => text

/-- Texts with commas between them. -/
def commas : List String → String
  | [] => ""
  | [text] => text
  | text :: texts => text ++ "," ++ commas texts

mutual

/-- `Value::to_string`: the compact text, with the members in the order they stand. -/
def Json.compact : Json → String
  | .null => "null"
  | .bool b => if b then "true" else "false"
  | .number n => n.text
  | .string s => quoted s
  | .array items => "[" ++ commas (compactItems items) ++ "]"
  | .object members => "\x7b" ++ commas (compactMembers members) ++ "\x7d"

def Json.compactItems : List Json → List String
  | [] => []
  | v :: items => v.compact :: compactItems items

def Json.compactMembers : List (String × Json) → List String
  | [] => []
  | (name, v) :: members => (quoted name ++ ":" ++ v.compact) :: compactMembers members

end

/-- One reading of both clocks: UTC nanoseconds since the Unix epoch and seconds
of the monotonic clock. Wall-clock instants before 1970 are not represented. -/
structure Clock where
  utc : ℕ
  mono : ℚ
  deriving DecidableEq, Repr

/-- The types whose derived decoder runs on a body. -/
inductive Decoded where
  | chatMeta
  | embeddingsMeta
  | openAiRequest
  | anthropicResponse
  | createKeyRequest
  deriving DecidableEq, Repr

/-- Functions the gateway calls in other crates. `fromSlice` reads a
`serde_json::Value`. `fromSliceAs` is the tree of a body as the derived decoder of a type
meets it: members that the type does not declare are skipped there without a look at the
range of a number, an escape or the depth, so that such a body may have a tree and no
value. `parseRfc3339` answers in nanoseconds relative to the epoch and may be negative. -/
structure Externals where
  sha256 : Bytes → Bytes
  fromSlice : Bytes → Option Json
  fromSliceAs : Decoded → Bytes → Option Json
  parseRfc3339 : String → Option ℤ

/-- Where the value reader takes a text, a derived decoder meets the same tree. -/
def Externals.Agrees (lib : Externals) : Prop :=
  ∀ type b v, lib.fromSlice b = some v → lib.fromSliceAs type b = some v

/-- The JSON writer beside the readers: the compact text of a value. -/
structure Serde extends Externals where
  toText : Json → String

end VaultplaneGateway.WireFormats
