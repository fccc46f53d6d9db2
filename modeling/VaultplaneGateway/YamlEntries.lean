import VaultplaneGateway.ConfigDocuments
import VaultplaneGateway.JsonReading

/-!
# Entries of a YAML list

The part of YAML in which a record is written by hand: an entry of a block sequence whose
members are double-quoted scalars, lists of these, plain scalars, or a block of plain
scalars one level deeper.

Between double quotes a backslash starts an escape, and a text is what is left when each
escape is replaced by its character. So a text stands for itself exactly if nothing in it
needs an escape. How a plain scalar is resolved is left to the reader.
-/
namespace VaultplaneGateway.YamlEntries
open WireFormats StreamUsage EventStreams ProxyPipeline ConfigDocuments

/-- The characters that may stand in a document, line breaks apart. -/
def printable (c : Char) : Bool :=
  let n := c.toNat
  n = 9 || (0x20 ≤ n && n ≤ 0x7E) || (0xA0 ≤ n && n ≤ 0xD7FF && n ≠ 0x2028 && n ≠ 0x2029) ||
    (0xE000 ≤ n && n ≤ 0xFFFD) || 0x10000 ≤ n

/-- The characters that stand for themselves between double quotes. -/
def ordinary (c : Char) : Bool := printable c && c != '"' && c != '\\'

/-- The escapes of one letter. -/
def escapes : List (Char × Char) :=
  [('0', Char.ofNat 0), ('a', Char.ofNat 7), ('b', Char.ofNat 8), ('t', '\t'), ('\t', '\t'),
    ('n', '\n'), ('v', Char.ofNat 11), ('f', Char.ofNat 12), ('r', '\r'), ('e', Char.ofNat 27),
    (' ', ' '), ('"', '"'), ('/', '/'), ('\\', '\\'), ('N', Char.ofNat 0x85),
    ('_', Char.ofNat 0xA0), ('L', Char.ofNat 0x2028), ('P', Char.ofNat 0x2029)]

/-- A character given by its number in so many digits. -/
def readCode (width : ℕ) (cs : List Char) : Option (Char × List Char) :=
  if width ≤ cs.length then
    ((cs.take width).mapM JsonReading.hexValue).bind fun digits =>
      let code := digits.foldl (fun n d => n * 16 + d) 0
      if code.isValidChar then some (Char.ofNat code, cs.drop width) else none
  else none

def readEscape : List Char → Option (Char × List Char)
  | [] => none
  | e :: cs =>
      if e = 'x' then readCode 2 cs
      else if e = 'u' then readCode 4 cs
      else if e = 'U' then readCode 8 cs
      else (escapes.lookup e).map fun c => (c, cs)

/-- The next character of a text between double quotes. -/
def nextChar : List Char → Option (Char × List Char)
  | [] => none
  | c :: cs =>
      if c = '\\' then readEscape cs
      else if ordinary c then some (c, cs)
      else none

def unescapeFrom : ℕ → List Char → Option (List Char)
  | _, [] => some []
  | 0, _ :: _ => none
  | fuel + 1, c :: cs => do
      let (d, rest) ← nextChar (c :: cs)
      let s ← unescapeFrom fuel rest
      some (d :: s)

/-- What a text stands for between double quotes; nothing if it does not stay between them. -/
def unescape (raw : String) : Option String :=
  (unescapeFrom raw.toList.length raw.toList).map String.ofList

/-- What follows a character of a text does not change it, and an escape is longer than the
character it stands for. -/
theorem readCode_append {width : ℕ} {cs rest : List Char} {c : Char}
    (h : readCode width cs = some (c, rest)) :
    rest.length ≤ cs.length ∧ ∀ more, readCode width (cs ++ more) = some (c, rest ++ more) := by
  unfold readCode at h ⊢
  split_ifs at h with hlength
  obtain ⟨digits, hdigits, hcode⟩ := Option.bind_eq_some_iff.mp h
  dsimp only at hcode
  split_ifs at hcode with hvalid
  obtain ⟨rfl, rfl⟩ := Prod.mk.inj (Option.some.inj hcode)
  refine ⟨by rw [List.length_drop]; exact Nat.sub_le _ _, fun more => ?_⟩
  have hmore : width ≤ (cs ++ more).length := by
    rw [List.length_append]
    omega
  rw [if_pos hmore, List.take_append_of_le_length hlength, hdigits,
    List.drop_append_of_le_length hlength, Option.bind_some]
  exact if_pos hvalid

theorem readEscape_append {cs rest : List Char} {c : Char} (h : readEscape cs = some (c, rest)) :
    rest.length < cs.length ∧ ∀ more, readEscape (cs ++ more) = some (c, rest ++ more) := by
  cases cs with
  | nil => cases h
  | cons e cs =>
      have hcode : ∀ width, readCode width cs = some (c, rest) →
          rest.length < (e :: cs).length ∧
            ∀ more, readCode width (cs ++ more) = some (c, rest ++ more) := by
        intro width hread
        obtain ⟨hle, happend⟩ := readCode_append hread
        exact ⟨Nat.lt_succ_of_le hle, happend⟩
      simp only [List.cons_append, readEscape] at h ⊢
      split_ifs at h ⊢ with hx hu hU
      · exact hcode 2 h
      · exact hcode 4 h
      · exact hcode 8 h
      · obtain ⟨d, hd, heq⟩ := Option.map_eq_some_iff.mp h
        obtain ⟨rfl, rfl⟩ := Prod.mk.inj heq
        refine ⟨Nat.lt_succ_self _, fun more => ?_⟩
        rw [hd]
        rfl

theorem nextChar_append {cs rest : List Char} {c : Char} (h : nextChar cs = some (c, rest)) :
    rest.length < cs.length ∧ ∀ more, nextChar (cs ++ more) = some (c, rest ++ more) := by
  cases cs with
  | nil => cases h
  | cons d cs =>
      simp only [List.cons_append, nextChar] at h ⊢
      split_ifs at h ⊢ with hslash hordinary
      · obtain ⟨hlt, happend⟩ := readEscape_append h
        exact ⟨Nat.lt_succ_of_lt hlt, happend⟩
      · obtain ⟨rfl, rfl⟩ := Prod.mk.inj (Option.some.inj h)
        exact ⟨Nat.lt_succ_self _, fun more => rfl⟩

theorem unescapeFrom_cons {fuel : ℕ} {c : Char} {cs s : List Char}
    (h : unescapeFrom (fuel + 1) (c :: cs) = some s) :
    ∃ d rest t, nextChar (c :: cs) = some (d, rest) ∧ unescapeFrom fuel rest = some t ∧
      s = d :: t := by
  rw [unescapeFrom] at h
  obtain ⟨⟨d, rest⟩, hnext, h⟩ := Option.bind_eq_some_iff.mp h
  obtain ⟨t, ht, h⟩ := Option.bind_eq_some_iff.mp h
  exact ⟨d, rest, t, hnext, ht, (Option.some.inj h).symm⟩

theorem unescapeFrom_ordinary {cs : List Char} (h : ∀ c ∈ cs, ordinary c = true) {fuel : ℕ}
    (hfuel : cs.length ≤ fuel) : unescapeFrom fuel cs = some cs := by
  induction cs generalizing fuel with
  | nil => cases fuel <;> rfl
  | cons c cs ih =>
      obtain ⟨fuel, rfl⟩ := Nat.exists_eq_add_of_le' (Nat.le_trans (Nat.le_add_left 1 _) hfuel)
      have hc := h c List.mem_cons_self
      have hslash : c ≠ '\\' := by
        rintro rfl
        exact absurd hc (by decide)
      have hnext : nextChar (c :: cs) = some (c, cs) := by
        rw [nextChar, if_neg hslash, if_pos hc]
      have hrest := ih (fun d hd => h d (List.mem_cons_of_mem c hd)) (Nat.le_of_succ_le_succ hfuel)
      rw [unescapeFrom, hnext]
      simp only [Option.bind_eq_bind, Option.bind_some, hrest]

/-- Every escape makes a text shorter, and without one only ordinary characters are read. -/
theorem unescapeFrom_length {fuel : ℕ} {cs s : List Char} (h : unescapeFrom fuel cs = some s) :
    s.length ≤ cs.length ∧ (s.length = cs.length → ∀ c ∈ cs, ordinary c = true) := by
  induction fuel generalizing cs s with
  | zero =>
      cases cs with
      | nil =>
          cases h
          exact ⟨Nat.le_refl _, fun _ c hc => absurd hc List.not_mem_nil⟩
      | cons c cs => cases h
  | succ fuel ih =>
      cases cs with
      | nil =>
          cases h
          exact ⟨Nat.le_refl _, fun _ c hc => absurd hc List.not_mem_nil⟩
      | cons c cs =>
          obtain ⟨d, rest, t, hnext, hrest, rfl⟩ := unescapeFrom_cons h
          obtain ⟨hle, hordinary⟩ := ih hrest
          rw [nextChar] at hnext
          split_ifs at hnext with hslash hc
          · have hlt := (readEscape_append hnext).1
            simp only [List.length_cons]
            exact ⟨by omega, fun heq => by omega⟩
          · obtain ⟨rfl, rfl⟩ := Prod.mk.inj (Option.some.inj hnext)
            refine ⟨Nat.succ_le_succ hle, fun heq e he => ?_⟩
            rcases List.mem_cons.mp he with rfl | he
            · exact hc
            · exact hordinary (Nat.succ_injective heq) e he

/-- A text stands for itself exactly if all its characters do. -/
theorem unescape_self_iff (raw : String) :
    unescape raw = some raw ↔ ∀ c ∈ raw.toList, ordinary c = true := by
  constructor
  · intro h
    obtain ⟨s, hs, heq⟩ := Option.map_eq_some_iff.mp h
    have hlist : s = raw.toList := by
      rw [← heq, String.toList_ofList]
    exact (unescapeFrom_length hs).2 (congrArg List.length hlist)
  · intro h
    rw [unescape, unescapeFrom_ordinary h (Nat.le_refl _), Option.map_some, String.ofList_toList]

section Lists

variable {α β : Type}

/-- The values of a list are those of its elements, in order. -/
theorem mapM_eq_some_iff {f : α → Option β} {xs : List α} {ys : List β} :
    xs.mapM f = some ys ↔ List.Forall₂ (fun x y => f x = some y) xs ys := by
  induction xs generalizing ys with
  | nil =>
      rw [List.mapM_nil, List.forall₂_nil_left_iff, Option.pure_def, Option.some_inj]
      exact eq_comm
  | cons x xs ih =>
      rw [List.mapM_cons, Option.bind_eq_bind, Option.bind_eq_some_iff]
      constructor
      · rintro ⟨y, hy, h⟩
        obtain ⟨zs, hzs, h⟩ := Option.bind_eq_some_iff.mp h
        cases h
        exact .cons hy (ih.mp hzs)
      · intro h
        cases h with
        | @cons _ y _ zs hy hzs => exact ⟨y, hy, Option.bind_eq_some_iff.mpr ⟨zs, ih.mpr hzs, rfl⟩⟩

/-- A list has a value if all its elements do. -/
theorem exists_mapM {f : α → Option β} {xs : List α} (h : ∀ x ∈ xs, (f x).isSome = true) :
    ∃ ys, xs.mapM f = some ys := by
  induction xs with
  | nil => exact ⟨[], rfl⟩
  | cons x xs ih =>
      obtain ⟨hx, hxs⟩ := List.forall_mem_cons.mp h
      obtain ⟨y, hy⟩ := Option.isSome_iff_exists.mp hx
      obtain ⟨ys, hys⟩ := ih hxs
      exact ⟨y :: ys, mapM_eq_some_iff.mpr (.cons hy (mapM_eq_some_iff.mp hys))⟩

theorem isSome_of_mapM {f : α → Option β} {xs : List α} {ys : List β}
    (h : xs.mapM f = some ys) : ∀ x ∈ xs, (f x).isSome = true := by
  have hall := mapM_eq_some_iff.mp h
  clear h
  induction hall with
  | nil => exact fun x hx => absurd hx List.not_mem_nil
  | cons hy _ ih => exact List.forall_mem_cons.mpr ⟨Option.isSome_of_eq_some hy, ih⟩

/-- A list stands for itself exactly if its elements do. -/
theorem mapM_self_iff {f : α → Option α} {xs : List α} :
    xs.mapM f = some xs ↔ ∀ x ∈ xs, f x = some x :=
  mapM_eq_some_iff.trans List.forall₂_same

end Lists

/-- What a member of an entry may be. -/
inductive Node
  | quoted (raw : String)
  | quotedList (raws : List String)
  | plain (text : String)
  | block (members : List (String × String))
  deriving DecidableEq, Repr

/-- Words that are no strings without quotes. -/
def reserved : List String :=
  ["null", "Null", "NULL", "true", "True", "TRUE", "false", "False", "FALSE"]

/-- A name that needs no quotes. -/
def nameText (name : String) : Bool :=
  name.toList.head?.any Char.isAlpha && name.toList.all (fun c => c.isAlphanum || c == '_') &&
    !reserved.contains name

/-- A text that is a scalar without quotes. -/
def plainText (text : String) : Bool :=
  text != "" && text != "-" && text.toList.all fun c => c.isAlphanum || c == '.' || c == '-'

def enquote (raw : String) : String := "\"" ++ raw ++ "\""

namespace Node

/-- The lines of a member. -/
def lines (name : String) : Node → List String
  | quoted raw => [name ++ ": " ++ enquote raw]
  | quotedList raws => [name ++ ": [" ++ ", ".intercalate (raws.map enquote) ++ "]"]
  | plain text => [name ++ ": " ++ text]
  | block members => (name ++ ":") :: members.map fun m => "  " ++ m.1 ++ ": " ++ m.2

def WellFormed : Node → Prop
  | quoted raw => (unescape raw).isSome
  | quotedList raws => ∀ raw ∈ raws, (unescape raw).isSome
  | plain text => plainText text = true
  | block members => members ≠ [] ∧ (members.map Prod.fst).Nodup ∧
      ∀ m ∈ members, nameText m.1 = true ∧ plainText m.2 = true

/-- The values that say what a member says. -/
def Means (resolve : String → Json) (v : Json) : Node → Prop
  | quoted raw => ∃ s, unescape raw = some s ∧ v = .string s
  | quotedList raws => ∃ ss, raws.mapM unescape = some ss ∧ v = .array (ss.map .string)
  | plain text => v = resolve text
  | block members => ∃ values, v = .object values ∧
      ∀ name, Given values name (fun w text => w = resolve text) (members.lookup name)

end Node

/-- The lines of an entry: a dash before the first, the others below it. -/
def entryLines (members : List (String × Node)) : List String :=
  match members.flatMap fun m => m.2.lines m.1 with
  | [] => []
  | first :: rest => ("  - " ++ first) :: rest.map fun line => "    " ++ line

/-- A document with one entry in a list that is two levels deep. -/
def document (outer inner : String) (entry : List String) : String :=
  String.join (((outer ++ ":") :: ("  " ++ inner ++ ":") :: entry).map fun line => line ++ "\n")

structure WellFormed (members : List (String × Node)) : Prop where
  nonempty : members ≠ []
  names : ∀ m ∈ members, nameText m.1 = true
  distinct : (members.map Prod.fst).Nodup
  nodes : ∀ m ∈ members, m.2.WellFormed

/-- A reader of documents gives the members of an entry, in some order. -/
def ReadsEntries (load : String → Option Json) (resolve : String → Json) : Prop :=
  ∀ outer inner members, nameText outer = true → nameText inner = true → WellFormed members →
    ∃ values, load (document outer inner (entryLines members)) =
        some (.object [(outer, .object [(inner, .array [.object values])])]) ∧
      ∀ name, Given values name (fun v node => node.Means resolve v) (members.lookup name)

end VaultplaneGateway.YamlEntries
