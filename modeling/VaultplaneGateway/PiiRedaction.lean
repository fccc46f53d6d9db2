import VaultplaneGateway.BoundedPatterns
import VaultplaneGateway.ConfigOverlay
import VaultplaneGateway.InlinePlugins

/-!
# The redaction plugins

The native plugin and the reference component, each with its own list of expressions
and its own loop over the messages. The expressions are kept as the texts in the
source; of the regex syntax, what they use is read: a word boundary at both ends,
digits, escaped characters, bracketed classes and the quantifiers. The Unicode tables
behind `\d` and `\b` are a parameter; on ASCII the digits are the ten digits.

A replacement text is a template: a dollar sign followed by a name refers to a group
of the match. Only the whole match, group 0, exists; other names stand for nothing.
-/
namespace VaultplaneGateway.PiiRedaction
open WireFormats ConfigOverlay InlinePlugins BoundedPatterns

structure CharTables where
  word : Char → Bool
  digit : Char → Bool
  digit_ascii : ∀ c : Char, c.toNat < 128 → digit c = (48 ≤ c.toNat && c.toNat ≤ 57)

inductive Letters where
  | digit
  | literal (c : Char)
  | oneOf (ranges : List (Char × Char))
  deriving DecidableEq, Repr

def Letters.accepts (tables : CharTables) : Letters → Char → Bool
  | .digit, c => tables.digit c
  | .literal d, c => c == d
  | .oneOf ranges, c => ranges.any fun r => r.1 ≤ c && c ≤ r.2

structure Repeat where
  letters : Letters
  least : ℕ
  most : Option ℕ
  deriving DecidableEq, Repr

def Repeat.piece (tables : CharTables) (r : Repeat) : Piece Char :=
  ⟨r.letters.accepts tables, r.least, r.most⟩

/-- The inside of a bracketed class, up to its end. A hyphen before the end is a
hyphen. -/
def classItems : List Char → Option (List (Char × Char) × List Char)
  | [] => none
  | ']' :: rest => some ([], rest)
  | c :: '-' :: ']' :: rest => some ([(c, c), ('-', '-')], rest)
  | c :: '-' :: d :: rest => (classItems rest).map fun r => ((c, d) :: r.1, r.2)
  | c :: rest => (classItems rest).map fun r => ((c, c) :: r.1, r.2)

def metaChars : List Char :=
  ['\\', '.', '+', '*', '?', '(', ')', '|', '[', ']', '\x7b', '\x7d', '^', '$']

def parseLetters : List Char → Option (Letters × List Char)
  | '\\' :: 'd' :: rest => some (.digit, rest)
  | '\\' :: c :: rest => if c ∈ metaChars then some (.literal c, rest) else none
  | '[' :: rest => (classItems rest).map fun r => (.oneOf r.1, r.2)
  | c :: rest => if c ∈ metaChars then none else some (.literal c, rest)
  | [] => none

def parseNumber (digits : List Char) : ℕ :=
  digits.foldl (fun n c => 10 * n + (c.toNat - 48)) 0

/-- The quantifier, or once. -/
def parseQuantifier : List Char → Option (ℕ × Option ℕ × List Char)
  | '?' :: rest => some (0, some 1, rest)
  | '+' :: rest => some (1, none, rest)
  | '\x7b' :: rest =>
      let n := parseNumber (rest.takeWhile Char.isDigit)
      match rest.dropWhile Char.isDigit with
      | '\x7d' :: rest => some (n, some n, rest)
      | ',' :: '\x7d' :: rest => some (n, none, rest)
      | _ => none
  | rest => some (1, some 1, rest)

/-- Each piece takes a character, so the length is enough fuel. -/
def parseRepeats : ℕ → List Char → Option (List Repeat)
  | _, [] => some []
  | 0, _ => none
  | fuel + 1, text => do
      let (letters, rest) ← parseLetters text
      let (least, most, rest) ← parseQuantifier rest
      let repeats ← parseRepeats fuel rest
      pure (⟨letters, least, most⟩ :: repeats)

/-- An expression between two word boundaries. -/
def parseExpression (text : String) : Option (List Repeat) :=
  match text.toList with
  | '\\' :: 'b' :: rest =>
      let inner := rest.take (rest.length - 2)
      if rest = inner ++ ['\\', 'b'] then parseRepeats inner.length inner else none
  | _ => none

/-- `Regex::new(..).ok()`. -/
def compile (tables : CharTables) (text : String) : Option (Pattern Char) :=
  (parseExpression text).bind fun repeats =>
    if h : ∃ r ∈ repeats, 0 < r.least then
      some ⟨repeats.map (Repeat.piece tables), by
        obtain ⟨r, hr, hleast⟩ := h
        exact ⟨r.piece tables, List.mem_map_of_mem hr, hleast⟩⟩
    else none

def regex : PiiPattern → String
  | .ssn => "\\b\\d\x7b3\x7d-\\d\x7b2\x7d-\\d\x7b4\x7d\\b"
  | .creditCard =>
      "\\b\\d\x7b4\x7d[- ]?\\d\x7b4\x7d[- ]?\\d\x7b4\x7d[- ]?\\d\x7b4\x7d\\b"
  | .phoneUs => "\\b\\d\x7b3\x7d[-.]\\d\x7b3\x7d[-.]\\d\x7b4\x7d\\b"
  | .email => "\\b[A-Za-z0-9._%+-]+@[A-Za-z0-9.-]+\\.[A-Za-z]\x7b2,\x7d\\b"

def capLetter (c : Char) : Bool := c.isAlphanum || c == '_'

/-- The name reads as the number 0. -/
def isGroupZero (name : List Char) : Bool :=
  let digits := if name.head? = some '+' then name.tail else name
  !digits.isEmpty && digits.all (· == '0')

/-- What stands after a dollar sign: how many characters belong to the reference and
what it is replaced by. Without a reference the dollar sign stands for itself. -/
def reference (matched : List Char) : List Char → Option (ℕ × List Char)
  | '$' :: _ => some (1, ['$'])
  | '\x7b' :: rest =>
      let name := rest.takeWhile (· != '\x7d')
      if name.length < rest.length then
        some (name.length + 2, if isGroupZero name then matched else [])
      else none
  | rest =>
      let name := rest.takeWhile capLetter
      if name.isEmpty then none
      else some (name.length, if isGroupZero name then matched else [])

/-- The template with the references of one match filled in. Characters of the
reference read last are skipped. -/
def interpolate (matched : List Char) : ℕ → List Char → List Char
  | _, [] => []
  | skip + 1, _ :: rest => interpolate matched skip rest
  | 0, c :: rest =>
      if c = '$' then
        match reference matched rest with
        | some (length, inserted) => inserted ++ interpolate matched length rest
        | none => '$' :: interpolate matched 0 rest
      else c :: interpolate matched 0 rest

def expand (replacement : String) (matched : List Char) : List Char :=
  interpolate matched 0 replacement.toList

/-- A text without a dollar sign is taken literally. -/
theorem expand_literal {replacement : String} (h : '$' ∉ replacement.toList)
    (matched : List Char) : expand replacement matched = replacement.toList := by
  unfold expand
  generalize replacement.toList = template at h
  induction template with
  | nil => rfl
  | cons c rest ih =>
      obtain ⟨hc, hrest⟩ := not_or.mp (mt List.mem_cons.mpr h)
      rw [interpolate, if_neg (Ne.symm hc), ih hrest]

structure PiiRedactionPlugin where
  patterns : List (Pattern Char)
  replacement : String

namespace PiiRedactionPlugin

def new (tables : CharTables) (patterns : List PiiPattern) (replacement : String) :
    PiiRedactionPlugin where
  patterns := patterns.filterMap fun p => compile tables (regex p)
  replacement := replacement

def redact (tables : CharTables) (plugin : PiiRedactionPlugin) (text : String) : String :=
  plugin.patterns.foldl (fun result pattern => String.ofList
    (replaceAll tables.word pattern (expand plugin.replacement) result.toList)) text

def default (tables : CharTables) : PiiRedactionPlugin := new tables PiiPattern.all "[REDACTED]"

/-- Redacting is a sweep of the patterns over the characters. -/
theorem redact_toList (tables : CharTables) (plugin : PiiRedactionPlugin) (text : String) :
    (plugin.redact tables text).toList =
      sweep tables.word (expand plugin.replacement) plugin.patterns text.toList := by
  unfold redact sweep
  induction plugin.patterns generalizing text with
  | nil => rfl
  | cons p ps ih => rw [List.foldl_cons, ih, String.toList_ofList, List.foldl_cons]

end PiiRedactionPlugin

/-- The tables restricted to ASCII. -/
def asciiTables : CharTables where
  word c := c.isAlphanum || c == '_'
  digit c := 48 ≤ c.toNat && c.toNat ≤ 57
  digit_ascii _ _ := rfl

theorem accepts_ascii (tables : CharTables) (letters : Letters) {c : Char} (h : c.toNat < 128) :
    letters.accepts tables c = letters.accepts asciiTables c := by
  cases letters with
  | digit => exact tables.digit_ascii c h
  | literal d => rfl
  | oneOf ranges => rfl

def marker : List Char := ['[', 'R', 'E', 'D', 'A', 'C', 'T', 'E', 'D', ']']

/-- No piece takes a bracket, and one that must take something takes nothing of the
marker. -/
def markerForeign (repeats : List Repeat) : Bool :=
  repeats.all (fun r => !r.letters.accepts asciiTables '[' && !r.letters.accepts asciiTables ']') &&
    repeats.any fun r => 0 < r.least && marker.all fun c => !r.letters.accepts asciiTables c

theorem marker_ascii : ∀ c ∈ marker, c.toNat < 128 := by
  have hall : marker.all (fun c => decide (c.toNat < 128)) = true := rfl
  intro c hc
  exact of_decide_eq_true (List.all_eq_true.mp hall c hc)

/-- The check decides for all tables, since the marker is ASCII. -/
theorem compile_foreign (tables : CharTables) {text : String} {repeats : List Repeat}
    (hparse : parseExpression text = some repeats) (hforeign : markerForeign repeats = true) :
    ∃ p, compile tables text = some p ∧ Foreign p marker := by
  simp only [markerForeign, Bool.and_eq_true, List.all_eq_true, List.any_eq_true,
    Bool.not_eq_true', decide_eq_true_eq] at hforeign
  obtain ⟨hall, r, hr, hleast, hnone⟩ := hforeign
  have hascii : ∀ (s : Repeat) {c : Char}, c.toNat < 128 →
      s.letters.accepts asciiTables c = false → (s.piece tables).accepts c = false := by
    intro s c hc hs
    rw [← hs]
    exact accepts_ascii tables s.letters hc
  refine ⟨_, by rw [compile, hparse, Option.bind_some, dif_pos ⟨r, hr, hleast⟩], ?_⟩
  refine foreign_of_pieces (by decide) ?_ ?_ ?_
  · intro c hc q hq
    obtain rfl : '[' = c := Option.some.inj hc
    obtain ⟨s, hs, rfl⟩ := List.mem_map.mp hq
    exact hascii s (by decide) (hall s hs).1
  · intro c hc q hq
    obtain rfl : ']' = c := Option.some.inj hc
    obtain ⟨s, hs, rfl⟩ := List.mem_map.mp hq
    exact hascii s (by decide) (hall s hs).2
  · exact ⟨r.piece tables, List.mem_map_of_mem hr, hleast, fun c hc =>
      hascii r (marker_ascii c hc) (hnone c hc)⟩

theorem regex_foreign (pattern : PiiPattern) :
    (parseExpression (regex pattern)).any markerForeign = true := by
  cases pattern <;> decide +kernel

/-- Every expression of the plugin compiles, and the marker is foreign to it. -/
theorem compile_regex (tables : CharTables) (pattern : PiiPattern) :
    ∃ p, compile tables (regex pattern) = some p ∧ Foreign p marker := by
  obtain ⟨repeats, hparse, hforeign⟩ := (Option.any_eq_true _ _).mp (regex_foreign pattern)
  exact compile_foreign tables hparse hforeign

theorem expand_marker : expand "[REDACTED]" = fun _ => marker := by
  funext matched
  have hmarker : "[REDACTED]".toList = marker := by decide +kernel
  rw [expand_literal (by rw [hmarker]; decide), hmarker]

/-- For every list of patterns and every text, with the default replacement: the
redacted text has no match of any pattern of the list, and redacting it again changes
nothing. -/
theorem redact_leaves_no_match (tables : CharTables) (patterns : List PiiPattern)
    (text : String) :
    let plugin := PiiRedactionPlugin.new tables patterns "[REDACTED]"
    (∀ pattern ∈ patterns, ∃ p, compile tables (regex pattern) = some p ∧
      ¬ Occurs tables.word p (plugin.redact tables text).toList) ∧
    plugin.redact tables (plugin.redact tables text) = plugin.redact tables text := by
  intro plugin
  have hforeign : ∀ p ∈ plugin.patterns, Foreign p marker := by
    intro p hp
    obtain ⟨pattern, -, hcompile⟩ := List.mem_filterMap.mp hp
    obtain ⟨p', hcompile', hforeign⟩ := compile_regex tables pattern
    rw [hcompile] at hcompile'
    rwa [Option.some.inj hcompile']
  have hredact : ∀ t, (plugin.redact tables t).toList =
      sweep tables.word (fun _ => marker) plugin.patterns t.toList := by
    intro t
    rw [PiiRedactionPlugin.redact_toList, show plugin.replacement = "[REDACTED]" from rfl,
      expand_marker]
  have hfree : ∀ p ∈ plugin.patterns, ¬ Occurs tables.word p (plugin.redact tables text).toList := by
    rw [hredact]
    exact sweep_free hforeign text.toList
  refine ⟨fun pattern hpattern => ?_, ?_⟩
  · obtain ⟨p, hcompile, -⟩ := compile_regex tables pattern
    exact ⟨p, hcompile, hfree p (List.mem_filterMap.mpr ⟨pattern, hpattern, hcompile⟩)⟩
  · apply String.toList_inj.mp
    rw [hredact, sweep_of_free hfree]

/-- Two matches of different patterns, with a hyphen between them. -/
example : (PiiRedactionPlugin.default asciiTables).redact asciiTables "a@b.co-123-45-6789" =
    "[REDACTED]-[REDACTED]" := by
  decide +kernel

/-- `get_mut` and an assignment: the last member of the name is the one the reader's
map retains. The flag says whether something was assigned. -/
def modifyMember (name : String) (f : Json → Json × Bool) : Json → Json × Bool
  | .object members =>
      let r := go members.reverse
      (.object r.1.reverse, r.2)
  | v => (v, false)
where
  go : List (String × Json) → List (String × Json) × Bool
    | [] => ([], false)
    | (n, v) :: members =>
        if n = name then ((n, (f v).1) :: members, (f v).2)
        else ((n, v) :: (go members).1, (go members).2)

/-- `as_array_mut` and a loop over the items; the flag is set once any item sets it. -/
def modifyItems (f : Json → Json × Bool) : Json → Json × Bool
  | .array items => (.array (items.map fun v => (f v).1), items.any fun v => (f v).2)
  | v => (v, false)

/-- The content of a message, in the native plugin: the redacted text is filtered by
comparison with the content itself. -/
def redactContent (tables : CharTables) (plugin : PiiRedactionPlugin) (content : Json) :
    Json × Bool :=
  let replacement := (content.asStr.map (plugin.redact tables)).filter
    fun new => some new != content.asStr
  match replacement with
  | some new => (.string new, true)
  | none => (content, false)

/-- `to_vec` of a value cannot fail, so its error branch is not modelled. -/
def PiiRedactionPlugin.inspectRequest (lib : Serde) (tables : CharTables)
    (plugin : PiiRedactionPlugin) (request : PluginRequest) : Decision :=
  match lib.fromSlice request.body with
  | none => .pass
  | some value =>
      let r := modifyMember "messages"
        (modifyItems (modifyMember "content" (redactContent tables plugin))) value
      if r.2 then .modify { request with body := asBytes (lib.toText r.1) } else .pass

namespace Component

/-- Its own copy of the expressions. -/
def expressions : List String :=
  ["\\b\\d\x7b3\x7d-\\d\x7b2\x7d-\\d\x7b4\x7d\\b",
    "\\b\\d\x7b4\x7d[- ]?\\d\x7b4\x7d[- ]?\\d\x7b4\x7d[- ]?\\d\x7b4\x7d\\b",
    "\\b\\d\x7b3\x7d[-.]\\d\x7b3\x7d[-.]\\d\x7b4\x7d\\b",
    "\\b[A-Za-z0-9._%+-]+@[A-Za-z0-9.-]+\\.[A-Za-z]\x7b2,\x7d\\b"]

def patterns (tables : CharTables) : List (Pattern Char) := expressions.filterMap (compile tables)

def replacement : String := "[REDACTED]"

def redact (tables : CharTables) (text : String) : String :=
  (patterns tables).foldl (fun result pattern => String.ofList
    (replaceAll tables.word pattern (expand replacement) result.toList)) text

/-- The content of a message: compared as text before it is assigned. -/
def redactContent (tables : CharTables) (content : Json) : Json × Bool :=
  match content.asStr with
  | some text =>
      let redacted := redact tables text
      if redacted ≠ text then (.string redacted, true) else (content, false)
  | none => (content, false)

/-- An action of the plugin interface has the cases of a decision. -/
def inspectRequest (lib : Serde) (tables : CharTables) (req : PluginRequest) : Decision :=
  match lib.fromSlice req.body with
  | none => .pass
  | some value =>
      let r := modifyMember "messages"
        (modifyItems (modifyMember "content" (redactContent tables))) value
      if r.2 then .modify ⟨req.method, req.path, req.headers, asBytes (lib.toText r.1)⟩ else .pass

end Component

/-- The value with one member replaced by its image. -/
def mapMember (name : String) (f : Json → Json) (v : Json) : Json :=
  (modifyMember name (fun w => (f w, true)) v).1

def mapItems (f : Json → Json) : Json → Json
  | .array items => .array (items.map f)
  | v => v

def mapText (f : String → String) : Json → Json
  | .string s => .string (f s)
  | v => v

/-- Every `messages[i].content` that is a string is replaced by its image. -/
def mapContents (f : String → String) : Json → Json :=
  mapMember "messages" (mapItems (mapMember "content" (mapText f)))

/-- Some `messages[i].content` is a string with another image. -/
def contentChanges (f : String → String) (v : Json) : Bool :=
  match v.get "messages" with
  | some (.array items) => items.any fun message =>
      match message.get "content" with
      | some (.string s) => f s != s
      | _ => false
  | _ => false

theorem go_find (name n : String) (f : Json → Json × Bool) (members : List (String × Json)) :
    (modifyMember.go name f members).1.find? (fun m => m.1 == n) =
      (members.find? fun m => m.1 == n).map fun m =>
        (m.1, if n = name then (f m.2).1 else m.2) := by
  induction members with
  | nil => rfl
  | cons m members ih =>
      obtain ⟨k, v⟩ := m
      unfold modifyMember.go
      split_ifs with hk hn hn
      all_goals
        simp only [List.find?_cons]
        cases hkn : k == n with
        | true =>
            have := eq_of_beq hkn
            simp_all
        | false => simp_all

/-- A replaced member has its image; every other member is as before. -/
theorem get_modifyMember (name n : String) (f : Json → Json × Bool) (v : Json) :
    (modifyMember name f v).1.get n =
      (v.get n).map fun w => if n = name then (f w).1 else w := by
  cases v with
  | object members =>
      simp only [modifyMember, Json.get, List.reverse_reverse, go_find, Option.map_map]
      rfl
  | _ => rfl

theorem get_mapMember (name n : String) (f : Json → Json) (v : Json) :
    (mapMember name f v).get n = (v.get n).map fun w => if n = name then f w else w :=
  get_modifyMember name n _ v

theorem modifyMember_fst {name : String} {f : Json → Json × Bool} {g : Json → Json}
    (h : ∀ v, (f v).1 = g v) (v : Json) : (modifyMember name f v).1 = mapMember name g v := by
  cases v with
  | object members =>
      have hgo : ∀ ms, (modifyMember.go name f ms).1 =
          (modifyMember.go name (fun w => (g w, true)) ms).1 := by
        intro ms
        induction ms with
        | nil => rfl
        | cons m ms ih =>
            unfold modifyMember.go
            split_ifs
            · rw [h]
            · rw [ih]
      simp only [mapMember, modifyMember, hgo]
  | _ => rfl

theorem modifyMember_snd (name : String) (f : Json → Json × Bool) (v : Json) :
    (modifyMember name f v).2 = (v.get name).any fun w => (f w).2 := by
  cases v with
  | object members =>
      simp only [modifyMember, Json.get]
      induction members.reverse with
      | nil => rfl
      | cons m ms ih =>
          unfold modifyMember.go
          split_ifs with hm
          · simp [hm]
          · simp [hm, ih]
  | _ => rfl

/-- What a loop over the messages does, if it treats a content as `mapText` does and
flags a change. -/
theorem modify_contents {f : String → String} {content : Json → Json × Bool}
    (h : ∀ v, content v = (mapText f v, v.asStr.any fun s => f s != s)) (v : Json) :
    modifyMember "messages" (modifyItems (modifyMember "content" content)) v =
      (mapContents f v, contentChanges f v) := by
  have hmessage : ∀ w, (modifyMember "content" content w).1 = mapMember "content" (mapText f) w :=
    modifyMember_fst fun w => by rw [h]
  have hitems : ∀ w, (modifyItems (modifyMember "content" content) w).1 =
      mapItems (mapMember "content" (mapText f)) w := by
    intro w
    cases w with
    | array items => simp only [modifyItems, mapItems, hmessage]
    | _ => rfl
  refine Prod.ext (modifyMember_fst hitems v) ?_
  rw [modifyMember_snd, contentChanges]
  cases v.get "messages" with
  | none => rfl
  | some messages =>
      cases messages with
      | array items =>
          simp only [Option.any_some, modifyItems]
          congr 1
          funext message
          rw [modifyMember_snd]
          cases message.get "content" with
          | none => rfl
          | some w => cases w <;> simp [h, Json.asStr]
      | _ => rfl

theorem redactContent_eq (tables : CharTables) (plugin : PiiRedactionPlugin) (v : Json) :
    redactContent tables plugin v =
      (mapText (plugin.redact tables) v, v.asStr.any fun s => plugin.redact tables s != s) := by
  cases v with
  | string s =>
      by_cases hs : plugin.redact tables s = s
      · simp [redactContent, mapText, Json.asStr, Option.filter, hs]
      · simp [redactContent, mapText, Json.asStr, Option.filter, hs]
  | _ => rfl

/-- The copies of the expressions have not drifted apart. -/
theorem component_expressions : Component.expressions = PiiPattern.all.map regex := rfl

theorem component_patterns (tables : CharTables) :
    Component.patterns tables = (PiiRedactionPlugin.default tables).patterns := by
  rw [Component.patterns, component_expressions, List.filterMap_map]
  rfl

theorem component_redact (tables : CharTables) :
    Component.redact tables = (PiiRedactionPlugin.default tables).redact tables := by
  funext text
  rw [Component.redact, component_patterns]
  rfl

theorem component_redactContent (tables : CharTables) (v : Json) :
    Component.redactContent tables v =
      (mapText ((PiiRedactionPlugin.default tables).redact tables) v,
        v.asStr.any fun s => (PiiRedactionPlugin.default tables).redact tables s != s) := by
  rw [← component_redact]
  cases v with
  | string s =>
      by_cases hs : Component.redact tables s = s
      · simp [Component.redactContent, mapText, Json.asStr, hs]
      · simp [Component.redactContent, mapText, Json.asStr, hs]
  | _ => rfl

/-- On every request the component decides as the native plugin with its defaults
does: it passes a body that is not JSON or in which no message text changes, and
otherwise puts the value with the message texts redacted in place of the body. That
value has the same members, all as before but `messages`, and so has each message,
all as before but `content`. -/
theorem plugins_agree (lib : Serde) (tables : CharTables) (request : PluginRequest) :
    let plugin := PiiRedactionPlugin.default tables
    let redact := plugin.redact tables
    Component.inspectRequest lib tables request = plugin.inspectRequest lib tables request ∧
      plugin.inspectRequest lib tables request =
        (match lib.fromSlice request.body with
        | none => .pass
        | some v =>
            if contentChanges redact v then
              .modify { request with body := asBytes (lib.toText (mapContents redact v)) }
            else .pass) ∧
      (∀ v name, (mapContents redact v).get name = (v.get name).map fun messages =>
        if name = "messages" then mapItems (mapMember "content" (mapText redact)) messages
        else messages) ∧
      ∀ message name, (mapMember "content" (mapText redact) message).get name =
        (message.get name).map fun content =>
          if name = "content" then mapText redact content else content := by
  intro plugin redact
  have hnative := modify_contents (redactContent_eq tables plugin)
  have hcomponent := modify_contents (component_redactContent tables)
  refine ⟨?_, ?_, fun v name => get_mapMember _ name _ v, fun v name => get_mapMember _ name _ v⟩
  · simp only [Component.inspectRequest, PiiRedactionPlugin.inspectRequest, hnative, hcomponent]
    rfl
  · simp only [PiiRedactionPlugin.inspectRequest, hnative]
    rfl

end VaultplaneGateway.PiiRedaction
