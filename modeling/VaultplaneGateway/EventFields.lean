import VaultplaneGateway.ChunkedParsing

/-!
# The fields of an event

An event is written as a line for its name, a line for each line of its data, and a blank
line; comments and fields the reader does not know may stand anywhere between. The parser
is to give back the name, and the lines joined by line feeds.

It joins them one by one and puts a line feed before a line only if there are data
already. So it cannot tell an empty first line from none: the lines that count are those
from the first one on that is not empty.
-/
namespace VaultplaneGateway.EventFields
open WireFormats StreamUsage EventStreams ChunkedParsing

inductive Field
  | event (name : String)
  | data (line : String)
  /-- A comment or an unknown field. -/
  | other (text : String)
  deriving DecidableEq, Repr

namespace Field

def text : Field → String
  | event name => "event: " ++ name
  | data line => "data: " ++ line
  | other text => text

def isOther : Field → Bool
  | other _ => true
  | _ => false

end Field

/-- No whitespace at either end. -/
def Trimmed (s : String) : Prop :=
  (∀ c ∈ s.toList.head?, isWhitespace c = false) ∧ ∀ c ∈ s.toList.getLast?, isWhitespace c = false

/-- The name of the field in a line: what stands before the first colon. A comment has none. -/
def fieldName (line : String) : List Char := line.toList.takeWhile (· != ':')

namespace Field

def WellFormed : Field → Prop
  | event name => OneLine name ∧ Trimmed name
  | data line => OneLine line
  | other text => text ≠ "" ∧ '\n' ∉ text.toList ∧ fieldName text ≠ "event".toList ∧
      fieldName text ≠ "data".toList

end Field

/-- The lines of an event with a name and data, in the order of the stream. -/
structure Block where
  name : Option String
  lines : List String
  fields : List Field
  lines_ne : lines ≠ []
  wellFormed : ∀ f ∈ fields, f.WellFormed
  order : fields.filter (!·.isOther) = name.toList.map .event ++ lines.map .data

/-- Each line with its line feed, and a blank one at the end. -/
def encode : List Field → String
  | [] => "\n"
  | f :: fields => f.text ++ "\n" ++ encode fields

/-- What a field adds to an event. -/
def Field.apply (e : SseEvent) : Field → SseEvent
  | .event name => { e with event := some name }
  | .data line => { e with data := if e.data = "" then line else e.data ++ "\n" ++ line }
  | .other _ => e

theorem trim_of_trimmed {s : String} (h : Trimmed s) : trim (" " ++ s) = s := by
  have hspace : isWhitespace ' ' = true := by decide
  have hhead : (" " ++ s).toList.dropWhile isWhitespace = s.toList := by
    rw [String.toList_append]
    change (' ' :: s.toList).dropWhile isWhitespace = _
    rw [List.dropWhile_cons_of_pos hspace]
    cases hs : s.toList with
    | nil => rfl
    | cons c cs =>
        have hc := h.1 c (by rw [hs]; rfl)
        rw [List.dropWhile_cons_of_neg (by rw [hc]; decide)]
  have hlast : s.toList.reverse.dropWhile isWhitespace = s.toList.reverse := by
    cases hs : s.toList.reverse with
    | nil => rfl
    | cons c cs =>
        have hc := h.2 c (by rw [← List.head?_reverse, hs]; rfl)
        rw [List.dropWhile_cons_of_neg (by rw [hc]; decide)]
  rw [trim, hhead, hlast, List.reverse_reverse, String.ofList_toList]

/-- A line that begins with a name and a colon has that field name. -/
theorem fieldName_of_starts {line : String} {name : List Char}
    (hname : name.all (· != ':') = true) (h : name ++ [':'] <+: line.toList) :
    fieldName line = name := by
  obtain ⟨rest, hrest⟩ := h
  rw [fieldName, ← hrest, List.append_assoc, List.takeWhile_append_of_pos (List.all_eq_true.mp hname),
    List.singleton_append, List.takeWhile_cons_of_neg (by decide), List.append_nil]

/-- The end of a line that the parser removes is no part of a field it knows. -/
theorem chomp_shorter (line : List Char) : chomp (line ++ ['\n']) <+: line := by
  have hlast : (line ++ ['\n']).getLast? = some '\n' := List.getLast?_concat
  rw [chomp, if_pos hlast, List.dropLast_concat]
  dsimp only
  split_ifs
  · exact List.dropLast_prefix line
  · exact List.prefix_refl line

theorem Field.oneLine_text {f : Field} (h : f.WellFormed) : '\n' ∉ f.text.toList := by
  cases f with
  | event name => simpa [Field.text] using h.1.1
  | data line => simpa [Field.text] using h.1
  | other text => exact h.2.1

theorem Field.text_ne {f : Field} (h : f.WellFormed) : f.text.toList ≠ [] := by
  cases f with
  | event name => simp [Field.text]
  | data line => simp [Field.text]
  | other text =>
      intro hempty
      exact h.1 (String.toList_inj.mp hempty)

/-- A line that the parser makes of a field: the field, or what is left of it without the carriage
return before the line feed. -/
theorem parseLine_field {f : Field} (h : f.WellFormed) {line : String}
    (hline : line = f.text ∨ line.toList = chomp (f.text.toList ++ ['\n'])) (e : SseEvent) :
    parseLine e line = f.apply e := by
  have hwhole : '\r' ∉ f.text.toList → line = f.text := by
    intro hreturn
    rcases hline with rfl | hline
    · rfl
    · rw [chomp_line hreturn] at hline
      exact String.toList_inj.mp hline
  cases f with
  | event name =>
      obtain ⟨⟨-, hreturn⟩, htrimmed⟩ := h
      obtain rfl := hwhole (by simpa [Field.text] using hreturn)
      rw [Field.text, parseLine_event, trim_of_trimmed htrimmed, Field.apply]
  | data text =>
      obtain rfl := hwhole (by simpa [Field.text] using h.2)
      rw [Field.text, parseLine_data, Field.apply]
      by_cases hempty : e.data = ""
      · rw [if_pos hempty, if_pos (String.isEmpty_iff.mpr hempty), hempty, String.empty_append]
      · rw [if_neg hempty, if_neg (fun h => hempty (String.isEmpty_iff.mp h))]
  | other text =>
      obtain ⟨-, -, hevent, hdata⟩ := h
      have hstart : line.toList <+: text.toList := by
        rcases hline with rfl | hline
        · exact List.prefix_refl _
        · rw [hline]
          exact chomp_shorter _
      have hnoEvent : stripPrefix line "event:" = none := stripPrefix_eq_none fun hpre =>
        hevent (fieldName_of_starts (by decide) (hpre.trans hstart))
      have hnoData : stripPrefix line "data:" = none := stripPrefix_eq_none fun hpre =>
        hdata (fieldName_of_starts (by decide) (hpre.trans hstart))
      rw [parseLine, hnoEvent, hnoData]
      rfl

/-- The lines of a block without the last line feed. -/
def body : List Field → String
  | [] => ""
  | [f] => f.text
  | f :: g :: fields => f.text ++ "\n" ++ body (g :: fields)

theorem parse_body {fields : List Field} (h : ∀ f ∈ fields, f.WellFormed) (e : SseEvent) :
    (lines (body fields)).foldl parseLine e = fields.foldl Field.apply e := by
  induction fields generalizing e with
  | nil => rfl
  | cons f fields ih =>
      have hf := h f List.mem_cons_self
      have hrest := ih fun g hg => h g (List.mem_cons_of_mem f hg)
      cases fields with
      | nil =>
          rw [body, lines_of_line (Field.oneLine_text hf) (Field.text_ne hf), List.foldl_cons,
            parseLine_field hf (.inl rfl)]
          rfl
      | cons g fields =>
          rw [body, lines_line (Field.oneLine_text hf), List.foldl_cons,
            parseLine_field hf (.inr String.toList_ofList), hrest]
          rfl

theorem asBytes_text_ne {f : Field} (h : f.WellFormed) : asBytes f.text ≠ [] := by
  intro hempty
  have htext : f.text = "" := asBytes_injective hempty
  exact Field.text_ne h (by rw [htext]; rfl)

theorem nextBlock_encode {f : Field} {fields : List Field} (h : ∀ g ∈ f :: fields, g.WellFormed)
    (rest : Bytes) :
    nextBlock (asBytes (encode (f :: fields)) ++ rest) =
      some (asBytes (body (f :: fields)), rest) := by
  induction fields generalizing f with
  | nil =>
      have hline := lineFeed_asBytes (Field.oneLine_text (h f List.mem_cons_self))
      have hbytes : asBytes (encode [f]) ++ rest = asBytes f.text ++ 10 :: 10 :: rest := by
        rw [encode, encode, String.append_assoc, asBytes_append, List.append_assoc]
        rfl
      rw [hbytes, nextBlock_of_line hline, body]
  | cons g fields ih =>
      have hline := lineFeed_asBytes (Field.oneLine_text (h f List.mem_cons_self))
      have hg : g.WellFormed := h g (List.mem_cons_of_mem f List.mem_cons_self)
      have hrest := ih fun k hk => h k (List.mem_cons_of_mem f hk)
      obtain ⟨b, bs, hbs⟩ := List.exists_cons_of_ne_nil (asBytes_text_ne hg)
      have hb : b ≠ 10 := by
        rintro rfl
        exact lineFeed_asBytes (Field.oneLine_text hg) (hbs ▸ List.mem_cons_self)
      have hstart : asBytes (encode (g :: fields)) ++ rest =
          b :: (bs ++ (asBytes ("\n" ++ encode fields) ++ rest)) := by
        rw [encode, String.append_assoc, asBytes_append, hbs, List.append_assoc]
        rfl
      have hbytes : asBytes (encode (f :: g :: fields)) ++ rest =
          asBytes f.text ++ 10 :: (asBytes (encode (g :: fields)) ++ rest) := by
        rw [encode, String.append_assoc, asBytes_append, asBytes_append, List.append_assoc,
          List.append_assoc]
        rfl
      have hbody : asBytes (body (f :: g :: fields)) =
          asBytes f.text ++ 10 :: asBytes (body (g :: fields)) := by
        rw [body, String.append_assoc, asBytes_append, asBytes_append]
        rfl
      rw [hstart] at hrest
      rw [hbytes, hstart, nextBlock_line hline hb hrest, hbody]

/-- Data lines are joined one by one. -/
def joined (lines : List String) : String :=
  lines.foldl (fun data line => if data = "" then line else data ++ "\n" ++ line) ""

/-- From data on that are not empty, nothing is lost. -/
theorem foldl_join {data : String} (h : data ≠ "") (lines : List String) :
    lines.foldl (fun data line => if data = "" then line else data ++ "\n" ++ line) data =
      "\n".intercalate (data :: lines) := by
  induction lines generalizing data with
  | nil => rfl
  | cons line lines ih =>
      have hne : data ++ "\n" ++ line ≠ "" := by
        simp [String.append_assoc]
      rw [List.foldl_cons, if_neg h, ih hne]
      rfl

/-- Lines that are empty count only behind one that is not. -/
theorem joined_eq (lines : List String) :
    joined lines = "\n".intercalate (lines.dropWhile (· == "")) := by
  induction lines with
  | nil => rfl
  | cons line lines ih =>
      by_cases hline : line = ""
      · subst hline
        rw [List.dropWhile_cons_of_pos (by decide), ← ih]
        rfl
      · rw [List.dropWhile_cons_of_neg (by simpa using hline), ← foldl_join hline]
        rfl

theorem length_intercalate_cons (a b : String) (lines : List String) :
    ("\n".intercalate (a :: b :: lines)).length =
      a.length + 1 + ("\n".intercalate (b :: lines)).length := by
  simp [← String.length_toList, List.intercalate]
  omega

theorem length_intercalate_dropWhile (lines : List String) :
    ("\n".intercalate (lines.dropWhile (· == ""))).length ≤ ("\n".intercalate lines).length := by
  induction lines with
  | nil => exact Nat.le_refl _
  | cons line lines ih =>
      by_cases hline : line = ""
      · rw [List.dropWhile_cons_of_pos (by simpa using hline)]
        refine ih.trans ?_
        cases lines with
        | nil => exact Nat.zero_le _
        | cons next lines =>
            rw [length_intercalate_cons]
            omega
      · rw [List.dropWhile_cons_of_neg (by simpa using hline)]

/-- The lines are joined as they are if there is only one, or the first is not empty. -/
theorem joined_eq_intercalate_iff {lines : List String} (hne : lines ≠ []) :
    joined lines = "\n".intercalate lines ↔ lines.length = 1 ∨ lines.head? ≠ some "" := by
  obtain ⟨line, lines, rfl⟩ := List.exists_cons_of_ne_nil hne
  by_cases hline : line = ""
  · subst hline
    cases lines with
    | nil => exact iff_of_true rfl (.inl rfl)
    | cons next lines =>
        refine iff_of_false ?_ (by simp)
        intro heq
        have hlength := length_intercalate_dropWhile (next :: lines)
        have htotal := length_intercalate_cons "" next lines
        rw [joined_eq, List.dropWhile_cons_of_pos (by decide)] at heq
        rw [heq] at hlength
        omega
  · refine iff_of_true ?_ (.inr (by simpa using hline))
    rw [joined_eq, List.dropWhile_cons_of_neg (by simpa using hline)]

theorem foldl_apply_filter (fields : List Field) (e : SseEvent) :
    fields.foldl Field.apply e = (fields.filter (!·.isOther)).foldl Field.apply e := by
  induction fields generalizing e with
  | nil => rfl
  | cons f fields ih =>
      cases f with
      | event name =>
          rw [List.filter_cons_of_pos rfl]
          exact ih _
      | data line =>
          rw [List.filter_cons_of_pos rfl]
          exact ih _
      | other text =>
          rw [List.filter_cons_of_neg (by simp [Field.isOther])]
          exact ih e

theorem foldl_apply_data (lines : List String) (e : SseEvent) :
    (lines.map Field.data).foldl Field.apply e =
      ⟨e.event,
        lines.foldl (fun data line => if data = "" then line else data ++ "\n" ++ line) e.data⟩ := by
  induction lines generalizing e with
  | nil => rfl
  | cons line lines ih => exact ih _

namespace Block

/-- The block as it is sent. -/
def bytes (b : Block) : Bytes := asBytes (encode b.fields)

theorem foldl_fields (b : Block) :
    b.fields.foldl Field.apply ⟨none, ""⟩ = ⟨b.name, joined b.lines⟩ := by
  rw [foldl_apply_filter, b.order, List.foldl_append, foldl_apply_data]
  cases b.name <;> rfl

theorem fields_ne (b : Block) : b.fields ≠ [] := by
  intro hnil
  have horder := b.order
  rw [hnil, List.filter_nil] at horder
  have hlines := (List.append_eq_nil_iff.mp horder.symm).2
  exact b.lines_ne (List.map_eq_nil_iff.mp hlines)

theorem drawEvent_bytes (b : Block) (rest : Bytes) :
    drawEvent (b.bytes ++ rest) = some (⟨b.name, joined b.lines⟩, rest) := by
  obtain ⟨f, fields, hfields⟩ := List.exists_cons_of_ne_nil b.fields_ne
  have hwell : ∀ g ∈ f :: fields, g.WellFormed := hfields ▸ b.wellFormed
  refine drawEvent_some.mpr ⟨asBytes (body (f :: fields)), ?_, ?_⟩
  · rw [bytes, hfields]
    exact nextBlock_encode hwell rest
  · rw [readBlock, fromUtf8_asBytes, Option.map_some, parse, parse_body hwell, ← hfields,
      b.foldl_fields]

end Block

/-- A block is read as one event with its name, however it is cut. Its data are the lines without
the empty ones in front, so they are all the lines exactly if there is one line only or the first
is not empty. -/
theorem block_decodes_iff (b : Block) :
    ((∀ rest : Bytes, (SseParser.new.feed (b.bytes ++ rest)).nextEvent =
        (⟨rest⟩, some ⟨b.name, "\n".intercalate b.lines⟩)) ↔
      b.lines.length = 1 ∨ b.lines.head? ≠ some "") ∧
    ((∀ pieces : List Bytes, pieces.flatten = b.bytes → SseParser.new.feedChunks pieces =
        ([⟨b.name, "\n".intercalate b.lines⟩], SseParser.new)) ↔
      b.lines.length = 1 ∨ b.lines.head? ≠ some "") := by
  have hnext : ∀ rest : Bytes, (SseParser.new.feed (b.bytes ++ rest)).nextEvent =
      (⟨rest⟩, some ⟨b.name, joined b.lines⟩) := by
    intro rest
    exact SseParser.nextEvent_some.mpr (b.drawEvent_bytes rest)
  have hchunks : ∀ pieces : List Bytes, pieces.flatten = b.bytes →
      SseParser.new.feedChunks pieces = ([⟨b.name, joined b.lines⟩], SseParser.new) := by
    intro pieces hpieces
    obtain ⟨hevents, hundrawn⟩ := events_of_draw_some (b.drawEvent_bytes [])
    rw [List.append_nil] at hevents hundrawn
    obtain ⟨hnone, hempty⟩ := events_of_draw_none (b := []) rfl
    rw [SseParser.feedChunks_new, hpieces, hevents, hundrawn, hnone, hempty]
    rfl
  rw [← joined_eq_intercalate_iff b.lines_ne]
  refine ⟨⟨fun h => ?_, fun h => ?_⟩, ⟨fun h => ?_, fun h => ?_⟩⟩
  · have heq := (hnext []).symm.trans (h [])
    simpa using heq
  · rw [← h]
    exact hnext
  · have heq := (hchunks [b.bytes] (by simp)).symm.trans (h [b.bytes] (by simp))
    simpa using heq
  · rw [← h]
    exact hchunks

/-- An empty line and one that is not. -/
def emptyFirst : Block where
  name := none
  lines := ["", "a"]
  fields := [.data "", .data "a"]
  lines_ne := by decide
  wellFormed := by
    intro f hf
    simp only [List.mem_cons, List.not_mem_nil, or_false] at hf
    rcases hf with rfl | rfl <;> exact ⟨by decide, by decide⟩
  order := by decide

/-- Its data are read as if the empty line were not there. -/
theorem emptyFirst_loses_a_line :
    emptyFirst.bytes = asBytes "data: \ndata: a\n\n" ∧
      ¬ (SseParser.new.feed (emptyFirst.bytes ++ [])).nextEvent =
        (SseParser.new, some ⟨none, "\n".intercalate ["", "a"]⟩) := by
  refine ⟨rfl, ?_⟩
  intro h
  have hdraw := SseParser.nextEvent_some.mp h
  have hread : drawEvent (emptyFirst.bytes ++ []) = some (⟨none, "a"⟩, []) :=
    emptyFirst.drawEvent_bytes []
  have heq := Option.some.inj (hread.symm.trans hdraw)
  exact absurd (congrArg (fun r => r.1.data) heq) (by decide)

end VaultplaneGateway.EventFields
