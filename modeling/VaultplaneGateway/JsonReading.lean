import VaultplaneGateway.EventStreams

/-!
# Reading compact JSON

A reader for the texts the JSON writer produces: no blanks between tokens, numbers
without a sign or a fraction. It reads a value from the front of a text and leaves the
rest, so that it can be used again behind a comma.

A value is read back from its own text, whatever strings are in it. The writer escapes
every character that would end a string or a line.
-/
namespace VaultplaneGateway.JsonReading
open WireFormats StreamUsage EventStreams

/-- A reader returns the members of an object in the order of their names, and gives up on values
that are nested too deep. Values without either are given back as they were written. -/
def plain : ℕ → Json → Bool
  | _, .null => true
  | _, .bool _ => true
  | _, .number n => match n with
    | .unsigned _ => true
    | _ => false
  | _, .string _ => true
  | 0, .array _ => false
  | depth + 1, .array items => items.all (plain depth)
  | 0, .object _ => false
  | depth + 1, .object members =>
      decide ((members.map Prod.fst).Pairwise (· < ·)) && members.all fun m => plain depth m.2

/-- What holds of plain values: an induction on the depth, which bounds that of every item and
member. -/
theorem plain_induction {P : Json → Prop} (null : P .null) (bool : ∀ b, P (.bool b))
    (number : ∀ n, P (.number (.unsigned n))) (string : ∀ s, P (.string s))
    (array : ∀ depth items, items.all (plain depth) = true → (∀ v ∈ items, P v) → P (.array items))
    (object : ∀ members : List (String × Json), (∀ m ∈ members, P m.2) → P (.object members))
    {depth : ℕ} {v : Json} (h : plain depth v = true) : P v := by
  have hnumber : ∀ {depth n}, plain depth (.number n) = true → P (.number n) := by
    intro depth n h
    cases n with
    | unsigned n => exact number n
    | negative i => exact absurd h (by simp [plain])
    | float text => exact absurd h (by simp [plain])
  induction depth generalizing v with
  | zero =>
      cases v with
      | null => exact null
      | bool b => exact bool b
      | number n => exact hnumber h
      | string s => exact string s
      | array items => exact absurd h (by simp [plain])
      | object members => exact absurd h (by simp [plain])
  | succ depth ih =>
      cases v with
      | null => exact null
      | bool b => exact bool b
      | number n => exact hnumber h
      | string s => exact string s
      | array items =>
          rw [plain] at h
          exact array depth items h fun w hw => ih (List.all_eq_true.mp h w hw)
      | object members =>
          rw [plain, Bool.and_eq_true] at h
          exact object members fun m hm => ih (List.all_eq_true.mp h.2 m hm)

def hexValue (c : Char) : Option ℕ :=
  if c.isDigit then some (c.toNat - 48)
  else if 'a' ≤ c ∧ c ≤ 'f' then some (c.toNat - 87)
  else if 'A' ≤ c ∧ c ≤ 'F' then some (c.toNat - 55)
  else none

/-- The characters with an escape of one letter. -/
def escapes : List (Char × Char) :=
  [('"', '"'), ('\\', '\\'), ('/', '/'), ('b', Char.ofNat 8), ('f', Char.ofNat 12), ('n', '\n'),
    ('r', '\r'), ('t', '\t')]

/-- A character from the front of a string's text. -/
def readChar : List Char → Option (Char × List Char)
  | '\\' :: 'u' :: a :: b :: c :: d :: cs => do
      let code := ((← hexValue a) * 16 + (← hexValue b)) * 256 + (← hexValue c) * 16 + (← hexValue d)
      if code.isValidChar then some (Char.ofNat code, cs) else none
  | '\\' :: c :: cs => (escapes.lookup c).map fun e => (e, cs)
  | c :: cs => if c.toNat < 32 ∨ c = '"' then none else some (c, cs)
  | [] => none

theorem hexValue_hexDigit : ∀ n : Fin 16, hexValue (hexDigit n) = some n.val := by decide

theorem char_eq {c d : Char} (h : c.toNat = d.toNat) : c = d := by
  rw [← Char.ofNat_toNat c, h, Char.ofNat_toNat]

/-- What the writer makes of a character is read as that character. -/
theorem readChar_escapeChar (c : Char) (rest : List Char) :
    readChar (escapeChar c ++ rest) = some (c, rest) := by
  unfold escapeChar
  split_ifs with hquote hslash h8 h9 h10 h12 h13 hlow
  · rw [hquote]
    rfl
  · rw [hslash]
    rfl
  · rw [char_eq (d := Char.ofNat 8) h8]
    rfl
  · rw [char_eq (d := '\t') h9]
    rfl
  · rw [char_eq (d := '\n') h10]
    rfl
  · rw [char_eq (d := Char.ofNat 12) h12]
    rfl
  · rw [char_eq (d := '\r') h13]
    rfl
  · have hbyte : c.toNat.toUInt8.toNat = c.toNat := by
      rw [Nat.toUInt8, UInt8.toNat_ofNat']
      omega
    have hzero : hexValue '0' = some 0 := by decide
    have hsum : (0 * 16 + 0) * 256 + c.toNat / 16 * 16 + c.toNat % 16 = c.toNat := by omega
    have hvalid : c.toNat.isValidChar := c.valid
    simp only [List.cons_append, List.nil_append, readChar, hexByte, hexValue_hexDigit, hzero, hbyte,
      Option.bind_eq_bind, Option.bind_some, hsum, if_pos hvalid, Char.ofNat_toNat]
  · have hne : ¬ (c.toNat < 32 ∨ c = '"') := by
      rintro (h | h)
      · exact hlow h
      · exact hquote h
    rw [List.singleton_append]
    unfold readChar
    split
    · exact (hslash (by simp_all)).elim
    · exact (hslash (by simp_all)).elim
    · simp_all
    · simp_all

/-- The characters up to the quote that ends a string, given how one of them is read. -/
def readChars (next : List Char → Option (Char × List Char)) :
    ℕ → List Char → Option (List Char × List Char)
  | 0, _ => none
  | fuel + 1, cs =>
      if cs.head? = some '"' then some ([], cs.tail)
      else do
        let (c, rest) ← next cs
        let (s, rest) ← readChars next fuel rest
        pure (c :: s, rest)

theorem head_escapeChar (c : Char) : ∃ d ds, escapeChar c = d :: ds ∧ d ≠ '"' := by
  unfold escapeChar
  split_ifs with hquote
  all_goals exact ⟨_, _, rfl, by first | assumption | decide⟩

theorem readChars_escaped (s rest : List Char) {fuel : ℕ} (h : s.length < fuel) :
    readChars readChar fuel (s.flatMap escapeChar ++ '"' :: rest) = some (s, rest) := by
  induction s generalizing fuel with
  | nil =>
      obtain ⟨fuel, rfl⟩ := Nat.exists_eq_succ_of_ne_zero (Nat.ne_of_gt h)
      rfl
  | cons c s ih =>
      obtain ⟨fuel, rfl⟩ := Nat.exists_eq_succ_of_ne_zero (Nat.ne_of_gt (Nat.zero_lt_of_lt h))
      have hs := ih (Nat.lt_of_succ_lt_succ h)
      obtain ⟨d, ds, hd, hne⟩ := head_escapeChar c
      have hread := readChar_escapeChar c (s.flatMap escapeChar ++ '"' :: rest)
      have hhead : (escapeChar c ++ (s.flatMap escapeChar ++ '"' :: rest)).head? ≠ some '"' := by
        rw [hd]
        simpa using hne
      rw [List.flatMap_cons, List.append_assoc, readChars, if_neg hhead, hread]
      simp only [Option.bind_eq_bind, Option.bind_some, hs, Option.pure_def]

def readLiteral (text : String) (v : Json) (cs : List Char) : Option (Json × List Char) :=
  if text.toList.isPrefixOf cs then some (v, cs.drop text.length) else none

def readNumber (cs : List Char) : Option (Json × List Char) :=
  let digits := cs.takeWhile Char.isDigit
  let n := Nat.ofDigitChars 10 digits 0
  if digits ≠ [] ∧ n < 2 ^ 64 then
    some (.number (.unsigned (UInt64.ofNat n)), cs.dropWhile Char.isDigit)
  else none

/-- Items with commas between them, at least one, up to the closing bracket. -/
def readList {α : Type} (readItem : List Char → Option (α × List Char)) (close : Char) :
    ℕ → List Char → Option (List α × List Char)
  | 0, _ => none
  | fuel + 1, cs => do
      let (item, rest) ← readItem cs
      match rest with
      | [] => none
      | c :: rest =>
          if c = close then some ([item], rest)
          else if c = ',' then
            let (items, rest) ← readList readItem close fuel rest
            some (item :: items, rest)
          else none

/-- A quoted name, a colon and a value. -/
def readMember (fuel : ℕ) (readValue : List Char → Option (Json × List Char)) :
    List Char → Option ((String × Json) × List Char)
  | '"' :: cs => do
      let (name, rest) ← readChars readChar fuel cs
      match rest with
      | ':' :: rest =>
          let (v, rest) ← readValue rest
          some ((String.ofList name, v), rest)
      | _ => none
  | _ => none

/-- A value from the front of a text, and the rest of the text. -/
def readValue : ℕ → List Char → Option (Json × List Char)
  | 0, _ => none
  | _ + 1, [] => none
  | fuel + 1, c :: cs =>
      if c = '"' then (readChars readChar fuel cs).map fun r => (.string (String.ofList r.1), r.2)
      else if c = '[' then
        if cs.head? = some ']' then some (.array [], cs.tail)
        else (readList (readValue fuel) ']' fuel cs).map fun r => (.array r.1, r.2)
      else if c = '\x7b' then
        if cs.head? = some '\x7d' then some (.object [], cs.tail)
        else (readList (readMember fuel (readValue fuel)) '\x7d' fuel cs).map fun r =>
          (.object r.1, r.2)
      else (((readLiteral "null" .null (c :: cs)).or (readLiteral "true" (.bool true) (c :: cs))).or
        (readLiteral "false" (.bool false) (c :: cs))).or (readNumber (c :: cs))

/-- A whole text. -/
def readJson (bytes : Bytes) : Option Json := do
  let text ← fromUtf8 bytes
  match readValue text.length text.toList with
  | some (v, []) => some v
  | _ => none

/-- What may follow a value: nothing that would be read as part of it. -/
def Ends (rest : List Char) : Prop := ∀ c ∈ rest.head?, c.isDigit = false

theorem readNumber_digits (n : UInt64) {rest : List Char} (h : Ends rest) :
    readNumber ((Number.text (.unsigned n)).toList ++ rest) = some (.number (.unsigned n), rest) := by
  have hdigits : ∀ c ∈ Nat.toDigits 10 n.toNat, c.isDigit = true := by
    intro c hc
    exact Nat.isDigit_of_mem_toDigits (by decide) (by decide) hc
  have htake : (Nat.toDigits 10 n.toNat ++ rest).takeWhile Char.isDigit =
      Nat.toDigits 10 n.toNat := by
    rw [List.takeWhile_append_of_pos hdigits]
    cases rest with
    | nil => rw [List.takeWhile_nil, List.append_nil]
    | cons c rest =>
        rw [List.takeWhile_cons_of_neg (by rw [h c rfl]; decide), List.append_nil]
  have hdrop : (Nat.toDigits 10 n.toNat ++ rest).dropWhile Char.isDigit = rest := by
    rw [List.dropWhile_append_of_pos hdigits]
    cases rest with
    | nil => rfl
    | cons c rest => rw [List.dropWhile_cons_of_neg (by rw [h c rfl]; decide)]
  have hne : Nat.toDigits 10 n.toNat ≠ [] := Nat.toDigits_ne_nil
  rw [Number.text, String.toList_ofList, readNumber]
  simp only [htake, hdrop, Nat.ofDigitChars_ten_toDigits]
  rw [if_pos ⟨hne, n.toNat_lt⟩, UInt64.ofNat_toNat]

theorem compactItems_eq (items : List Json) : Json.compactItems items = items.map Json.compact := by
  induction items with
  | nil => rfl
  | cons v items ih => rw [Json.compactItems, ih, List.map_cons]

/-- The text of one member. -/
def memberText (m : String × Json) : String := quoted m.1 ++ ":" ++ m.2.compact

theorem compactMembers_eq (members : List (String × Json)) :
    Json.compactMembers members = members.map memberText := by
  induction members with
  | nil => rfl
  | cons m members ih => rw [Json.compactMembers, ih, List.map_cons, memberText]

theorem length_commas (texts : List String) :
    texts.length ≤ (commas texts).length + 1 ∧ ∀ t ∈ texts, t.length ≤ (commas texts).length := by
  induction texts with
  | nil => exact ⟨Nat.zero_le _, fun t ht => absurd ht List.not_mem_nil⟩
  | cons text texts ih =>
      cases texts with
      | nil =>
          refine ⟨Nat.le_add_left _ _, fun t ht => ?_⟩
          rw [List.mem_singleton.mp ht]
          exact Nat.le_refl _
      | cons next texts =>
          have hlength : (commas (text :: next :: texts)).length =
              text.length + 1 + (commas (next :: texts)).length := by
            rw [commas, String.length_append, String.length_append]
            · rfl
            · simp
          rw [hlength]
          refine ⟨?_, fun t ht => ?_⟩
          · have := ih.1
            simp only [List.length_cons] at this ⊢
            omega
          · rcases List.mem_cons.mp ht with rfl | ht
            · omega
            · have := ih.2 t ht
              omega

section Lists

variable {α : Type} {readItem : List Char → Option (α × List Char)} {close : Char}
  {text : α → String}

/-- A list is read if each of its items is, in front of a comma or a bracket. -/
theorem readList_commas (hclose : close ≠ ',') (hend : close.isDigit = false) {items : List α}
    (hne : items ≠ [])
    (hitem : ∀ item ∈ items, ∀ rest, Ends rest →
      readItem ((text item).toList ++ rest) = some (item, rest))
    {fuel : ℕ} (hfuel : items.length ≤ fuel) (rest : List Char) :
    readList readItem close fuel ((commas (items.map text)).toList ++ close :: rest) =
      some (items, rest) := by
  induction items generalizing fuel with
  | nil => exact absurd rfl hne
  | cons item items ih =>
      obtain ⟨fuel, rfl⟩ := Nat.exists_eq_succ_of_ne_zero
        (Nat.ne_of_gt (Nat.lt_of_lt_of_le (Nat.succ_pos _) hfuel))
      have hread := hitem item List.mem_cons_self
      cases items with
      | nil =>
          have hbracket : Ends (close :: rest) := by
            intro c hc
            rw [← Option.some.inj hc]
            exact hend
          rw [readList, List.map_singleton, commas, hread _ hbracket]
          simp only [Option.bind_eq_bind, Option.bind_some, if_true]
      | cons next items =>
          have hcomma : ∀ cs, Ends (',' :: cs) := by
            intro cs c hc
            rw [← Option.some.inj hc]
            decide
          have hrest := ih (List.cons_ne_nil _ _)
            (fun i hi => hitem i (List.mem_cons_of_mem item hi)) (Nat.le_of_succ_le_succ hfuel)
          have htext : (commas ((item :: next :: items).map text)).toList ++ close :: rest =
              (text item).toList ++
                ',' :: ((commas ((next :: items).map text)).toList ++ close :: rest) := by
            simp [commas]
          rw [readList, htext, hread _ (hcomma _)]
          simp only [Option.bind_eq_bind, Option.bind_some, if_neg hclose.symm, if_true, hrest]

end Lists

theorem head_digits (n : UInt64) :
    ∃ d ds, (Number.text (.unsigned n)).toList = d :: ds ∧ d.isDigit = true := by
  rw [Number.text, String.toList_ofList]
  obtain ⟨d, ds, hd⟩ := List.exists_cons_of_ne_nil (Nat.toDigits_ne_nil (b := 10) (n := n.toNat))
  refine ⟨d, ds, hd, ?_⟩
  exact Nat.isDigit_of_mem_toDigits (by decide) (by decide) (hd ▸ List.mem_cons_self)

/-- No value begins with a bracket that closes a list. -/
theorem head_compact {depth : ℕ} {v : Json} (h : plain depth v = true) :
    ∃ c cs, v.compact.toList = c :: cs ∧ c ≠ ']' := by
  cases v with
  | null => exact ⟨'n', "ull".toList, rfl, by decide⟩
  | bool b =>
      cases b with
      | false => exact ⟨'f', "alse".toList, rfl, by decide⟩
      | true => exact ⟨'t', "rue".toList, rfl, by decide⟩
  | number n =>
      cases n with
      | unsigned n =>
          obtain ⟨d, ds, hd, hdigit⟩ := head_digits n
          refine ⟨d, ds, hd, ?_⟩
          rintro rfl
          exact absurd hdigit (by decide)
      | negative i => cases depth <;> exact absurd h (by simp [plain])
      | float text => cases depth <;> exact absurd h (by simp [plain])
  | string s => exact ⟨'"', _, by rw [Json.compact, quoted, String.toList_ofList]; rfl, by decide⟩
  | array items =>
      have htext : (Json.array items).compact.toList =
          '[' :: (commas (Json.compactItems items) ++ "]").toList := by
        rw [Json.compact, String.append_assoc]
        exact String.toList_append
      exact ⟨'[', _, htext, by decide⟩
  | object members =>
      have htext : (Json.object members).compact.toList =
          '\x7b' :: (commas (Json.compactMembers members) ++ "\x7d").toList := by
        rw [Json.compact, String.append_assoc]
        exact String.toList_append
      exact ⟨'\x7b', _, htext, by decide⟩

theorem length_quoted (s : String) : s.length + 2 ≤ (quoted s).length := by
  have hescaped : ∀ cs : List Char, cs.length ≤ (cs.flatMap escapeChar).length := by
    intro cs
    induction cs with
    | nil => exact Nat.le_refl _
    | cons c cs ih =>
        obtain ⟨d, ds, hd, -⟩ := head_escapeChar c
        rw [List.flatMap_cons, hd]
        simp only [List.length_cons, List.length_append]
        omega
  have hs := hescaped s.toList
  rw [String.length_toList] at hs
  rw [quoted, String.length_ofList]
  simp only [List.length_append, List.length_cons, List.length_nil]
  omega

theorem toList_quoted (s : String) (rest : List Char) :
    (quoted s).toList ++ rest = '"' :: (s.toList.flatMap escapeChar ++ '"' :: rest) := by
  rw [quoted, String.toList_ofList]
  simp

theorem readMember_text {fuel : ℕ} {readValue : List Char → Option (Json × List Char)}
    {m : String × Json} (hname : m.1.length < fuel)
    (hvalue : ∀ rest, Ends rest → readValue (m.2.compact.toList ++ rest) = some (m.2, rest))
    {rest : List Char} (hrest : Ends rest) :
    readMember fuel readValue ((memberText m).toList ++ rest) = some (m, rest) := by
  have htext : (memberText m).toList ++ rest =
      '"' :: (m.1.toList.flatMap escapeChar ++ '"' :: (':' :: (m.2.compact.toList ++ rest))) := by
    rw [← toList_quoted, memberText]
    simp
  have hchars := readChars_escaped m.1.toList (':' :: (m.2.compact.toList ++ rest))
    (by rwa [String.length_toList])
  rw [htext, readMember, hchars]
  simp only [Option.bind_eq_bind, Option.bind_some, hvalue rest hrest, String.ofList_toList]

/-- A value is read from the front of any text that begins with its own. -/
def ReadBack (v : Json) : Prop :=
  ∀ fuel rest, v.compact.length ≤ fuel → Ends rest →
    readValue fuel (v.compact.toList ++ rest) = some (v, rest)

theorem readBack_null : ReadBack .null := by
  intro fuel rest hfuel _
  obtain ⟨fuel, rfl⟩ := Nat.exists_eq_add_of_le' (Nat.le_trans (by decide : 1 ≤ 4) hfuel)
  rfl

theorem readBack_bool (b : Bool) : ReadBack (.bool b) := by
  intro fuel rest hfuel _
  have hone : 1 ≤ (Json.bool b).compact.length := by cases b <;> decide
  obtain ⟨fuel, rfl⟩ := Nat.exists_eq_add_of_le' (hone.trans hfuel)
  cases b <;> rfl

theorem readBack_number (n : UInt64) : ReadBack (.number (.unsigned n)) := by
  intro fuel rest hfuel hrest
  obtain ⟨d, ds, hd, hdigit⟩ := head_digits n
  have hone : 1 ≤ (Number.text (.unsigned n)).length := by
    rw [← String.length_toList, hd]
    exact Nat.le_add_left _ _
  rw [Json.compact] at hfuel ⊢
  obtain ⟨fuel, rfl⟩ := Nat.exists_eq_add_of_le' (hone.trans hfuel)
  have hnumber := readNumber_digits n hrest
  have hne : ∀ c : Char, c.isDigit = false → d ≠ c := by
    rintro c hc rfl
    rw [hdigit] at hc
    exact absurd hc (by decide)
  have hliteral : ∀ text v, (text.toList.head?.map Char.isDigit) = some false →
      readLiteral text v (d :: (ds ++ rest)) = none := by
    intro text v htext
    obtain ⟨c, hc, hcdigit⟩ := Option.map_eq_some_iff.mp htext
    obtain ⟨cs, hcs⟩ := List.head?_eq_some_iff.mp hc
    have hstart : text.toList.isPrefixOf (d :: (ds ++ rest)) = false := by
      rw [hcs, List.isPrefixOf_cons_cons, beq_false_of_ne (hne c hcdigit).symm, Bool.false_and]
    rw [readLiteral, if_neg (by rw [hstart]; decide)]
  rw [hd, List.cons_append] at hnumber ⊢
  rw [readValue, if_neg (hne '"' (by decide)), if_neg (hne '[' (by decide)),
    if_neg (hne '\x7b' (by decide)), hliteral "null" _ (by decide), hliteral "true" _ (by decide),
    hliteral "false" _ (by decide), hnumber]
  rfl

theorem readBack_string (s : String) : ReadBack (.string s) := by
  intro fuel rest hfuel _
  rw [Json.compact] at hfuel ⊢
  have hlength := length_quoted s
  obtain ⟨fuel, rfl⟩ := Nat.exists_eq_add_of_le' (show 1 ≤ fuel by omega)
  rw [toList_quoted, readValue, if_pos rfl,
    readChars_escaped s.toList rest (by rw [String.length_toList]; omega), Option.map_some,
    String.ofList_toList]

theorem length_bracketed {left right : String} (hleft : left.length = 1) (hright : right.length = 1)
    (text : String) : (left ++ text ++ right).length = text.length + 2 := by
  rw [String.length_append, String.length_append, hleft, hright]
  omega

theorem head_commas (text : String) (texts : List String) :
    ∃ more, (commas (text :: texts)).toList = text.toList ++ more := by
  cases texts with
  | nil => exact ⟨[], (List.append_nil _).symm⟩
  | cons next texts => exact ⟨',' :: (commas (next :: texts)).toList, by simp [commas]⟩

theorem readBack_array {depth : ℕ} {items : List Json} (hplain : items.all (plain depth) = true)
    (hitems : ∀ v ∈ items, ReadBack v) : ReadBack (.array items) := by
  intro fuel rest hfuel _
  cases items with
  | nil =>
      obtain ⟨fuel, rfl⟩ := Nat.exists_eq_add_of_le' (Nat.le_trans (by decide : 1 ≤ 2) hfuel)
      rfl
  | cons v items =>
      rw [Json.compact, compactItems_eq] at hfuel ⊢
      obtain ⟨hcount, hlengths⟩ := length_commas ((v :: items).map Json.compact)
      rw [List.length_map] at hcount
      rw [length_bracketed rfl rfl] at hfuel
      obtain ⟨fuel, rfl⟩ := Nat.exists_eq_add_of_le' (show 1 ≤ fuel by omega)
      have hitem : ∀ w ∈ v :: items, ∀ rest, Ends rest →
          readValue fuel (w.compact.toList ++ rest) = some (w, rest) := by
        intro w hw rest hrest
        have hlength := hlengths _ (List.mem_map_of_mem hw)
        exact hitems w hw fuel rest (by omega) hrest
      have hclose : ']' ≠ ',' := by decide
      have hlist := readList_commas hclose (by decide) (List.cons_ne_nil v items) hitem
        (show (v :: items).length ≤ fuel by omega) rest
      obtain ⟨c, cs, hc, hne⟩ := head_compact
        (List.all_eq_true.mp hplain v List.mem_cons_self)
      obtain ⟨more, hmore⟩ := head_commas v.compact (items.map Json.compact)
      have hhead : ((commas ((v :: items).map Json.compact)).toList ++ ']' :: rest).head? ≠
          some ']' := by
        rw [List.map_cons, hmore, hc]
        simpa using hne
      have htext : ("[" ++ commas ((v :: items).map Json.compact) ++ "]").toList ++ rest =
          '[' :: ((commas ((v :: items).map Json.compact)).toList ++ ']' :: rest) := by
        simp
      rw [htext, readValue, if_neg (by decide), if_pos rfl, if_neg hhead, hlist]
      rfl

theorem readBack_object {members : List (String × Json)}
    (hmembers : ∀ m ∈ members, ReadBack m.2) : ReadBack (.object members) := by
  intro fuel rest hfuel _
  cases members with
  | nil =>
      obtain ⟨fuel, rfl⟩ := Nat.exists_eq_add_of_le' (Nat.le_trans (by decide : 1 ≤ 2) hfuel)
      rfl
  | cons m members =>
      rw [Json.compact, compactMembers_eq] at hfuel ⊢
      obtain ⟨hcount, hlengths⟩ := length_commas ((m :: members).map memberText)
      rw [List.length_map] at hcount
      rw [length_bracketed rfl rfl] at hfuel
      obtain ⟨fuel, rfl⟩ := Nat.exists_eq_add_of_le' (show 1 ≤ fuel by omega)
      have hitem : ∀ n ∈ m :: members, ∀ rest, Ends rest →
          readMember fuel (readValue fuel) ((memberText n).toList ++ rest) = some (n, rest) := by
        intro n hn rest hrest
        have hlength := hlengths _ (List.mem_map_of_mem hn)
        have hquoted := length_quoted n.1
        rw [memberText, String.length_append, String.length_append] at hlength
        exact readMember_text (by omega)
          (fun rest hrest => hmembers n hn fuel rest (by omega) hrest) hrest
      have hclose : '\x7d' ≠ ',' := by decide
      have hlist := readList_commas hclose (by decide) (List.cons_ne_nil m members) hitem
        (show (m :: members).length ≤ fuel by omega) rest
      obtain ⟨more, hmore⟩ := head_commas (memberText m) (members.map memberText)
      have hhead : ((commas ((m :: members).map memberText)).toList ++ '\x7d' :: rest).head? ≠
          some '\x7d' := by
        rw [List.map_cons, hmore, memberText, quoted]
        simp
      have htext : ("\x7b" ++ commas ((m :: members).map memberText) ++ "\x7d").toList ++ rest =
          '\x7b' :: ((commas ((m :: members).map memberText)).toList ++ '\x7d' :: rest) := by
        simp
      rw [htext, readValue, if_neg (by decide), if_neg (by decide), if_pos rfl, if_neg hhead, hlist]
      rfl

/-- Plain values are read back. -/
theorem readBack_of_plain {depth : ℕ} {v : Json} (h : plain depth v = true) : ReadBack v := by
  refine plain_induction readBack_null readBack_bool readBack_number readBack_string ?_ ?_ h
  · intro depth items hplain ih
    exact readBack_array hplain ih
  · intro members ih
    exact readBack_object ih

/-- The reader gives back what was written. -/
theorem readJson_compact {depth : ℕ} {v : Json} (h : plain depth v = true) :
    readJson (asBytes v.compact) = some v := by
  have hread := readBack_of_plain h v.compact.length [] (Nat.le_refl _) fun c hc => by cases hc
  rw [List.append_nil] at hread
  rw [readJson, fromUtf8_asBytes, Option.bind_eq_bind, Option.bind_some, hread]

theorem escapeChar_oneLine (c : Char) : '\n' ∉ escapeChar c := by
  have hhex : ∀ n : Fin 16, '\n' ≠ hexDigit n := by decide
  unfold escapeChar
  split_ifs with h1 h2 h3 h4 h5 h6 h7 h8
  all_goals simp
  · exact ⟨hhex _, hhex _⟩
  · rintro rfl
    exact h5 rfl

theorem quoted_oneLine (s : String) : '\n' ∉ (quoted s).toList := by
  intro h
  simp only [quoted, String.toList_ofList, List.mem_append, List.mem_cons, List.mem_flatMap] at h
  rcases h with (h | ⟨c, -, h⟩) | h
  · cases h
  · exact escapeChar_oneLine c h
  · simp at h

theorem digits_oneLine (n : UInt64) : '\n' ∉ (Number.text (.unsigned n)).toList := by
  intro h
  rw [Number.text, String.toList_ofList] at h
  exact absurd (Nat.isDigit_of_mem_toDigits (by decide) (by decide) h) (by decide)

theorem commas_oneLine {texts : List String} (h : ∀ t ∈ texts, '\n' ∉ t.toList) :
    '\n' ∉ (commas texts).toList := by
  induction texts with
  | nil => decide
  | cons text texts ih =>
      cases texts with
      | nil => exact h text List.mem_cons_self
      | cons next texts =>
          have hrest := ih fun t ht => h t (List.mem_cons_of_mem text ht)
          have htext := h text List.mem_cons_self
          simp only [commas, String.toList_append, List.mem_append, not_or]
          exact ⟨⟨htext, by decide⟩, hrest⟩

/-- No string can put a line feed into the text of a value. -/
theorem compact_oneLine {depth : ℕ} {v : Json} (h : plain depth v = true) :
    '\n' ∉ v.compact.toList := by
  have hbracketed : ∀ {left right text : String}, '\n' ∉ left.toList → '\n' ∉ right.toList →
      '\n' ∉ text.toList → '\n' ∉ (left ++ text ++ right).toList := by
    intro left right text hleft hright htext
    simp only [String.toList_append, List.mem_append, not_or]
    exact ⟨⟨hleft, htext⟩, hright⟩
  refine plain_induction (P := fun v => '\n' ∉ v.compact.toList) ?_ ?_ ?_ ?_ ?_ ?_ h
  · decide
  · intro b
    cases b <;> decide
  · intro n
    exact digits_oneLine n
  · intro s
    exact quoted_oneLine s
  · intro depth items _ ih
    rw [Json.compact, compactItems_eq]
    refine hbracketed (by decide) (by decide) (commas_oneLine ?_)
    intro t ht
    obtain ⟨v, hv, rfl⟩ := List.mem_map.mp ht
    exact ih v hv
  · intro members ih
    rw [Json.compact, compactMembers_eq]
    refine hbracketed (by decide) (by decide) (commas_oneLine ?_)
    intro t ht
    obtain ⟨m, hm, rfl⟩ := List.mem_map.mp ht
    simp only [memberText, String.toList_append, List.mem_append, not_or]
    exact ⟨⟨quoted_oneLine m.1, by decide⟩, ih m hm⟩

end VaultplaneGateway.JsonReading
