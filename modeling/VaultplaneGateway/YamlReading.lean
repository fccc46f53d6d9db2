import VaultplaneGateway.YamlEntries

/-!
# Reading an entry of a YAML list

A reader for documents with one entry. It works on lines: a line that is indented deeper
than the entry belongs to the block above it. Every entry of the fragment is read as
what it says.
-/
namespace VaultplaneGateway.YamlReading
open WireFormats StreamUsage EventStreams ProxyPipeline ConfigDocuments YamlEntries
open JsonReading (readChars)

/-- Quoted texts with a comma and a blank between them, up to the closing bracket. -/
def readItems : ℕ → List Char → Option (List String × List Char)
  | 0, _ => none
  | _ + 1, [] => none
  | fuel + 1, c :: cs =>
      if c = '"' then
        (readChars nextChar fuel cs).bind fun (s, rest) =>
          if rest.head? = some ']' then some ([String.ofList s], rest.tail)
          else if rest.take 2 = [',', ' '] then
            (readItems fuel (rest.drop 2)).map fun r => (String.ofList s :: r.1, r.2)
          else none
      else none

/-- A result with nothing behind it. -/
def whole {α : Type} : Option (α × List Char) → Option α
  | some (x, []) => some x
  | _ => none

/-- The rest of a line behind a name, a colon and a blank. -/
def readScalar (resolve : String → Json) : List Char → Option Json
  | [] => none
  | c :: cs =>
      if c = '"' then
        (whole (readChars nextChar cs.length cs)).map fun s => .string (String.ofList s)
      else if c = '[' then
        if cs = [']'] then some (.array [])
        else (whole (readItems cs.length cs)).map fun ss => .array (ss.map .string)
      else if plainText (String.ofList (c :: cs)) then some (resolve (String.ofList (c :: cs)))
      else none

/-- A closing quote ends a text that has none of its own. -/
theorem readChars_unescapeFrom {n : ℕ} {raw s : List Char} (h : unescapeFrom n raw = some s)
    (rest : List Char) {fuel : ℕ} (hfuel : raw.length < fuel) :
    readChars nextChar fuel (raw ++ '"' :: rest) = some (s, rest) := by
  induction n generalizing raw s fuel with
  | zero =>
      cases raw with
      | nil =>
          cases h
          obtain ⟨fuel, rfl⟩ := Nat.exists_eq_succ_of_ne_zero (Nat.ne_of_gt hfuel)
          rfl
      | cons c cs => cases h
  | succ n ih =>
      obtain ⟨fuel, rfl⟩ := Nat.exists_eq_succ_of_ne_zero (Nat.ne_of_gt (Nat.zero_lt_of_lt hfuel))
      cases raw with
      | nil =>
          cases h
          rfl
      | cons c cs =>
          obtain ⟨d, more, t, hnext, hmore, rfl⟩ := unescapeFrom_cons h
          obtain ⟨hlt, happend⟩ := nextChar_append hnext
          have hquote : c ≠ '"' := by
            rintro rfl
            rw [nextChar, if_neg (by decide), if_neg (by decide)] at hnext
            cases hnext
          have hread := ih hmore (Nat.lt_of_lt_of_le hlt (Nat.le_of_lt_succ hfuel))
          rw [readChars, if_neg (by simpa using hquote), happend]
          simp only [Option.bind_eq_bind, Option.bind_some, hread, Option.pure_def]

theorem exists_unescapeFrom {raw s : String} (h : unescape raw = some s) :
    unescapeFrom raw.toList.length raw.toList = some s.toList := by
  obtain ⟨t, ht, rfl⟩ := Option.map_eq_some_iff.mp h
  rw [ht, String.toList_ofList]

theorem toList_enquote (raw : String) (rest : List Char) :
    (enquote raw).toList ++ rest = '"' :: (raw.toList ++ '"' :: rest) := by
  simp [enquote]

theorem readScalar_quoted (resolve : String → Json) {raw s : String} (h : unescape raw = some s) :
    readScalar resolve (enquote raw).toList = some (.string s) := by
  have hlist : (enquote raw).toList = '"' :: (raw.toList ++ ['"']) := by
    simpa using toList_enquote raw []
  have hfuel : raw.toList.length < (raw.toList ++ ['"']).length := by
    rw [List.length_append]
    exact Nat.lt_succ_self _
  rw [hlist, readScalar, if_pos rfl, readChars_unescapeFrom (exists_unescapeFrom h) [] hfuel, whole,
    Option.map_some, String.ofList_toList]

theorem readItems_enquoted {raws ss : List String} (h : raws.mapM unescape = some ss)
    (hne : raws ≠ []) (rest : List Char) (fuel : ℕ)
    (hfuel : ((", ".intercalate (raws.map enquote)).toList ++ ']' :: rest).length ≤ fuel) :
    readItems fuel ((", ".intercalate (raws.map enquote)).toList ++ ']' :: rest) =
      some (ss, rest) := by
  induction raws generalizing ss fuel with
  | nil => exact absurd rfl hne
  | cons raw raws ih =>
      obtain ⟨fuel, rfl⟩ : ∃ n, fuel = n + 1 := by
        refine ⟨fuel - 1, ?_⟩
        simp only [List.length_append, List.length_cons] at hfuel
        omega
      rw [List.mapM_cons] at h
      obtain ⟨s, hs, h⟩ := Option.bind_eq_some_iff.mp h
      obtain ⟨ts, hts, h⟩ := Option.bind_eq_some_iff.mp h
      cases h
      have hraw := exists_unescapeFrom hs
      cases raws with
      | nil =>
          cases hts
          have htext : (", ".intercalate ([raw].map enquote)).toList ++ ']' :: rest =
              '"' :: (raw.toList ++ '"' :: ']' :: rest) := toList_enquote raw (']' :: rest)
          rw [htext] at hfuel ⊢
          have hlong : raw.toList.length < fuel := by
            simp only [List.length_append, List.length_cons] at hfuel
            omega
          have hchars := readChars_unescapeFrom hraw (']' :: rest) hlong
          rw [readItems, if_pos rfl, hchars, Option.bind_some]
          simp
      | cons next raws =>
          have htext : (", ".intercalate ((raw :: next :: raws).map enquote)).toList ++ ']' :: rest =
              '"' :: (raw.toList ++ '"' :: ',' :: ' ' ::
                ((", ".intercalate ((next :: raws).map enquote)).toList ++ ']' :: rest)) := by
            simp [enquote, List.intercalate]
          rw [htext] at hfuel ⊢
          have hnext := ih hts (List.cons_ne_nil _ _) fuel
          generalize (", ".intercalate ((next :: raws).map enquote)).toList ++ ']' :: rest = more
            at hnext hfuel ⊢
          simp only [List.length_append, List.length_cons] at hfuel
          have hlong : raw.toList.length < fuel := by omega
          have hmore : more.length ≤ fuel := by omega
          have hchars := readChars_unescapeFrom hraw (',' :: ' ' :: more) hlong
          have hrest := hnext hmore
          rw [readItems, if_pos rfl, hchars, Option.bind_some]
          simp [hrest]

theorem readScalar_quotedList (resolve : String → Json) {raws ss : List String}
    (h : raws.mapM unescape = some ss) :
    readScalar resolve ("[" ++ ", ".intercalate (raws.map enquote) ++ "]").toList =
      some (.array (ss.map .string)) := by
  have htext : ("[" ++ ", ".intercalate (raws.map enquote) ++ "]").toList =
      '[' :: ((", ".intercalate (raws.map enquote)).toList ++ [']']) := by
    simp
  rw [htext, readScalar, if_neg (by decide), if_pos rfl]
  cases raws with
  | nil =>
      cases h
      rfl
  | cons raw raws =>
      have hlong : (", ".intercalate ((raw :: raws).map enquote)).toList ++ [']'] ≠ [']'] := by
        cases raws <;> simp [enquote, List.intercalate]
      rw [if_neg hlong, readItems_enquoted h (List.cons_ne_nil _ _) [] _ (Nat.le_refl _)]
      rfl

theorem plainText_spec {text : String} (h : plainText text = true) :
    text.toList ≠ [] ∧ ∀ c ∈ text.toList, (c.isAlphanum || c == '.' || c == '-') = true := by
  unfold plainText at h
  rw [Bool.and_eq_true, Bool.and_eq_true, bne_iff_ne, bne_iff_ne, List.all_eq_true] at h
  refine ⟨fun hnil => h.1.1 (String.toList_inj.mp hnil), h.2⟩

theorem readScalar_plain (resolve : String → Json) {text : String} (h : plainText text = true) :
    readScalar resolve text.toList = some (resolve text) := by
  obtain ⟨hne, hall⟩ := plainText_spec h
  obtain ⟨c, cs, hcs⟩ := List.exists_cons_of_ne_nil hne
  have hc := hall c (hcs ▸ List.mem_cons_self)
  have hquote : c ≠ '"' := by
    rintro rfl
    exact absurd hc (by decide)
  have hbracket : c ≠ '[' := by
    rintro rfl
    exact absurd hc (by decide)
  rw [hcs, readScalar, if_neg hquote, if_neg hbracket, ← hcs, String.ofList_toList, if_pos h]

/-- A name, up to a colon, and the rest of its line. -/
def splitName (cs : List Char) : Option (String × List Char) :=
  match cs.dropWhile (· != ':') with
  | [] => none
  | _ :: rest => some (String.ofList (cs.takeWhile (· != ':')), rest)

/-- What stands behind a colon and a blank. -/
def afterBlank : List Char → Option (List Char)
  | c :: cs => if c = ' ' then some cs else none
  | [] => none

/-- The members of an entry, from its last line to its first: those of the block that is still open
at the top, and those of the entry itself. -/
def readMembers (resolve : String → Json) :
    List String → Option (List (String × Json) × List (String × Json))
  | [] => some ([], [])
  | line :: rest =>
      (readMembers resolve rest).bind fun (nested, members) =>
        match stripPrefix line "  " with
        | some line =>
            (splitName line.toList).bind fun (name, more) =>
              (afterBlank more).map fun text =>
                ((name, resolve (String.ofList text)) :: nested, members)
        | none =>
            (splitName line.toList).bind fun (name, more) =>
              if more = [] then some ([], (name, .object nested) :: members)
              else if nested.isEmpty then
                ((afterBlank more).bind (readScalar resolve)).map fun v =>
                  ([], (name, v) :: members)
              else none

theorem nameText_spec {name : String} (h : nameText name = true) :
    (∀ c ∈ name.toList, (c != ':') = true) ∧ ∀ rest, ¬ "  ".toList <+: name.toList ++ rest := by
  unfold nameText at h
  rw [Bool.and_eq_true, Bool.and_eq_true, List.all_eq_true] at h
  obtain ⟨⟨hhead, hall⟩, -⟩ := h
  constructor
  · intro c hc
    rw [bne_iff_ne]
    rintro rfl
    exact absurd (hall ':' hc) (by decide)
  · intro rest hstrip
    cases hname : name.toList with
    | nil =>
        rw [hname] at hhead
        exact absurd hhead (by decide)
    | cons c cs =>
        rw [hname] at hhead hstrip
        obtain ⟨more, hmore⟩ := hstrip
        have hc : ' ' = c := (List.cons.inj hmore).1
        subst hc
        have hletter : Char.isAlpha ' ' = true := hhead
        exact absurd hletter (by decide)

theorem splitName_text {name : String} (h : nameText name = true) (rest : List Char) :
    splitName (name.toList ++ ':' :: rest) = some (name, rest) := by
  have hname := (nameText_spec h).1
  rw [splitName, List.dropWhile_append_of_pos hname, List.takeWhile_append_of_pos hname,
    List.dropWhile_cons_of_neg (by decide), List.takeWhile_cons_of_neg (by decide),
    List.append_nil, String.ofList_toList]

/-- Members that are read one by one are found by their names. -/
theorem given_of_forall₂ {τ : Type} {writes : Json → τ → Prop} {members : List (String × τ)}
    {values : List (String × Json)}
    (h : List.Forall₂ (fun m v => m.1 = v.1 ∧ writes v.2 m.2) members values)
    (hdistinct : (members.map Prod.fst).Nodup) (name : String) :
    Given values name writes (members.lookup name) := by
  have hnone : ∀ {members : List (String × τ)} {values : List (String × Json)},
      List.Forall₂ (fun m v => m.1 = v.1 ∧ writes v.2 m.2) members values →
        name ∉ members.map Prod.fst → values.filter (fun v => v.1 == name) = [] := by
    intro members values h hnot
    induction h with
    | nil => rfl
    | @cons m v members values hmv _ ih =>
        rw [List.map_cons, List.mem_cons, not_or] at hnot
        have hne : v.1 ≠ name := fun he => hnot.1 (he.symm.trans hmv.1.symm)
        rw [List.filter_cons_of_neg (by simpa using hne), ih hnot.2]
  induction h with
  | nil => exact ⟨none, rfl, .none⟩
  | @cons m v members values hmv hrest ih =>
      rw [List.map_cons, List.nodup_cons] at hdistinct
      by_cases hname : name = m.1
      · have hlookup : (m :: members).lookup name = some m.2 := by
          rw [List.lookup_cons, hname, beq_self_eq_true]
        have hfield : structField (v :: values) name = some (some v.2) := by
          have hvalues := hnone hrest (hname ▸ hdistinct.1)
          rw [structField, List.filter_cons_of_pos (by rw [hname, hmv.1]; exact beq_self_eq_true _),
            hvalues]
        rw [hlookup]
        exact ⟨some v.2, hfield, .some hmv.2⟩
      · have hlookup : (m :: members).lookup name = members.lookup name := by
          rw [List.lookup_cons, beq_false_of_ne hname]
        obtain ⟨w, hw, hrel⟩ := ih hdistinct.2
        rw [hlookup]
        refine ⟨w, ?_, hrel⟩
        have hne : v.1 ≠ name := fun he => hname (he.symm.trans hmv.1.symm)
        rw [← hw, structField, structField, List.filter_cons_of_neg (by simpa using hne)]

section Members

variable {resolve : String → Json}

theorem readMembers_line {name : String} (hname : nameText name = true) {text : List Char}
    {v : Json} (hv : readScalar resolve text = some v) {line : String}
    (hline : line.toList = name.toList ++ ':' :: ' ' :: text) {rest : List String}
    {members : List (String × Json)} (hrest : readMembers resolve rest = some ([], members)) :
    readMembers resolve (line :: rest) = some ([], (name, v) :: members) := by
  have hstrip : stripPrefix line "  " = none := by
    refine stripPrefix_eq_none ?_
    rw [hline]
    exact (nameText_spec hname).2 _
  rw [readMembers, hrest, Option.bind_some]
  simp only [hstrip, hline, splitName_text hname, Option.bind_some]
  simp [afterBlank, hv]

/-- The lines of a block, below those of what follows it. -/
theorem readMembers_nested {block : List (String × String)}
    (h : ∀ m ∈ block, nameText m.1 = true ∧ plainText m.2 = true) {rest : List String}
    {members : List (String × Json)} (hrest : readMembers resolve rest = some ([], members)) :
    readMembers resolve (block.map (fun m => "  " ++ m.1 ++ ": " ++ m.2) ++ rest) =
      some (block.map (fun m => (m.1, resolve m.2)), members) := by
  induction block with
  | nil => exact hrest
  | cons m block ih =>
      have hblock := ih fun n hn => h n (List.mem_cons_of_mem m hn)
      have hm := (h m List.mem_cons_self).1
      have hstrip : stripPrefix ("  " ++ m.1 ++ ": " ++ m.2) "  " =
          some (m.1 ++ ": " ++ m.2) := by
        rw [String.append_assoc, String.append_assoc, String.append_assoc]
        exact stripPrefix_append _ _
      have hlist : (m.1 ++ ": " ++ m.2).toList = m.1.toList ++ ':' :: ' ' :: m.2.toList := by
        simp
      rw [List.map_cons, List.cons_append, readMembers, hblock, Option.bind_some]
      simp only [hstrip, hlist, splitName_text hm, Option.bind_some]
      simp [afterBlank]

/-- The lines of one member, whatever it is. -/
theorem readMembers_member {name : String} (hname : nameText name = true) {node : Node}
    (hnode : node.WellFormed) {rest : List String} {members : List (String × Json)}
    (hrest : readMembers resolve rest = some ([], members)) :
    ∃ v, node.Means resolve v ∧
      readMembers resolve (node.lines name ++ rest) = some ([], (name, v) :: members) := by
  cases node with
  | quoted raw =>
      obtain ⟨s, hs⟩ := Option.isSome_iff_exists.mp hnode
      exact ⟨.string s, ⟨s, hs, rfl⟩, readMembers_line hname (readScalar_quoted resolve hs)
        (by simp) hrest⟩
  | quotedList raws =>
      obtain ⟨ss, hss⟩ := exists_mapM hnode
      exact ⟨_, ⟨ss, hss, rfl⟩,
        readMembers_line hname (readScalar_quotedList resolve hss) (by simp) hrest⟩
  | plain text =>
      exact ⟨resolve text, rfl,
        readMembers_line hname (readScalar_plain resolve hnode) (by simp) hrest⟩
  | block block =>
      obtain ⟨-, hdistinct, hblock⟩ := hnode
      refine ⟨.object (block.map fun m => (m.1, resolve m.2)), ⟨_, rfl, fun n => ?_⟩, ?_⟩
      · refine given_of_forall₂ (List.forall₂_map_right_iff.mpr ?_) hdistinct n
        exact List.forall₂_same.mpr fun m _ => ⟨rfl, rfl⟩
      · have hstrip : stripPrefix (name ++ ":") "  " = none := by
          refine stripPrefix_eq_none ?_
          rw [String.toList_append]
          exact (nameText_spec hname).2 _
        have hlist : (name ++ ":").toList = name.toList ++ [':'] := by
          simp
        rw [Node.lines, List.cons_append, readMembers, readMembers_nested hblock hrest,
          Option.bind_some]
        simp only [hstrip, hlist, splitName_text hname, Option.bind_some, if_true]

theorem readMembers_members (resolve : String → Json) {members : List (String × Node)}
    (hnames : ∀ m ∈ members, nameText m.1 = true) (hnodes : ∀ m ∈ members, m.2.WellFormed) :
    ∃ values, readMembers resolve (members.flatMap fun m => m.2.lines m.1) = some ([], values) ∧
      List.Forall₂ (fun m v => m.1 = v.1 ∧ m.2.Means resolve v.2) members values := by
  induction members with
  | nil => exact ⟨[], rfl, .nil⟩
  | cons m members ih =>
      obtain ⟨values, hvalues, hmeans⟩ := ih (fun n hn => hnames n (List.mem_cons_of_mem m hn))
        (fun n hn => hnodes n (List.mem_cons_of_mem m hn))
      obtain ⟨v, hv, hread⟩ := readMembers_member (hnames m List.mem_cons_self)
        (hnodes m List.mem_cons_self) hvalues
      exact ⟨(m.1, v) :: values, hread, .cons ⟨rfl, hv⟩ hmeans⟩

end Members

def Unbroken (cs : List Char) : Prop := '\n' ∉ cs ∧ '\r' ∉ cs

instance (cs : List Char) : Decidable (Unbroken cs) := inferInstanceAs (Decidable (_ ∧ _))

theorem unbroken_nil : Unbroken [] := ⟨List.not_mem_nil, List.not_mem_nil⟩

theorem unbroken_append {cs ds : List Char} : Unbroken (cs ++ ds) ↔ Unbroken cs ∧ Unbroken ds := by
  unfold Unbroken
  rw [List.mem_append, List.mem_append, not_or, not_or]
  exact and_and_and_comm

/-- Characters of a kind to which line breaks do not belong. -/
theorem unbroken_of_all {p : Char → Bool} (hp : p '\n' = false ∧ p '\r' = false) {cs : List Char}
    (h : ∀ c ∈ cs, p c = true) : Unbroken cs := by
  constructor
  · intro hc
    exact absurd (h _ hc) (by rw [hp.1]; decide)
  · intro hc
    exact absurd (h _ hc) (by rw [hp.2]; decide)

theorem readCode_unbroken {width : ℕ} {cs rest : List Char} {c : Char}
    (h : readCode width cs = some (c, rest)) : ∃ used, cs = used ++ rest ∧ Unbroken used := by
  unfold readCode at h
  split_ifs at h
  obtain ⟨digits, hdigits, hcode⟩ := Option.bind_eq_some_iff.mp h
  dsimp only at hcode
  split_ifs at hcode
  obtain ⟨-, rfl⟩ := Prod.mk.inj (Option.some.inj hcode)
  exact ⟨cs.take width, (List.take_append_drop width cs).symm,
    unbroken_of_all (p := fun c => (JsonReading.hexValue c).isSome) (by decide)
      (isSome_of_mapM hdigits)⟩

/-- What is read as one character has no line break in it. -/
theorem nextChar_unbroken {cs rest : List Char} {c : Char} (h : nextChar cs = some (c, rest)) :
    ∃ used, cs = used ++ rest ∧ Unbroken used := by
  cases cs with
  | nil => cases h
  | cons d cs =>
      simp only [nextChar] at h
      split_ifs at h with hslash hordinary
      · subst hslash
        cases cs with
        | nil => cases h
        | cons e cs =>
            have hcode : ∀ width e, Unbroken ['\\', e] → readCode width cs = some (c, rest) →
                ∃ used, '\\' :: e :: cs = used ++ rest ∧ Unbroken used := by
              intro width e he hread
              obtain ⟨used, hused, hunbroken⟩ := readCode_unbroken hread
              exact ⟨['\\', e] ++ used, by rw [hused]; rfl, unbroken_append.mpr ⟨he, hunbroken⟩⟩
            simp only [readEscape] at h
            split_ifs at h with hx hu hU
            · exact hcode 2 e (by rw [hx]; decide) h
            · exact hcode 4 e (by rw [hu]; decide) h
            · exact hcode 8 e (by rw [hU]; decide) h
            · obtain ⟨f, hf, heq⟩ := Option.map_eq_some_iff.mp h
              obtain ⟨-, rfl⟩ := Prod.mk.inj heq
              refine ⟨['\\', e], rfl, ?_⟩
              refine unbroken_of_all (p := fun c => c == '\\' || (escapes.lookup c).isSome)
                (by decide) ?_
              intro k hk
              rcases List.mem_cons.mp hk with rfl | hk
              · rfl
              · rw [List.mem_singleton.mp hk, hf, Option.isSome_some, Bool.or_true]
      · obtain ⟨rfl, rfl⟩ := Prod.mk.inj (Option.some.inj h)
        refine ⟨[d], rfl, unbroken_of_all (p := ordinary) (by decide) ?_⟩
        intro k hk
        rw [List.mem_singleton.mp hk]
        exact hordinary

theorem unescapeFrom_unbroken {fuel : ℕ} {cs s : List Char} (h : unescapeFrom fuel cs = some s) :
    Unbroken cs := by
  induction fuel generalizing cs s with
  | zero =>
      cases cs with
      | nil => exact unbroken_nil
      | cons c cs => cases h
  | succ fuel ih =>
      cases cs with
      | nil => exact unbroken_nil
      | cons c cs =>
          obtain ⟨d, rest, t, hnext, hrest, -⟩ := unescapeFrom_cons h
          obtain ⟨used, hused, hunbroken⟩ := nextChar_unbroken hnext
          rw [hused]
          exact unbroken_append.mpr ⟨hunbroken, ih hrest⟩

theorem unescape_unbroken {raw : String} (h : (unescape raw).isSome = true) :
    Unbroken raw.toList := by
  obtain ⟨s, hs⟩ := Option.isSome_iff_exists.mp h
  exact unescapeFrom_unbroken (exists_unescapeFrom hs)

theorem nameText_unbroken {name : String} (h : nameText name = true) : Unbroken name.toList := by
  unfold nameText at h
  rw [Bool.and_eq_true, Bool.and_eq_true, List.all_eq_true] at h
  exact unbroken_of_all (by decide) h.1.2

theorem plainText_unbroken {text : String} (h : plainText text = true) : Unbroken text.toList :=
  unbroken_of_all (by decide) (plainText_spec h).2

theorem enquoted_unbroken {raws : List String} (h : ∀ raw ∈ raws, (unescape raw).isSome = true) :
    Unbroken (", ".intercalate (raws.map enquote)).toList := by
  induction raws with
  | nil => exact unbroken_nil
  | cons raw raws ih =>
      have hraw : Unbroken (enquote raw).toList := by
        rw [enquote, String.toList_append, String.toList_append, unbroken_append, unbroken_append]
        exact ⟨⟨by decide, unescape_unbroken (h raw List.mem_cons_self)⟩, by decide⟩
      have hrest := ih fun r hr => h r (List.mem_cons_of_mem raw hr)
      cases raws with
      | nil => exact hraw
      | cons next raws =>
          have htext : (", ".intercalate ((raw :: next :: raws).map enquote)).toList =
              (enquote raw).toList ++ (", ".toList ++
                (", ".intercalate ((next :: raws).map enquote)).toList) := by
            simp [List.intercalate]
          rw [htext, unbroken_append, unbroken_append]
          exact ⟨hraw, by decide, hrest⟩

theorem lines_unbroken {name : String} (hname : nameText name = true) {node : Node}
    (hnode : node.WellFormed) : ∀ line ∈ node.lines name, Unbroken line.toList := by
  have happend : ∀ {a b : String}, Unbroken a.toList → Unbroken b.toList →
      Unbroken (a ++ b).toList := by
    intro a b ha hb
    rw [String.toList_append]
    exact unbroken_append.mpr ⟨ha, hb⟩
  have hname := nameText_unbroken hname
  cases node with
  | quoted raw =>
      intro line hline
      rw [List.mem_singleton.mp hline]
      refine happend (happend hname (by decide)) (happend (happend (by decide) ?_) (by decide))
      exact unescape_unbroken hnode
  | quotedList raws =>
      intro line hline
      rw [List.mem_singleton.mp hline]
      exact happend (happend (happend hname (by decide)) (enquoted_unbroken hnode)) (by decide)
  | plain text =>
      intro line hline
      rw [List.mem_singleton.mp hline]
      exact happend (happend hname (by decide)) (plainText_unbroken hnode)
  | block block =>
      intro line hline
      rcases List.mem_cons.mp hline with rfl | hline
      · exact happend hname (by decide)
      · obtain ⟨m, hm, rfl⟩ := List.mem_map.mp hline
        obtain ⟨hmname, hmtext⟩ := hnode.2.2 m hm
        exact happend (happend (happend (by decide) (nameText_unbroken hmname)) (by decide))
          (plainText_unbroken hmtext)

def readEntry (resolve : String → Json) : List String → Option (List (String × Json))
  | [] => none
  | first :: rest =>
      (stripPrefix first "  - ").bind fun first =>
        (rest.mapM fun line => stripPrefix line "    ").bind fun rest =>
          match readMembers resolve (first :: rest) with
          | some ([], members) => some members
          | _ => none

/-- A name that has a block below it. -/
def readHeader (line : String) : Option String :=
  (splitName line.toList).bind fun (name, more) => if more = [] then some name else none

def readDocument (resolve : String → Json) (text : String) : Option Json :=
  match lines text with
  | outer :: inner :: entry => do
      let outer ← readHeader outer
      let inner ← (stripPrefix inner "  ").bind readHeader
      let members ← readEntry resolve entry
      some (.object [(outer, .object [(inner, .array [.object members])])])
  | _ => none

theorem readHeader_text {name : String} (h : nameText name = true) :
    readHeader (name ++ ":") = some name := by
  have hlist : (name ++ ":").toList = name.toList ++ [':'] := by
    simp
  rw [readHeader, hlist, splitName_text h, Option.bind_some]
  exact if_pos rfl

theorem readEntry_entryLines (resolve : String → Json) {members : List (String × Node)}
    (h : WellFormed members) :
    ∃ values, readEntry resolve (entryLines members) = some values ∧
      List.Forall₂ (fun m v => m.1 = v.1 ∧ m.2.Means resolve v.2) members values := by
  obtain ⟨values, hvalues, hmeans⟩ := readMembers_members resolve h.names h.nodes
  refine ⟨values, ?_, hmeans⟩
  unfold entryLines
  cases hlines : members.flatMap fun m => m.2.lines m.1 with
  | nil =>
      obtain ⟨m, rest, rfl⟩ := List.exists_cons_of_ne_nil h.nonempty
      obtain ⟨name, node⟩ := m
      cases node <;> simp [Node.lines] at hlines
  | cons first rest =>
      have hrest : (rest.map fun line => "    " ++ line).mapM (fun line => stripPrefix line "    ") =
          some rest := by
        rw [List.mapM_map]
        exact mapM_self_iff.mpr fun line _ => stripPrefix_append "    " line
      rw [hlines] at hvalues
      dsimp only
      rw [readEntry, stripPrefix_append, Option.bind_some, hrest, Option.bind_some, hvalues]

theorem document_unbroken {outer inner : String} {members : List (String × Node)}
    (houter : nameText outer = true) (hinner : nameText inner = true) (h : WellFormed members) :
    ∀ line ∈ (outer ++ ":") :: ("  " ++ inner ++ ":") :: entryLines members, OneLine line := by
  have happend : ∀ {a b : String}, Unbroken a.toList → Unbroken b.toList → OneLine (a ++ b) := by
    intro a b ha hb
    have hboth := unbroken_append.mpr ⟨ha, hb⟩
    rwa [← String.toList_append] at hboth
  have hmembers : ∀ line ∈ members.flatMap fun m => m.2.lines m.1, Unbroken line.toList := by
    intro line hline
    obtain ⟨m, hm, hline⟩ := List.mem_flatMap.mp hline
    exact lines_unbroken (h.names m hm) (h.nodes m hm) line hline
  intro line hline
  rcases List.mem_cons.mp hline with rfl | hline
  · exact happend (nameText_unbroken houter) (by decide)
  rcases List.mem_cons.mp hline with rfl | hline
  · exact happend (happend (by decide) (nameText_unbroken hinner)) (by decide)
  unfold entryLines at hline
  split at hline
  · exact absurd hline List.not_mem_nil
  · rename_i first rest hlines
    rw [hlines] at hmembers
    rcases List.mem_cons.mp hline with rfl | hline
    · exact happend (by decide) (hmembers first List.mem_cons_self)
    · obtain ⟨l, hl, rfl⟩ := List.mem_map.mp hline
      exact happend (by decide) (hmembers l (List.mem_cons_of_mem first hl))

theorem readDocument_reads (resolve : String → Json) :
    ReadsEntries (readDocument resolve) resolve := by
  intro outer inner members houter hinner h
  obtain ⟨values, hvalues, hmeans⟩ := readEntry_entryLines resolve h
  refine ⟨values, ?_, given_of_forall₂ hmeans h.distinct⟩
  have hinnerLine : (stripPrefix ("  " ++ inner ++ ":") "  ").bind readHeader = some inner := by
    rw [String.append_assoc, stripPrefix_append, Option.bind_some, readHeader_text hinner]
  rw [readDocument, document, lines_join (document_unbroken houter hinner h)]
  simp only [readHeader_text houter, hinnerLine, hvalues, Option.bind_eq_bind, Option.bind_some]

end VaultplaneGateway.YamlReading
