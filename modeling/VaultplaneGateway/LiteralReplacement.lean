import VaultplaneGateway.PiiRedaction

/-!
# Replacement texts with references

The replacement of the redaction plugin is free text of the operator, and the search
library reads it as a template. It is substituted as written if no dollar sign of it
starts a reference: a second dollar sign, a letter, digit or underscore, or an opening
brace that is closed later. Otherwise every match is replaced by something with fewer
dollar signs, because the words of the patterns have none. The difference shows as soon
as a pattern occurs.
-/
namespace VaultplaneGateway.LiteralReplacement
open ConfigOverlay BoundedPatterns PiiRedaction

/-- What follows a dollar sign makes it a reference. -/
def startsReference : List Char → Bool
  | [] => false
  | '$' :: _ => true
  | '\x7b' :: rest => rest.contains '\x7d'
  | c :: _ => capLetter c

def literalText : List Char → Bool
  | [] => true
  | c :: rest => !(c == '$' && startsReference rest) && literalText rest

/-- No dollar sign of the text starts a reference. -/
def literal (replacement : String) : Bool := literalText replacement.toList

/-- The patterns one after the other, each match replaced by the text itself. -/
def redactLiterally (tables : CharTables) (patterns : List PiiPattern) (replacement text : String) :
    String :=
  (patterns.filterMap fun p => compile tables (regex p)).foldl (fun result pattern =>
    String.ofList (replaceAll tables.word pattern (fun _ => replacement.toList) result.toList)) text

theorem takeWhile_length_lt_iff (f : Char → Bool) (text : List Char) :
    (text.takeWhile f).length < text.length ↔ ∃ c ∈ text, f c = false := by
  induction text with
  | nil => simp
  | cons c text ih =>
      cases hc : f c with
      | true => simp [hc, ih]
      | false => simp [hc]

theorem startsReference_cons {c : Char} (hdollar : c ≠ '$') (hbrace : c ≠ '\x7b')
    (rest : List Char) : startsReference (c :: rest) = capLetter c := by
  unfold startsReference
  split
  · simp_all
  · simp_all
  · simp_all
  · simp_all

/-- Whether there is a reference does not depend on the match. -/
theorem reference_eq_none_iff (matched rest : List Char) :
    reference matched rest = none ↔ startsReference rest = false := by
  unfold reference
  split
  · simp [startsReference]
  · rename_i rest
    have hclosed : (rest.takeWhile (· != '\x7d')).length < rest.length ↔ '\x7d' ∈ rest := by
      rw [takeWhile_length_lt_iff]
      simp
    by_cases hbrace : '\x7d' ∈ rest
    · simp [startsReference, hclosed.mpr hbrace, hbrace]
    · simp [startsReference, mt hclosed.mp hbrace, hbrace]
  · rename_i hdollar hbrace
    cases rest with
    | nil => simp [startsReference]
    | cons c rest =>
        rw [startsReference_cons (fun h => hdollar rest (by rw [h]))
          (fun h => hbrace rest (by rw [h]))]
        cases hcap : capLetter c <;> simp [hcap]

/-- A reference has no more dollar signs when it is filled in than after its first one. -/
theorem count_reference {matched rest inserted : List Char} {length : ℕ} (h : '$' ∉ matched)
    (href : reference matched rest = some (length, inserted)) :
    inserted.count '$' + (rest.drop length).count '$' ≤ rest.count '$' := by
  have hmatched : matched.count '$' = 0 := List.count_eq_zero.mpr h
  have hdrop : (rest.drop length).count '$' ≤ rest.count '$' :=
    (List.drop_sublist length rest).count_le '$'
  unfold reference at href
  split at href
  · cases href
    simp [Nat.add_comm]
  · dsimp only at href
    split_ifs at href with hclosed hzero
    · cases href
      omega
    · cases href
      simpa using hdrop
  · dsimp only at href
    split_ifs at href with hempty hzero
    · cases href
      omega
    · cases href
      simpa using hdrop

theorem count_interpolate_le {matched : List Char} (h : '$' ∉ matched) (skip : ℕ)
    (template : List Char) :
    (interpolate matched skip template).count '$' ≤ (template.drop skip).count '$' := by
  induction template generalizing skip with
  | nil => cases skip <;> simp [interpolate]
  | cons c rest ih =>
      cases skip with
      | succ skip =>
          rw [interpolate, List.drop_succ_cons]
          exact ih skip
      | zero =>
          rw [interpolate, List.drop_zero]
          split_ifs with hc
          · subst hc
            cases href : reference matched rest with
            | none =>
                have := ih 0
                simpa using this
            | some r =>
                obtain ⟨length, inserted⟩ := r
                have hrest := ih length
                have hcount := count_reference h href
                rw [List.count_append, List.count_cons_self]
                omega
          · have := ih 0
            rw [List.drop_zero] at this
            rw [List.count_cons_of_ne hc, List.count_cons_of_ne hc]
            exact this

/-- A template with a reference loses a dollar sign. -/
theorem count_interpolate_lt {matched : List Char} (h : '$' ∉ matched) {template : List Char}
    (htemplate : literalText template = false) :
    (interpolate matched 0 template).count '$' < template.count '$' := by
  induction template with
  | nil => cases htemplate
  | cons c rest ih =>
      rw [interpolate]
      by_cases hc : c = '$'
      · subst hc
        rw [if_pos rfl, List.count_cons_self]
        cases href : reference matched rest with
        | none =>
            have hstart := (reference_eq_none_iff matched rest).mp href
            have hrest : literalText rest = false := by
              simpa [literalText, hstart] using htemplate
            dsimp only
            rw [List.count_cons_self]
            have := ih hrest
            omega
        | some r =>
            obtain ⟨length, inserted⟩ := r
            have hrest := count_interpolate_le h length rest
            have hcount := count_reference h href
            dsimp only
            rw [List.count_append]
            omega
      · have hrest : literalText rest = false := by
          simpa [literalText, hc] using htemplate
        rw [if_neg hc, List.count_cons_of_ne hc, List.count_cons_of_ne hc]
        exact ih hrest

/-- A template without references is its own expansion. -/
theorem interpolate_literal {template : List Char} (htemplate : literalText template = true)
    (matched : List Char) : interpolate matched 0 template = template := by
  induction template with
  | nil => rfl
  | cons c rest ih =>
      simp only [literalText, Bool.and_eq_true] at htemplate
      obtain ⟨hstart, hrest⟩ := htemplate
      rw [interpolate, ih hrest]
      split_ifs with hc
      · have hnone : startsReference rest = false := by
          simpa [hc] using hstart
        rw [(reference_eq_none_iff matched rest).mpr hnone, hc]
      · rfl

theorem regex_dollar (pattern : PiiPattern) :
    (parseExpression (regex pattern)).any (fun repeats =>
      repeats.all fun r => !r.letters.accepts asciiTables '$') = true := by
  cases pattern <;> decide +kernel

/-- No word of a pattern has a dollar sign. -/
theorem dollar_not_mem_of_spells {tables : CharTables} {pattern : PiiPattern} {p : Pattern Char}
    (hcompile : compile tables (regex pattern) = some p) {w : List Char}
    (hw : Spells p.pieces w) : '$' ∉ w := by
  obtain ⟨repeats, hparse, hall⟩ := (Option.any_eq_true _ _).mp (regex_dollar pattern)
  rw [compile, hparse, Option.bind_some] at hcompile
  split_ifs at hcompile with hconsumes
  intro hdollar
  obtain ⟨q, hq, haccepts⟩ := accepts_of_spells hw '$' hdollar
  rw [← Option.some.inj hcompile] at hq
  obtain ⟨r, hr, rfl⟩ := List.mem_map.mp hq
  have hnone := List.all_eq_true.mp hall r hr
  rw [← accepts_ascii tables r.letters (by decide)] at hnone
  rw [Bool.not_eq_true'] at hnone
  exact absurd (hnone.symm.trans haccepts) (by decide)

theorem redactLiterally_toList (tables : CharTables) (patterns : List PiiPattern)
    (replacement text : String) :
    (redactLiterally tables patterns replacement text).toList =
      sweep tables.word (fun _ => replacement.toList)
        (patterns.filterMap fun p => compile tables (regex p)) text.toList := by
  unfold redactLiterally sweep
  induction patterns.filterMap (fun p => compile tables (regex p)) generalizing text with
  | nil => rfl
  | cons p ps ih => rw [List.foldl_cons, ih, String.toList_ofList, List.foldl_cons]

section
variable {tables : CharTables} {replacement : String}

/-- Without references, expanding is constant. -/
theorem expand_of_literal (h : literal replacement = true) :
    expand replacement = fun _ => replacement.toList := by
  funext matched
  exact interpolate_literal h matched

/-- With a reference, the two ways to replace differ wherever a pattern occurs. -/
theorem replaceAll_expand_ne (h : literal replacement = false) {pattern : PiiPattern}
    {p : Pattern Char} (hcompile : compile tables (regex pattern) = some p) {text : List Char}
    (hocc : Occurs tables.word p text) :
    replaceAll tables.word p (expand replacement) text ≠
      replaceAll tables.word p (fun _ => replacement.toList) text := by
  refine replaceAll_ne (c := '$') (fun w hw => ?_) hocc
  exact count_interpolate_lt (dollar_not_mem_of_spells hcompile hw) h

/-- A sweep that agrees after each pattern meets no match. -/
theorem not_occurs_of_agree (h : literal replacement = false) {patterns : List PiiPattern}
    {text : List Char}
    (hagree : ∀ n, sweep tables.word (expand replacement)
        ((patterns.take n).filterMap fun p => compile tables (regex p)) text =
      sweep tables.word (fun _ => replacement.toList)
        ((patterns.take n).filterMap fun p => compile tables (regex p)) text) :
    ∀ pattern ∈ patterns, ∀ p ∈ compile tables (regex pattern),
      ¬ Occurs tables.word p text := by
  induction patterns with
  | nil => simp
  | cons q qs ih =>
      obtain ⟨p, hcompile, -⟩ := compile_regex tables q
      have hfree : ¬ Occurs tables.word p text := by
        intro hocc
        refine replaceAll_expand_ne h hcompile hocc ?_
        simpa [hcompile, sweep] using hagree 1
      intro pattern hpattern p' hp'
      rcases List.mem_cons.mp hpattern with rfl | hpattern
      · obtain rfl := Option.some.inj (hcompile.symm.trans hp')
        exact hfree
      · refine ih (fun n => ?_) pattern hpattern p' hp'
        simpa [hcompile, sweep, replaceAll_of_free hfree] using hagree (n + 1)

end

/-- Letter classes need their tables for ASCII only, to spell an ASCII word. -/
theorem spells_of_ascii (tables : CharTables) {repeats : List Repeat} {w : List Char}
    (hw : ∀ c ∈ w, c.toNat < 128) (h : Spells (repeats.map (Repeat.piece asciiTables)) w) :
    Spells (repeats.map (Repeat.piece tables)) w := by
  induction repeats generalizing w with
  | nil => exact h
  | cons r repeats ih =>
      obtain ⟨u, v, rfl, hall, hleast, hmost, hspells⟩ := h
      refine ⟨u, v, rfl, fun c hc => ?_, hleast, hmost, ih (fun c hc => ?_) hspells⟩
      · rw [← hall c hc]
        exact accepts_ascii tables r.letters (hw c (List.mem_append_left v hc))
      · exact hw c (List.mem_append_right u hc)

def sampleNumber : List Char := ['1', '2', '3', '-', '4', '5', '-', '6', '7', '8', '9']

theorem sampleNumber_spelled :
    (parseExpression (regex .ssn)).any (fun repeats =>
      (lengths (repeats.map (Repeat.piece asciiTables)) sampleNumber).contains 11) = true := by
  decide +kernel

/-- Whatever the tables for the other characters are, some text has a match. -/
theorem exists_occurs (tables : CharTables)
    (hword : ∀ c : Char, c.toNat < 128 → tables.word c = asciiTables.word c) :
    ∃ p, compile tables (regex .ssn) = some p ∧ Occurs tables.word p sampleNumber := by
  obtain ⟨repeats, hparse, hlengths⟩ := (Option.any_eq_true _ _).mp sampleNumber_spelled
  obtain ⟨p, hcompile, -⟩ := compile_regex tables .ssn
  have hspells := (mem_lengths.mp (List.contains_iff_mem.mp hlengths)).2
  have hascii : (sampleNumber.all fun c => c.toNat < 128) = true := by decide
  refine ⟨p, hcompile, [], sampleNumber, [], rfl, ?_, ?_, ?_⟩
  · rw [compile, hparse, Option.bind_some] at hcompile
    split_ifs at hcompile with hconsumes
    rw [← Option.some.inj hcompile]
    refine spells_of_ascii tables (fun c hc => ?_) hspells
    exact of_decide_eq_true (List.all_eq_true.mp hascii c hc)
  · simp [boundary, sampleNumber, hword '1' (by decide), asciiTables]
  · simp [boundary, sampleNumber, hword '9' (by decide), asciiTables]

theorem redact_eq_iff_sweep (tables : CharTables) (patterns : List PiiPattern)
    (replacement text : String) :
    (PiiRedactionPlugin.new tables patterns replacement).redact tables text =
        redactLiterally tables patterns replacement text ↔
      sweep tables.word (expand replacement)
          (patterns.filterMap fun p => compile tables (regex p)) text.toList =
        sweep tables.word (fun _ => replacement.toList)
          (patterns.filterMap fun p => compile tables (regex p)) text.toList := by
  rw [← String.toList_inj, PiiRedactionPlugin.redact_toList, redactLiterally_toList]
  rfl

theorem redact_prefixes_iff (tables : CharTables) (patterns : List PiiPattern)
    (replacement text : String) :
    (∀ n, (PiiRedactionPlugin.new tables (patterns.take n) replacement).redact tables text =
        redactLiterally tables (patterns.take n) replacement text) ↔
      literal replacement = true ∨ ∀ pattern ∈ patterns, ∀ p ∈ compile tables (regex pattern),
        ¬ Occurs tables.word p text.toList := by
  simp only [redact_eq_iff_sweep]
  constructor
  · intro hagree
    cases hliteral : literal replacement with
    | true => exact .inl rfl
    | false => exact .inr (not_occurs_of_agree hliteral hagree)
  · rintro (hliteral | hfree) n
    · rw [expand_of_literal hliteral]
    · have hnone : ∀ p ∈ (patterns.take n).filterMap fun p => compile tables (regex p),
          ¬ Occurs tables.word p text.toList := by
        intro p hp
        obtain ⟨pattern, hpattern, hcompile⟩ := List.mem_filterMap.mp hp
        exact hfree pattern (List.mem_of_mem_take hpattern) p hcompile
      rw [sweep_of_free hnone, sweep_of_free hnone]

/-- A replacement is substituted literally in all texts exactly if no dollar sign of it
starts a reference. For one list of patterns and one text, the text is the literal one
after each pattern exactly if that is so or nothing matches. -/
theorem redact_literally_iff (tables : CharTables)
    (hword : ∀ c : Char, c.toNat < 128 → tables.word c = asciiTables.word c)
    (replacement : String) :
    ((∀ (patterns : List PiiPattern) (text : String),
      (PiiRedactionPlugin.new tables patterns replacement).redact tables text =
        redactLiterally tables patterns replacement text) ↔ literal replacement = true) ∧
    ∀ (patterns : List PiiPattern) (text : String),
      (∀ n, (PiiRedactionPlugin.new tables (patterns.take n) replacement).redact tables text =
        redactLiterally tables (patterns.take n) replacement text) ↔
      literal replacement = true ∨ ∀ pattern ∈ patterns, ∀ p ∈ compile tables (regex pattern),
        ¬ Occurs tables.word p text.toList := by
  have hpoint := fun patterns text => redact_prefixes_iff tables patterns replacement text
  refine ⟨⟨fun hall => ?_, fun hliteral patterns text => ?_⟩, hpoint⟩
  · obtain ⟨p, hcompile, hocc⟩ := exists_occurs tables hword
    refine ((hpoint [.ssn] (String.ofList sampleNumber)).mp fun n => hall _ _).resolve_right ?_
    intro hfree
    refine hfree .ssn List.mem_cons_self p hcompile ?_
    rwa [String.toList_ofList]
  · have := (hpoint patterns text).mpr (.inl hliteral) patterns.length
    rwa [List.take_length] at this

theorem redact_literally_iff_ascii :
    (∀ patterns text,
      (PiiRedactionPlugin.new asciiTables patterns "USD 5 [$]").redact asciiTables text =
        redactLiterally asciiTables patterns "USD 5 [$]" text) ∧
    ¬ ∀ patterns text,
      (PiiRedactionPlugin.new asciiTables patterns "<$0>").redact asciiTables text =
        redactLiterally asciiTables patterns "<$0>" text := by
  constructor
  · exact (redact_literally_iff asciiTables (fun _ _ => rfl) "USD 5 [$]").1.mpr (by decide)
  · exact fun h => absurd ((redact_literally_iff asciiTables (fun _ _ => rfl) "<$0>").1.mp h)
      (by decide)

/-- A reference to the match puts the number back. -/
theorem redact_reinserts_match :
    (PiiRedactionPlugin.new asciiTables [.ssn] "<$0>").redact asciiTables "id 123-45-6789" =
        "id <123-45-6789>" ∧
      redactLiterally asciiTables [.ssn] "<$0>" "id 123-45-6789" = "id <$0>" := by
  decide +kernel

end VaultplaneGateway.LiteralReplacement
