import Mathlib.Algebra.Order.BigOperators.Group.List
import Mathlib.Algebra.Order.Group.Nat
import Mathlib.Data.List.Basic

/-!
# Replacing word-bounded patterns

A pattern is a sequence of letter classes, each repeated between a least and a most
number of times, with a word boundary on both sides. Repetition is greedy: a search
takes as many letters as it can and gives them back one by one, so the first word it
meets need not be the longest. Replacing all matches scans from the left; a match
starts where the previous one ended or later, and boundaries are those of the text
that is read, not of the text that is written.

Replacing can only shorten the list of occurrences, if the replacement is foreign to
the patterns: an occurrence in the result lies between two replaced words, and the
boundaries at its ends were there before, because the replaced words have boundaries
at their own ends.
-/
namespace VaultplaneGateway.BoundedPatterns

variable {α : Type*}

/-- A letter class with its repetition; no upper bound is `none`. -/
structure Piece (α : Type*) where
  accepts : α → Bool
  least : ℕ
  most : Option ℕ

/-- Some piece takes a letter: no match is empty. -/
structure Pattern (α : Type*) where
  pieces : List (Piece α)
  consumes : ∃ q ∈ pieces, 0 < q.least

/-- The words of a sequence of pieces. -/
def Spells : List (Piece α) → List α → Prop
  | [], w => w = []
  | q :: qs, w => ∃ u v, w = u ++ v ∧ (∀ c ∈ u, q.accepts c = true) ∧ q.least ≤ u.length ∧
      (∀ n ∈ q.most, u.length ≤ n) ∧ Spells qs v

/-- A word letter on exactly one side. -/
def boundary (word : α → Bool) (before after : Option α) : Bool :=
  before.any word != after.any word

/-- The word `w` of the pattern stands between `pre` and `post`. -/
structure Occurrence (word : α → Bool) (p : Pattern α) (pre w post : List α) : Prop where
  spells : Spells p.pieces w
  opens : boundary word pre.getLast? (w ++ post).head? = true
  closes : boundary word (pre ++ w).getLast? post.head? = true

def Occurs (word : α → Bool) (p : Pattern α) (text : List α) : Prop :=
  ∃ pre w post, text = pre ++ w ++ post ∧ Occurrence word p pre w post

/-- How many letters a piece may take, in order of preference. -/
def Piece.counts (q : Piece α) (text : List α) : List ℕ :=
  let run := (text.takeWhile q.accepts).length
  let top := (q.most.map (min · run)).getD run
  (List.range' q.least (top + 1 - q.least)).reverse

/-- The lengths of the words at the front of the text, in the order in which a
backtracking search meets them. -/
def lengths : List (Piece α) → List α → List ℕ
  | [], _ => [0]
  | q :: qs, text => (q.counts text).flatMap fun k => (lengths qs (text.drop k)).map (k + ·)

/-- The match at the front of `rest`, with `prev` the letter before it. -/
def matchLength (word : α → Bool) (p : Pattern α) (prev : Option α) (rest : List α) : Option ℕ :=
  if boundary word prev rest.head? then
    (lengths p.pieces rest).find? fun k =>
      boundary word ((rest.take k).getLast?.or prev) (rest.drop k).head?
  else none

/-- The scan. Letters of the match found last are skipped. -/
def rewrite (word : α → Bool) (p : Pattern α) (replacement : List α → List α) :
    ℕ → Option α → List α → List α
  | _, _, [] => []
  | skip + 1, _, c :: rest => rewrite word p replacement skip (some c) rest
  | 0, prev, c :: rest =>
      match matchLength word p prev (c :: rest) with
      | some k =>
          replacement ((c :: rest).take k) ++ rewrite word p replacement (k - 1) (some c) rest
      | none => c :: rewrite word p replacement 0 (some c) rest

def replaceAll (word : α → Bool) (p : Pattern α) (replacement : List α → List α)
    (text : List α) : List α :=
  rewrite word p replacement 0 none text

theorem le_takeWhile_iff (f : α → Bool) (k : ℕ) (text : List α) :
    k ≤ (text.takeWhile f).length ↔ k ≤ text.length ∧ ∀ c ∈ text.take k, f c = true := by
  induction text generalizing k with
  | nil => simp
  | cons c text ih =>
      cases k with
      | zero => simp
      | succ k =>
          by_cases hc : f c = true
          · simp [hc, ih]
          · simp [hc]

theorem mem_counts {q : Piece α} {text : List α} {k : ℕ} :
    k ∈ q.counts text ↔ k ≤ text.length ∧ (∀ c ∈ text.take k, q.accepts c = true) ∧
      q.least ≤ k ∧ ∀ n ∈ q.most, k ≤ n := by
  have hrun := le_takeWhile_iff q.accepts k text
  unfold Piece.counts
  simp only [List.mem_reverse, List.mem_range'_1]
  cases hmost : q.most with
  | none =>
      simp only [Option.map_none, Option.getD_none]
      constructor
      · intro h
        obtain ⟨hlen, hall⟩ := hrun.mp (by omega)
        exact ⟨hlen, hall, h.1, by simp⟩
      · rintro ⟨hlen, hall, hleast, -⟩
        have := hrun.mpr ⟨hlen, hall⟩
        omega
  | some n =>
      simp only [Option.map_some, Option.getD_some]
      constructor
      · intro h
        obtain ⟨hlen, hall⟩ := hrun.mp (by omega)
        exact ⟨hlen, hall, h.1, by simp; omega⟩
      · rintro ⟨hlen, hall, hleast, hmax⟩
        have := hrun.mpr ⟨hlen, hall⟩
        have := hmax n rfl
        omega

/-- The search meets exactly the words at the front of the text. -/
theorem mem_lengths {qs : List (Piece α)} {text : List α} {k : ℕ} :
    k ∈ lengths qs text ↔ k ≤ text.length ∧ Spells qs (text.take k) := by
  induction qs generalizing text k with
  | nil =>
      simp only [lengths, List.mem_singleton, Spells, List.take_eq_nil_iff]
      constructor
      · rintro rfl
        exact ⟨Nat.zero_le _, .inl rfl⟩
      · rintro ⟨hlen, rfl | rfl⟩
        · rfl
        · exact Nat.le_zero.mp hlen
  | cons q qs ih =>
      simp only [lengths, List.mem_flatMap, List.mem_map, mem_counts, ih, Spells]
      constructor
      · rintro ⟨i, ⟨hi, hall, hleast, hmost⟩, j, ⟨hj, hspells⟩, rfl⟩
        rw [List.length_drop] at hj
        have hlen : (text.take i).length = i := List.length_take_of_le hi
        refine ⟨by omega, text.take i, (text.drop i).take j, List.take_add, hall, ?_, ?_, hspells⟩
        · rwa [hlen]
        · rwa [hlen]
      · rintro ⟨hk, u, v, huv, hall, hleast, hmost, hspells⟩
        have hlen : k = u.length + v.length := by
          rw [← List.length_append, ← huv, List.length_take_of_le hk]
        have htext : text = u ++ (v ++ text.drop k) := by
          rw [← List.append_assoc, ← huv, List.take_append_drop]
        have hu : text.take u.length = u := by
          rw [htext, List.take_left]
        have hv : (text.drop u.length).take v.length = v := by
          rw [htext, List.drop_left, List.take_left]
        refine ⟨u.length, ⟨by omega, by rwa [hu], hleast, hmost⟩, v.length, ⟨?_, by rwa [hv]⟩,
          hlen.symm⟩
        rw [List.length_drop]
        omega

theorem least_le_of_spells {qs : List (Piece α)} {w : List α} (h : Spells qs w) {q : Piece α}
    (hq : q ∈ qs) : q.least ≤ w.length := by
  induction qs generalizing w with
  | nil => cases hq
  | cons q' qs ih =>
      obtain ⟨u, v, rfl, -, hleast, -, hspells⟩ := h
      rw [List.length_append]
      rcases List.mem_cons.mp hq with rfl | hq
      · omega
      · exact Nat.le_trans (ih hspells hq) (Nat.le_add_left _ _)

theorem ne_nil_of_spells {p : Pattern α} {w : List α} (h : Spells p.pieces w) : w ≠ [] := by
  obtain ⟨q, hq, hpos⟩ := p.consumes
  have := least_le_of_spells h hq
  intro hnil
  rw [hnil] at this
  exact absurd hpos (Nat.not_lt.mpr this)

section Search

variable {word : α → Bool} {p : Pattern α} {pre rest : List α}

/-- What is found is an occurrence. -/
theorem occurrence_of_matchLength {k : ℕ} (h : matchLength word p pre.getLast? rest = some k) :
    Occurrence word p pre (rest.take k) (rest.drop k) := by
  unfold matchLength at h
  split_ifs at h with hopens
  obtain ⟨-, hspells⟩ := mem_lengths.mp (List.mem_of_find?_eq_some h)
  have hcloses := List.find?_some h
  refine ⟨hspells, ?_, ?_⟩
  · rw [List.take_append_drop]
    exact hopens
  · rw [List.getLast?_append]
    exact hcloses

/-- If nothing is found, nothing starts here. -/
theorem free_of_matchLength (h : matchLength word p pre.getLast? rest = none) {w post : List α}
    (hrest : rest = w ++ post) : ¬ Occurrence word p pre w post := by
  rintro ⟨hspells, hopens, hcloses⟩
  rw [← hrest] at hopens
  unfold matchLength at h
  rw [if_pos hopens, List.find?_eq_none] at h
  have htake : rest.take w.length = w := by
    rw [hrest, List.take_left]
  have hdrop : rest.drop w.length = post := by
    rw [hrest, List.drop_left]
  have hmem : w.length ∈ lengths p.pieces rest :=
    mem_lengths.mpr ⟨by rw [hrest, List.length_append]; omega, by rwa [htake]⟩
  have hnone := h w.length hmem
  rw [htake, hdrop, ← List.getLast?_append] at hnone
  exact hnone hcloses

end Search

/-- After `pre` the text is read and the output written: a letter at which no match
starts is kept, a match is swapped for its replacement. -/
inductive Rewritten (word : α → Bool) (p : Pattern α) (replacement : List α → List α) :
    List α → List α → List α → Prop
  | done {pre : List α} : Rewritten word p replacement pre [] []
  | keep {pre rest out : List α} {c : α}
      (free : ∀ w post, c :: rest = w ++ post → ¬ Occurrence word p pre w post)
      (next : Rewritten word p replacement (pre ++ [c]) rest out) :
      Rewritten word p replacement pre (c :: rest) (c :: out)
  | swap {pre w post out : List α} (found : Occurrence word p pre w post)
      (next : Rewritten word p replacement (pre ++ w) post out) :
      Rewritten word p replacement pre (w ++ post) (replacement w ++ out)

section Scan

variable {word : α → Bool} {p : Pattern α} {replacement : List α → List α}

/-- Skipping moves on in the text that is read. -/
theorem rewrite_skip (word : α → Bool) (p : Pattern α) (replacement : List α → List α) (skip : ℕ)
    (pre text : List α) :
    rewrite word p replacement skip pre.getLast? text =
      rewrite word p replacement 0 (pre ++ text.take skip).getLast? (text.drop skip) := by
  induction text generalizing skip pre with
  | nil => simp [rewrite]
  | cons c text ih =>
      cases skip with
      | zero => simp
      | succ skip =>
          have hprev : some c = (pre ++ [c]).getLast? := by simp
          rw [rewrite, hprev, ih skip (pre ++ [c])]
          simp

theorem rewrite_rewritten (pre text : List α) : Rewritten word p replacement pre text
    (rewrite word p replacement 0 pre.getLast? text) := by
  -- the induction is on the length: a match can take any number of letters
  induction hn : text.length using Nat.strongRecOn generalizing pre text with
  | _ n ih =>
      cases text with
      | nil =>
          rw [rewrite]
          exact .done
      | cons c rest =>
          rw [List.length_cons] at hn
          have hprev : some c = (pre ++ [c]).getLast? := by simp
          rw [rewrite]
          cases hmatch : matchLength word p pre.getLast? (c :: rest) with
          | none =>
              refine .keep (fun w post => free_of_matchLength hmatch) ?_
              rw [hprev]
              exact ih rest.length (by omega) (pre ++ [c]) rest rfl
          | some k =>
              have hfound := occurrence_of_matchLength hmatch
              obtain ⟨k, rfl⟩ : ∃ j, k = j + 1 := by
                cases k with
                | zero => exact (ne_nil_of_spells hfound.spells rfl).elim
                | succ k => exact ⟨k, rfl⟩
              dsimp only
              rw [Nat.add_sub_cancel, hprev, rewrite_skip word p replacement k (pre ++ [c]) rest]
              have hnext := ih (rest.drop k).length (by rw [List.length_drop]; omega)
                (pre ++ [c] ++ rest.take k) (rest.drop k) rfl
              have hall : c :: rest = (c :: rest).take (k + 1) ++ (c :: rest).drop (k + 1) :=
                (List.take_append_drop _ _).symm
              nth_rewrite 1 [hall]
              refine .swap hfound ?_
              simpa using hnext

theorem replaceAll_rewritten (text : List α) :
    Rewritten word p replacement [] text (replaceAll word p replacement text) :=
  rewrite_rewritten [] text

/-- A text without occurrences is left as it is. -/
theorem rewritten_of_free {pre text out : List α} (h : Rewritten word p replacement pre text out)
    (hfree : ∀ y w post, text = y ++ w ++ post → ¬ Occurrence word p (pre ++ y) w post) :
    out = text := by
  induction h with
  | done => rfl
  | @keep pre rest out c _ _ ih =>
      rw [ih]
      intro y w post hrest hocc
      refine hfree (c :: y) w post (by rw [hrest]; rfl) ?_
      simpa using hocc
  | @swap pre w post out found _ _ =>
      refine (hfree [] w post rfl ?_).elim
      rwa [List.append_nil]

theorem replaceAll_of_free {text : List α} (h : ¬ Occurs word p text) :
    replaceAll word p replacement text = text :=
  rewritten_of_free (replaceAll_rewritten text) fun y w post htext hocc =>
    h ⟨y, w, post, htext, hocc⟩

end Scan

/-- The scan without a replacement: letters that are kept and words that matched. -/
def segments (word : α → Bool) (p : Pattern α) : ℕ → Option α → List α → List (α ⊕ List α)
  | _, _, [] => []
  | skip + 1, _, c :: rest => segments word p skip (some c) rest
  | 0, prev, c :: rest =>
      match matchLength word p prev (c :: rest) with
      | some k => .inr ((c :: rest).take k) :: segments word p (k - 1) (some c) rest
      | none => .inl c :: segments word p 0 (some c) rest

/-- A segment as it is written. -/
def written (replacement : List α → List α) : α ⊕ List α → List α
  | .inl c => [c]
  | .inr w => replacement w

section Segments

variable {word : α → Bool} {p : Pattern α}

/-- Where the matches are does not depend on what they are replaced by. -/
theorem rewrite_eq_segments (replacement : List α → List α) (skip : ℕ) (prev : Option α)
    (text : List α) :
    rewrite word p replacement skip prev text =
      (segments word p skip prev text).flatMap (written replacement) := by
  induction text generalizing skip prev with
  | nil => cases skip <;> rfl
  | cons c rest ih =>
      cases skip with
      | succ skip =>
          rw [rewrite, segments, ih]
      | zero =>
          rw [rewrite, segments]
          cases matchLength word p prev (c :: rest) with
          | none =>
              dsimp only
              rw [ih, List.flatMap_cons]
              rfl
          | some k =>
              dsimp only
              rw [ih, List.flatMap_cons]
              rfl

theorem spells_of_mem_segments {skip : ℕ} {prev : Option α} {text w : List α}
    (h : .inr w ∈ segments word p skip prev text) : Spells p.pieces w := by
  induction text generalizing skip prev with
  | nil => cases skip <;> cases h
  | cons c rest ih =>
      cases skip with
      | succ skip => exact ih h
      | zero =>
          rw [segments] at h
          cases hmatch : matchLength word p prev (c :: rest) with
          | none =>
              rw [hmatch] at h
              rcases List.mem_cons.mp h with h | h
              · cases h
              · exact ih h
          | some k =>
              rw [hmatch] at h
              rcases List.mem_cons.mp h with h | h
              · unfold matchLength at hmatch
                split_ifs at hmatch
                obtain ⟨-, hspells⟩ := mem_lengths.mp (List.mem_of_find?_eq_some hmatch)
                rwa [Sum.inr.inj h]
              · exact ih h

/-- A scan without a match has passed every place where one could start. -/
theorem free_of_segments (pre : List α) {text : List α}
    (h : ∀ w, .inr w ∉ segments word p 0 pre.getLast? text) {y w post : List α}
    (htext : text = y ++ w ++ post) : ¬ Occurrence word p (pre ++ y) w post := by
  intro hocc
  induction text generalizing pre y with
  | nil =>
      have hnil : w = [] := by
        have := congrArg List.length htext
        simp only [List.length_nil, List.length_append] at this
        exact List.length_eq_zero_iff.mp (by omega)
      exact ne_nil_of_spells hocc.spells hnil
  | cons c rest ih =>
      rw [segments] at h
      cases hmatch : matchLength word p pre.getLast? (c :: rest) with
      | some k =>
          rw [hmatch] at h
          exact h _ List.mem_cons_self
      | none =>
          rw [hmatch] at h
          cases y with
          | nil =>
              rw [List.append_nil] at hocc
              exact free_of_matchLength hmatch htext hocc
          | cons d y =>
              obtain ⟨rfl, hrest⟩ := List.cons.inj htext
              have hprev : some c = (pre ++ [c]).getLast? := by simp
              rw [hprev] at h
              have hocc' : Occurrence word p (pre ++ [c] ++ y) w post := by
                rwa [List.append_assoc, List.singleton_append]
              exact ih (pre ++ [c]) (fun w hw => h w (List.mem_cons_of_mem _ hw)) hrest hocc'

theorem exists_match_of_occurs {text : List α} (h : Occurs word p text) :
    ∃ w, .inr w ∈ segments word p 0 none text := by
  by_contra hnone
  obtain ⟨pre, w, post, htext, hocc⟩ := h
  exact free_of_segments [] (not_exists.mp hnone) htext hocc

/-- If one replacement of a word always has fewer of a letter than another, the two
texts differ once the pattern occurs. -/
theorem replaceAll_ne [DecidableEq α] {f g : List α → List α} {c : α}
    (h : ∀ w, Spells p.pieces w → (f w).count c < (g w).count c) {text : List α}
    (hocc : Occurs word p text) : replaceAll word p f text ≠ replaceAll word p g text := by
  obtain ⟨w, hw⟩ := exists_match_of_occurs hocc
  have hwritten : ∀ s ∈ segments word p 0 none text,
      (written f s).count c ≤ (written g s).count c := by
    intro s hs
    cases s with
    | inl d => exact le_rfl
    | inr v => exact (h v (spells_of_mem_segments hs)).le
  intro heq
  rw [replaceAll, replaceAll, rewrite_eq_segments, rewrite_eq_segments] at heq
  have hcount := congrArg (List.count c) heq
  rw [List.count_flatMap, List.count_flatMap] at hcount
  exact (List.sum_lt_sum _ _ hwritten ⟨_, hw, h w (spells_of_mem_segments hw)⟩).ne hcount

end Segments

/-- The words of the pattern have neither the first nor the last letter of the marker,
and each has a letter that the marker lacks. -/
structure Foreign (p : Pattern α) (marker : List α) : Prop where
  nonempty : marker ≠ []
  first : ∀ w, Spells p.pieces w → ∀ c ∈ marker.head?, c ∉ w
  last : ∀ w, Spells p.pieces w → ∀ c ∈ marker.getLast?, c ∉ w
  other : ∀ w, Spells p.pieces w → ∃ c ∈ w, c ∉ marker

theorem accepts_of_spells {qs : List (Piece α)} {w : List α} (h : Spells qs w) :
    ∀ c ∈ w, ∃ q ∈ qs, q.accepts c = true := by
  induction qs generalizing w with
  | nil =>
      rw [show w = [] from h]
      simp
  | cons q qs ih =>
      obtain ⟨u, v, rfl, hall, -, -, hspells⟩ := h
      intro c hc
      rcases List.mem_append.mp hc with hc | hc
      · exact ⟨q, List.mem_cons_self, hall c hc⟩
      · obtain ⟨q', hq', haccepts⟩ := ih hspells c hc
        exact ⟨q', List.mem_cons_of_mem q hq', haccepts⟩

theorem exists_accepted {qs : List (Piece α)} {w : List α} (h : Spells qs w) {q : Piece α}
    (hq : q ∈ qs) (hleast : 0 < q.least) : ∃ c ∈ w, q.accepts c = true := by
  induction qs generalizing w with
  | nil => cases hq
  | cons q' qs ih =>
      obtain ⟨u, v, rfl, hall, hle, -, hspells⟩ := h
      rcases List.mem_cons.mp hq with rfl | hq
      · obtain ⟨c, hc⟩ := List.exists_mem_of_length_pos (Nat.lt_of_lt_of_le hleast hle)
        exact ⟨c, List.mem_append_left v hc, hall c hc⟩
      · obtain ⟨c, hc, haccepts⟩ := ih hspells hq
        exact ⟨c, List.mem_append_right u hc, haccepts⟩

/-- Foreignness can be read off the classes. -/
theorem foreign_of_pieces {p : Pattern α} {marker : List α} (hne : marker ≠ [])
    (hfirst : ∀ c ∈ marker.head?, ∀ q ∈ p.pieces, q.accepts c = false)
    (hlast : ∀ c ∈ marker.getLast?, ∀ q ∈ p.pieces, q.accepts c = false)
    (hother : ∃ q ∈ p.pieces, 0 < q.least ∧ ∀ c ∈ marker, q.accepts c = false) :
    Foreign p marker where
  nonempty := hne
  first w hw c hc hm := by
    obtain ⟨q, hq, haccepts⟩ := accepts_of_spells hw c hm
    rw [hfirst c hc q hq] at haccepts
    cases haccepts
  last w hw c hc hm := by
    obtain ⟨q, hq, haccepts⟩ := accepts_of_spells hw c hm
    rw [hlast c hc q hq] at haccepts
    cases haccepts
  other w hw := by
    obtain ⟨q, hq, hleast, hnone⟩ := hother
    obtain ⟨c, hc, haccepts⟩ := exists_accepted hw hq hleast
    refine ⟨c, hc, fun hm => ?_⟩
    rw [hnone c hm] at haccepts
    cases haccepts

section Marker

variable {word : α → Bool} {p p' : Pattern α} {marker : List α}

/-- Output that does not have the marker's first letter was kept. -/
theorem kept_of_rewritten {pre text w opost : List α} (hmarker : marker ≠ [])
    (hw : ∀ c ∈ marker.head?, c ∉ w)
    (h : Rewritten word p (fun _ => marker) pre text (w ++ opost)) :
    ∃ post, text = w ++ post ∧ Rewritten word p (fun _ => marker) (pre ++ w) post opost := by
  induction w generalizing pre text with
  | nil =>
      refine ⟨text, rfl, ?_⟩
      rwa [List.append_nil]
  | cons c w ih =>
      generalize hout : c :: w ++ opost = out at h
      cases h with
      | done => cases hout
      | keep free next =>
          obtain ⟨rfl, rfl⟩ := List.cons.inj hout
          obtain ⟨post, rfl, hnext⟩ :=
            ih (fun d hd hm => hw d hd (List.mem_cons_of_mem c hm)) next
          refine ⟨post, rfl, ?_⟩
          simpa using hnext
      | swap found next =>
          obtain ⟨m, ms, rfl⟩ := List.exists_cons_of_ne_nil hmarker
          have hm : c = m := (List.cons.inj hout).1
          exact (hw m rfl (hm ▸ List.mem_cons_self)).elim

/-- A boundary in the output after a kept letter was there in the text. -/
theorem boundary_of_rewritten {pre text out : List α} {before : Option α}
    (hbefore : before = pre.getLast?) (h : Rewritten word p (fun _ => marker) pre text out)
    (hout : boundary word before out.head? = true) :
    boundary word pre.getLast? text.head? = true := by
  rw [hbefore] at hout
  cases h with
  | done => exact hout
  | keep free next => exact hout
  | swap found next => exact found.opens

/-- A word foreign to the marker cannot start inside it. -/
theorem not_inside_marker {x w rest out : List α} (hforeign : Foreign p marker)
    (hw : Spells p.pieces w) (hout : marker ++ out = x ++ (w ++ rest))
    (hx : x.length < marker.length) : False := by
  obtain ⟨r, hr, hrest⟩ | ⟨r, hr, hrest⟩ := List.append_eq_append_iff.mp hout
  · rw [hr, List.length_append] at hx
    omega
  · have hrne : r ≠ [] := by
      rintro rfl
      rw [hr, List.append_nil] at hx
      exact Nat.lt_irrefl _ hx
    obtain ⟨c, hc, hcm⟩ := hforeign.other w hw
    rcases List.append_eq_append_iff.mp hrest with ⟨s, hs, -⟩ | ⟨s, hs, -⟩
    · -- the word lies within the marker
      refine hcm ?_
      rw [hr, hs]
      exact List.mem_append_right _ (List.mem_append_left _ hc)
    · -- the word reaches beyond the marker and contains its last letter
      have hlast : r.getLast hrne ∈ marker.getLast? := by
        rw [hr, List.getLast?_append, List.getLast?_eq_some_getLast hrne]
        rfl
      refine hforeign.last w hw _ hlast ?_
      rw [hs]
      exact List.mem_append_left _ (List.getLast_mem hrne)

/-- An occurrence in the output was one in the text, in a place where the replaced
pattern had none. `opre` is the output before this point; its last letter is that of
the text, or a match ended here. -/
theorem occurrence_of_rewritten (hforeign : Foreign p' marker) {pre text out : List α}
    (h : Rewritten word p (fun _ => marker) pre text out) :
    ∀ {opre x w opost : List α},
      (opre.getLast? = pre.getLast? ∨ boundary word pre.getLast? text.head? = true) →
      out = x ++ (w ++ opost) → Occurrence word p' (opre ++ x) w opost →
      ∃ y post, text = y ++ (w ++ post) ∧ Occurrence word p' (pre ++ y) w post ∧
        ¬ Occurrence word p (pre ++ y) w post := by
  induction h with
  | done =>
      intro opre x w opost _ hout hocc
      have hnil : w = [] := by
        have := congrArg List.length hout
        simp only [List.length_nil, List.length_append] at this
        exact List.length_eq_zero_iff.mp (by omega)
      exact (ne_nil_of_spells hocc.spells hnil).elim
  | @keep pre rest out c free next ih =>
      intro opre x w opost hjoin hout hocc
      cases x with
      | cons d x =>
          obtain ⟨rfl, hrest⟩ := List.cons.inj hout
          have hjoin' : (opre ++ [c]).getLast? = (pre ++ [c]).getLast? := by simp
          obtain ⟨y, post, htext, hocc', hnot⟩ := ih (.inl hjoin') hrest (by simpa using hocc)
          refine ⟨c :: y, post, by rw [htext]; rfl, ?_, ?_⟩
          · simpa using hocc'
          · simpa using hnot
      | nil =>
          rw [List.nil_append] at hout
          rw [List.append_nil] at hocc
          have hall := Rewritten.keep free next
          rw [hout] at hall
          obtain ⟨post, htext, hnext⟩ :=
            kept_of_rewritten hforeign.nonempty (hforeign.first w hocc.spells) hall
          have hopens : boundary word pre.getLast? (w ++ post).head? = true := by
            rw [← htext]
            rcases hjoin with hsame | hwas
            · have hopen := hocc.opens
              rw [hsame, ← hout] at hopen
              exact hopen
            · exact hwas
          have hcloses : boundary word (pre ++ w).getLast? post.head? = true := by
            refine boundary_of_rewritten ?_ hnext hocc.closes
            rw [List.getLast?_append, List.getLast?_append,
              List.getLast?_eq_some_getLast (ne_nil_of_spells hocc.spells)]
            rfl
          refine ⟨[], post, htext, ?_, ?_⟩
          · rw [List.append_nil]
            exact ⟨hocc.spells, hopens, hcloses⟩
          · rw [List.append_nil]
            exact free w post htext
  | @swap pre v post out found next ih =>
      intro opre x w opost hjoin hout hocc
      by_cases hx : x.length < marker.length
      · exact (not_inside_marker hforeign hocc.spells hout hx).elim
      · obtain ⟨z, rfl⟩ : marker <+: x :=
          List.prefix_of_prefix_length_le (List.prefix_append marker out)
            (hout ▸ List.prefix_append x _) (Nat.not_lt.mp hx)
        rw [List.append_assoc] at hout
        have hrest := List.append_cancel_left hout
        obtain ⟨y, post', htext, hocc', hnot⟩ := ih (.inr found.closes) hrest (by
          rw [List.append_assoc]
          exact hocc)
        refine ⟨v ++ y, post', by rw [htext, List.append_assoc], ?_, ?_⟩
        · rwa [← List.append_assoc]
        · rwa [← List.append_assoc]

theorem occurs_of_replaceAll (hforeign : Foreign p' marker) {text : List α}
    (h : Occurs word p' (replaceAll word p (fun _ => marker) text)) :
    ∃ pre w post, text = pre ++ w ++ post ∧ Occurrence word p' pre w post ∧
      ¬ Occurrence word p pre w post := by
  obtain ⟨x, w, opost, hout, hocc⟩ := h
  rw [List.append_assoc] at hout
  obtain ⟨y, post, htext, hocc', hnot⟩ :=
    occurrence_of_rewritten hforeign (replaceAll_rewritten text) (.inl rfl) hout hocc
  exact ⟨y, w, post, by rw [htext, List.append_assoc], hocc', hnot⟩

/-- Nothing of the replaced pattern is left. -/
theorem replaceAll_free (hforeign : Foreign p marker) (text : List α) :
    ¬ Occurs word p (replaceAll word p (fun _ => marker) text) := by
  intro h
  obtain ⟨pre, w, post, -, hocc, hnot⟩ := occurs_of_replaceAll hforeign h
  exact hnot hocc

/-- Nothing of another pattern appears. -/
theorem replaceAll_keeps_free (hforeign : Foreign p' marker) {text : List α}
    (h : ¬ Occurs word p' text) : ¬ Occurs word p' (replaceAll word p (fun _ => marker) text) := by
  intro hout
  obtain ⟨pre, w, post, htext, hocc, -⟩ := occurs_of_replaceAll hforeign hout
  exact h ⟨pre, w, post, htext, hocc⟩

end Marker

def sweep (word : α → Bool) (replacement : List α → List α) (ps : List (Pattern α))
    (text : List α) : List α :=
  ps.foldl (fun text p => replaceAll word p replacement text) text

section Sweep

variable {word : α → Bool} {marker : List α} {ps : List (Pattern α)}

theorem sweep_keeps_free {p : Pattern α} (hforeign : Foreign p marker) {text : List α}
    (h : ¬ Occurs word p text) : ¬ Occurs word p (sweep word (fun _ => marker) ps text) := by
  induction ps generalizing text with
  | nil => exact h
  | cons q ps ih => exact ih (replaceAll_keeps_free hforeign h)

/-- After a sweep with a foreign marker no pattern of the list occurs. -/
theorem sweep_free (hforeign : ∀ p ∈ ps, Foreign p marker) (text : List α) :
    ∀ p ∈ ps, ¬ Occurs word p (sweep word (fun _ => marker) ps text) := by
  induction ps generalizing text with
  | nil => simp
  | cons q ps ih =>
      obtain ⟨hq, hps⟩ := List.forall_mem_cons.mp hforeign
      intro p hp
      rcases List.mem_cons.mp hp with rfl | hp
      · rw [sweep, List.foldl_cons]
        exact sweep_keeps_free hq (replaceAll_free hq text)
      · exact ih hps _ p hp

theorem sweep_of_free {replacement : List α → List α} {text : List α}
    (h : ∀ p ∈ ps, ¬ Occurs word p text) : sweep word replacement ps text = text := by
  induction ps with
  | nil => rfl
  | cons q ps ih =>
      obtain ⟨hq, hps⟩ := List.forall_mem_cons.mp h
      rw [sweep, List.foldl_cons, replaceAll_of_free hq]
      exact ih hps

end Sweep

section Separator

variable {word : α → Bool} {p : Pattern α} {c : α}

theorem not_occurs_nil (word : α → Bool) (p : Pattern α) : ¬ Occurs word p [] := by
  rintro ⟨pre, w, post, htext, h⟩
  have hw : w = [] := by
    have := congrArg List.length htext
    simp only [List.length_nil, List.length_append] at this
    exact List.eq_nil_of_length_eq_zero (by omega)
  exact ne_nil_of_spells h.spells hw

/-- A letter of no word looks like the end of the text. -/
theorem any_head_separator (hword : word c = false) (xs ys : List α) :
    (xs ++ c :: ys).head?.any word = xs.head?.any word := by
  cases xs with
  | nil => exact hword
  | cons x xs => rfl

theorem any_getLast_separator (hword : word c = false) (xs ys : List α) :
    (xs ++ c :: ys).getLast?.any word = ys.getLast?.any word := by
  cases ys with
  | nil => simp [hword]
  | cons y ys => rw [List.getLast?_append_cons, List.getLast?_cons_cons]

/-- A match lies on one side of a letter that is in no word and that no piece takes. -/
theorem occurs_separator (hword : word c = false) (hpieces : ∀ q ∈ p.pieces, q.accepts c = false)
    {a b : List α} (h : Occurs word p (a ++ c :: b)) : Occurs word p a ∨ Occurs word p b := by
  obtain ⟨pre, w, post, htext, hmatch⟩ := h
  have hw : w ≠ [] := ne_nil_of_spells hmatch.spells
  have hc : c ∉ w := by
    intro hmem
    obtain ⟨q, hq, haccepts⟩ := accepts_of_spells hmatch.spells c hmem
    rw [hpieces q hq] at haccepts
    cases haccepts
  obtain ⟨d, ds, rfl⟩ := List.exists_cons_of_ne_nil hw
  -- Whether the match ends before the separator or starts after it.
  have hside : (∃ mid, a = pre ++ d :: ds ++ mid ∧ post = mid ++ c :: b) ∨
      ∃ mid, pre = a ++ c :: mid ∧ b = mid ++ d :: ds ++ post := by
    rcases List.append_eq_append_iff.mp htext with ⟨mid, hpre, hb⟩ | ⟨mid, ha, hpost⟩
    · cases mid with
      | nil =>
          left
          exact ⟨[], by simpa using hpre.symm, by simpa using hb.symm⟩
      | cons e mid =>
          obtain ⟨rfl, rfl⟩ := List.cons.inj hb
          right
          rcases List.append_eq_append_iff.mp hpre with ⟨x, ha, hmem⟩ | ⟨x, hpre', hx⟩
          · exact (hc (by simp [hmem])).elim
          · cases x with
            | nil => exact (hc (by simp [← show c :: mid = d :: ds from hx])).elim
            | cons e x =>
                obtain ⟨rfl, rfl⟩ := List.cons.inj hx
                exact ⟨x, hpre', rfl⟩
    · left
      exact ⟨mid, ha, hpost⟩
  rcases hside with ⟨mid, rfl, rfl⟩ | ⟨mid, rfl, rfl⟩
  · refine .inl ⟨pre, d :: ds, mid, rfl, hmatch.spells, hmatch.opens, ?_⟩
    have hcloses := hmatch.closes
    rwa [boundary, any_head_separator hword] at hcloses
  · refine .inr ⟨mid, d :: ds, post, rfl, hmatch.spells, ?_, ?_⟩
    · have hopens := hmatch.opens
      rwa [boundary, any_getLast_separator hword] at hopens
    · have hcloses := hmatch.closes
      rw [List.append_assoc, List.cons_append, boundary, any_getLast_separator hword] at hcloses
      exact hcloses

end Separator

end VaultplaneGateway.BoundedPatterns
