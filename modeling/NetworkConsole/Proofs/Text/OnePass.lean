import Mathlib.Data.List.DropRight
import Mathlib.Data.List.Infix
import NetworkConsole.Proofs.Text.Pattern

/-!
# Matching in one pass

A sequence is matched without going back where its second part cannot start with what its
first part can give up. Then a word is followed by the rest of the pattern, a span takes its
longest run, and a repetition takes its items one after another.
-/

namespace NetworkConsole.Text.Pattern

/-! ## Sequences -/

/-- Where the best way of the first part leads on if any of its ways does, the sequence goes
on from it. -/
theorem head?_ways_seq_of_best
    {first second : Pattern}
    {cursor middle : Cursor}
    (firstWay : (first.ways cursor).head? = some middle)
    (best : second.ways middle = [] → ∀ other ∈ first.ways cursor, second.ways other = []) :
    ((seq first second).ways cursor).head? = (second.ways middle).head? := by
  cases secondWay : (second.ways middle).head? with
  | some after => exact head?_ways_seq firstWay secondWay
  | none =>
      rw [ways_seq, List.head?_eq_none_iff, List.flatMap_eq_nil_iff]
      exact best (List.head?_eq_none_iff.mp secondWay)

/-- A match of a word and a later pattern is the word in some letter case and then a match of
the later pattern. -/
theorem head?_ways_seq_word_eq_some_iff
    {expected text : List Char}
    {groups : List (List Char)}
    {later : Pattern}
    {after : Cursor} :
    ((seq (word expected) later).ways ⟨text, groups⟩).head? = some after ↔
      ∃ mark rest, text = mark ++ rest ∧ Alike mark expected ∧
        (later.ways ⟨rest, groups⟩).head? = some after := by
  constructor
  · intro isFirst
    have way := List.mem_of_mem_head? isFirst
    rw [ways_seq, List.mem_flatMap] at way
    obtain ⟨middle, wordWay, -⟩ := way
    obtain ⟨mark, alike, split⟩ := alike_of_mem_ways_word wordWay
    obtain ⟨rfl, rfl⟩ := Cursor.mk.inj split
    rw [ways_seq, ways_word_of_alike alike, List.flatMap_singleton] at isFirst
    exact ⟨mark, middle.rest, rfl, alike, isFirst⟩
  · rintro ⟨mark, rest, rfl, alike, isFirst⟩
    rwa [ways_seq, ways_word_of_alike alike, List.flatMap_singleton]

theorem head?_ways_word_eq_some_iff
    {expected text : List Char}
    {groups : List (List Char)}
    {after : Cursor} :
    ((word expected).ways ⟨text, groups⟩).head? = some after ↔
      ∃ mark, text = mark ++ after.rest ∧ Alike mark expected ∧ after.groups = groups := by
  constructor
  · intro isFirst
    obtain ⟨mark, alike, split⟩ := alike_of_mem_ways_word (List.mem_of_mem_head? isFirst)
    obtain ⟨rfl, rfl⟩ := Cursor.mk.inj split
    exact ⟨mark, rfl, alike, rfl⟩
  · rintro ⟨mark, rfl, alike, rfl⟩
    rw [ways_word_of_alike alike, List.head?_singleton]

/-! ## Spans -/

/-- No match of a pattern starts with a character of a class. -/
def Avoids (pattern : Pattern) (accepts : Char → Bool) : Prop :=
  ∀ character rest groups, accepts character = true →
    pattern.ways ⟨character :: rest, groups⟩ = []

theorem avoids_word
    {accepts : Char → Bool}
    {first : Char}
    (apart : ∀ character, accepts character = true → fold character ≠ fold first)
    (later : List Char) :
    (word (first :: later)).Avoids accepts := by
  intro character rest groups accepted
  rw [word, ways_seq, ways_letter, if_neg (apart character accepted), List.flatMap_nil]

theorem avoids_seq_span
    {skips accepts : Char → Bool}
    (apart : ∀ character, accepts character = true → skips character = false)
    {later : Pattern}
    (avoids : later.Avoids accepts) :
    (seq (span skips) later).Avoids accepts := by
  intro character rest groups accepted
  have stays : (span skips).ways ⟨character :: rest, groups⟩ = [⟨character :: rest, groups⟩] := by
    rw [ways_span]
    simp [apart character accepted]
  rw [ways_seq, stays, List.flatMap_singleton, avoids character rest groups accepted]

/-- A span stops at the end of its longest run or before one of its characters. -/
theorem mem_ways_span_cases
    {accepts : Char → Bool}
    {text : List Char}
    {groups : List (List Char)}
    {after : Cursor}
    (way : after ∈ (span accepts).ways ⟨text, groups⟩) :
    after = ⟨text.dropWhile accepts, groups⟩ ∨
      ∃ character rest, accepts character = true ∧ after = ⟨character :: rest, groups⟩ := by
  rw [ways_span, List.mem_map] at way
  obtain ⟨left, isTail, rfl⟩ := way
  cases left with
  | nil => exact .inl rfl
  | cons character left =>
      have inRun : character ∈ text.takeWhile accepts :=
        ((List.mem_tails _ _).mp (List.mem_reverse.mp isTail)).subset List.mem_cons_self
      exact .inr ⟨character, _, List.mem_takeWhile_imp inRun, rfl⟩

/-- Wherever a span stops, its longest run ends at the same place. -/
theorem dropWhile_of_mem_ways_span
    {accepts : Char → Bool}
    {text : List Char}
    {groups : List (List Char)}
    {after : Cursor}
    (way : after ∈ (span accepts).ways ⟨text, groups⟩) :
    after.rest.dropWhile accepts = text.dropWhile accepts := by
  rw [ways_span, List.mem_map] at way
  obtain ⟨left, isTail, rfl⟩ := way
  have isSuffix := (List.mem_tails _ _).mp (List.mem_reverse.mp isTail)
  have accepted : ∀ character ∈ left, accepts character = true :=
    fun _ member => List.mem_takeWhile_imp (isSuffix.subset member)
  rw [List.dropWhile_append_of_pos accepted, List.dropWhile_idempotent]

section

variable {accepts : Char → Bool} {later : Pattern} (avoids : later.Avoids accepts)

include avoids

/-- A span that a pattern avoids takes its longest run before that pattern. -/
theorem head?_ways_seq_span (text : List Char) (groups : List (List Char)) :
    ((seq (span accepts) later).ways ⟨text, groups⟩).head? =
      (later.ways ⟨text.dropWhile accepts, groups⟩).head? := by
  refine head?_ways_seq_of_best (head?_ways_span accepts text groups) ?_
  intro noWay other way
  rcases mem_ways_span_cases way with rfl | ⟨character, rest, accepted, rfl⟩
  · exact noWay
  · exact avoids character rest groups accepted

theorem head?_ways_seq_group_span (text : List Char) (groups : List (List Char)) :
    ((seq (group (span accepts)) later).ways ⟨text, groups⟩).head? =
      (later.ways ⟨text.dropWhile accepts, text.takeWhile accepts :: groups⟩).head? := by
  refine head?_ways_seq_of_best (head?_ways_group_span accepts text groups) ?_
  intro noWay other way
  rw [ways_group, List.mem_map] at way
  obtain ⟨stop, spanWay, rfl⟩ := way
  rcases mem_ways_span_cases spanWay with rfl | ⟨character, rest, accepted, rfl⟩
  · rwa [take_sub_length_dropWhile]
  · exact avoids character rest _ accepted

end

/-! ## Repetitions -/

/-- Every match of an item takes at least one character. -/
def Shortens (item : Pattern) : Prop :=
  ∀ cursor, ∀ after ∈ item.ways cursor, after.rest.length < cursor.rest.length

theorem shortens_one (accepts : Char → Bool) : (one accepts).Shortens := by
  rintro ⟨text, groups⟩ after way
  cases text with
  | nil => cases way
  | cons character rest =>
      rw [ways_one] at way
      split_ifs at way
      · rw [List.mem_singleton.mp way]
        exact Nat.lt_succ_self _
      · cases way

theorem Shortens.seq
    {first second : Pattern}
    (firstShortens : first.Shortens)
    (secondShortens : second.Shortens) :
    (seq first second).Shortens := by
  intro cursor after way
  rw [ways_seq, List.mem_flatMap] at way
  obtain ⟨middle, firstWay, secondWay⟩ := way
  exact (secondShortens middle after secondWay).trans (firstShortens cursor middle firstWay)

theorem Shortens.either
    {first second : Pattern}
    (firstShortens : first.Shortens)
    (secondShortens : second.Shortens) :
    (either first second).Shortens := by
  intro cursor after way
  rw [ways_either, List.mem_append] at way
  exact way.elim (firstShortens cursor after) (secondShortens cursor after)

section

variable {item : Pattern} (shortens : item.Shortens)

include shortens

theorem repeatedWays_of_empty
    {cursor : Cursor}
    (empty : cursor.rest.length ≤ 0)
    (count : ℕ) :
    repeatedWays item.ways count cursor = [cursor] := by
  cases count with
  | zero => rfl
  | succ count =>
      have noWay : item.ways cursor = [] := by
        rw [List.eq_nil_iff_forall_not_mem]
        exact fun after way => absurd (shortens cursor after way) (by omega)
      rw [repeatedWays, noWay, List.flatMap_nil, List.nil_append]

/-- A text has no more items than characters, and so a higher bound on them changes nothing. -/
theorem repeatedWays_congr
    {first second : ℕ}
    {cursor : Cursor}
    (firstBound : cursor.rest.length ≤ first)
    (secondBound : cursor.rest.length ≤ second) :
    repeatedWays item.ways first cursor = repeatedWays item.ways second cursor := by
  induction first generalizing second cursor with
  | zero =>
      rw [repeatedWays_of_empty shortens firstBound, repeatedWays_of_empty shortens firstBound]
  | succ first inductionHypothesis =>
      cases second with
      | zero =>
          rw [repeatedWays_of_empty shortens secondBound,
            repeatedWays_of_empty shortens secondBound]
      | succ second =>
          rw [repeatedWays, repeatedWays]
          congr 1
          refine List.flatMap_congr fun after way => ?_
          have shorter := shortens cursor after way
          exact inductionHypothesis (by omega) (by omega)

/-- A repetition is one item and then a repetition, or else nothing. -/
theorem ways_many (cursor : Cursor) :
    (many item).ways cursor = (item.ways cursor).flatMap (many item).ways ++ [cursor] := by
  have unrolled : (many item).ways cursor =
      repeatedWays item.ways (cursor.rest.length + 1) cursor :=
    repeatedWays_congr shortens (Nat.le_refl _) (Nat.le_succ _)
  rw [unrolled, repeatedWays]
  congr 1
  refine List.flatMap_congr fun after way => ?_
  exact repeatedWays_congr shortens (Nat.le_of_lt (shortens cursor after way)) (Nat.le_refl _)

/-- After a repetition comes what follows it, or it takes one more item. -/
theorem ways_seq_many (later : Pattern) (cursor : Cursor) :
    (seq (many item) later).ways cursor =
      (item.ways cursor).flatMap (seq (many item) later).ways ++ later.ways cursor := by
  have unfolded : (seq (many item) later).ways =
      fun middle => ((many item).ways middle).flatMap later.ways := funext (ways_seq _ _)
  rw [ways_seq, ways_many shortens, List.flatMap_append, List.flatMap_assoc,
    List.flatMap_singleton, unfolded]

end

end NetworkConsole.Text.Pattern
