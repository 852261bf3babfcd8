import Mathlib.Data.List.Basic
import NetworkConsole.Text.Blank
import NetworkConsole.Text.Pattern

/-!
# Ways to match a pattern

At a position of a text a pattern has a list of ways to match, the best one first. A match
that goes on with a continuation takes the first of these ways that the continuation
accepts, and a search takes the first way at the first position that has one.
-/

namespace NetworkConsole.Text

/-! ## Letter case -/

/-- Letters are the characters of two ranges, one for each letter case. -/
theorem isAlpha_iff (character : Char) :
    character.isAlpha = true ↔
      65 ≤ character.toNat ∧ character.toNat ≤ 90 ∨
        97 ≤ character.toNat ∧ character.toNat ≤ 122 := by
  change (decide (65 ≤ character.val ∧ character.val ≤ 90) ||
    (decide (97 ≤ character.val) && decide (character.val ≤ 122))) = true ↔ _
  simp only [Bool.or_eq_true, Bool.and_eq_true, decide_eq_true_eq, UInt32.le_iff_toNat_le]
  rfl

/-- Only capital letters have another lower case, which is the letter 32 places on. -/
theorem toLower_cases (character : Char) :
    character.toLower = character ∨
      65 ≤ character.toNat ∧ character.toNat ≤ 90 ∧
        character.toLower.toNat = character.toNat + 32 := by
  unfold Char.toLower
  split_ifs with upper
  · obtain ⟨low, high⟩ := upper
    have lowNat : 65 ≤ character.val.toNat := UInt32.le_iff_toNat_le.mp low
    have highNat : character.val.toNat ≤ 90 := UInt32.le_iff_toNat_le.mp high
    refine .inr ⟨lowNat, highNat, ?_⟩
    change (character.val + 32).toNat = character.val.toNat + 32
    rw [UInt32.toNat_add]
    exact Nat.mod_eq_of_lt (Nat.lt_of_le_of_lt (Nat.add_le_add_right highNat 32) (by decide))
  · exact .inl rfl

/-- A character that is no letter stands for itself alone. -/
theorem eq_of_fold_eq
    {character expected : Char}
    (notLetter : expected.isAlpha = false)
    (same : fold character = expected) :
    character = expected := by
  unfold fold at same
  split_ifs at same
  · subst same
    cases notLetter
  · subst same
    cases notLetter
  · rcases toLower_cases character with lower | ⟨low, high, moved⟩
    · exact lower.symm.trans same
    · have letter := (isAlpha_iff character.toLower).mpr (.inr (by omega))
      rw [same, notLetter] at letter
      cases letter

/-- Characters between two code points with no blank one between them are not blank. -/
theorem isBlank_eq_false_of_apart
    {low high : Nat}
    (apart : ∀ range ∈ blankRanges, range.2 < low ∨ high < range.1)
    {character : Char}
    (atLeast : low ≤ character.toNat)
    (atMost : character.toNat ≤ high) :
    isBlank character = false := by
  rw [isBlank, List.any_eq_false]
  intro range isRange
  have := apart range isRange
  rw [decide_eq_true_eq]
  omega

/-- A blank character has no other letter case. -/
theorem fold_of_isBlank {character : Char} (blank : isBlank character = true) :
    fold character = character := by
  unfold fold
  split_ifs with isLongS isKelvin
  · subst isLongS
    cases blank
  · subst isKelvin
    cases blank
  · rcases toLower_cases character with lower | ⟨low, high, -⟩
    · exact lower
    · cases blank.symm.trans (isBlank_eq_false_of_apart (by decide) low high)

/-- Characters before the letters have no other letter case. -/
theorem fold_of_lt {character : Char} (below : character.toNat < 65) :
    fold character = character := by
  unfold fold
  split_ifs with isLongS isKelvin
  · subst isLongS
    exact absurd below (by decide)
  · subst isKelvin
    exact absurd below (by decide)
  · rcases toLower_cases character with lower | ⟨low, -, -⟩
    · exact lower
    · omega

/-- Two texts that differ at most in letter case. -/
def Alike (first second : List Char) : Prop := first.map fold = second.map fold

/-! ## Ways -/

/-- The ways to repeat an item at most `count` times. -/
def repeatedWays (item : Cursor → List Cursor) : Nat → Cursor → List Cursor
  | 0, cursor => [cursor]
  | count + 1, cursor => (item cursor).flatMap (repeatedWays item count) ++ [cursor]

namespace Pattern

/-- The cursors to which a pattern can lead from a cursor, best first. -/
def ways : Pattern → Cursor → List Cursor
  | one accepts, cursor =>
      match cursor.rest with
      | character :: rest => if accepts character then [{ cursor with rest }] else []
      | [] => []
  | nothing, cursor => [cursor]
  | seq first second, cursor => (first.ways cursor).flatMap second.ways
  | either first second, cursor => first.ways cursor ++ second.ways cursor
  | many item, cursor => repeatedWays item.ways cursor.rest.length cursor
  | group body, cursor =>
      (body.ways cursor).map fun after =>
        let text := cursor.rest.take (cursor.rest.length - after.rest.length)
        { after with groups := text :: after.groups }

theorem ways_one (accepts : Char → Bool) (character : Char) (rest : List Char)
    (groups : List (List Char)) :
    (one accepts).ways ⟨character :: rest, groups⟩ =
      if accepts character then [⟨rest, groups⟩] else [] := rfl

theorem ways_seq (first second : Pattern) (cursor : Cursor) :
    (seq first second).ways cursor = (first.ways cursor).flatMap second.ways := rfl

theorem ways_either (first second : Pattern) (cursor : Cursor) :
    (either first second).ways cursor = first.ways cursor ++ second.ways cursor := rfl

theorem ways_group (body : Pattern) (cursor : Cursor) :
    (group body).ways cursor =
      (body.ways cursor).map fun after =>
        let text := cursor.rest.take (cursor.rest.length - after.rest.length)
        { after with groups := text :: after.groups } := rfl

/-! ## Matches -/

theorem findSome?_flatMap (cursors : List Cursor) (later : Cursor → List Cursor)
    (next : Cursor → Option α) :
    (cursors.flatMap later).findSome? next =
      cursors.findSome? fun cursor => (later cursor).findSome? next := by
  induction cursors with
  | nil => rfl
  | cons cursor cursors inductionHypothesis =>
      rw [List.flatMap_cons, List.findSome?_append, inductionHypothesis, List.findSome?_cons]
      cases (later cursor).findSome? next <;> rfl

theorem repeated_eq_findSome?
    {item : Matcher α}
    {itemWays : Cursor → List Cursor}
    (itemFinds : ∀ cursor next, item cursor next = (itemWays cursor).findSome? next)
    (count : Nat)
    (cursor : Cursor)
    (next : Cursor → Option α) :
    repeated item count cursor next = (repeatedWays itemWays count cursor).findSome? next := by
  induction count generalizing cursor with
  | zero => simp [repeated, repeatedWays]
  | succ count inductionHypothesis =>
      rw [repeated, repeatedWays, itemFinds, List.findSome?_append, findSome?_flatMap,
        List.findSome?_singleton, funext inductionHypothesis]
      cases (itemWays cursor).findSome? fun after =>
        (repeatedWays itemWays count after).findSome? next <;> rfl

/-- A match takes the first way that its continuation accepts. -/
theorem run_eq_findSome?
    (pattern : Pattern)
    (cursor : Cursor)
    (next : Cursor → Option α) :
    pattern.run cursor next = (pattern.ways cursor).findSome? next := by
  induction pattern generalizing cursor next with
  | one accepts =>
      obtain ⟨text, groups⟩ := cursor
      cases text with
      | nil => rfl
      | cons character rest => by_cases accepted : accepts character <;> simp [run, ways, accepted]
  | nothing => simp [run, ways]
  | seq first second firstHypothesis secondHypothesis =>
      simp only [run, ways, firstHypothesis, secondHypothesis, findSome?_flatMap]
  | either first second firstHypothesis secondHypothesis =>
      simp only [run, ways, firstHypothesis, secondHypothesis, List.findSome?_append]
      cases (first.ways cursor).findSome? next <;> rfl
  | many item itemHypothesis =>
      exact repeated_eq_findSome? itemHypothesis cursor.rest.length cursor next
  | group body bodyHypothesis =>
      simp only [run, ways, bodyHypothesis, List.findSome?_map]
      rfl

/-- At the start of a text the best way is the match. -/
theorem matchStart?_eq (pattern : Pattern) (text : List Char) :
    pattern.matchStart? text =
      (pattern.ways ⟨text, []⟩).head?.map fun after =>
        ⟨text.take (text.length - after.rest.length), after.groups.reverse⟩ := by
  rw [matchStart?, run_eq_findSome?]
  cases pattern.ways ⟨text, []⟩ <;> rfl

theorem matchStart?_eq_none_iff (pattern : Pattern) (text : List Char) :
    pattern.matchStart? text = none ↔ pattern.ways ⟨text, []⟩ = [] := by
  rw [matchStart?_eq, Option.map_eq_none_iff, List.head?_eq_none_iff]

/-- A search finds the match at the first position that has one. -/
theorem find?_eq_some_iff (pattern : Pattern) (text : List Char) (found : Match) :
    pattern.find? text = some found ↔
      ∃ position, pattern.matchStart? (text.drop position) = some found ∧
        ∀ earlier < position, pattern.matchStart? (text.drop earlier) = none := by
  induction text with
  | nil =>
      simp only [find?, List.drop_nil]
      constructor
      · exact fun matched => ⟨0, matched, fun _ before => absurd before (Nat.not_lt_zero _)⟩
      · exact fun ⟨_, matched, _⟩ => matched
  | cons character rest inductionHypothesis =>
      rw [find?]
      cases here : pattern.matchStart? (character :: rest) with
      | some first =>
          constructor
          · rintro ⟨⟩
            exact ⟨0, here, fun _ before => absurd before (Nat.not_lt_zero _)⟩
          · rintro ⟨position, matched, unmatched⟩
            cases position with
            | zero => exact here.symm.trans matched
            | succ position => cases here.symm.trans (unmatched 0 position.succ_pos)
      | none =>
          rw [inductionHypothesis]
          constructor
          · rintro ⟨position, matched, unmatched⟩
            refine ⟨position + 1, matched, fun earlier before => ?_⟩
            cases earlier with
            | zero => exact here
            | succ earlier => exact unmatched earlier (Nat.lt_of_succ_lt_succ before)
          · rintro ⟨position, matched, unmatched⟩
            cases position with
            | zero => cases here.symm.trans matched
            | succ position =>
                exact ⟨position, matched, fun earlier before =>
                  unmatched (earlier + 1) (Nat.succ_lt_succ before)⟩

/-- A pattern occurs where it has a way to match. -/
theorem occursIn_iff (pattern : Pattern) (text : List Char) :
    pattern.occursIn text = true ↔ ∃ position, pattern.ways ⟨text.drop position, []⟩ ≠ [] := by
  induction text with
  | nil => simp [occursIn, find?, Option.isSome_iff_ne_none, matchStart?_eq_none_iff]
  | cons character rest inductionHypothesis =>
      rw [occursIn, find?]
      cases here : pattern.matchStart? (character :: rest) with
      | some first =>
          refine ⟨fun _ => ⟨0, fun noWay => ?_⟩, fun _ => rfl⟩
          cases here.symm.trans ((matchStart?_eq_none_iff _ _).mpr noWay)
      | none =>
          rw [← occursIn, inductionHypothesis]
          constructor
          · exact fun ⟨position, way⟩ => ⟨position + 1, way⟩
          · rintro ⟨position, way⟩
            cases position with
            | zero => exact absurd ((matchStart?_eq_none_iff _ _).mp here) way
            | succ position => exact ⟨position, way⟩

theorem occursIn_of_find?
    {pattern : Pattern}
    {text : List Char}
    {found : Match}
    (isFound : pattern.find? text = some found) :
    pattern.occursIn text = true := by
  rw [occursIn, isFound, Option.isSome_some]

theorem occursIn_eq_false_iff (pattern : Pattern) (text : List Char) :
    pattern.occursIn text = false ↔ pattern.find? text = none := by
  rw [occursIn, Option.isSome_eq_false_iff, Option.isNone_iff_eq_none]

/-- Where a sequence occurs, its first part occurs. -/
theorem occursIn_of_seq
    {first second : Pattern}
    {text : List Char}
    (occurs : (seq first second).occursIn text = true) :
    first.occursIn text = true := by
  rw [occursIn_iff] at occurs ⊢
  obtain ⟨position, way⟩ := occurs
  refine ⟨position, fun noWay => way ?_⟩
  rw [ways_seq, noWay, List.flatMap_nil]

/-- The best way of a sequence, where the best way of its first part leads to one of the
second part. -/
theorem head?_ways_seq
    {first second : Pattern}
    {cursor middle after : Cursor}
    (firstWay : (first.ways cursor).head? = some middle)
    (secondWay : (second.ways middle).head? = some after) :
    ((seq first second).ways cursor).head? = some after := by
  obtain ⟨others, split⟩ := List.head?_eq_some_iff.mp firstWay
  rw [ways_seq, split, List.flatMap_cons, List.head?_append, secondWay, Option.some_or]

/-! ## Words -/

theorem ways_letter (expected character : Char) (rest : List Char) (groups : List (List Char)) :
    (letter expected).ways ⟨character :: rest, groups⟩ =
      if fold character = fold expected then [⟨rest, groups⟩] else [] := by
  simp [letter, ways_one]

/-- A word has one way to match a text that starts with it in some letter case. -/
theorem ways_word_of_alike
    {mark expected : List Char}
    (alike : Alike mark expected)
    (rest : List Char)
    (groups : List (List Char)) :
    (word expected).ways ⟨mark ++ rest, groups⟩ = [⟨rest, groups⟩] := by
  induction expected generalizing mark with
  | nil =>
      rw [List.map_eq_nil_iff.mp alike]
      rfl
  | cons first expected inductionHypothesis =>
      cases mark with
      | nil => cases alike
      | cons character mark =>
          obtain ⟨same, alike⟩ := List.cons.inj alike
          rw [word, ways_seq, List.cons_append, ways_letter, if_pos same, List.flatMap_singleton]
          exact inductionHypothesis alike

/-- A word matches no other texts. -/
theorem alike_of_mem_ways_word
    {expected : List Char}
    {cursor after : Cursor}
    (way : after ∈ (word expected).ways cursor) :
    ∃ mark, Alike mark expected ∧ cursor = ⟨mark ++ after.rest, after.groups⟩ := by
  induction expected generalizing cursor with
  | nil =>
      rw [List.mem_singleton.mp way]
      exact ⟨[], rfl, rfl⟩
  | cons first expected inductionHypothesis =>
      obtain ⟨text, groups⟩ := cursor
      cases text with
      | nil => cases way
      | cons character rest =>
          rw [word, ways_seq, ways_letter] at way
          split_ifs at way with same
          · rw [List.flatMap_singleton] at way
            obtain ⟨mark, alike, split⟩ := inductionHypothesis way
            obtain ⟨rfl, rfl⟩ := Cursor.mk.inj split
            exact ⟨character :: mark, congrArg₂ List.cons same alike, rfl⟩
          · cases way

theorem groups_of_mem_ways_word
    {expected : List Char}
    {cursor after : Cursor}
    (way : after ∈ (word expected).ways cursor) :
    cursor.groups = after.groups := by
  obtain ⟨mark, -, rfl⟩ := alike_of_mem_ways_word way
  rfl

/-- A word occurs in a text that contains it in some letter case. -/
theorem occursIn_word_iff (expected text : List Char) :
    (word expected).occursIn text = true ↔
      ∃ before mark after, text = before ++ mark ++ after ∧ Alike mark expected := by
  rw [occursIn_iff]
  constructor
  · rintro ⟨position, way⟩
    obtain ⟨after, way⟩ := List.exists_mem_of_ne_nil _ way
    obtain ⟨mark, alike, split⟩ := alike_of_mem_ways_word way
    refine ⟨text.take position, mark, after.rest, ?_, alike⟩
    rw [List.append_assoc, ← (Cursor.mk.inj split).1, List.take_append_drop]
  · rintro ⟨before, mark, after, rfl, alike⟩
    refine ⟨before.length, ?_⟩
    rw [List.append_assoc, List.drop_left, ways_word_of_alike alike]
    exact List.cons_ne_nil _ _

/-- A word that occurs in the start of a text occurs in the text. -/
theorem occursIn_word_of_isPrefix
    {expected text longer : List Char}
    (isPrefix : text <+: longer)
    (occurs : (word expected).occursIn text = true) :
    (word expected).occursIn longer = true := by
  rw [occursIn_word_iff] at occurs ⊢
  obtain ⟨rest, rfl⟩ := isPrefix
  obtain ⟨before, mark, after, rfl, alike⟩ := occurs
  exact ⟨before, mark, after ++ rest, List.append_assoc _ _ _, alike⟩

/-- Where a word occurs, its characters that have no other letter case stand. -/
theorem mem_of_occursIn_word
    {expected text : List Char}
    (occurs : (word expected).occursIn text = true)
    {character : Char}
    (member : character ∈ expected)
    (notLetter : character.isAlpha = false)
    (folded : fold character = character) :
    character ∈ text := by
  obtain ⟨before, mark, after, rfl, alike⟩ := (occursIn_word_iff _ _).mp occurs
  have inMark : fold character ∈ mark.map fold := alike ▸ List.mem_map_of_mem member
  obtain ⟨same, isMember, sameFold⟩ := List.mem_map.mp inMark
  rw [eq_of_fold_eq notLetter (sameFold.trans folded)] at isMember
  simp [isMember]

/-! ## Spans -/

/-- A span can stop anywhere in the longest run of its characters, the end of it first. -/
theorem ways_span (accepts : Char → Bool) (text : List Char) (groups : List (List Char)) :
    (span accepts).ways ⟨text, groups⟩ =
      (text.takeWhile accepts).tails.reverse.map fun left =>
        ⟨left ++ text.dropWhile accepts, groups⟩ := by
  induction text with
  | nil => rfl
  | cons character rest inductionHypothesis =>
      have unrolled : (span accepts).ways ⟨character :: rest, groups⟩ =
          ((one accepts).ways ⟨character :: rest, groups⟩).flatMap
            (repeatedWays (one accepts).ways rest.length) ++ [⟨character :: rest, groups⟩] := rfl
      by_cases accepted : accepts character = true
      · have first : (one accepts).ways ⟨character :: rest, groups⟩ = [⟨rest, groups⟩] := by
          simp [ways_one, accepted]
        have later : repeatedWays (one accepts).ways rest.length ⟨rest, groups⟩ =
            (span accepts).ways ⟨rest, groups⟩ := rfl
        rw [unrolled, first, List.flatMap_singleton, later, inductionHypothesis]
        simp [accepted, List.takeWhile_append_dropWhile]
      · have first : (one accepts).ways ⟨character :: rest, groups⟩ = [] := by
          simp [ways_one, accepted]
        rw [unrolled, first]
        simp [accepted]

theorem groups_of_mem_ways_span
    {accepts : Char → Bool}
    {cursor after : Cursor}
    (way : after ∈ (span accepts).ways cursor) :
    cursor.groups = after.groups := by
  obtain ⟨text, groups⟩ := cursor
  rw [ways_span] at way
  obtain ⟨left, -, rfl⟩ := List.mem_map.mp way
  rfl

theorem getLast?_tails (text : List Char) : text.tails.getLast? = some [] := by
  induction text with
  | nil => rfl
  | cons character rest inductionHypothesis =>
      rw [List.tails, List.getLast?_cons, inductionHypothesis]
      rfl

theorem head?_ways_span (accepts : Char → Bool) (text : List Char) (groups : List (List Char)) :
    ((span accepts).ways ⟨text, groups⟩).head? = some ⟨text.dropWhile accepts, groups⟩ := by
  rw [ways_span, List.head?_map, List.head?_reverse, getLast?_tails]
  rfl

/-- What stands before the rest of a text is taken with the rest's length left off. -/
theorem take_sub_length_of_split
    {text front rest : List Char}
    (split : text = front ++ rest) :
    text.take (text.length - rest.length) = front := by
  subst split
  rw [List.length_append, Nat.add_sub_cancel, List.take_left]

theorem take_sub_length_dropWhile (accepts : Char → Bool) (text : List Char) :
    text.take (text.length - (text.dropWhile accepts).length) = text.takeWhile accepts :=
  take_sub_length_of_split List.takeWhile_append_dropWhile.symm

theorem head?_ways_group_span
    (accepts : Char → Bool)
    (text : List Char)
    (groups : List (List Char)) :
    ((group (span accepts)).ways ⟨text, groups⟩).head? =
      some ⟨text.dropWhile accepts, text.takeWhile accepts :: groups⟩ := by
  rw [ways_group, List.head?_map, head?_ways_span, Option.map_some, take_sub_length_dropWhile]

/-! ## Search for a word -/

/-- The first place in a text where a word stands in some letter case. -/
structure FirstOccurrence (expected text before mark after : List Char) : Prop where
  split : text = before ++ mark ++ after
  alike : Alike mark expected
  first : ∀ otherBefore otherMark otherAfter,
    text = otherBefore ++ otherMark ++ otherAfter → Alike otherMark expected →
      before.length ≤ otherBefore.length

theorem exists_firstOccurrence
    {expected text : List Char}
    (occurs : (word expected).occursIn text = true) :
    ∃ before mark after, FirstOccurrence expected text before mark after := by
  obtain ⟨found, isFound⟩ := Option.isSome_iff_exists.mp occurs
  obtain ⟨position, matched, unmatched⟩ := (find?_eq_some_iff _ _ _).mp isFound
  rw [matchStart?_eq, Option.map_eq_some_iff] at matched
  obtain ⟨after, way, -⟩ := matched
  obtain ⟨mark, alike, split⟩ := alike_of_mem_ways_word (List.mem_of_mem_head? way)
  refine ⟨text.take position, mark, after.rest, ?_, alike, ?_⟩
  · rw [List.append_assoc, ← (Cursor.mk.inj split).1, List.take_append_drop]
  · rintro otherBefore otherMark otherAfter rfl otherAlike
    by_contra earlier
    have before : otherBefore.length < position := by
      rw [List.length_take] at earlier
      omega
    have noWay := (matchStart?_eq_none_iff _ _).mp (unmatched _ before)
    rw [List.append_assoc, List.drop_left, ways_word_of_alike otherAlike] at noWay
    exact List.cons_ne_nil _ _ noWay

/-- Where the rest of a pattern matches after the first place of its word, the search finds
the match there. -/
theorem find?_seq_word
    {expected text before mark after : List Char}
    (occurrence : FirstOccurrence expected text before mark after)
    {later : Pattern}
    {last : Cursor}
    (way : (later.ways ⟨after, []⟩).head? = some last) :
    ∃ found, (seq (word expected) later).find? text = some found ∧
      found.groups = last.groups.reverse := by
  have here : text.drop before.length = mark ++ after := by
    rw [occurrence.split, List.append_assoc, List.drop_left]
  have wordWay : ((word expected).ways ⟨mark ++ after, []⟩).head? = some ⟨after, []⟩ := by
    rw [ways_word_of_alike occurrence.alike, List.head?_cons]
  have matched : (seq (word expected) later).matchStart? (text.drop before.length) =
      some ⟨(mark ++ after).take ((mark ++ after).length - last.rest.length),
        last.groups.reverse⟩ := by
    rw [here, matchStart?_eq, head?_ways_seq wordWay way]
    rfl
  have unmatched : ∀ earlier < before.length,
      (seq (word expected) later).matchStart? (text.drop earlier) = none := by
    intro earlier isEarlier
    rw [matchStart?_eq_none_iff, ways_seq, List.flatMap_eq_nil_iff]
    intro middle otherWay
    obtain ⟨otherMark, alike, split⟩ := alike_of_mem_ways_word otherWay
    have whole : text = text.take earlier ++ otherMark ++ middle.rest := by
      rw [List.append_assoc, ← (Cursor.mk.inj split).1, List.take_append_drop]
    have notEarlier := occurrence.first _ _ _ whole alike
    rw [List.length_take] at notEarlier
    omega
  exact ⟨_, (find?_eq_some_iff _ _ _).mpr ⟨before.length, matched, unmatched⟩, rfl⟩

end Pattern
end NetworkConsole.Text
