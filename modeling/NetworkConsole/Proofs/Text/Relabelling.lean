import NetworkConsole.Proofs.Text.Lines
import NetworkConsole.Proofs.Text.Pattern

/-!
# Relabelled texts

A relabelling replaces the characters of a text one by one. A pattern that cannot tell a
character from its replacement matches the relabelled text in the same ways, and the lines
of the relabelled text are the relabelled lines where line ends are kept. The lower case is
such a relabelling: it only touches letters, and a word is matched in any letter case.
-/

namespace NetworkConsole.Text

variable {relabel : Char → Char}

/-! ## Patterns -/

/-- The same position in the relabelled text. -/
def Cursor.map (relabel : Char → Char) (cursor : Cursor) : Cursor :=
  ⟨cursor.rest.map relabel, cursor.groups.map (List.map relabel)⟩

theorem repeatedWays_map
    {item : Cursor → List Cursor}
    (itemMaps : ∀ cursor, item (cursor.map relabel) = (item cursor).map (Cursor.map relabel))
    (count : Nat)
    (cursor : Cursor) :
    repeatedWays item count (cursor.map relabel) =
      (repeatedWays item count cursor).map (Cursor.map relabel) := by
  induction count generalizing cursor with
  | zero => rfl
  | succ count inductionHypothesis =>
      simp only [repeatedWays, itemMaps, List.flatMap_map, inductionHypothesis, List.map_append,
        List.map_flatMap, List.map_cons, List.map_nil]

namespace Pattern

/-- The match of the relabelled text. -/
def Match.map (relabel : Char → Char) (found : Match) : Match :=
  ⟨found.text.map relabel, found.groups.map (List.map relabel)⟩

/-- No test of a pattern can tell a character from its replacement. -/
def Ignores (relabel : Char → Char) : Pattern → Prop
  | one accepts => ∀ character, accepts (relabel character) = accepts character
  | nothing => True
  | seq first second => first.Ignores relabel ∧ second.Ignores relabel
  | either first second => first.Ignores relabel ∧ second.Ignores relabel
  | many item => item.Ignores relabel
  | group body => body.Ignores relabel

/-- The ways to match the relabelled text are the ways to match the text, relabelled. -/
theorem ways_map {pattern : Pattern} (ignores : pattern.Ignores relabel) (cursor : Cursor) :
    pattern.ways (cursor.map relabel) = (pattern.ways cursor).map (Cursor.map relabel) := by
  induction pattern generalizing cursor with
  | one accepts =>
      obtain ⟨text, groups⟩ := cursor
      cases text with
      | nil => rfl
      | cons character rest =>
          have same : accepts (relabel character) = accepts character := ignores character
          by_cases accepted : accepts character = true <;>
            simp [Cursor.map, ways_one, same, accepted]
  | nothing => rfl
  | seq first second firstHypothesis secondHypothesis =>
      obtain ⟨firstIgnores, secondIgnores⟩ := ignores
      simp only [ways_seq, firstHypothesis firstIgnores, List.flatMap_map, List.map_flatMap,
        secondHypothesis secondIgnores]
  | either first second firstHypothesis secondHypothesis =>
      obtain ⟨firstIgnores, secondIgnores⟩ := ignores
      rw [ways_either, firstHypothesis firstIgnores, secondHypothesis secondIgnores, ways_either,
        List.map_append]
  | many item itemHypothesis =>
      have length : (cursor.map relabel).rest.length = cursor.rest.length := List.length_map _
      rw [ways, length]
      exact repeatedWays_map (itemHypothesis ignores) cursor.rest.length cursor
  | group body bodyHypothesis =>
      rw [ways_group, bodyHypothesis ignores, ways_group, List.map_map, List.map_map]
      apply List.map_congr_left
      intro after _
      simp [Cursor.map, List.map_take]

theorem matchStart?_map
    {pattern : Pattern}
    (ignores : pattern.Ignores relabel)
    (text : List Char) :
    pattern.matchStart? (text.map relabel) =
      (pattern.matchStart? text).map (Match.map relabel) := by
  have ways := ways_map ignores ⟨text, []⟩
  rw [Cursor.map, List.map_nil] at ways
  rw [matchStart?_eq, matchStart?_eq, ways, List.head?_map, Option.map_map, Option.map_map]
  congr 1
  funext after
  simp [Match.map, Cursor.map, List.map_take]

/-- A search of the relabelled text finds what it finds in the text, relabelled. -/
theorem find?_map
    {pattern : Pattern}
    (ignores : pattern.Ignores relabel)
    (text : List Char) :
    pattern.find? (text.map relabel) = (pattern.find? text).map (Match.map relabel) := by
  induction text with
  | nil => exact matchStart?_map ignores []
  | cons character rest inductionHypothesis =>
      have here := matchStart?_map ignores (character :: rest)
      rw [List.map_cons] at here ⊢
      rw [find?, find?, here, inductionHypothesis]
      cases pattern.matchStart? (character :: rest) <;> rfl

theorem occursIn_map
    {pattern : Pattern}
    (ignores : pattern.Ignores relabel)
    (text : List Char) :
    pattern.occursIn (text.map relabel) = pattern.occursIn text := by
  rw [occursIn, find?_map ignores, Option.isSome_map, occursIn]

end Pattern

/-! ## Lines -/

/-- A relabelling keeps a character and makes no other one into it. -/
def Keeps (relabel : Char → Char) (mark : Char) : Prop :=
  ∀ character, relabel character = mark ↔ character = mark

theorem splitFeeds_map (keepsFeed : Keeps relabel '\n') (text : List Char) :
    splitFeeds (text.map relabel) = (splitFeeds text).map (List.map relabel) := by
  induction text with
  | nil => rfl
  | cons character rest inductionHypothesis =>
      rw [List.map_cons]
      by_cases feed : character = '\n'
      · rw [(keepsFeed character).mpr feed, feed, splitFeeds, splitFeeds, inductionHypothesis]
        rfl
      · obtain ⟨piece, pieces, split⟩ := List.exists_cons_of_ne_nil (splitFeeds_ne_nil rest)
        rw [split, List.map_cons] at inductionHypothesis
        rw [splitFeeds_cons_of_ne (mt (keepsFeed character).mp feed) inductionHypothesis,
          splitFeeds_cons_of_ne feed split]
        rfl

theorem dropReturn_map (keepsReturn : Keeps relabel '\r') (line : List Char) :
    dropReturn (line.map relabel) = (dropReturn line).map relabel := by
  rcases List.eq_nil_or_concat line with rfl | ⟨line, last, rfl⟩
  · rfl
  · rw [List.concat_eq_append, List.map_append, List.map_singleton]
    by_cases isReturn : last = '\r'
    · rw [(keepsReturn last).mpr isReturn, isReturn, dropReturn_append_return,
        dropReturn_append_return]
    · have kept {line : List Char} {last : Char} (other : last ≠ '\r') :
          dropReturn (line ++ [last]) = line ++ [last] := by
        simp [dropReturn, other]
      rw [kept isReturn, kept (mt (keepsReturn last).mp isReturn), List.map_append,
        List.map_singleton]

/-- The lines of the relabelled text are the relabelled lines. -/
theorem lines_map
    (keepsFeed : Keeps relabel '\n')
    (keepsReturn : Keeps relabel '\r')
    (text : List Char) :
    lines (text.map relabel) = (lines text).map (List.map relabel) := by
  have returns : dropReturn ∘ List.map relabel = List.map relabel ∘ dropReturn :=
    funext (dropReturn_map keepsReturn)
  simp only [lines, splitFeeds_map keepsFeed, ← List.map_dropLast, List.map_append, List.map_map,
    returns, List.getLast?_map]
  congr 1
  cases (splitFeeds text).getLast? with
  | none => rfl
  | some last => cases last <;> rfl

section Blanks

variable (ignoresBlanks : ∀ character, isBlank (relabel character) = isBlank character)

include ignoresBlanks

theorem trim_map (text : List Char) : trim (text.map relabel) = (trim text).map relabel := by
  have blanks : isBlank ∘ relabel = isBlank := funext ignoresBlanks
  simp only [trim, List.dropWhile_map, ← List.map_reverse, blanks]

theorem allBlank_map (text : List Char) : allBlank (text.map relabel) = allBlank text := by
  have blanks : isBlank ∘ relabel = isBlank := funext ignoresBlanks
  rw [allBlank, List.all_map, blanks, allBlank]

end Blanks

/-! ## Lower case -/

theorem toNat_of_isAlpha {character : Char} (letter : character.isAlpha = true) :
    65 ≤ character.toNat ∧ character.toNat ≤ 122 := by
  have ranges := (isAlpha_iff character).mp letter
  omega

theorem toLower_toLower (character : Char) : character.toLower.toLower = character.toLower := by
  rcases toLower_cases character.toLower with same | ⟨-, high, -⟩
  · exact same
  · rcases toLower_cases character with same | ⟨low, -, moved⟩
    · rw [same, same]
    · omega

/-- A test that no letter passes cannot tell a character from its lower case. -/
theorem accepts_toLower
    (accepts : Char → Bool)
    (noLetter : ∀ character : Char, character.isAlpha = true → accepts character = false)
    (character : Char) :
    accepts character.toLower = accepts character := by
  rcases toLower_cases character with same | ⟨low, high, moved⟩
  · rw [same]
  · have capital := (isAlpha_iff character).mpr (.inl ⟨low, high⟩)
    have letter := (isAlpha_iff character.toLower).mpr (.inr (by omega))
    rw [noLetter _ letter, noLetter _ capital]

theorem keeps_toLower {mark : Char} (notLetter : mark.isAlpha = false) :
    Keeps Char.toLower mark := by
  intro character
  have same := accepts_toLower (· = mark) ?_ character
  · simpa using same
  · rintro letter isLetter
    rw [decide_eq_false_iff_not]
    rintro rfl
    exact absurd isLetter (by simp [notLetter])

theorem isBlank_toLower (character : Char) : isBlank character.toLower = isBlank character := by
  apply accepts_toLower
  intro letter isLetter
  obtain ⟨low, high⟩ := toNat_of_isAlpha isLetter
  exact isBlank_eq_false_of_apart (by decide) low high

theorem fold_toLower (character : Char) : fold character.toLower = fold character := by
  have longS : Keeps Char.toLower 'ſ' := keeps_toLower rfl
  have kelvin : Keeps Char.toLower '\u212a' := keeps_toLower rfl
  simp only [fold, longS character, kelvin character, toLower_toLower character]

namespace Pattern

/-- Words are matched in any letter case. -/
theorem ignores_word (expected : List Char) : (word expected).Ignores Char.toLower := by
  induction expected with
  | nil => trivial
  | cons first expected inductionHypothesis =>
      exact ⟨fun character => by simp only [fold_toLower], inductionHypothesis⟩

end Pattern

end NetworkConsole.Text
