import NetworkConsole.Proofs.Report.ErrorText
import NetworkConsole.Proofs.Text.OnePass

/-!
# Quoted literals

An error text stands in a literal that reaches from its opening quote to the next quote of
the same kind that is not escaped. Escapes are read from the opening quote on: an escape mark
takes away the meaning of the character after it, which may be a quote or an escape mark.
-/

namespace NetworkConsole.Report

open Text (Pattern Alike Cursor)

/-! ## Escapes -/

/-- Whether the character after a text is escaped, read from the left. -/
def endsEscaping (text : List Char) : Bool :=
  text.foldl (fun escaping character => !escaping && character = escapeMark) false

theorem endsEscaping_cons_of_ne
    {character : Char}
    (plain : character ≠ escapeMark)
    (text : List Char) :
    endsEscaping (character :: text) = endsEscaping text := by
  simp [endsEscaping, plain]

theorem endsEscaping_pair (character : Char) (text : List Char) :
    endsEscaping (escapeMark :: character :: text) = endsEscaping text := by
  simp [endsEscaping]

/-- A text is empty, or it starts with a character that is no escape mark, or it is an escape
mark alone, or it starts with an escape mark and the character that it escapes. -/
@[elab_as_elim]
theorem escapeInduction
    {motive : List Char → Prop}
    (nil : motive [])
    (plain : ∀ character text, character ≠ escapeMark → motive text → motive (character :: text))
    (alone : motive [escapeMark])
    (pair : ∀ character text, motive text → motive (escapeMark :: character :: text)) :
    ∀ text, motive text
  | [] => nil
  | [first] => by
      by_cases isMark : first = escapeMark
      · exact isMark ▸ alone
      · exact plain first [] isMark nil
  | first :: second :: text => by
      by_cases isMark : first = escapeMark
      · exact isMark ▸ pair second text (escapeInduction nil plain alone pair text)
      · exact plain first _ isMark (escapeInduction nil plain alone pair (second :: text))

/-! ## Closing quotes -/

/-- A quote that is not escaped stands after some content. -/
structure Closing (quote : Char) (text content rest : List Char) : Prop where
  split : text = content ++ quote :: rest
  unescaped : endsEscaping content = false

/-- The first quote that is not escaped stands after some content. -/
structure FirstClosing (quote : Char) (text content rest : List Char) : Prop
    extends Closing quote text content rest where
  first : ∀ earlier later, Closing quote text earlier later → content.length ≤ earlier.length

theorem exists_firstClosing
    {quote : Char}
    {text content rest : List Char}
    (closing : Closing quote text content rest) :
    ∃ content rest, FirstClosing quote text content rest := by
  -- Of two closing quotes the one after less content comes first, and lengths are well-founded.
  induction length : content.length using Nat.strong_induction_on generalizing content rest with
  | _ count inductionHypothesis =>
      by_cases earlierClosing : ∃ earlier later,
          Closing quote text earlier later ∧ earlier.length < count
      · obtain ⟨earlier, later, closing, shorter⟩ := earlierClosing
        exact inductionHypothesis _ shorter closing rfl
      · push Not at earlierClosing
        exact ⟨content, rest, closing, fun earlier later other =>
          length ▸ earlierClosing earlier later other⟩

theorem not_closing_nil (quote : Char) (content rest : List Char) :
    ¬ Closing quote [] content rest :=
  fun closing => List.append_ne_nil_of_right_ne_nil _ (List.cons_ne_nil _ _) closing.split.symm

theorem not_closing_singleton
    {quote character : Char}
    (notQuote : character ≠ quote)
    (content rest : List Char) :
    ¬ Closing quote [character] content rest := by
  rintro ⟨split, -⟩
  cases content with
  | nil => exact notQuote (List.cons.inj split).1
  | cons first content => simp at split

theorem firstClosing_cons_iff (quote : Char) (text content rest : List Char) :
    FirstClosing quote (quote :: text) content rest ↔ content = [] ∧ rest = text := by
  constructor
  · intro closing
    have isEmpty := closing.first [] text ⟨rfl, rfl⟩
    obtain rfl := List.eq_nil_of_length_eq_zero (Nat.le_zero.mp isEmpty)
    exact ⟨rfl, (List.cons.inj closing.split).2.symm⟩
  · rintro ⟨rfl, rfl⟩
    exact ⟨⟨rfl, rfl⟩, fun _ _ _ => Nat.zero_le _⟩

/-- A text that closes nothing and escapes nothing after it. -/
structure Passed (quote : Char) (before : List Char) : Prop where
  noClosing : ∀ content rest, ¬ Closing quote before content rest
  neutral : ∀ text, endsEscaping (before ++ text) = endsEscaping text

namespace Passed

theorem plain
    {quote character : Char}
    (notMark : character ≠ escapeMark)
    (notQuote : character ≠ quote) :
    Passed quote [character] where
  noClosing := not_closing_singleton notQuote
  neutral := endsEscaping_cons_of_ne notMark

theorem pair {quote : Char} (notMark : quote ≠ escapeMark) (character : Char) :
    Passed quote [escapeMark, character] where
  noClosing := by
    rintro content rest ⟨split, unescaped⟩
    match content with
    | [] => exact notMark (List.cons.inj split).1.symm
    | [first] =>
        rw [← (List.cons.inj split).1] at unescaped
        cases unescaped
    | first :: second :: content => simp at split
  neutral := endsEscaping_pair character

variable {quote : Char} {before : List Char} (passed : Passed quote before)

include passed

theorem closing_iff (text content rest : List Char) :
    Closing quote (before ++ text) content rest ↔
      ∃ later, content = before ++ later ∧ Closing quote text later rest := by
  constructor
  · rintro ⟨split, unescaped⟩
    rcases List.append_eq_append_iff.mp split with ⟨later, rfl, tail⟩ | ⟨last, isBefore, tail⟩
    · exact ⟨later, rfl, tail, (passed.neutral later).symm.trans unescaped⟩
    · cases last with
      | nil => exact ⟨[], by simpa using isBefore.symm, tail.symm, rfl⟩
      | cons first last =>
          obtain ⟨rfl, -⟩ := List.cons.inj tail
          exact absurd ⟨isBefore, unescaped⟩ (passed.noClosing content last)
  · rintro ⟨later, rfl, rfl, unescaped⟩
    exact ⟨(List.append_assoc _ _ _).symm, (passed.neutral later).trans unescaped⟩

theorem firstClosing_iff (text content rest : List Char) :
    FirstClosing quote (before ++ text) content rest ↔
      ∃ later, content = before ++ later ∧ FirstClosing quote text later rest := by
  constructor
  · rintro ⟨closing, first⟩
    obtain ⟨later, rfl, laterClosing⟩ := (passed.closing_iff _ _ _).mp closing
    refine ⟨later, rfl, laterClosing, fun earlier rest other => ?_⟩
    have atMost := first _ _ ((passed.closing_iff _ _ _).mpr ⟨earlier, rfl, other⟩)
    simpa using atMost
  · rintro ⟨later, rfl, closing, first⟩
    refine ⟨(passed.closing_iff _ _ _).mpr ⟨later, rfl, closing⟩, fun earlier rest other => ?_⟩
    obtain ⟨earlier, rfl, laterOther⟩ := (passed.closing_iff _ _ _).mp other
    simpa using first earlier rest laterOther

theorem exists_firstClosing_iff (text rest : List Char) :
    (∃ content, FirstClosing quote (before ++ text) content rest) ↔
      ∃ content, FirstClosing quote text content rest := by
  simp only [passed.firstClosing_iff]
  exact ⟨fun ⟨_, later, _, closing⟩ => ⟨later, closing⟩,
    fun ⟨later, closing⟩ => ⟨_, later, rfl, closing⟩⟩

end Passed

/-! ## Patterns of literals -/

/-- A character of a literal, or an escape mark and the character that it escapes. -/
def literalItem (quote : Char) : Pattern :=
  .either (.one fun character => character ≠ quote && character ≠ escapeMark)
    (.seq (.one (· = escapeMark)) (.one (· ≠ '\n')))

/-- What follows the opening quote of a literal. -/
def literalEnd (quote : Char) : Pattern := .seq (.many (literalItem quote)) (.one (· = quote))

theorem literal_eq (quote : Char) :
    literal quote = .seq (.one (· = quote)) (literalEnd quote) := rfl

section

variable {quote : Char} (groups : List (List Char))

theorem ways_literalItem_plain
    {character : Char}
    (notMark : character ≠ escapeMark)
    (notQuote : character ≠ quote)
    (text : List Char) :
    (literalItem quote).ways ⟨character :: text, groups⟩ = [⟨text, groups⟩] := by
  simp [literalItem, Pattern.ways, notMark, notQuote]

theorem ways_literalItem_quote (notMark : quote ≠ escapeMark) (text : List Char) :
    (literalItem quote).ways ⟨quote :: text, groups⟩ = [] := by
  simp [literalItem, Pattern.ways, notMark]

theorem ways_literalItem_alone : (literalItem quote).ways ⟨[escapeMark], groups⟩ = [] := by
  simp [literalItem, Pattern.ways]

theorem ways_literalItem_pair
    {character : Char}
    (notFeed : character ≠ '\n')
    (text : List Char) :
    (literalItem quote).ways ⟨escapeMark :: character :: text, groups⟩ = [⟨text, groups⟩] := by
  simp [literalItem, Pattern.ways, notFeed]

end

theorem shortens_literalItem (quote : Char) : (literalItem quote).Shortens :=
  (Pattern.shortens_one _).either ((Pattern.shortens_one _).seq (Pattern.shortens_one _))

theorem ways_literalEnd (quote : Char) (cursor : Cursor) :
    (literalEnd quote).ways cursor =
      ((literalItem quote).ways cursor).flatMap (literalEnd quote).ways ++
        (Pattern.one (· = quote)).ways cursor :=
  Pattern.ways_seq_many (shortens_literalItem quote) _ cursor

/-- An open literal ends at its first quote that is not escaped. -/
theorem head?_ways_literalEnd_eq_some_iff
    {quote : Char}
    (notMark : quote ≠ escapeMark)
    {text : List Char}
    (noFeed : '\n' ∉ text)
    (groups : List (List Char))
    (after : Cursor) :
    ((literalEnd quote).ways ⟨text, groups⟩).head? = some after ↔
      (∃ content, FirstClosing quote text content after.rest) ∧ after.groups = groups := by
  have noClosing {before : List Char} (none : ∀ content rest, ¬ Closing quote before content rest) :
      ¬ ((∃ content, FirstClosing quote before content after.rest) ∧ after.groups = groups) :=
    fun ⟨⟨content, closing⟩, _⟩ => none content _ closing.toClosing
  -- No item takes the quote itself, so that every text leaves one way to go on, or none.
  induction text using escapeInduction with
  | nil =>
      rw [ways_literalEnd]
      exact iff_of_false (by simp [literalItem, Pattern.ways])
        (noClosing (not_closing_nil quote))
  | plain character text notEscape inductionHypothesis =>
      rw [ways_literalEnd]
      by_cases isQuote : character = quote
      · subst isQuote
        rw [ways_literalItem_quote groups notMark]
        obtain ⟨rest, otherGroups⟩ := after
        simp [Pattern.ways, firstClosing_cons_iff, eq_comm]
      · have passed := Passed.plain notEscape isQuote
        rw [ways_literalItem_plain groups notEscape isQuote, List.flatMap_singleton,
          Pattern.ways_one, if_neg (by simpa using isQuote), List.append_nil]
        exact (inductionHypothesis (List.not_mem_of_not_mem_cons noFeed)).trans
          (and_congr_left' (passed.exists_firstClosing_iff text after.rest).symm)
  | alone =>
      rw [ways_literalEnd, ways_literalItem_alone]
      exact iff_of_false (by simp [Pattern.ways, notMark.symm])
        (noClosing (not_closing_singleton notMark.symm))
  | pair character text inductionHypothesis =>
      have passed := Passed.pair notMark character
      rw [List.mem_cons, List.mem_cons, not_or, not_or] at noFeed
      rw [ways_literalEnd, ways_literalItem_pair groups (Ne.symm noFeed.2.1),
        List.flatMap_singleton, Pattern.ways_one, if_neg (by simpa using notMark.symm),
        List.append_nil]
      exact (inductionHypothesis noFeed.2.2).trans
        (and_congr_left' (passed.exists_firstClosing_iff text after.rest).symm)

/-- A double or a single quote. -/
def IsQuote (character : Char) : Prop := character = '\x22' ∨ character = '\x27'

instance : DecidablePred IsQuote := fun character =>
  inferInstanceAs (Decidable (character = '\x22' ∨ character = '\x27'))

theorem IsQuote.ne {quote other : Char} (isQuote : IsQuote quote) (noQuote : ¬ IsQuote other) :
    quote ≠ other :=
  fun same => noQuote (same ▸ isQuote)

/-- A literal in double or single quotes. -/
def quoted : Pattern := .either (literal '\x22') (literal '\x27')

theorem ways_literal
    (quote character : Char)
    (text : List Char)
    (groups : List (List Char)) :
    (literal quote).ways ⟨character :: text, groups⟩ =
      if character = quote then (literalEnd quote).ways ⟨text, groups⟩ else [] := by
  rw [literal_eq, Pattern.ways_seq, Pattern.ways_one]
  split_ifs <;> simp_all

theorem ways_quoted (character : Char) (text : List Char) (groups : List (List Char)) :
    quoted.ways ⟨character :: text, groups⟩ =
      if IsQuote character then (literalEnd character).ways ⟨text, groups⟩ else [] := by
  rw [quoted, Pattern.ways_either, ways_literal, ways_literal]
  by_cases isDouble : character = '\x22'
  · subst isDouble
    simp [IsQuote]
  · by_cases isSingle : character = '\x27'
    · subst isSingle
      simp [IsQuote]
    · simp [IsQuote, isDouble, isSingle]

theorem avoids_quoted : quoted.Avoids (· = '=') := by
  intro character rest groups isEqual
  rw [ways_quoted, of_decide_eq_true isEqual, if_neg (by decide)]

theorem head?_ways_quoted_eq_some_iff
    {text : List Char}
    (noFeed : '\n' ∉ text)
    (groups : List (List Char))
    (after : Cursor) :
    (quoted.ways ⟨text, groups⟩).head? = some after ↔
      ∃ quote opened content, IsQuote quote ∧ text = quote :: opened ∧
        FirstClosing quote opened content after.rest ∧ after.groups = groups := by
  cases text with
  | nil => exact iff_of_false (by simp [quoted, literal, Pattern.ways]) (by simp)
  | cons character text =>
      rw [ways_quoted]
      split_ifs with isQuote
      · rw [head?_ways_literalEnd_eq_some_iff (isQuote.ne (by decide))
          (List.not_mem_of_not_mem_cons noFeed)]
        constructor
        · rintro ⟨⟨content, closing⟩, same⟩
          exact ⟨character, text, content, isQuote, rfl, closing, same⟩
        · rintro ⟨_, _, content, -, split, closing, same⟩
          obtain ⟨rfl, rfl⟩ := List.cons.inj split
          exact ⟨⟨content, closing⟩, same⟩
      · refine iff_of_false (by simp) ?_
        rintro ⟨quote, opened, content, isOther, split, -⟩
        exact isQuote ((List.cons.inj split).1 ▸ isOther)

/-! ## Literals after a keyword -/

/-- The parts of a text that starts with a keyword, any number of equal signs and a quote. -/
structure Opening (keyword : String) (text : List Char) where
  mark : List Char
  equals : ℕ
  quote : Char
  opened : List Char
  split : text = mark ++ (List.replicate equals '=' ++ quote :: opened)
  isKeyword : Alike mark keyword.toList
  isQuote : IsQuote quote

/-- An opening, some content and the closing quote. -/
def Opening.literal
    {keyword : String}
    {text : List Char}
    (opening : Opening keyword text)
    (content : List Char) : List Char :=
  opening.mark ++ (List.replicate opening.equals '=' ++
    opening.quote :: (content ++ [opening.quote]))

/-- A text starts with a keyword and a quote that is closed by a quote that is not escaped. -/
def StartsLiteral (keyword : String) (text : List Char) : Prop :=
  ∃ opening : Opening keyword text, ∃ content rest,
    Closing opening.quote opening.opened content rest

/-- A text starts with a literal that ends at its first closing quote. -/
def StartsWithLiteral (keyword : String) (text literal : List Char) : Prop :=
  ∃ opening : Opening keyword text, ∃ content rest,
    FirstClosing opening.quote opening.opened content rest ∧ opening.literal content = literal

theorem startsLiteral_iff (keyword : String) (text : List Char) :
    StartsLiteral keyword text ↔ ∃ literal, StartsWithLiteral keyword text literal := by
  constructor
  · rintro ⟨opening, _, _, closing⟩
    obtain ⟨content, rest, closing⟩ := exists_firstClosing closing
    exact ⟨_, opening, content, rest, closing, rfl⟩
  · rintro ⟨_, opening, content, rest, closing, -⟩
    exact ⟨opening, content, rest, closing.toClosing⟩

theorem Opening.split_literal
    {keyword : String}
    {text content rest : List Char}
    (opening : Opening keyword text)
    (closing : Closing opening.quote opening.opened content rest) :
    text = opening.literal content ++ rest := by
  simpa [Opening.literal, closing.split] using opening.split

theorem assignment_eq (keyword : String) :
    assignment keyword = .seq (.word keyword.toList) (.seq (.span (· = '=')) quoted) := rfl

theorem takeWhile_eq_replicate (text : List Char) :
    text.takeWhile (· = '=') = List.replicate (text.takeWhile (· = '=')).length '=' := by
  rw [List.eq_replicate_iff]
  refine ⟨rfl, fun character member => ?_⟩
  have accepted := List.mem_takeWhile_imp member
  exact of_decide_eq_true accepted

theorem dropWhile_replicate_append
    (equals : ℕ)
    {quote : Char}
    (isQuote : IsQuote quote)
    (opened : List Char) :
    (List.replicate equals '=' ++ quote :: opened).dropWhile (· = '=') = quote :: opened := by
  rw [List.dropWhile_append_of_pos fun character member => by
      simpa using List.eq_of_mem_replicate member,
    List.dropWhile_cons_of_neg (by simpa using isQuote.ne (by decide))]

theorem matchStart?_assignment_eq_some_iff
    (keyword : String)
    {text : List Char}
    (noFeed : '\n' ∉ text)
    (found : Pattern.Match) :
    (assignment keyword).matchStart? text = some found ↔
      StartsWithLiteral keyword text found.text ∧ found.groups = [] := by
  simp only [Pattern.matchStart?_eq, Option.map_eq_some_iff, assignment_eq,
    Pattern.head?_ways_seq_word_eq_some_iff, Pattern.head?_ways_seq_span avoids_quoted]
  constructor
  · rintro ⟨last, ⟨mark, after, rfl, isKeyword, way⟩, rfl⟩
    have noLaterFeed : '\n' ∉ after.dropWhile (· = '=') := fun member =>
      noFeed (List.mem_append_right mark ((List.dropWhile_sublist _).subset member))
    obtain ⟨quote, opened, content, isQuote, split, closing, noGroups⟩ :=
      (head?_ways_quoted_eq_some_iff noLaterFeed [] last).mp way
    let opening : Opening keyword (mark ++ after) := {
      mark, quote, opened, isKeyword, isQuote
      equals := (after.takeWhile (· = '=')).length
      split := by rw [← takeWhile_eq_replicate, ← split, List.takeWhile_append_dropWhile] }
    refine ⟨⟨opening, content, last.rest, closing, ?_⟩, by rw [noGroups, List.reverse_nil]⟩
    exact (Pattern.take_sub_length_of_split (opening.split_literal closing.toClosing)).symm
  · rintro ⟨⟨opening, content, rest, closing, isLiteral⟩, noGroups⟩
    have noLaterFeed : '\n' ∉ opening.quote :: opening.opened := fun member =>
      noFeed (opening.split ▸ List.mem_append_right _ (List.mem_append_right _ member))
    refine ⟨⟨rest, []⟩, ⟨opening.mark, _, opening.split, opening.isKeyword, ?_⟩, ?_⟩
    · rw [dropWhile_replicate_append _ opening.isQuote, head?_ways_quoted_eq_some_iff noLaterFeed]
      exact ⟨opening.quote, opening.opened, content, opening.isQuote, rfl, closing, rfl⟩
    · rw [Pattern.take_sub_length_of_split (opening.split_literal closing.toClosing), isLiteral,
        List.reverse_nil, ← noGroups]

/-- The literal at the first place of a line where a literal starts. -/
def FirstLiteral (keyword : String) (line literal : List Char) : Prop :=
  ∃ position, StartsWithLiteral keyword (line.drop position) literal ∧
    ∀ earlier < position, ¬ StartsLiteral keyword (line.drop earlier)

/-- A pattern occurs in a line where a literal starts in it, and finds the first literal. -/
structure FindsLiteral (pattern : Pattern) (keyword : String) (line : List Char) : Prop where
  occurs_iff : pattern.occursIn line = true ↔ ∃ position, StartsLiteral keyword (line.drop position)
  found_iff : ∀ found, pattern.find? line = some found ↔
    FirstLiteral keyword line found.text ∧ found.groups = []

theorem findsLiteral_assignment
    (keyword : String)
    {line : List Char}
    (noFeed : '\n' ∉ line) :
    FindsLiteral (assignment keyword) keyword line := by
  have noFeedAt (position : ℕ) : '\n' ∉ line.drop position :=
    fun member => noFeed (List.mem_of_mem_drop member)
  have noMatch (position : ℕ) : (assignment keyword).matchStart? (line.drop position) = none ↔
      ¬ StartsLiteral keyword (line.drop position) := by
    simp only [startsLiteral_iff, not_exists, Option.eq_none_iff_forall_ne_some, ne_eq,
      matchStart?_assignment_eq_some_iff keyword (noFeedAt position)]
    exact ⟨fun apart literal starts => apart ⟨literal, []⟩ ⟨starts, rfl⟩,
      fun none found starts => none found.text starts.1⟩
  constructor
  · simp only [Pattern.occursIn_iff, ne_eq, ← Pattern.matchStart?_eq_none_iff, noMatch, not_not]
  · intro found
    simp only [Pattern.find?_eq_some_iff, noMatch, FirstLiteral,
      matchStart?_assignment_eq_some_iff keyword (noFeedAt _)]
    constructor
    · rintro ⟨position, ⟨starts, noGroups⟩, first⟩
      exact ⟨⟨position, starts, first⟩, noGroups⟩
    · rintro ⟨⟨position, starts, first⟩, noGroups⟩
      exact ⟨position, ⟨starts, noGroups⟩, first⟩

/-- The error patterns find a literal in a line exactly where one starts after their keyword,
and cut it from the first such place to its first closing quote. A scan keeps the error
literal of a line whole, or else its literal of a critical message. -/
theorem literals_of_line
    {line : List Char}
    (noFeed : '\n' ∉ line) :
    FindsLiteral errorLiteral "err" line ∧
      FindsLiteral criticalLiteral "crit msg" line ∧
      ∀ (scan : Scan) (literal : List Char),
        (FirstLiteral "err" line literal → (scan.step line).errorText = some literal) ∧
          ((∀ position, ¬ StartsLiteral "err" (line.drop position)) →
            FirstLiteral "crit msg" line literal → (scan.step line).errorText = some literal) := by
  have error : FindsLiteral errorLiteral "err" line := findsLiteral_assignment "err" noFeed
  have critical : FindsLiteral criticalLiteral "crit msg" line :=
    findsLiteral_assignment "crit msg" noFeed
  refine ⟨error, critical, fun scan literal => ⟨fun isFirst => ?_, fun noError isFirst => ?_⟩⟩
  · have isFound := (error.found_iff ⟨literal, []⟩).mpr ⟨isFirst, rfl⟩
    rw [Scan.errorText_step, errorOf?, isFound, Option.some_or]
  · have notFound : errorLiteral.find? line = none := by
      rw [← Pattern.occursIn_eq_false_iff, ← Bool.not_eq_true, error.occurs_iff, not_exists]
      exact noError
    have isFound := (critical.found_iff ⟨literal, []⟩).mpr ⟨isFirst, rfl⟩
    rw [Scan.errorText_step, errorOf?, notFound]
    dsimp only
    rw [isFound, Option.some_or]

/-- A literal whose closing quote is escaped is passed over, and one that ends after an
escaped escape mark is found and kept. -/
theorem literal_after_escapedQuote :
    let line := "err=\"a\\\" ERR=='b\\\\' x".toList
    '\n' ∉ line ∧ FirstLiteral "err" line "ERR=='b\\\\'".toList ∧
      (Scan.initial.step line).errorText = some "ERR=='b\\\\'".toList := by
  intro line
  have noFeed : '\n' ∉ line := by decide
  obtain ⟨error, -, kept⟩ := literals_of_line noFeed
  have isFirst : FirstLiteral "err" line "ERR=='b\\\\'".toList :=
    ((error.found_iff ⟨_, []⟩).mp (by decide)).1
  exact ⟨noFeed, isFirst, (kept .initial _).1 isFirst⟩

end NetworkConsole.Report
