import Mathlib.Data.List.Basic
import NetworkConsole.Text.Lines

/-!
# Lines of joined texts

A line holds no line feed. A text that is joined from lines has these lines, whichever way
the lines end, as long as none of them ends in a carriage return of its own.
-/

namespace NetworkConsole.Text

theorem splitFeeds_cons_of_ne
    {character : Char}
    (noFeed : character ≠ '\n')
    {rest piece : List Char}
    {pieces : List (List Char)}
    (split : splitFeeds rest = piece :: pieces) :
    splitFeeds (character :: rest) = (character :: piece) :: pieces := by
  rw [splitFeeds, split]
  exact noFeed

theorem splitFeeds_of_notMem {line : List Char} (noFeed : '\n' ∉ line) :
    splitFeeds line = [line] := by
  induction line with
  | nil => rfl
  | cons character rest inductionHypothesis =>
      rw [List.mem_cons, not_or] at noFeed
      exact splitFeeds_cons_of_ne (Ne.symm noFeed.1) (inductionHypothesis noFeed.2)

theorem splitFeeds_append
    {line : List Char}
    (noFeed : '\n' ∉ line)
    (rest : List Char) :
    splitFeeds (line ++ '\n' :: rest) = line :: splitFeeds rest := by
  induction line with
  | nil => rfl
  | cons character line inductionHypothesis =>
      rw [List.mem_cons, not_or] at noFeed
      exact splitFeeds_cons_of_ne (Ne.symm noFeed.1) (inductionHypothesis noFeed.2)

theorem splitFeeds_ne_nil (text : List Char) : splitFeeds text ≠ [] := by
  fun_cases splitFeeds text <;> simp_all

theorem notMem_of_mem_splitFeeds
    {text piece : List Char}
    (isPiece : piece ∈ splitFeeds text) :
    '\n' ∉ piece := by
  induction text generalizing piece with
  | nil => simp_all [splitFeeds]
  | cons character rest inductionHypothesis =>
      by_cases feed : character = '\n'
      · subst feed
        rcases List.mem_cons.mp isPiece with rfl | later
        · exact List.not_mem_nil
        · exact inductionHypothesis later
      · obtain ⟨first, pieces, split⟩ := List.exists_cons_of_ne_nil (splitFeeds_ne_nil rest)
        rw [split] at inductionHypothesis
        rw [splitFeeds_cons_of_ne feed split] at isPiece
        rcases List.mem_cons.mp isPiece with rfl | later
        · rw [List.mem_cons, not_or]
          exact ⟨Ne.symm feed, inductionHypothesis List.mem_cons_self⟩
        · exact inductionHypothesis (List.mem_cons_of_mem _ later)

/-- Only a carriage return at the end of a line is dropped. -/
theorem dropReturn_cases (line : List Char) :
    dropReturn line = line ∨ line = dropReturn line ++ ['\r'] := by
  unfold dropReturn
  split
  · next reversed split =>
      right
      rw [← List.reverse_cons, ← split, List.reverse_reverse]
  · exact .inl rfl

theorem dropReturn_append_return (line : List Char) : dropReturn (line ++ ['\r']) = line := by
  simp [dropReturn]

theorem dropReturn_of_notMem {line : List Char} (noReturn : '\r' ∉ line) :
    dropReturn line = line := by
  rcases dropReturn_cases line with same | ended
  · exact same
  · rw [ended] at noReturn
    simp at noReturn

theorem dropReturn_isPrefix (line : List Char) : dropReturn line <+: line := by
  rcases dropReturn_cases line with same | ended
  · exact ⟨[], by rw [same, List.append_nil]⟩
  · exact ⟨['\r'], ended.symm⟩

/-- No line holds a line feed. -/
theorem notMem_of_mem_lines {text line : List Char} (isLine : line ∈ lines text) :
    '\n' ∉ line := by
  rcases List.mem_append.mp isLine with inner | last
  · obtain ⟨piece, isPiece, rfl⟩ := List.mem_map.mp inner
    have noFeed := notMem_of_mem_splitFeeds ((List.dropLast_sublist _).subset isPiece)
    exact fun feed => noFeed ((dropReturn_isPrefix piece).subset feed)
  · have isLast := Option.mem_toList.mp (List.mem_of_mem_filter last)
    exact notMem_of_mem_splitFeeds (List.mem_of_getLast? isLast)

theorem lines_of_notMem {line : List Char} (noFeed : '\n' ∉ line) :
    lines line = [line].filter (· ≠ []) := by
  rw [lines, splitFeeds_of_notMem noFeed]
  rfl

theorem lines_append {line : List Char} (noFeed : '\n' ∉ line) (rest : List Char) :
    lines (line ++ '\n' :: rest) = dropReturn line :: lines rest := by
  obtain ⟨piece, pieces, split⟩ := List.exists_cons_of_ne_nil (splitFeeds_ne_nil rest)
  rw [lines, lines, splitFeeds_append noFeed, split]
  rfl

/-! ## Joined lines -/

/-- The two ways to end a line. -/
inductive LineEnd
  | feed
  | returnFeed
  deriving DecidableEq, Repr

namespace LineEnd

/-- What stands between a line and its line feed. -/
def beforeFeed : LineEnd → List Char
  | .feed => []
  | .returnFeed => ['\r']

/-- The characters that end a line. -/
def text (lineEnd : LineEnd) : List Char := lineEnd.beforeFeed ++ ['\n']

/-- Join lines with line ends between them. -/
def join (lineEnd : LineEnd) (lines : List (List Char)) : List Char :=
  lineEnd.text.intercalate lines

/-- A line that another one follows, as it is read. -/
def shown (lineEnd : LineEnd) (line : List Char) : List Char :=
  dropReturn (line ++ lineEnd.beforeFeed)

theorem shown_of_notMem {line : List Char} (lineEnd : LineEnd) (noReturn : '\r' ∉ line) :
    lineEnd.shown line = line := by
  cases lineEnd with
  | feed => rw [shown, beforeFeed, List.append_nil, dropReturn_of_notMem noReturn]
  | returnFeed => exact dropReturn_append_return line

theorem shown_isPrefix (lineEnd : LineEnd) (line : List Char) : lineEnd.shown line <+: line := by
  cases lineEnd with
  | feed =>
      rw [shown, beforeFeed, List.append_nil]
      exact dropReturn_isPrefix line
  | returnFeed => exact ⟨[], by rw [shown, beforeFeed, dropReturn_append_return, List.append_nil]⟩

theorem lines_join_singleton {line : List Char} (lineEnd : LineEnd) (noFeed : '\n' ∉ line) :
    lines (lineEnd.join [line]) = [line].filter (· ≠ []) := by
  rw [join, List.intercalate_singleton, lines_of_notMem noFeed]

theorem lines_join_cons
    {line : List Char}
    (lineEnd : LineEnd)
    (noFeed : '\n' ∉ line)
    {later : List (List Char)}
    (nonempty : later ≠ []) :
    lines (lineEnd.join (line :: later)) = lineEnd.shown line :: lines (lineEnd.join later) := by
  have noFeedBefore : '\n' ∉ line ++ lineEnd.beforeFeed := by
    cases lineEnd <;> simp [beforeFeed, noFeed]
  have joined : lineEnd.join (line :: later) =
      (line ++ lineEnd.beforeFeed) ++ '\n' :: lineEnd.join later := by
    rw [join, List.intercalate_cons_of_ne_nil nonempty, text]
    simp [join, text]
  rw [joined, lines_append noFeedBefore, shown]

/-- Joining lines does not change them when they are read again, with or without a line end
after the last one. -/
theorem lines_join
    (lineEnd : LineEnd)
    (closed : Bool)
    {original : List (List Char)}
    (nonempty : [] ∉ original)
    (noFeed : ∀ line ∈ original, '\n' ∉ line)
    (noReturn : ∀ line ∈ original, '\r' ∉ line) :
    lines (lineEnd.join (original ++ if closed then [[]] else [])) = original := by
  induction original with
  | nil => cases closed <;> cases lineEnd <;> rfl
  | cons line later inductionHypothesis =>
      rw [List.forall_mem_cons] at noFeed noReturn
      rw [List.mem_cons, not_or] at nonempty
      by_cases last : (later ++ if closed then [[]] else []) = []
      · obtain ⟨rfl, noEnd⟩ := List.append_eq_nil_iff.mp last
        rw [noEnd, List.append_nil, lines_join_singleton lineEnd noFeed.1]
        simp [Ne.symm nonempty.1]
      · rw [List.cons_append, lines_join_cons lineEnd noFeed.1 last,
          shown_of_notMem lineEnd noReturn.1,
          inductionHypothesis nonempty.2 noFeed.2 noReturn.2]

/-- Lines that stand before others are read first, each of them up to a carriage return at
its end. -/
theorem lines_join_append
    (lineEnd : LineEnd)
    {first : List (List Char)}
    (noFeed : ∀ line ∈ first, '\n' ∉ line)
    (second : List (List Char)) :
    ∃ read, (∀ line ∈ read, ∃ original ∈ first, line <+: original) ∧
      lines (lineEnd.join (first ++ second)) = read ++ lines (lineEnd.join second) := by
  induction first with
  | nil => exact ⟨[], by simp, rfl⟩
  | cons line later inductionHypothesis =>
      rw [List.forall_mem_cons] at noFeed
      by_cases last : later ++ second = []
      · obtain ⟨rfl, rfl⟩ := List.append_eq_nil_iff.mp last
        refine ⟨[line].filter (· ≠ []), fun read isRead => ?_, ?_⟩
        · exact ⟨read, List.mem_of_mem_filter isRead, List.prefix_rfl⟩
        · exact (lines_join_singleton lineEnd noFeed.1).trans (List.append_nil _).symm
      · obtain ⟨read, fromLater, split⟩ := inductionHypothesis noFeed.2
        refine ⟨lineEnd.shown line :: read, ?_, ?_⟩
        · rw [List.forall_mem_cons]
          refine ⟨⟨line, List.mem_cons_self, shown_isPrefix lineEnd line⟩, ?_⟩
          intro other isRead
          obtain ⟨original, member, isPrefix⟩ := fromLater other isRead
          exact ⟨original, List.mem_cons_of_mem _ member, isPrefix⟩
        · rw [List.cons_append, lines_join_cons lineEnd noFeed.1 last, split, List.cons_append]

end LineEnd

end NetworkConsole.Text
