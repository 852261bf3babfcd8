import Mathlib.Data.List.DropRight
import Mathlib.Data.List.TakeWhile
import NetworkConsole.Proofs.Report.Attribution
import NetworkConsole.Proofs.Text.Lines

/-!
# Error text of a report

The error of a report is the candidate of the last line that matches an error pattern. A
report without such a line takes its first line that is not blank, and only a report whose
lines are all blank has no error.
-/

namespace NetworkConsole.Report

open Text (Pattern Alike)
open Text.Pattern (FirstOccurrence)

/-! ## Candidates -/

/-- A line matches an error pattern. -/
def MatchesError (line : List Char) : Prop :=
  errorLiteral.occursIn line = true ∨ criticalLiteral.occursIn line = true ∨
    errorMessage.occursIn line = true

/-- The error text that a line stands for: its first error literal as a whole, or else its
first literal of a critical message as a whole, or else what follows its first `error:`
without the blanks around it. -/
inductive Candidate (line : List Char) : List Char → Prop
  | errorLiteral
      (found : Pattern.Match)
      (isFound : errorLiteral.find? line = some found) :
      Candidate line found.text
  | criticalLiteral
      (noErrorLiteral : ¬ errorLiteral.occursIn line = true)
      (found : Pattern.Match)
      (isFound : criticalLiteral.find? line = some found) :
      Candidate line found.text
  | errorMessage
      (noErrorLiteral : ¬ errorLiteral.occursIn line = true)
      (noCriticalLiteral : ¬ criticalLiteral.occursIn line = true)
      (before mark rest : List Char)
      (occurrence : FirstOccurrence "error:".toList line before mark rest) :
      Candidate line (Text.trim rest)

theorem errorOf?_eq_none_iff (line : List Char) :
    errorOf? line = none ↔ ¬ MatchesError line := by
  simp only [MatchesError, not_or, Bool.not_eq_true, Pattern.occursIn_eq_false_iff]
  unfold errorOf?
  split
  · simp_all
  · split <;> simp_all

theorem matchesError_iff (line : List Char) :
    MatchesError line ↔ ∃ text, errorOf? line = some text := by
  rw [← Option.ne_none_iff_exists', ne_eq, errorOf?_eq_none_iff, not_not]

theorem trim_dropWhile_isBlank (text : List Char) :
    Text.trim (text.dropWhile Text.isBlank) = Text.trim text := by
  rw [Text.trim, Text.trim, List.dropWhile_idempotent]

/-- An error message reaches from its first mark to the end of the line. -/
theorem find?_errorMessage
    {line before mark rest : List Char}
    (noFeed : '\n' ∉ line)
    (occurrence : FirstOccurrence "error:".toList line before mark rest) :
    ∃ found, errorMessage.find? line = some found ∧
      found.groups = [rest.dropWhile Text.isBlank] := by
  have whole : (rest.dropWhile Text.isBlank).takeWhile (· ≠ '\n') =
      rest.dropWhile Text.isBlank := by
    rw [List.takeWhile_eq_self_iff]
    intro character member
    have inLine : character ∈ line := by
      rw [occurrence.split]
      exact List.mem_append_right _ ((List.dropWhile_sublist _).subset member)
    exact decide_eq_true (ne_of_mem_of_not_mem inLine noFeed)
  have way := Pattern.head?_ways_seq (Pattern.head?_ways_span Text.isBlank rest [])
    (Pattern.head?_ways_group_span (· ≠ '\n') (rest.dropWhile Text.isBlank) [])
  rw [whole] at way
  exact Pattern.find?_seq_word occurrence way

theorem errorOf?_eq_some_iff {line : List Char} (noFeed : '\n' ∉ line) (text : List Char) :
    errorOf? line = some text ↔ Candidate line text := by
  unfold errorOf?
  cases quoted : errorLiteral.find? line with
  | some found =>
      have occurs := Pattern.occursIn_of_find? quoted
      constructor
      · rintro ⟨⟩
        exact .errorLiteral found quoted
      · intro candidate
        cases candidate with
        | errorLiteral other isFound =>
            cases quoted.symm.trans isFound
            rfl
        | criticalLiteral noErrorLiteral => exact absurd occurs noErrorLiteral
        | errorMessage noErrorLiteral => exact absurd occurs noErrorLiteral
  | none =>
      have noErrorLiteral : ¬ errorLiteral.occursIn line = true := by
        rw [Bool.not_eq_true, Pattern.occursIn_eq_false_iff, quoted]
      cases critical : criticalLiteral.find? line with
      | some found =>
          have occurs := Pattern.occursIn_of_find? critical
          constructor
          · rintro ⟨⟩
            exact .criticalLiteral noErrorLiteral found critical
          · intro candidate
            cases candidate with
            | errorLiteral other isFound => cases quoted.symm.trans isFound
            | criticalLiteral _ other isFound =>
                cases critical.symm.trans isFound
                rfl
            | errorMessage _ noCriticalLiteral => exact absurd occurs noCriticalLiteral
      | none =>
          have noCriticalLiteral : ¬ criticalLiteral.occursIn line = true := by
            rw [Bool.not_eq_true, Pattern.occursIn_eq_false_iff, critical]
          dsimp only
          rw [Option.map_eq_some_iff]
          constructor
          · rintro ⟨found, isFound, rfl⟩
            have occurs := Pattern.occursIn_of_seq (Pattern.occursIn_of_find? isFound)
            obtain ⟨before, mark, rest, occurrence⟩ := Pattern.exists_firstOccurrence occurs
            obtain ⟨sameFound, isSameFound, groups⟩ := find?_errorMessage noFeed occurrence
            cases isFound.symm.trans isSameFound
            rw [groups, List.headD_cons, trim_dropWhile_isBlank]
            exact .errorMessage noErrorLiteral noCriticalLiteral before mark rest occurrence
          · intro candidate
            cases candidate with
            | errorLiteral other isFound => cases quoted.symm.trans isFound
            | criticalLiteral _ other isFound => cases critical.symm.trans isFound
            | errorMessage _ _ before mark rest occurrence =>
                obtain ⟨found, isFound, groups⟩ := find?_errorMessage noFeed occurrence
                refine ⟨found, isFound, ?_⟩
                rw [groups, List.headD_cons, trim_dropWhile_isBlank]

/-! ## Blank lines -/

/-- A line without visible characters. -/
def Blank (line : List Char) : Prop := ∀ character ∈ line, Text.isBlank character = true

theorem allBlank_iff (line : List Char) : Text.allBlank line = true ↔ Blank line := by
  rw [Text.allBlank, List.all_eq_true, Blank]

theorem not_occursIn_word_of_blank
    {first : Char}
    (visible : Text.isBlank (Text.fold first) = false)
    (later : List Char)
    {line : List Char}
    (blank : Blank line) :
    ¬ (Pattern.word (first :: later)).occursIn line = true := by
  rw [Pattern.occursIn_word_iff]
  rintro ⟨before, mark, after, rfl, alike⟩
  cases mark with
  | nil => cases alike
  | cons character mark =>
      have isBlank := blank character (by simp)
      rw [← (List.cons.inj alike).1, Text.fold_of_isBlank isBlank, isBlank] at visible
      cases visible

/-- A blank line matches no error pattern. -/
theorem not_matchesError_of_blank {line : List Char} (blank : Blank line) :
    ¬ MatchesError line := by
  rintro (errorLiteral | criticalLiteral | errorMessage)
  · exact not_occursIn_word_of_blank rfl _ blank (Pattern.occursIn_of_seq errorLiteral)
  · exact not_occursIn_word_of_blank rfl _ blank (Pattern.occursIn_of_seq criticalLiteral)
  · exact not_occursIn_word_of_blank rfl _ blank (Pattern.occursIn_of_seq errorMessage)

/-! ## Errors of a scan -/

namespace Scan

theorem errorText_step (scan : Scan) (line : List Char) :
    (scan.step line).errorText = (errorOf? line).or scan.errorText := by
  rw [step, takeError]
  cases given : errorOf? line with
  | some text => rfl
  | none =>
      dsimp only
      split_ifs <;> exact (takeReading_frame _ line).2.1

/-- A scan keeps the last error text that a line gives. -/
theorem errorText_foldl (scan : Scan) (lines : List (List Char)) :
    (lines.foldl step scan).errorText =
      (lines.filterMap errorOf?).getLast?.or scan.errorText := by
  induction lines generalizing scan with
  | nil => rfl
  | cons line later inductionHypothesis =>
      rw [List.foldl_cons, inductionHypothesis, errorText_step]
      cases given : errorOf? line with
      | none => rw [List.filterMap_cons_none given, Option.none_or]
      | some text =>
          rw [List.filterMap_cons_some given, List.getLast?_cons, Option.some_or, Option.some_or]
          cases (later.filterMap errorOf?).getLast? <;> rfl

theorem firstLine_takeError
    (scan : Scan)
    {line : List Char}
    (noError : errorOf? line = none) :
    (scan.takeError line).firstLine =
      scan.firstLine.or (if Text.allBlank line then none else some (Text.trim line)) := by
  rw [takeError, noError]
  dsimp only
  cases known : scan.firstLine with
  | some first => simp [known]
  | none => cases blank : Text.allBlank line <;> simp [known]

theorem firstLine_step
    (scan : Scan)
    {line : List Char}
    (noError : errorOf? line = none) :
    (scan.step line).firstLine =
      scan.firstLine.or (if Text.allBlank line then none else some (Text.trim line)) := by
  rw [step, firstLine_takeError _ noError, (takeReading_frame _ line).2.2]

/-- A scan without error texts keeps the first line that is not blank. -/
theorem firstLine_foldl
    (scan : Scan)
    {lines : List (List Char)}
    (noError : ∀ line ∈ lines, errorOf? line = none) :
    (lines.foldl step scan).firstLine =
      scan.firstLine.or ((lines.find? fun line => !Text.allBlank line).map Text.trim) := by
  induction lines generalizing scan with
  | nil => rw [List.foldl_nil, List.find?_nil, Option.map_none, Option.or_none]
  | cons line later inductionHypothesis =>
      have noErrorHere := noError line List.mem_cons_self
      have noErrorLater := fun other member => noError other (List.mem_cons_of_mem line member)
      rw [List.foldl_cons, inductionHypothesis _ noErrorLater, firstLine_step _ noErrorHere,
        List.find?_cons, Option.or_assoc]
      cases Text.allBlank line <;> rfl

end Scan

/-- The last error text is the candidate of the last line that matches an error pattern. -/
theorem getLast?_errorOf?_eq_some_iff
    {lines : List (List Char)}
    (noFeed : ∀ line ∈ lines, '\n' ∉ line)
    (text : List Char) :
    (lines.filterMap errorOf?).getLast? = some text ↔
      ∃ line,
        IsLast (fun index line => lines[index]? = some line ∧ MatchesError line) line ∧
          Candidate line text := by
  rw [getLast?_filterMap_eq_some_iff]
  constructor
  · rintro ⟨index, ⟨line, isLine, given⟩, noLater⟩
    refine ⟨line, ⟨index, ⟨isLine, (matchesError_iff line).mpr ⟨text, given⟩⟩, ?_⟩,
      (errorOf?_eq_some_iff (noFeed line (List.mem_of_getElem? isLine)) text).mp given⟩
    rintro later isLater other ⟨isOther, matchesError⟩
    obtain ⟨otherText, otherGiven⟩ := (matchesError_iff other).mp matchesError
    exact noLater later isLater otherText ⟨other, isOther, otherGiven⟩
  · rintro ⟨line, ⟨index, ⟨isLine, -⟩, noLater⟩, candidate⟩
    have given := (errorOf?_eq_some_iff (noFeed line (List.mem_of_getElem? isLine)) text).mpr
      candidate
    refine ⟨index, ⟨line, isLine, given⟩, ?_⟩
    rintro later isLater otherText ⟨other, isOther, otherGiven⟩
    exact noLater later isLater other ⟨isOther, (matchesError_iff other).mpr ⟨_, otherGiven⟩⟩

theorem getLast?_errorOf?_eq_none_iff (lines : List (List Char)) :
    (lines.filterMap errorOf?).getLast? = none ↔ ∀ line ∈ lines, ¬ MatchesError line := by
  rw [List.getLast?_eq_none_iff, List.filterMap_eq_nil_iff]
  exact forall₂_congr fun line _ => errorOf?_eq_none_iff line

theorem map_trim_find?_eq_some_iff (lines : List (List Char)) (text : List Char) :
    (lines.find? fun line => !Text.allBlank line).map Text.trim = some text ↔
      ∃ before line after,
        lines = before ++ line :: after ∧ (∀ earlier ∈ before, Blank earlier) ∧
          ¬ Blank line ∧ text = Text.trim line := by
  simp only [Option.map_eq_some_iff, List.find?_eq_some_iff_append, Bool.not_eq_true',
    Bool.not_not, allBlank_iff, ← Bool.not_eq_true]
  constructor
  · rintro ⟨line, ⟨visible, before, after, split, blank⟩, rfl⟩
    exact ⟨before, line, after, split, blank, visible, rfl⟩
  · rintro ⟨before, line, after, split, blank, visible, rfl⟩
    exact ⟨line, ⟨visible, before, after, split, blank⟩, rfl⟩

/-- The error of a scan is the last error text or else the first line that is kept. -/
theorem error_scan (text : String) :
    (scan text).error =
      ((((Text.lines text.toList).filterMap errorOf?).getLast?).or
        ((Text.lines text.toList).foldl Scan.step .initial).firstLine).map String.ofList := by
  have last := Scan.errorText_foldl .initial (Text.lines text.toList)
  rw [Scan.initial, Option.or_none, ← Scan.initial] at last
  rw [← last]
  rfl

/-- Without a line that matches an error pattern, the first line that is not blank is kept. -/
theorem firstLine_of_noError
    {lines : List (List Char)}
    (noError : ∀ line ∈ lines, ¬ MatchesError line) :
    (lines.foldl Scan.step .initial).firstLine =
      (lines.find? fun line => !Text.allBlank line).map Text.trim := by
  have kept := Scan.firstLine_foldl .initial fun line member =>
    (errorOf?_eq_none_iff line).mpr (noError line member)
  rwa [Scan.initial, Option.none_or, ← Scan.initial] at kept

theorem error_scan_eq_none_iff (text : String) :
    (scan text).error = none ↔ ∀ line ∈ Text.lines text.toList, Blank line := by
  rw [error_scan, Option.map_eq_none_iff, Option.or_eq_none_iff, getLast?_errorOf?_eq_none_iff]
  constructor
  · rintro ⟨noError, noFirst⟩ line member
    rw [firstLine_of_noError noError, Option.map_eq_none_iff, List.find?_eq_none] at noFirst
    have blank := noFirst line member
    rwa [Bool.not_eq_true', Bool.not_eq_false, allBlank_iff] at blank
  · intro blank
    have noError : ∀ line ∈ Text.lines text.toList, ¬ MatchesError line :=
      fun line member => not_matchesError_of_blank (blank line member)
    refine ⟨noError, ?_⟩
    rw [firstLine_of_noError noError, Option.map_eq_none_iff, List.find?_eq_none]
    intro line member
    rw [Bool.not_eq_true', Bool.not_eq_false, allBlank_iff]
    exact blank line member

theorem error_scan_eq_some_iff (text error : String) :
    (scan text).error = some error ↔
      ((Text.lines text.toList).filterMap errorOf?).getLast? = some error.toList ∨
        ((Text.lines text.toList).filterMap errorOf?).getLast? = none ∧
          ((Text.lines text.toList).foldl Scan.step .initial).firstLine = some error.toList := by
  have ofList : ∀ characters, String.ofList characters = error ↔ characters = error.toList := by
    intro characters
    constructor
    · rintro rfl
      rw [String.toList_ofList]
    · rintro rfl
      rw [String.ofList_toList]
  simp only [error_scan, Option.map_eq_some_iff, ofList, exists_eq_right, Option.or_eq_some_iff]

/-- The error of a report is the candidate of the last line that matches an error pattern.
Where no line matches one, it is the first line that is not blank, without the blanks
around it. A report has no error exactly if all its lines are blank. -/
theorem error_of_scan (text : String) :
    let lines := Text.lines text.toList
    (∀ error,
      (scan text).error = some error ↔
        (∃ line,
          IsLast (fun index line => lines[index]? = some line ∧ MatchesError line) line ∧
            Candidate line error.toList) ∨
        (∀ line ∈ lines, ¬ MatchesError line) ∧
          ∃ before line after,
            lines = before ++ line :: after ∧ (∀ earlier ∈ before, Blank earlier) ∧
              ¬ Blank line ∧ error.toList = Text.trim line) ∧
      ((scan text).error = none ↔ ∀ line ∈ lines, Blank line) := by
  intro lines
  have noFeed : ∀ line ∈ lines, '\n' ∉ line := fun line => Text.notMem_of_mem_lines
  refine ⟨fun error => ?_, error_scan_eq_none_iff text⟩
  rw [error_scan_eq_some_iff, getLast?_errorOf?_eq_some_iff noFeed,
    getLast?_errorOf?_eq_none_iff]
  refine or_congr_right (and_congr_right fun noError => ?_)
  rw [firstLine_of_noError noError, map_trim_find?_eq_some_iff]

end NetworkConsole.Report
