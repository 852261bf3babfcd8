/-!
# Text patterns

Patterns over characters with ordered choice and greedy repetition. A search tries
every position of the text from the left. At one position a choice prefers its
first branch and a repetition prefers one more item; the first way to complete the
whole pattern is the match.

A match is driven by continuations: `Pattern.run` hands every way to match its
pattern, best first, to the function that matches what follows, until that function
succeeds. An item of a repetition is not empty, so no text holds more items than it
has characters.
-/

namespace NetworkConsole.Text

/-- A pattern over characters. -/
inductive Pattern
  /-- One character that passes a test. -/
  | one (accepts : Char → Bool)
  /-- The empty text. -/
  | nothing
  /-- One pattern and then another. -/
  | seq (first second : Pattern)
  /-- The first pattern, or else the second. -/
  | either (first second : Pattern)
  /-- As many items as possible, none of them empty. -/
  | many (item : Pattern)
  /-- A pattern whose text is kept. -/
  | group (body : Pattern)

/-- A position in the text: what follows it and the groups read before it, the last
one first. -/
structure Cursor where
  rest : List Char
  groups : List (List Char)
  deriving DecidableEq, Repr

/-- A matcher tries its ways to go on from a cursor, and `next` judges each of them. -/
abbrev Matcher (α : Type) := Cursor → (Cursor → Option α) → Option α

/-- Repeat an item at most `count` times, preferring more repetitions. -/
def repeated (item : Matcher α) : Nat → Matcher α
  | 0, cursor, next => next cursor
  | count + 1, cursor, next =>
      match item cursor fun after => repeated item count after next with
      | some result => some result
      | none => next cursor

namespace Pattern

/-- Try the ways to match a pattern at a cursor, best first. -/
def run : Pattern → Matcher α
  | one accepts, cursor, next =>
      match cursor.rest with
      | character :: rest => if accepts character then next { cursor with rest } else none
      | [] => none
  | nothing, cursor, next => next cursor
  | seq first second, cursor, next => first.run cursor fun middle => second.run middle next
  | either first second, cursor, next =>
      match first.run cursor next with
      | some result => some result
      | none => second.run cursor next
  | many item, cursor, next => repeated item.run cursor.rest.length cursor next
  | group body, cursor, next =>
      body.run cursor fun after =>
        let text := cursor.rest.take (cursor.rest.length - after.rest.length)
        next { after with groups := text :: after.groups }

/-- The text and the groups of a match. -/
structure Match where
  text : List Char
  groups : List (List Char)
  deriving DecidableEq, Repr

/-- Match a pattern at the start of a text. -/
def matchStart? (pattern : Pattern) (text : List Char) : Option Match :=
  pattern.run ⟨text, []⟩ fun after =>
    some ⟨text.take (text.length - after.rest.length), after.groups.reverse⟩

/-- The leftmost match of a pattern in a text. -/
def find? (pattern : Pattern) : List Char → Option Match
  | [] => pattern.matchStart? []
  | character :: rest =>
      match pattern.matchStart? (character :: rest) with
      | some found => some found
      | none => pattern.find? rest

/-- Whether a pattern matches anywhere in a text. -/
def occursIn (pattern : Pattern) (text : List Char) : Bool := (pattern.find? text).isSome

end Pattern

/-- Lower-case form of a letter, where the letters that have an ASCII lower-case form
under simple case folding share it. -/
def fold (character : Char) : Char :=
  if character = 'ſ' then 's' else if character = '\u212a' then 'k' else character.toLower

namespace Pattern

/-- One given character, in either letter case. -/
def letter (expected : Char) : Pattern := one fun character => fold character = fold expected

/-- A given text, in any letter case. -/
def word : List Char → Pattern
  | [] => nothing
  | character :: rest => seq (letter character) (word rest)

/-- A run of characters that pass a test, as long as possible. -/
def span (accepts : Char → Bool) : Pattern := many (one accepts)

end Pattern

end NetworkConsole.Text
