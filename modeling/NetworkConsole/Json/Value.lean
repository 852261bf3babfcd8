import NetworkConsole.Json.Token

/-!
# Structure of a JSON text

Readers of token lists: values that are passed over whatever they hold, and sequences of
items between two brackets.
-/

namespace NetworkConsole.Json

/-- A bracket that is open while a value is passed over. -/
inductive Frame
  | array
  | object
  deriving DecidableEq, Repr

/-- What must come next while a value is passed over. -/
inductive Expectation
  /-- A value. -/
  | value
  /-- A value or the end of its array, directly after the array's start. -/
  | firstItem
  /-- A member's name or the end of its object, directly after the object's start. -/
  | firstMember
  /-- A member's name. -/
  | name
  /-- The colon between a member's name and its value. -/
  | colon
  /-- A comma or the end of the innermost open bracket. -/
  | afterValue
  deriving DecidableEq, Repr

/-- The open brackets, the innermost one first, and what must come next. -/
structure Skip where
  frames : List Frame
  expects : Expectation
  deriving DecidableEq, Repr

namespace Skip

/-- Before a value. -/
def start : Skip := ⟨[], .value⟩

/-- Whether the value is over. -/
def isDone (skip : Skip) : Bool := skip.frames.isEmpty && skip.expects = .afterValue

/-- Pass over the first token of a value. -/
def enterValue (frames : List Frame) : Token → Option Skip
  | .openArray => some ⟨.array :: frames, .firstItem⟩
  | .openObject => some ⟨.object :: frames, .firstMember⟩
  | .word | .number _ | .text _ => some ⟨frames, .afterValue⟩
  | _ => none

/-- Pass over one token. -/
def step (skip : Skip) (token : Token) : Option Skip :=
  match skip.expects, skip.frames, token with
  | .value, frames, token => enterValue frames token
  | .firstItem, .array :: frames, .closeArray => some ⟨frames, .afterValue⟩
  | .firstItem, frames, token => enterValue frames token
  | .firstMember, .object :: frames, .closeObject => some ⟨frames, .afterValue⟩
  | .firstMember, frames, .text _ => some ⟨frames, .colon⟩
  | .name, frames, .text _ => some ⟨frames, .colon⟩
  | .colon, frames, .colon => some ⟨frames, .value⟩
  | .afterValue, .array :: frames, .comma => some ⟨.array :: frames, .value⟩
  | .afterValue, .object :: frames, .comma => some ⟨.object :: frames, .name⟩
  | .afterValue, .array :: frames, .closeArray => some ⟨frames, .afterValue⟩
  | .afterValue, .object :: frames, .closeObject => some ⟨frames, .afterValue⟩
  | _, _, _ => none

/-- Pass over tokens until the value is over, and give what follows it. -/
def run (skip : Skip) : List Token → Option (List Token)
  | [] => none
  | token :: rest =>
      match skip.step token with
      | none => none
      | some next => if next.isDone then some rest else next.run rest

end Skip

/-- What follows a value, of which only the form is looked at. -/
def skipValue (tokens : List Token) : Option (List Token) := Skip.start.run tokens

/-- A reader of the tokens at the start of a list. -/
abbrev Reader (α : Type) := List Token → Option (α × List Token)

/-- Read at most `limit` items divided by commas, up to a closing bracket. -/
def separated (item : Reader α) (close : Token) : (limit : Nat) → Reader (List α)
  | 0, _ => none
  | limit + 1, tokens =>
      match item tokens with
      | some (first, .comma :: rest) =>
          (separated item close limit rest).map fun (others, after) => (first :: others, after)
      | some (first, token :: rest) => if token = close then some ([first], rest) else none
      | _ => none

/-- Read the items of a bracket that is already open. -/
def items (item : Reader α) (close : Token) : Reader (List α)
  | [] => none
  | token :: rest =>
      if token = close then some ([], rest)
      else separated item close (rest.length + 1) (token :: rest)

end NetworkConsole.Json
