import NetworkConsole.CommandLine.Error
import NetworkConsole.CommandLine.Words

/-!
# Reading options

Words are read from the left. An option whose value is the next word stays open until
another option follows or the words end; only then its value is looked at. So a value is
judged after the words up to the next option, and the first refusal that is met wins.
-/

namespace NetworkConsole.CommandLine

/-- How an option's value changes what is being set. -/
abbrev Take (σ : Type) := String → σ → Except ValueError σ

/-- What an option does. -/
inductive OptionRule (σ : Type)
  /-- Ask for help. -/
  | help
  /-- Turn something on. -/
  | flag (turnOn : σ → σ)
  /-- Take a value. -/
  | valued (take : Take σ)

/-- The options that can be given in one place, and the commands that may follow them. -/
structure Vocabulary (σ : Type) where
  rule? : String → Option (OptionRule σ)
  commands : List String

/-- An option whose value has not been looked at, with its value once that is given. -/
structure OpenOption (σ : Type) where
  name : String
  take : Take σ
  value : Option String

/-- What has been set so far, the options that have been given, and the open option. -/
structure Reading (σ : Type) where
  value : σ
  given : List String
  opened : Option (OpenOption σ)

namespace Reading

/-- A reading before the first word. -/
def start (value : σ) : Reading σ := ⟨value, [], none⟩

/-- Give an option a value. -/
def give (reading : Reading σ) (name : String) (take : Take σ) (value : String) :
    Except UsageError (Reading σ) :=
  if name ∈ reading.given then .error .repeated
  else
    match take value reading.value with
    | .ok changed => .ok { reading with value := changed, given := name :: reading.given }
    | .error .unlisted => .error .unlistedValue
    | .error (.malformed reason) => .error (.malformedValue name value reason)

/-- Look at the value of the open option, if there is one. -/
def close (reading : Reading σ) : Except UsageError (Reading σ) :=
  match reading.opened with
  | none => .ok reading
  | some option =>
      match option.value with
      | none => .error .noValue
      | some value => { reading with opened := none }.give option.name option.take value

/-- Whether the open option has no value yet. -/
def isWaiting (reading : Reading σ) : Bool :=
  reading.opened.any (·.value.isNone)

/-- Give the open option its value. -/
def supply (reading : Reading σ) (value : String) : Reading σ :=
  { reading with opened := reading.opened.map fun option => { option with value := some value } }

/-- Take a long option, with the value attached to it. -/
def long
    (reading : Reading σ)
    (vocabulary : Vocabulary σ)
    (name : String)
    (value : Option String) : Except UsageError (Reading σ) :=
  match vocabulary.rule? name, value with
  | none, _ => .error .unknownArgument
  | some .help, none => do
      let _ ← reading.close
      .error .help
  | some (.flag turnOn), none => do
      let closed ← reading.close
      closed.give name (fun _ value => .ok (turnOn value)) ""
  | some (.valued take), none => do
      let closed ← reading.close
      .ok { closed with opened := some ⟨name, take, none⟩ }
  | some (.valued take), some value => do
      let closed ← reading.close
      closed.give name take value
  | some _, some _ => .error .unexpectedValue

/-- Take one-letter options: `-h` asks for help. -/
def short (reading : Reading σ) (letter : Char) : Except UsageError (Reading σ) :=
  if letter = 'h' then do
    let _ ← reading.close
    .error .help
  else .error .unknownArgument

end Reading

namespace Vocabulary

/-- Why a word that is neither an option nor a command is refused. -/
def refusal (vocabulary : Vocabulary σ) : UsageError :=
  if vocabulary.commands = [] then .unknownArgument else .unknownCommand

/-- Why a word after the separator is refused. -/
def refusalAfterSeparator (vocabulary : Vocabulary σ) (text : String) : UsageError :=
  if text ∈ vocabulary.commands then .unknownArgument else vocabulary.refusal

/-- Read words up to a command; the command and the words after it are left. -/
def read (vocabulary : Vocabulary σ) :
    List String → Reading σ → Except UsageError (Reading σ × List String)
  | [], reading => .ok (reading, [])
  | text :: rest, reading =>
      match Word.ofText text with
      | .separator =>
          match rest.head? with
          | none => .ok (reading, [])
          | some next => .error (vocabulary.refusalAfterSeparator next)
      | .long name value => do vocabulary.read rest (← reading.long vocabulary name value)
      | .short letter => do vocabulary.read rest (← reading.short letter)
      | .plain text =>
          if reading.isWaiting then vocabulary.read rest (reading.supply text)
          else if text ∈ vocabulary.commands then .ok (reading, text :: rest)
          else .error vocabulary.refusal

end Vocabulary

end NetworkConsole.CommandLine
