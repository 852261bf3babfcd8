/-!
# Words of a command line

A word that starts with two dashes names an option, and what follows its first equals
sign is a value attached to it. Two dashes alone end the options. A word that starts with
one dash holds one-letter options; a lone dash is an ordinary word.
-/

namespace NetworkConsole.CommandLine

/-- A word of a command line. -/
inductive Word
  | separator
  | long (name : String) (value : Option String)
  | short (letter : Char)
  | plain (text : String)
  deriving DecidableEq, Repr

/-- The name and the attached value of a long option. -/
def splitValue (text : List Char) : String × Option String :=
  match text.dropWhile (· ≠ '=') with
  | [] => (String.ofList text, none)
  | _ :: value => (String.ofList (text.takeWhile (· ≠ '=')), some (String.ofList value))

/-- What a word is. Of several one-letter options the first one counts. -/
def Word.ofText (text : String) : Word :=
  match text.toList with
  | ['-', '-'] => .separator
  | '-' :: '-' :: option =>
      let (name, value) := splitValue option
      .long name value
  | '-' :: letter :: _ => .short letter
  | _ => .plain text

end NetworkConsole.CommandLine
