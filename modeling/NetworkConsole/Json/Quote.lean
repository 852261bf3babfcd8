/-!
# JSON strings

A JSON string stands between double quotes. The quote and the escape mark are escaped,
and so are the characters below the space: five of them by a letter, the others by four
lower-case hexadecimal digits.
-/

namespace NetworkConsole.Json

/-- The double quote. -/
def quoteMark : Char := '\x22'

/-- The character that begins an escape. -/
def escapeMark : Char := '\x5c'

/-- One lower-case hexadecimal digit. -/
def hexDigit (n : Nat) : Char := Nat.digitChar n

/-- A character as it stands in a JSON string. -/
def escapeCharacter (character : Char) : List Char :=
  if character = quoteMark ∨ character = escapeMark then [escapeMark, character]
  else if 0x20 ≤ character.toNat then [character]
  else match character.toNat with
    | 0x08 => [escapeMark, 'b']
    | 0x09 => [escapeMark, 't']
    | 0x0a => [escapeMark, 'n']
    | 0x0c => [escapeMark, 'f']
    | 0x0d => [escapeMark, 'r']
    | code => [escapeMark, 'u', '0', '0', hexDigit (code / 16), hexDigit (code % 16)]

/-- A text as a JSON string. -/
def quote (text : String) : String :=
  String.ofList (quoteMark :: (text.toList.flatMap escapeCharacter ++ [quoteMark]))

/-- Members of a JSON object, each a name and the text of its value. -/
def objectText (members : List (String × String)) : String :=
  "\x7b" ++ ",".intercalate (members.map fun member => quote member.1 ++ ":" ++ member.2) ++ "\x7d"

end NetworkConsole.Json
