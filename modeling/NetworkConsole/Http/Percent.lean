import NetworkConsole.Console.Session

/-!
# Percent encoding

A character that may not be written as it is, is written as the bytes of its UTF-8 form,
each as a percent sign and two hexadecimal digits. Forms write a blank as a plus sign.
-/

namespace NetworkConsole.Http

/-- An upper-case hexadecimal digit. -/
def hexDigit (value : Nat) : Char :=
  if value < 10 then Char.ofNat ('0'.toNat + value) else Char.ofNat ('A'.toNat + value - 10)

/-- A byte as a percent sign and two digits. -/
def encodeByte (byte : UInt8) : List Char :=
  ['%', hexDigit (byte.toNat / 16), hexDigit (byte.toNat % 16)]

/-- Write a character as it is where it is kept, and percent-encoded elsewhere. -/
def encodeChar (keeps : Char → Bool) (character : Char) : List Char :=
  if keeps character then [character]
  else (String.utf8EncodeChar character).flatMap encodeByte

/-- Percent-encode the characters of a text that are not kept. -/
def percentEncode (keeps : Char → Bool) (text : List Char) : List Char :=
  text.flatMap (encodeChar keeps)

/-- The characters that forms keep. -/
def isKeptInForms (character : Char) : Bool :=
  character.isAlphanum ∨ character ∈ ['*', '-', '.', '_']

/-- A name or a value of a form field. -/
def encodeField (text : String) : String :=
  String.ofList (text.toList.flatMap fun character =>
    if character = ' ' then ['+'] else encodeChar isKeptInForms character)

/-- A form as text. -/
def encodeForm (form : Form) : String :=
  "&".intercalate (form.map fun field => encodeField field.1 ++ "=" ++ encodeField field.2)

end NetworkConsole.Http
