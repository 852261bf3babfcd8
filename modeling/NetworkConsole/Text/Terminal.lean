/-!
# Text on a terminal

A text for a terminal may hold control functions: single control characters, escape
sequences, control sequences and control strings. None of them is seen. `shown` is what
is left of a text without them; white space is seen also among the characters of a
sequence, which it then ends. A sequence that is never finished takes what follows it
with it, up to the next escape character.
-/

namespace NetworkConsole.Text

/-- How far a control function has been read. -/
inductive ControlState
  /-- Outside every control function. -/
  | plain
  /-- After an escape character. -/
  | escape
  /-- In an escape sequence, after an intermediate character. -/
  | escapeIntermediate
  /-- In a control sequence. -/
  | sequence
  /-- After the opening of a device control string. -/
  | deviceOpening
  /-- In the parameters of a device control string. -/
  | deviceParameters
  /-- In the intermediate characters of a device control string. -/
  | deviceIntermediate
  /-- In the contents of a control string. -/
  | contents
  /-- In an operating system command. -/
  | systemCommand
  deriving DecidableEq, Repr

/-- Whether a character may stand before the final character of a sequence, after the
parameters. -/
def isIntermediate (character : Char) : Bool := '\x20' ≤ character && character ≤ '\x2f'

/-- Whether a character belongs to the parameters of a sequence. -/
def isParameter (character : Char) : Bool := '\x30' ≤ character && character ≤ '\x3f'

/-- Whether a parameter character is for private use, which only the first one may be. -/
def isPrivate (character : Char) : Bool := '\x3c' ≤ character && character ≤ '\x3f'

/-- Whether a character ends a control sequence. -/
def isFinal (character : Char) : Bool := '\x40' ≤ character && character ≤ '\x7e'

/-- Whether a control character is seen, as white space. -/
def isLayout (character : Char) : Bool :=
  character = '\t' || character = '\n' || character = '\x0c' || character = '\r'

/-- Whether a character is seen outside every control function. -/
def isGraphic (character : Char) : Bool := '\x20' ≤ character && character ≠ '\x7f'

/-- Whether a character calls off every control function. -/
def isCancel (character : Char) : Bool := character = '\x18' || character = '\x1a'

/-- The byte that terminates a control string. -/
def stringTerminator : UInt8 := 0x9c

/-- Whether the encoding of a character holds the byte that terminates a control string. -/
def terminatesString (character : Char) : Bool :=
  (String.utf8EncodeChar character).contains stringTerminator

namespace ControlState

/-- Whether a character is seen. The contents of strings hide white space too. -/
def shows (state : ControlState) (character : Char) : Bool :=
  match state with
  | .plain => isLayout character || isGraphic character
  | .escape | .escapeIntermediate | .sequence => isLayout character
  | _ => false

/-- The control function that an escape character and the given one open, or the end of
an escape sequence. -/
def opened (character : Char) : ControlState :=
  match character with
  | '[' => .sequence
  | ']' => .systemCommand
  | 'P' => .deviceOpening
  | 'X' | '^' | '_' => .contents
  | _ =>
      if isIntermediate character then .escapeIntermediate
      else if isParameter character || isFinal character then .plain
      else .escape

/-- Read a character that is not seen, and that neither opens nor calls off a control
function. -/
def continued (state : ControlState) (character : Char) : ControlState :=
  match state with
  | .plain => .plain
  | .escape => opened character
  | .escapeIntermediate =>
      if isParameter character || isFinal character then .plain else .escapeIntermediate
  | .sequence => if isFinal character then .plain else .sequence
  | .deviceOpening =>
      if isIntermediate character then .deviceIntermediate
      else if isParameter character then .deviceParameters
      else if isFinal character then .contents
      else .deviceOpening
  | .deviceParameters =>
      if isIntermediate character then .deviceIntermediate
      else if isPrivate character || isFinal character then .contents
      else .deviceParameters
  | .deviceIntermediate =>
      if isParameter character || isFinal character then .contents else .deviceIntermediate
  | .contents => if terminatesString character then .plain else .contents
  | .systemCommand => if character = '\x07' then .plain else .systemCommand

/-- Read a character. -/
def next (state : ControlState) (character : Char) : ControlState :=
  if state.shows character || isCancel character then .plain
  else if character = '\x1b' then .escape
  else state.continued character

/-- What is seen of a text that begins in a given state. -/
def shown : ControlState → List Char → List Char
  | _, [] => []
  | state, character :: rest =>
      if state.shows character then character :: shown (state.next character) rest
      else shown (state.next character) rest

end ControlState

/-- What is seen of a text. -/
def shown (text : String) : String := String.ofList (ControlState.plain.shown text.toList)

end NetworkConsole.Text
