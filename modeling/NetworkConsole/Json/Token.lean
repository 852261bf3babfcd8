import NetworkConsole.Json.Quote

/-!
# JSON tokens

A JSON text is read as a list of tokens. A string token keeps its text, unless it has a
surrogate escape without a partner, which is well formed but denotes no text. A number
token keeps its value if it is written as a plain natural number.
-/

namespace NetworkConsole.Json

/-- A token of a JSON text. -/
inductive Token
  | openObject
  | closeObject
  | openArray
  | closeArray
  | colon
  | comma
  /-- One of the words `true`, `false` and `null`. -/
  | word
  | number (natural : Option Nat)
  | text (content : Option (List Char))
  deriving DecidableEq, Repr

/-- A piece of a string: a character, or the code unit that an escape names. -/
inductive Piece
  | character (value : Char)
  | codeUnit (value : Nat)
  deriving DecidableEq, Repr

/-- The value of a hexadecimal digit. -/
def hexValue? (digit : Char) : Option Nat :=
  if digit.isDigit then some (digit.toNat - '0'.toNat)
  else if 'a' ≤ digit ∧ digit ≤ 'f' then some (digit.toNat - 'a'.toNat + 10)
  else if 'A' ≤ digit ∧ digit ≤ 'F' then some (digit.toNat - 'A'.toNat + 10)
  else none

/-- The character that an escape of one letter stands for. -/
def escaped? (letter : Char) : Option Char :=
  if letter = quoteMark ∨ letter = escapeMark ∨ letter = '/' then some letter
  else match letter with
    | 'b' => some (Char.ofNat 0x08)
    | 'f' => some (Char.ofNat 0x0c)
    | 'n' => some '\n'
    | 'r' => some '\r'
    | 't' => some '\t'
    | _ => none

/-- Read the pieces of a string up to its closing quote. The pieces read before stand in
`done`, the last one first. -/
def readPieces (done : List Piece) : List Char → Option (List Piece × List Char)
  | [] => none
  | first :: rest =>
      if first = quoteMark then some (done.reverse, rest)
      else if first = escapeMark then
        match rest with
        | 'u' :: a :: b :: c :: d :: after =>
            match hexValue? a, hexValue? b, hexValue? c, hexValue? d with
            | some a, some b, some c, some d =>
                readPieces (.codeUnit (((a * 16 + b) * 16 + c) * 16 + d) :: done) after
            | _, _, _, _ => none
        | letter :: after =>
            match escaped? letter with
            | some value => readPieces (.character value :: done) after
            | none => none
        | [] => none
      else if first.toNat < 0x20 then none
      else readPieces (.character first :: done) rest

/-- Whether a code unit begins a surrogate pair. -/
def isHighSurrogate (unit : Nat) : Bool := 0xd800 ≤ unit && unit ≤ 0xdbff

/-- Whether a code unit ends a surrogate pair. -/
def isLowSurrogate (unit : Nat) : Bool := 0xdc00 ≤ unit && unit ≤ 0xdfff

/-- The text of the pieces of a string, unless a surrogate has no partner. -/
def textOf? : List Piece → Option (List Char)
  | [] => some []
  | .character value :: rest => (textOf? rest).map (value :: ·)
  | .codeUnit high :: .codeUnit low :: rest =>
      if isHighSurrogate high then
        if isLowSurrogate low then
          (textOf? rest).map
            (Char.ofNat (0x10000 + (high - 0xd800) * 0x400 + (low - 0xdc00)) :: ·)
        else none
      else if isLowSurrogate high then none
      else (textOf? (.codeUnit low :: rest)).map (Char.ofNat high :: ·)
  | .codeUnit unit :: rest =>
      if isHighSurrogate unit || isLowSurrogate unit then none
      else (textOf? rest).map (Char.ofNat unit :: ·)

/-- The digits at the start of a text, of which there must be one, and what follows. -/
def readDigits? (text : List Char) : Option (List Char × List Char) :=
  let digits := text.takeWhile Char.isDigit
  if digits.isEmpty then none else some (digits, text.dropWhile Char.isDigit)

/-- What follows a fraction, and whether there is one. -/
def readFraction? : List Char → Option (Bool × List Char)
  | '.' :: rest => (readDigits? rest).map fun (_, after) => (true, after)
  | text => some (false, text)

/-- What follows an exponent, and whether there is one. -/
def readExponent? : List Char → Option (Bool × List Char)
  | [] => some (false, [])
  | mark :: rest =>
      if mark = 'e' ∨ mark = 'E' then
        let digits := match rest with
          | '+' :: digits => digits
          | '-' :: digits => digits
          | digits => digits
        (readDigits? digits).map fun (_, after) => (true, after)
      else some (false, mark :: rest)

/-- The value of a run of digits. -/
def natural (digits : List Char) : Nat :=
  digits.foldl (fun value digit => 10 * value + (digit.toNat - '0'.toNat)) 0

/-- Read a number. Its digits before the point have no leading zero. -/
def readNumber? (text : List Char) : Option (Token × List Char) := do
  let (negative, unsigned) := match text with
    | '-' :: rest => (true, rest)
    | rest => (false, rest)
  let (digits, rest) ← readDigits? unsigned
  if digits.length ≠ 1 ∧ digits.head? = some '0' then none
  else
    let (hasFraction, rest) ← readFraction? rest
    let (hasExponent, rest) ← readExponent? rest
    let isNatural := !negative && !hasFraction && !hasExponent
    some (.number (if isNatural then some (natural digits) else none), rest)

/-- Whether a character may stand between tokens. -/
def isSpace (character : Char) : Bool :=
  character = ' ' || character = '\t' || character = '\n' || character = '\r'

/-- Read the token at the start of a text. -/
def readToken? : List Char → Option (Token × List Char)
  | '\x7b' :: rest => some (.openObject, rest)
  | '\x7d' :: rest => some (.closeObject, rest)
  | '[' :: rest => some (.openArray, rest)
  | ']' :: rest => some (.closeArray, rest)
  | ':' :: rest => some (.colon, rest)
  | ',' :: rest => some (.comma, rest)
  | 't' :: 'r' :: 'u' :: 'e' :: rest => some (.word, rest)
  | 'f' :: 'a' :: 'l' :: 's' :: 'e' :: rest => some (.word, rest)
  | 'n' :: 'u' :: 'l' :: 'l' :: rest => some (.word, rest)
  | '\x22' :: rest =>
      (readPieces [] rest).map fun (pieces, after) => (.text (textOf? pieces), after)
  | text => readNumber? text

/-- Read at most `limit` tokens up to the end of a text. The tokens read before stand in
`done`, the last one first. -/
def tokensWithin (done : List Token) : (limit : Nat) → List Char → Option (List Token)
  | limit, text =>
      match text.dropWhile isSpace, limit with
      | [], _ => some done.reverse
      | _ :: _, 0 => none
      | text, limit + 1 =>
          match readToken? text with
          | some (token, rest) => tokensWithin (token :: done) limit rest
          | none => none

/-- The tokens of a text. No token is empty, so there are no more of them than there are
characters. -/
def tokens? (text : List Char) : Option (List Token) := tokensWithin [] text.length text

end NetworkConsole.Json
