/-!
# Reading numbers

A decimal numeral has an optional sign, digits with at most one point among or
around them, and an optional exponent. `inf`, `infinity` and `nan` are numbers too,
in any letter case. Natural numbers are digits with an optional plus sign.
-/

namespace NetworkConsole.Number

/-- The value of a run of decimal digits. -/
def digitsValue (digits : List Char) : Nat :=
  digits.foldl (fun value digit => 10 * value + (digit.toNat - '0'.toNat)) 0

/-- Split a text into its sign, true for minus, and what follows. -/
def splitSign : List Char → Bool × List Char
  | '-' :: rest => (true, rest)
  | '+' :: rest => (false, rest)
  | rest => (false, rest)

/-- The exponent part that ends a numeral; nothing at all stands for zero. -/
def readExponent? : List Char → Option Int
  | [] => some 0
  | mark :: rest =>
      if mark = 'e' ∨ mark = 'E' then
        let (negative, digits) := splitSign rest
        if digits ≠ [] ∧ digits.all Char.isDigit then
          some (if negative then -(digitsValue digits : Int) else digitsValue digits)
        else none
      else none

/-- The part of a numeral from its point on: fraction digits and exponent. -/
def readFraction? : List Char → Option (List Char × Int)
  | '.' :: rest =>
      (readExponent? (rest.dropWhile Char.isDigit)).map (rest.takeWhile Char.isDigit, ·)
  | rest => (readExponent? rest).map ([], ·)

/-- The float nearest to `digits * 10 ^ exponent`. -/
def ofDecimal (digits : Nat) (exponent : Int) : Float :=
  if exponent < 0 then Float.ofScientific digits true exponent.natAbs
  else Float.ofScientific digits false exponent.natAbs

/-- An unsigned numeral. -/
def readMagnitude? (text : List Char) : Option Float :=
  let whole := text.takeWhile Char.isDigit
  match readFraction? (text.dropWhile Char.isDigit) with
  | some (fraction, exponent) =>
      if whole.length + fraction.length = 0 then none
      else some (ofDecimal (digitsValue (whole ++ fraction)) (exponent - fraction.length))
  | none => none

/-- The word for a number that has no digits. -/
def readWord? (text : List Char) : Option Float :=
  match String.ofList (text.map Char.toLower) with
  | "inf" | "infinity" => some (1 / 0)
  | "nan" => some (0 / 0)
  | _ => none

/-- The float that a text denotes. -/
def readFloat? (text : List Char) : Option Float :=
  let (negative, magnitude) := splitSign text
  ((readMagnitude? magnitude).or (readWord? magnitude)).map fun value =>
    if negative then -value else value

/-- Why a text is not a natural number below a limit. -/
inductive NatError
  | empty
  | invalidDigit
  | tooLarge
  deriving DecidableEq, Repr

/-- The wording of a refused natural number. -/
def NatError.message : NatError → String
  | .empty => "cannot parse integer from empty string"
  | .invalidDigit => "invalid digit found in string"
  | .tooLarge => "number too large to fit in target type"

/-- Append one digit to a number that stays below `limit`. A character that is no digit
is refused before the size of the number is looked at. -/
def appendDigit (limit value : Nat) (digit : Char) : Except NatError Nat :=
  if digit.isDigit then
    let next := 10 * value + (digit.toNat - '0'.toNat)
    if next < limit then .ok next else .error .tooLarge
  else .error .invalidDigit

/-- The natural number below `limit` that a text denotes, read from the left. -/
def readNat (limit : Nat) : List Char → Except NatError Nat
  | [] => .error .empty
  | ['+'] => .error .invalidDigit
  | '+' :: digits => digits.foldlM (appendDigit limit) 0
  | digits => digits.foldlM (appendDigit limit) 0

/-- The wording of a refused decimal numeral. -/
def floatErrorMessage (text : List Char) : String :=
  if text.isEmpty then "cannot parse float from empty string" else "invalid float literal"

end NetworkConsole.Number
