import NetworkConsole.Number.Digits
import NetworkConsole.Number.Rounding

/-!
# Written forms of a float

Three forms are in use: the plain form of parameter texts and messages, which never
has an exponent; the form of a number in a JSON text; and a fixed number of decimal
places for tables. The first two write the shortest digits that read back.
-/

namespace NetworkConsole.Number

/-- The decimal digits of a natural number. -/
def digitText (n : Nat) : List Char := Nat.toDigits 10 n

/-- A run of zeros. -/
def zeros (count : Nat) : List Char := List.replicate count '0'

/-- Write `digits * 10 ^ exponent` without an exponent and without a point after a
whole number. -/
def positional (decimal : Decimal) : List Char :=
  let digits := digitText decimal.digits
  if 0 ≤ decimal.exponent then digits ++ zeros decimal.exponent.toNat
  else
    let places := (-decimal.exponent).toNat
    if places < digits.length then
      digits.take (digits.length - places) ++ '.' :: digits.drop (digits.length - places)
    else '0' :: '.' :: (zeros (places - digits.length) ++ digits)

/-- A minus sign where the number has one. -/
def signed (x : Float) (magnitude : List Char) : String :=
  String.ofList (if isNegative x then '-' :: magnitude else magnitude)

/-- Plain form: shortest digits, a tie upward, never an exponent. -/
def plain (x : Float) : String :=
  if x.isNaN then "NaN"
  else if x.isInf then signed x "inf".toList
  else
    let decimal := shortest .up x
    signed x (if decimal.digits = 0 then ['0'] else positional decimal)

/-- A decimal exponent with its sign. -/
def signedDigits (power : Int) : List Char :=
  (if power < 0 then '-' else '+') :: digitText power.natAbs

/-- The magnitude of a JSON number. The point stands after `digits.length + exponent`
digits; from `-4` to `16` it is written in place, elsewhere with an exponent. -/
def jsonMagnitude (decimal : Decimal) : List Char :=
  let digits := digitText decimal.digits
  let point : Int := digits.length + decimal.exponent
  if 0 ≤ decimal.exponent ∧ point ≤ 16 then
    digits ++ zeros decimal.exponent.toNat ++ ['.', '0']
  else if -5 < point ∧ point ≤ 16 then positional decimal
  else
    let power := signedDigits (point - 1)
    match digits with
    | [] => []
    | [digit] => digit :: 'e' :: power
    | digit :: rest => digit :: '.' :: (rest ++ 'e' :: power)

/-- JSON form: shortest digits, a tie to even; what is not finite is written `null`. -/
def json (x : Float) : String :=
  if x.isFinite then
    let decimal := shortest .even x
    signed x (if decimal.digits = 0 then ['0', '.', '0'] else jsonMagnitude decimal)
  else "null"

/-- The quotient rounded to the nearest natural number, a half to the even one. -/
def divideToEven (numerator denominator : Nat) : Nat :=
  let quotient := numerator / denominator
  let excess := 2 * (numerator % denominator)
  if excess < denominator then quotient
  else if denominator < excess then quotient + 1
  else if quotient % 2 = 0 then quotient
  else quotient + 1

/-- The digits of `count` with a point before the last `places` of them. -/
def placed (places count : Nat) : List Char :=
  let digits := digitText count
  let padded := zeros (places + 1 - digits.length) ++ digits
  if places = 0 then padded
  else padded.take (padded.length - places) ++ '.' :: padded.drop (padded.length - places)

/-- A fixed number of decimal places, the exact value rounded and a half to even. -/
def fixed (places : Nat) (x : Float) : String :=
  if x.isNaN then "NaN"
  else if x.isInf then signed x "inf".toList
  else
    let (significand, exponent) := decode x
    signed x (placed places
      (divideToEven (significand * Nat.pow 2 exponent.toNat * Nat.pow 10 places)
        (Nat.pow 2 (-exponent).toNat)))

end NetworkConsole.Number
