/-!
# Whole numbers beside binary floating point

Truncation, rounding and saturating conversions between 64-bit floating-point
numbers and integers. A float of magnitude at least `2 ^ 53` is whole already, and
a smaller one has its whole part in 64 bits, so every function here is exact.
-/

namespace NetworkConsole.Number

/-- The magnitude from which every float is a whole number. -/
def wholeFrom : Float := 9007199254740992

/-- Whether the sign bit is set, which negative zero has and NaN has not. -/
def isNegative (x : Float) : Bool := x.toBits >>> 63 == 1

/-- Give `magnitude` the sign of `x`. -/
def withSignOf (x magnitude : Float) : Float := if isNegative x then -magnitude else magnitude

/-- The whole part of the magnitude of `x`, where that magnitude is below `2 ^ 64`. -/
def wholePart (x : Float) : Float := x.abs.toUInt64.toFloat

/-- Round toward zero. -/
def truncate (x : Float) : Float :=
  if x.abs < wholeFrom then withSignOf x (wholePart x) else x

/-- Round to the nearest whole number, a half away from zero. -/
def round (x : Float) : Float :=
  if x.abs < wholeFrom then
    withSignOf x (if x.abs - wholePart x < 0.5 then wholePart x else wholePart x + 1)
  else x

/-- The least 64-bit natural number that is not below `x`; NaN gives zero. -/
def ceilToNat (x : Float) : Nat :=
  let whole := x.toUInt64
  if whole.toFloat < x ∧ x < wholeFrom then whole.toNat + 1 else whole.toNat

/-- Drop the fraction and keep within the unsigned 64-bit range; NaN gives zero. -/
def toNat (x : Float) : Nat := x.toUInt64.toNat

/-- Drop the fraction and keep within the signed 64-bit range; NaN gives zero. -/
def toInt (x : Float) : Int :=
  if isNegative x then -(min x.abs.toUInt64.toNat (Nat.pow 2 63) : Nat)
  else (min x.toUInt64.toNat (Nat.pow 2 63 - 1) : Nat)

/-- The larger of two numbers. A NaN gives way to the other operand, and of two equal
numbers, such as zeros of both signs, the second is taken. -/
def larger (a b : Float) : Float := if a.isNaN then b else if b.isNaN || b < a then a else b

/-- The smaller of two numbers. A NaN gives way to the other operand, and of two equal
numbers, such as zeros of both signs, the second is taken. -/
def smaller (a b : Float) : Float := if a.isNaN then b else if b.isNaN || a < b then a else b

/-- Bring a number between two limits; NaN stays as it is. -/
def clamp (x low high : Float) : Float :=
  let raised := if x < low then low else x
  if high < raised then high else raised

end NetworkConsole.Number
