/-!
# Shortest decimal digits of a float

A finite float is `significand * 2 ^ exponent`. Every real number close enough to
it reads back as the same float; those numbers form an interval, which contains
its two ends exactly when the significand is even. The shortest decimal is the
point of the coarsest power-of-ten grid that lies in the interval. Of two points on
that grid the nearer is taken, and `Tie` decides when both are equally near.
-/

namespace NetworkConsole.Number

/-- Significand and binary exponent of the magnitude of a finite float. -/
def decode (x : Float) : Nat × Int :=
  let bits : Nat := x.toBits.toNat
  let fraction : Nat := bits % Nat.pow 2 52
  let biased : Nat := bits / Nat.pow 2 52 % Nat.pow 2 11
  if biased = 0 then (fraction, -1074) else (Nat.pow 2 52 + fraction, (biased : Int) - 1075)

/-- Which of two equally near decimals is taken. -/
inductive Tie
  | up
  | even
  deriving DecidableEq, Repr

/-- A decimal number `digits * 10 ^ exponent`. -/
structure Decimal where
  digits : Nat
  exponent : Int
  deriving DecidableEq, Repr

/-- The interval of real numbers that read back as one float, with the float itself.
The three values are counted in quarters of the last binary place, and
`scaleUp / scaleDown` is the size of one quarter. -/
structure ReadingInterval where
  low : Nat
  value : Nat
  high : Nat
  scaleUp : Nat
  scaleDown : Nat
  closed : Bool

namespace ReadingInterval

/-- The interval around `significand * 2 ^ exponent`. It is narrower below a power of
two, whose lower neighbour is only half as far away. -/
def around (significand : Nat) (exponent : Int) : ReadingInterval where
  low := 4 * significand - (if significand = Nat.pow 2 52 ∧ -1074 < exponent then 1 else 2)
  value := 4 * significand
  high := 4 * significand + 2
  scaleUp := Nat.pow 2 (exponent - 2).toNat
  scaleDown := Nat.pow 2 (2 - exponent).toNat
  closed := significand % 2 = 0

/-- Whether `count * 10 ^ exponent` lies in the interval. -/
def contains (interval : ReadingInterval) (count : Nat) (exponent : Int) : Bool :=
  let point := count * Nat.pow 10 exponent.toNat * interval.scaleDown
  let unit := interval.scaleUp * Nat.pow 10 (-exponent).toNat
  if interval.closed then interval.low * unit ≤ point ∧ point ≤ interval.high * unit
  else interval.low * unit < point ∧ point < interval.high * unit

/-- The last point of the grid of step `10 ^ exponent` that is not above the value,
with twice what the value exceeds it by, and the step in the same unit. -/
def below (interval : ReadingInterval) (exponent : Int) : Nat × Nat × Nat :=
  let numerator := interval.value * interval.scaleUp * Nat.pow 10 (-exponent).toNat
  let step := interval.scaleDown * Nat.pow 10 exponent.toNat
  (numerator / step, 2 * (numerator % step), step)

/-- The nearer grid neighbour of the value that lies in the interval. -/
def candidate? (interval : ReadingInterval) (tie : Tie) (exponent : Int) : Option Nat :=
  let (lower, excess, step) := interval.below exponent
  match interval.contains lower exponent, interval.contains (lower + 1) exponent with
  | true, true =>
      if excess < step then some lower
      else if step < excess then some (lower + 1)
      else match tie with
        | .up => some (lower + 1)
        | .even => some (if lower % 2 = 0 then lower else lower + 1)
  | true, false => some lower
  | false, true => some (lower + 1)
  | false, false => none

/-- Search grids of ever finer steps, at most `attempts` of them. -/
def search (interval : ReadingInterval) (tie : Tie) : Nat → Int → Decimal
  | 0, exponent => ⟨(interval.below exponent).1, exponent⟩
  | attempts + 1, exponent =>
      match interval.candidate? tie exponent with
      | some digits => ⟨digits, exponent⟩
      | none => interval.search tie attempts (exponent - 1)

end ReadingInterval

/-- A power of ten above `significand * 2 ^ exponent`, as its decimal exponent. -/
def decimalExponentAbove (significand : Nat) (exponent : Int) : Int :=
  ((significand.log2 + 1 : Int) + exponent) * 30103 / 100000 + 1

/-- The shortest decimal that reads back as the magnitude of a finite float. -/
def shortest (tie : Tie) (x : Float) : Decimal :=
  let (significand, exponent) := decode x
  if significand = 0 then ⟨0, 0⟩
  else
    (ReadingInterval.around significand exponent).search tie 24
      (decimalExponentAbove significand exponent)

end NetworkConsole.Number
