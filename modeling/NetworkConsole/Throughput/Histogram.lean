import NetworkConsole.Number.Rounding

/-!
# Histograms of rates

A histogram counts whole numbers in buckets that keep three significant digits. Below
2048 every number has a bucket of its own; each doubling of the numbers above that
doubles the width of the buckets.
-/

namespace NetworkConsole

/-- How often each bucket was hit, in ascending order of the buckets' lowest numbers. -/
structure Histogram where
  counts : List (Nat × Nat)
  deriving DecidableEq, Repr

namespace Histogram

/-- Width of the bucket of a number. -/
def width (value : Nat) : Nat := Nat.pow 2 ((value ||| 2047).log2 - 10)

/-- Lowest number in the bucket of a number. -/
def lowest (value : Nat) : Nat := value / width value * width value

/-- Highest number in the bucket of a number. -/
def highest (value : Nat) : Nat := lowest value + width value - 1

/-- Middle of the bucket of a number. -/
def median (value : Nat) : Nat := lowest value + width value / 2

/-- The histogram that counted nothing. -/
def empty : Histogram := ⟨[]⟩

/-- Count one more hit of the bucket that starts at `bucket`. -/
def countBucket (bucket : Nat) : List (Nat × Nat) → List (Nat × Nat)
  | [] => [(bucket, 1)]
  | (first, count) :: rest =>
      if bucket < first then (bucket, 1) :: (first, count) :: rest
      else if bucket = first then (first, count + 1) :: rest
      else (first, count) :: countBucket bucket rest

/-- The greatest number that is counted. -/
def greatest : Nat := 10000000000

/-- Count a number that is not too great. -/
def record? (histogram : Histogram) (value : Nat) : Option Histogram :=
  if value ≤ greatest then some ⟨countBucket (lowest value) histogram.counts⟩ else none

/-- How many numbers were counted. -/
def total (histogram : Histogram) : Nat := (histogram.counts.map Prod.snd).foldr (· + ·) 0

/-- Lowest number of the lowest bucket that was hit, or zero. -/
def min (histogram : Histogram) : Nat := (histogram.counts.head?.map Prod.fst).getD 0

/-- Highest number of the highest bucket that was hit, or zero. -/
def max (histogram : Histogram) : Nat :=
  (histogram.counts.getLast?.map fun entry => highest entry.1).getD 0

/-- Mean of the middles of the buckets, each as often as it was hit, or zero. The terms
are added in ascending order. -/
def mean (histogram : Histogram) : Float :=
  let total := Float.ofNat histogram.total
  histogram.counts.foldl
    (fun sum (bucket, count) =>
      sum + Float.ofNat (median bucket) * Float.ofNat count / total) 0

/-- The first bucket up to which at least `rank` numbers were counted. -/
def bucketOfRank (rank : Nat) : List (Nat × Nat) → Option Nat
  | [] => none
  | (bucket, count) :: rest =>
      if rank ≤ count then some bucket else bucketOfRank (rank - count) rest

/-- How many of the counted numbers a quantile stands for; at least one. -/
def rank (histogram : Histogram) (quantile : Float) : Nat :=
  let capped := if 1 < quantile then 1 else quantile
  Nat.max 1 (Number.ceilToNat (capped * Float.ofNat histogram.total))

/-- A number that is not below the given share of the counted numbers: the highest of its
bucket, or the lowest for the quantile zero. An empty histogram gives zero. -/
def valueAt (histogram : Histogram) (quantile : Float) : Nat :=
  match bucketOfRank (histogram.rank quantile) histogram.counts with
  | none => 0
  | some bucket => if quantile == 0 then lowest bucket else highest bucket

end Histogram

end NetworkConsole
