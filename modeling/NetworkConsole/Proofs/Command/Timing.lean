import NetworkConsole.Command.Timing
import NetworkConsole.Proofs.Binary64.Saturation
import NetworkConsole.Proofs.Dial.Scale

/-!
# Intervals beside test durations

The larger and the smaller of two finite numbers have the larger and the smaller of their
values. The interval that follows from two test durations is a second above the longer one,
rounded once, and so neither of them is longer.
-/

namespace NetworkConsole

open Binary64

namespace Number

theorem larger_value {a b : Float} (left : a.isFinite = true) (right : b.isFinite = true) :
    (larger a b).isFinite = true ∧ value (larger a b) = max (value a) (value b) := by
  rw [larger, isNaN_of_isFinite left, isNaN_of_isFinite right, if_neg Bool.false_ne_true,
    Bool.false_or]
  split_ifs with below
  · rw [decide_eq_true_eq, lt_iff right left] at below
    exact ⟨left, (max_eq_left below.le).symm⟩
  · rw [decide_eq_true_eq, lt_iff right left, not_lt] at below
    exact ⟨right, (max_eq_right below).symm⟩

theorem smaller_value {a b : Float} (left : a.isFinite = true) (right : b.isFinite = true) :
    (smaller a b).isFinite = true ∧ value (smaller a b) = min (value a) (value b) := by
  rw [smaller, isNaN_of_isFinite left, isNaN_of_isFinite right, if_neg Bool.false_ne_true,
    Bool.false_or]
  split_ifs with below
  · rw [decide_eq_true_eq, lt_iff left right] at below
    exact ⟨left, (min_eq_left below.le).symm⟩
  · rw [decide_eq_true_eq, lt_iff left right, not_lt] at below
    exact ⟨right, (min_eq_right below).symm⟩

end Number

namespace Timing

/-- A duration at which the seconds dial can be is between one second and ten. -/
theorem bounds_of_accepts {duration : Float} (accepted : Dial.accepts .seconds duration = true) :
    duration.isFinite = true ∧ 1 ≤ value duration ∧ value duration ≤ 10 := by
  obtain ⟨finite, least, greatest⟩ := (Dial.accepts_iff _ _).mp accepted
  have one : value (Dial.min .seconds) = 1 := value_ofNat (n := 1) (by norm_num)
  have ten : value (Dial.max .seconds) = 10 := value_ofNat (n := 10) (by norm_num)
  exact ⟨finite, one ▸ least, ten ▸ greatest⟩

variable {first second : Float}

/-- The interval is the longer duration and a second, in one sum. -/
theorem defaultInterval_eq (first second : Float) :
    defaultInterval first second = Number.larger first second + 1 := by
  have buffer : (1000 / 1000 : Float) = 1 := by decide +kernel
  rw [defaultInterval, buffer]

theorem defaultInterval_roundsTo (left : first.isFinite = true) (right : second.isFinite = true) :
    RoundsTo (max (value first) (value second) + 1) (defaultInterval first second) := by
  obtain ⟨finite, larger⟩ := Number.larger_value left right
  have one : value (1 : Float) = 1 := value_ofNat (n := 1) (by norm_num)
  rw [defaultInterval_eq, ← larger, ← one]
  exact add_roundsTo finite rfl

section

variable
  (left : Dial.accepts .seconds first = true)
  (right : Dial.accepts .seconds second = true)

include left right

theorem isFinite_defaultInterval : (defaultInterval first second).isFinite = true := by
  obtain ⟨leftFinite, leftLeast, leftGreatest⟩ := bounds_of_accepts left
  obtain ⟨rightFinite, rightLeast, rightGreatest⟩ := bounds_of_accepts right
  have above : 1 ≤ max (value first) (value second) := le_max_of_le_left leftLeast
  have below : max (value first) (value second) ≤ 10 := max_le leftGreatest rightGreatest
  refine (defaultInterval_roundsTo leftFinite rightFinite).isFinite_of_le
    (representable_natCast (n := 11) (by norm_num)) (natCast_lt_overflow (by norm_num)) ?_
  rw [abs_of_nonneg (by linarith)]
  push_cast
  linarith

/-- No duration is longer than the interval that follows from it. -/
theorem max_le_value_defaultInterval :
    max (value first) (value second) ≤ value (defaultInterval first second) := by
  have leftFinite := (bounds_of_accepts left).1
  have rightFinite := (bounds_of_accepts right).1
  obtain ⟨finite, larger⟩ := Number.larger_value leftFinite rightFinite
  rw [(defaultInterval_roundsTo leftFinite rightFinite).value_eq
    (isFinite_defaultInterval left right)]
  exact le_nearest (larger ▸ representable_value finite) (by linarith)

/-- For whole durations the sum is exact. -/
theorem value_defaultInterval_of_whole
    {n m : ℕ}
    (leftWhole : value first = n)
    (rightWhole : value second = m) :
    value (defaultInterval first second) = max (value first) (value second) + 1 := by
  obtain ⟨leftFinite, -, leftGreatest⟩ := bounds_of_accepts left
  obtain ⟨rightFinite, -, rightGreatest⟩ := bounds_of_accepts right
  have sum : max (value first) (value second) + 1 = ((max n m + 1 : ℕ) : ℚ) := by
    rw [leftWhole, rightWhole]
    push_cast
    rfl
  have few : max n m ≤ 10 := by
    rw [leftWhole] at leftGreatest
    rw [rightWhole] at rightGreatest
    exact max_le (by exact_mod_cast leftGreatest) (by exact_mod_cast rightGreatest)
  have rounds := defaultInterval_roundsTo leftFinite rightFinite
  rw [sum] at rounds ⊢
  exact (rounds.value_eq_natCast (by omega)).2

end

end Timing
end NetworkConsole
