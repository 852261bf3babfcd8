import NetworkConsole.Chart.Window
import NetworkConsole.Proofs.Binary64.Saturation

/-!
# The left edge of a chart window

The floor of a window is computed with fractions of a millisecond, and the times of points are
whole. A tick is at most half a millisecond shorter than the next whole number of them, so a
time is older than the window exactly if it lies further back than a whole reach.
-/

namespace NetworkConsole
namespace Chart

open Binary64

namespace Cadence

/-- Milliseconds from one tick to the next, rounded up to a whole number. -/
def period (cadence : Cadence) : ℕ := Number.ceilToNat cadence.tickMilliseconds

theorem period_focused : period .focused = 143 := by decide +kernel

theorem period_unfocused : period .unfocused = 1000 := by decide +kernel

/-- A period is not shorter than a tick. -/
theorem le_perSecond_mul_period (cadence : Cadence) :
    (1000 : ℤ) ≤ cadence.perSecond * cadence.period := by
  cases cadence <;> decide +kernel

/-- Milliseconds between ticks are rounded once. -/
theorem tickMilliseconds_eq (cadence : Cadence) :
    cadence.tickMilliseconds.isFinite = true ∧
      value cadence.tickMilliseconds = nearest (1000 / cadence.perSecond) := by
  have often : (1 : ℚ) ≤ cadence.perSecond := by
    cases cadence <;> norm_num [Cadence.perSecond]
  have seldom : cadence.perSecond < 2 ^ 53 := by
    cases cadence <;> norm_num [Cadence.perSecond]
  have quotient := div_roundsTo (isFinite_ofNat (n := 1000) (by norm_num)) (isFinite_ofNat seldom)
    (by rw [value_ofNat seldom]; positivity)
  rw [value_ofNat (by norm_num), value_ofNat seldom] at quotient
  have nonneg : (0 : ℚ) ≤ (1000 : ℕ) / cadence.perSecond := by positivity
  have finite := quotient.isFinite_of_le (representable_natCast (n := 1000) (by norm_num))
    (natCast_lt_overflow (by norm_num))
    (by rw [abs_of_nonneg nonneg]; exact div_le_self (by positivity) often)
  exact ⟨finite, quotient.value_eq finite⟩

/-- A tick is rounded up to its period by half a millisecond at most. -/
theorem value_tickMilliseconds_bounds (cadence : Cadence) :
    (cadence.period : ℚ) - 1 / 2 ≤ value cadence.tickMilliseconds ∧
      value cadence.tickMilliseconds ≤ cadence.period := by
  rw [(tickMilliseconds_eq cadence).2]
  cases cadence with
  | focused =>
      rw [period_focused]
      exact ⟨le_nearest ⟨285, -1, by norm_num, by norm_num, by norm_num⟩
        (by norm_num [Cadence.perSecond]),
        nearest_le (representable_natCast (by norm_num)) (by norm_num [Cadence.perSecond])⟩
  | unfocused =>
      rw [period_unfocused]
      exact ⟨le_nearest ⟨1999, -1, by norm_num, by norm_num, by norm_num⟩
        (by norm_num [Cadence.perSecond]),
        nearest_le (representable_natCast (by norm_num)) (by norm_num [Cadence.perSecond])⟩

/-- What rounding takes from a tick does not matter over a thousand of them. -/
theorem lt_value_tickMilliseconds (cadence : Cadence) :
    (1000 : ℚ) / cadence.perSecond - (2 ^ 40)⁻¹ < value cadence.tickMilliseconds := by
  have often : (1 : ℚ) ≤ cadence.perSecond := by
    cases cadence <;> norm_num [Cadence.perSecond]
  have nonneg : (0 : ℚ) ≤ 1000 / cadence.perSecond := by positivity
  have greatest : (1000 : ℚ) / cadence.perSecond ≤ 1000 := div_le_self (by norm_num) often
  have loss : |nearest (1000 / cadence.perSecond) - 1000 / cadence.perSecond| < (2 ^ 40)⁻¹ :=
    abs_nearest_sub_lt (by norm_num) (by rw [abs_of_nonneg nonneg]; linarith)
  rw [(tickMilliseconds_eq cadence).2]
  linarith [(abs_lt.mp loss).1]

end Cadence

namespace Window

variable (window : Window)

/-- Whole milliseconds that are left off the left edge. -/
def margin : ℕ := if window.trimmed then window.cadence.period else 0

/-- Whole milliseconds that a point inside the window can be old. -/
def reach : ℤ := 20000 - window.margin

/-- Points that the window has room for: one for each tick in it, and one more for its left
edge unless that is trimmed. -/
def capacity : ℕ := window.cadence.ticks + if window.trimmed then 0 else 1

theorem capacity_pos : 0 < window.capacity := by
  obtain ⟨cadence, trimmed⟩ := window
  cases cadence <;> cases trimmed <;> decide

/-- The ticks of a reach, less the one that has just passed, are fewer than the room. -/
theorem period_le_room :
    window.cadence.perSecond * (window.reach - window.cadence.period + 1) <
      1000 * ((window.capacity : ℤ) - 1) := by
  obtain ⟨cadence, trimmed⟩ := window
  cases cadence <;> cases trimmed <;> decide +kernel

theorem value_span : window.span.isFinite = true ∧ value window.span = 20000 := by
  have seconds : window.span = Float.ofNat 20000 := by
    obtain ⟨cadence, trimmed⟩ := window
    cases cadence <;> cases trimmed <;> decide +kernel
  rw [seconds]
  exact ⟨isFinite_ofNat (by norm_num), value_ofNat (by norm_num)⟩

theorem value_trim :
    window.trim.isFinite = true ∧
      (window.margin : ℚ) - 1 / 2 ≤ value window.trim ∧ value window.trim ≤ window.margin := by
  unfold trim margin
  split_ifs
  · exact ⟨window.cadence.tickMilliseconds_eq.1, window.cadence.value_tickMilliseconds_bounds⟩
  · have zero : value (0 : Float) = 0 := value_ofNat (n := 0) (by norm_num)
    rw [zero]
    exact ⟨rfl, by norm_num, by norm_num⟩

theorem margin_le : window.margin ≤ 1000 := by
  obtain ⟨cadence, trimmed⟩ := window
  cases cadence <;> cases trimmed <;>
    simp [margin, Cadence.period_focused, Cadence.period_unfocused]

theorem abs_edge_lt {now : ℤ} (bounded : |now| < 2 ^ 50) : |now - window.reach| < 2 ^ 51 := by
  have few := window.margin_le
  unfold reach
  rw [abs_lt] at bounded ⊢
  omega

/-- The floor of a window lies at most half a millisecond below its whole reach. -/
theorem value_floor {now : ℤ} (bounded : |now| < 2 ^ 50) :
    (window.floor now).isFinite = true ∧
      ((now - window.reach : ℤ) : ℚ) - 1 / 2 ≤ value (window.floor now) ∧
      value (window.floor now) ≤ (now - window.reach : ℤ) := by
  obtain ⟨nowFinite, exactNow⟩ := value_ofInt (bounded.trans (by norm_num))
  obtain ⟨spanFinite, exactSpan⟩ := window.value_span
  obtain ⟨trimFinite, trimLeast, trimGreatest⟩ := window.value_trim
  -- Without the trim the difference is whole, and exact.
  have difference := sub_roundsTo nowFinite spanFinite
  have whole : value (Float.ofInt now) - value window.span = ((now - 20000 : ℤ) : ℚ) := by
    rw [exactNow, exactSpan, Int.cast_sub, Int.cast_ofNat]
  rw [whole] at difference
  obtain ⟨differenceFinite, exactDifference⟩ := difference.value_eq_intCast (by
    rw [abs_lt] at bounded ⊢
    omega)
  have sum := add_roundsTo differenceFinite trimFinite
  have split : ((now - window.reach : ℤ) : ℚ) = (now - 20000 : ℤ) + window.margin := by
    unfold reach
    push_cast
    ring
  rw [exactDifference] at sum
  -- The trim leaves it between two representable numbers, half a millisecond apart.
  have edge := window.abs_edge_lt bounded
  have edgeCast : |((now - window.reach : ℤ) : ℚ)| < 2 ^ 51 := by exact_mod_cast edge
  obtain ⟨above, below⟩ := abs_lt.mp edgeCast
  have lower : ((now - window.reach : ℤ) : ℚ) - 1 / 2 ≤ (now - 20000 : ℤ) + value window.trim := by
    linarith
  have upper : ((now - 20000 : ℤ) : ℚ) + value window.trim ≤ (now - window.reach : ℤ) := by
    linarith
  have finite : (window.floor now).isFinite = true := by
    refine sum.isFinite_of_le (representable_natCast le_rfl) (natCast_lt_overflow le_rfl) ?_
    rw [Nat.cast_pow, Nat.cast_ofNat, abs_le]
    constructor <;> linarith
  have half : Representable (((now - window.reach : ℤ) : ℚ) - 1 / 2) := by
    refine ⟨2 * (now - window.reach) - 1, -1, ?_, by norm_num, ?_⟩
    · rw [abs_lt] at edge ⊢
      omega
    · push_cast
      ring
  refine ⟨finite, ?_⟩
  have exact : value (window.floor now) = _ := sum.value_eq finite
  rw [exact]
  exact ⟨le_nearest half lower,
    nearest_le (representable_intCast (edge.trans (by norm_num))) upper⟩

/-- A time is older than the window exactly if it lies further back than the whole reach. -/
theorem ofInt_lt_floor_iff {now : ℤ} (bounded : |now| < 2 ^ 50) (time : ℤ) :
    Float.ofInt time < window.floor now ↔ time < now - window.reach := by
  have edge := window.abs_edge_lt bounded
  obtain ⟨finite, lower, upper⟩ := window.value_floor bounded
  constructor
  · intro older
    by_contra inside
    obtain ⟨edgeFinite, exact⟩ := value_ofInt (edge.trans (by norm_num))
    have edgeOlder := ofInt_lt_of_le (not_lt.mp inside) older
    rw [lt_iff edgeFinite finite, exact] at edgeOlder
    exact edgeOlder.not_ge upper
  · intro older
    obtain ⟨beyondFinite, exact⟩ := value_ofInt (n := now - window.reach - 1) (by
      rw [abs_lt] at edge ⊢
      omega)
    refine ofInt_lt_of_le (by omega) ((lt_iff beyondFinite finite).mpr ?_)
    rw [exact, Int.cast_sub, Int.cast_one]
    linarith

end Window
end Chart
end NetworkConsole
