import NetworkConsole.Proofs.Binary64.Infinity
import NetworkConsole.Proofs.Command.Timing
import NetworkConsole.Proofs.Number.Rounding

/-!
# The delay before the next run

What is left of a period grows with the period and shrinks with the time that has passed.
The computed delay does so too: every operation on the way rounds once and keeps the order,
and a fraction of a second is lost only beside so many seconds that it cannot change their
order. A period may overflow, and then the delay is the longest there is until the time that
has passed overflows as well.
-/

namespace NetworkConsole

open Binary64

namespace Number

/-- An infinity is not changed by rounding to a whole number. -/
theorem round_saturated {x : Float} (number : x.isNaN = false) (nonneg : 0 ≤ saturated x) :
    (round x).isNaN = false ∧ saturated (round x) = nearestAwayOf (saturated x) := by
  obtain finite | infinite := finite_or_positive number nonneg
  · obtain ⟨roundFinite, exact⟩ := round_eq finite
    refine ⟨isNaN_of_isFinite roundFinite, ?_⟩
    rw [saturated_of_isFinite roundFinite, exact, saturated_of_isFinite finite]
  · have kept : round x = x := by
      refine if_neg fun below => ?_
      have finite := isFinite_of_abs_lt isFinite_wholeFrom below
      rw [isFinite_iff_saturated_lt number nonneg, saturated_of_positive infinite] at finite
      exact lt_irrefl _ finite
    have whole : overflow = ((2 ^ 1024 : ℤ) : ℚ) := by
      rw [overflow, Int.cast_pow, Int.cast_ofNat, ← zpow_natCast]
      norm_num
    rw [kept, saturated_of_positive infinite]
    refine ⟨number, (nearestAwayOf_of_abs_eq_floor ?_).symm⟩
    rw [abs_of_pos overflow_pos, whole, Int.floor_intCast]

theorem nearestAwayOf_nonneg {q : ℚ} (nonneg : 0 ≤ q) : 0 ≤ nearestAwayOf q := by
  rw [nearestAwayOf, if_neg nonneg.not_gt]
  exact Int.floor_nonneg.mpr (by linarith)

/-- The nearest whole number, kept within 64 bits. -/
theorem toNat_round {x : Float} (number : x.isNaN = false) (nonneg : 0 ≤ saturated x) :
    (toNat (round x) : ℤ) = min (nearestAwayOf (saturated x)) (2 ^ 64 - 1) := by
  obtain ⟨roundNumber, exact⟩ := round_saturated number nonneg
  have roundNonneg : 0 ≤ saturated (round x) := by
    rw [exact]
    exact_mod_cast nearestAwayOf_nonneg nonneg
  rw [toNat, toUInt64_saturated roundNumber roundNonneg, exact, Int.floor_intCast]

end Number

namespace Timing

/-! ## Time that has passed -/

/-- The seconds of a part of a second, rounded once. -/
def fraction (nanoseconds : ℕ) : ℚ :=
  nearest ((nanoseconds % 1000000000 : ℕ) / 1000000000)

theorem fraction_nonneg (nanoseconds : ℕ) : 0 ≤ fraction nanoseconds :=
  nearest_nonneg (by positivity)

theorem fraction_lt_one (nanoseconds : ℕ) : fraction nanoseconds < 1 := by
  have part : nanoseconds % 1000000000 ≤ 999999999 := by omega
  have below : ((nanoseconds % 1000000000 : ℕ) : ℚ) ≤ 999999999 := by exact_mod_cast part
  have representable : Representable (1 - 1 / 2 ^ 30) :=
    ⟨2 ^ 30 - 1, -30, by norm_num, by norm_num, by norm_num⟩
  have bound : fraction nanoseconds ≤ 1 - 1 / 2 ^ 30 := by
    apply nearest_le representable
    rw [div_le_iff₀ (by norm_num)]
    linarith
  linarith

theorem value_part_div (elapsed : ℕ) :
    (Float.ofNat (elapsed % 1000000000) / 1000000000).isFinite = true ∧
      value (Float.ofNat (elapsed % 1000000000) / 1000000000) = fraction elapsed := by
  have part : elapsed % 1000000000 < 2 ^ 53 := by omega
  have billion : value (1000000000 : Float) = 1000000000 :=
    value_ofNat (n := 1000000000) (by norm_num)
  have quotient := div_roundsTo (isFinite_ofNat part) (y := 1000000000) rfl
    (by rw [billion]; norm_num)
  rw [value_ofNat part, billion] at quotient
  have finite : (Float.ofNat (elapsed % 1000000000) / 1000000000).isFinite = true := by
    rw [quotient.isFinite_iff]
    change |fraction elapsed| < overflow
    rw [abs_of_nonneg (fraction_nonneg elapsed)]
    have one : (1 : ℚ) < overflow := by
      exact_mod_cast natCast_lt_overflow (n := 1) (by norm_num)
    exact (fraction_lt_one elapsed).trans one
  exact ⟨finite, quotient.value_eq finite⟩

theorem saturated_ofNat_nonneg (n : ℕ) : 0 ≤ saturated (Float.ofNat n) :=
  (roundsTo_ofNat n).isNearest.nonneg (by positivity)

theorem saturated_ofNat_mono {m n : ℕ} (ordered : m ≤ n) :
    saturated (Float.ofNat m) ≤ saturated (Float.ofNat n) :=
  (roundsTo_ofNat m).isNearest.mono (roundsTo_ofNat n).isNearest (by exact_mod_cast ordered)

theorem saturated_ofNat {n : ℕ} (bounded : n ≤ 2 ^ 53) : saturated (Float.ofNat n) = n := by
  obtain ⟨finite, exact⟩ := (roundsTo_ofNat n).value_eq_natCast bounded
  rw [saturated_of_isFinite finite, exact]

theorem seconds_isNearest (elapsed : ℕ) :
    IsNearest (saturated (Float.ofNat (elapsed / 1000000000)) + fraction elapsed)
      (seconds elapsed) := by
  obtain ⟨finite, exact⟩ := value_part_div elapsed
  rw [← exact]
  exact add_isNearest (roundsTo_ofNat _).isNearest.1 (saturated_ofNat_nonneg _) finite
    (by rw [exact]; exact fraction_nonneg elapsed)

theorem saturated_seconds_nonneg (elapsed : ℕ) : 0 ≤ saturated (seconds elapsed) :=
  (seconds_isNearest elapsed).nonneg
    (add_nonneg (saturated_ofNat_nonneg _) (fraction_nonneg elapsed))

/-- Seconds never decrease, whether or not the fraction still counts beside them. -/
theorem saturated_seconds_mono {elapsed later : ℕ} (ordered : elapsed ≤ later) :
    saturated (seconds elapsed) ≤ saturated (seconds later) := by
  rw [(seconds_isNearest elapsed).2, (seconds_isNearest later).2]
  apply saturate_mono
  have below := fraction_lt_one elapsed
  have nonneg := fraction_nonneg later
  rcases (Nat.div_le_div_right (c := 1000000000) ordered).lt_or_eq with fewer | same
  · rcases lt_or_ge (elapsed / 1000000000) (2 ^ 53) with exact | rounded
    · apply nearest_mono
      have next := saturated_ofNat_mono fewer
      rw [Nat.succ_eq_add_one, saturated_ofNat exact, Nat.cast_add_one] at next
      rw [saturated_ofNat exact.le]
      linarith
    · have large := saturated_ofNat_mono rounded
      rw [saturated_ofNat le_rfl] at large
      have representable (n : ℕ) : Representable (saturated (Float.ofNat n)) :=
        representable_saturated (roundsTo_ofNat n).isNearest.1 (saturated_ofNat_nonneg n)
      rw [(representable _).nearest_add_fraction (by exact_mod_cast large)
        (fraction_nonneg elapsed) below]
      apply (saturated_ofNat_mono fewer.le).trans
      exact le_nearest (representable _) (by linarith)
  · have parts : elapsed % 1000000000 ≤ later % 1000000000 := by omega
    have fractions : fraction elapsed ≤ fraction later := by
      apply nearest_mono
      gcongr
    rw [same]
    exact nearest_mono (by linarith)

theorem value_zero : value (0 : Float) = 0 := value_ofNat (n := 0) (by norm_num)

theorem value_thousand : value (1000 : Float) = 1000 := value_ofNat (n := 1000) (by norm_num)

theorem milliseconds_isNearest (elapsed : ℕ) :
    IsNearest (saturated (seconds elapsed) * 1000) (seconds elapsed * 1000) := by
  rw [← value_thousand]
  exact mul_isNearest (seconds_isNearest elapsed).1 (saturated_seconds_nonneg elapsed) rfl
    (by rw [value_thousand]; norm_num)

theorem saturated_milliseconds_nonneg (elapsed : ℕ) : 0 ≤ saturated (seconds elapsed * 1000) :=
  (milliseconds_isNearest elapsed).nonneg
    (mul_nonneg (saturated_seconds_nonneg elapsed) (by norm_num))

theorem saturated_milliseconds_mono {elapsed later : ℕ} (ordered : elapsed ≤ later) :
    saturated (seconds elapsed * 1000) ≤ saturated (seconds later * 1000) :=
  (milliseconds_isNearest elapsed).mono (milliseconds_isNearest later)
    (mul_le_mul_of_nonneg_right (saturated_seconds_mono ordered) (by norm_num))

/-! ## Periods -/

/-- A number of seconds that a duration can be. -/
def IsDuration (duration : Float) : Prop := duration.isFinite = true ∧ 0 ≤ duration

theorem isDuration_ofNat {n : ℕ} (bounded : n < 2 ^ 53) : IsDuration (Float.ofNat n) := by
  have finite := isFinite_ofNat bounded
  refine ⟨finite, ?_⟩
  rw [le_iff rfl finite, value_zero, value_ofNat bounded]
  positivity

/-- The two test durations and the interval are durations. -/
structure AreDurations (timing : Timing) : Prop where
  clientToServer : IsDuration timing.clientToServer
  serverToClient : IsDuration timing.serverToClient
  interval : IsDuration timing.interval

/-- No period of the one timing is longer than that of the other. -/
structure Within (timing longer : Timing) : Prop where
  clientToServer : timing.clientToServer ≤ longer.clientToServer
  serverToClient : timing.serverToClient ≤ longer.serverToClient
  interval : timing.interval ≤ longer.interval

/-- The longest of the three periods. -/
def longest (timing : Timing) : ℚ :=
  max (max (value timing.clientToServer) (value timing.serverToClient)) (value timing.interval)

variable {timing longer : Timing}

theorem AreDurations.period_isNearest (durations : timing.AreDurations) :
    IsNearest (timing.longest * 1000) timing.period := by
  obtain ⟨testsFinite, tests⟩ :=
    Number.larger_value durations.clientToServer.1 durations.serverToClient.1
  obtain ⟨allFinite, all⟩ := Number.larger_value testsFinite durations.interval.1
  have product := mul_roundsTo allFinite (y := 1000) rfl
  rw [all, tests, value_thousand] at product
  exact product.isNearest

theorem AreDurations.longest_nonneg (durations : timing.AreDurations) : 0 ≤ timing.longest := by
  have nonneg := durations.interval.2
  rw [le_iff rfl durations.interval.1, value_zero] at nonneg
  exact le_max_of_le_right nonneg

theorem AreDurations.saturated_period_nonneg (durations : timing.AreDurations) :
    0 ≤ saturated timing.period :=
  durations.period_isNearest.nonneg (mul_nonneg durations.longest_nonneg (by norm_num))

theorem Within.longest_le
    (within : timing.Within longer)
    (durations : timing.AreDurations)
    (longerDurations : longer.AreDurations) :
    timing.longest ≤ longer.longest :=
  max_le_max
    (max_le_max
      ((le_iff durations.clientToServer.1 longerDurations.clientToServer.1).mp
        within.clientToServer)
      ((le_iff durations.serverToClient.1 longerDurations.serverToClient.1).mp
        within.serverToClient))
    ((le_iff durations.interval.1 longerDurations.interval.1).mp within.interval)

theorem Within.saturated_period_le
    (within : timing.Within longer)
    (durations : timing.AreDurations)
    (longerDurations : longer.AreDurations) :
    saturated timing.period ≤ saturated longer.period :=
  durations.period_isNearest.mono longerDurations.period_isNearest
    (mul_le_mul_of_nonneg_right (within.longest_le durations longerDurations) (by norm_num))

/-! ## What is left -/

/-- The delay that follows from what is left of a period. -/
def countdown (remaining : ℚ) : ℤ :=
  if 0 < remaining then min (Number.nearestAwayOf remaining) (2 ^ 64 - 1) else 0

theorem countdown_mono {p q : ℚ} (ordered : p ≤ q) : countdown p ≤ countdown q := by
  unfold countdown
  split_ifs with lower upper upper
  · exact min_le_min_right _ (Number.nearestAwayOf_mono ordered)
  · linarith
  · exact le_min (Number.nearestAwayOf_nonneg upper.le) (by norm_num)
  · exact le_rfl

theorem delay_eq_countdown
    {elapsed : ℕ}
    (number : (timing.period - seconds elapsed * 1000).isNaN = false) :
    (timing.delay elapsed : ℤ) =
      countdown (saturated (timing.period - seconds elapsed * 1000)) := by
  have zero : saturated (0 : Float) = 0 := saturated_ofNat (n := 0) (by norm_num)
  have above : 0 < timing.period - seconds elapsed * 1000 ↔
      0 < saturated (timing.period - seconds elapsed * 1000) := by
    rw [lt_iff_saturated rfl number, zero]
  unfold delay countdown
  by_cases left : 0 < timing.period - seconds elapsed * 1000
  · rw [if_pos left, if_pos (above.mp left), Number.toNat_round number (above.mp left).le]
  · rw [if_neg left, if_neg (mt above.mpr left), Nat.cast_zero]

/-- Once the time that has passed overflows, nothing is left. -/
theorem delay_eq_zero_of_overflow
    {elapsed : ℕ}
    (infinite : (seconds elapsed * 1000).toModel.unpack = .infinity .positive) :
    timing.delay elapsed = 0 :=
  if_neg (not_pos_sub_infinity infinite)

theorem isFinite_or_delay_eq_zero (timing : Timing) (elapsed : ℕ) :
    (seconds elapsed * 1000).isFinite = true ∨ timing.delay elapsed = 0 :=
  (finite_or_positive (milliseconds_isNearest elapsed).1
    (saturated_milliseconds_nonneg elapsed)).imp id delay_eq_zero_of_overflow

/-- What is left grows with the period and shrinks with the time that has passed. -/
theorem delay_le_of_saturated_le
    (durations : timing.AreDurations)
    (longerDurations : longer.AreDurations)
    (periods : saturated timing.period ≤ saturated longer.period)
    {elapsed later : ℕ}
    (ordered : elapsed ≤ later) :
    timing.delay later ≤ longer.delay elapsed := by
  obtain laterFinite | none := isFinite_or_delay_eq_zero timing later
  · have milliseconds := saturated_milliseconds_mono ordered
    have number (time : ℕ) := (milliseconds_isNearest time).1
    have nonneg := saturated_milliseconds_nonneg
    have finite : (seconds elapsed * 1000).isFinite = true := by
      rw [isFinite_iff_saturated_lt (number _) (nonneg _)] at laterFinite ⊢
      exact milliseconds.trans_lt laterFinite
    rw [saturated_of_isFinite finite, saturated_of_isFinite laterFinite] at milliseconds
    have shorterNumber := sub_isNaN durations.period_isNearest.1
      durations.saturated_period_nonneg laterFinite
    have longerNumber := sub_isNaN longerDurations.period_isNearest.1
      longerDurations.saturated_period_nonneg finite
    rw [← Int.ofNat_le, delay_eq_countdown shorterNumber, delay_eq_countdown longerNumber]
    exact countdown_mono (saturated_sub_mono durations.period_isNearest.1
      durations.saturated_period_nonneg longerDurations.period_isNearest.1 periods laterFinite
      finite milliseconds)
  · rw [none]
    exact Nat.zero_le _

/-- Nothing is left of a period that is not longer than the time that has passed. -/
theorem delay_eq_zero_of_le
    (durations : timing.AreDurations)
    {elapsed : ℕ}
    (passed : timing.period ≤ seconds elapsed * 1000) :
    timing.delay elapsed = 0 := by
  obtain elapsedFinite | none := isFinite_or_delay_eq_zero timing elapsed
  · obtain periodFinite | infinite :=
      finite_or_positive durations.period_isNearest.1 durations.saturated_period_nonneg
    · rw [le_iff periodFinite elapsedFinite] at passed
      have difference := (sub_roundsTo periodFinite elapsedFinite).isNearest
      have nothing : saturated (timing.period - seconds elapsed * 1000) ≤ 0 := by
        rw [difference.2, ← saturate_of_abs_lt (abs_zero.trans_lt overflow_pos)]
        apply saturate_mono
        exact (nearest_mono (sub_nonpos.mpr passed)).trans_eq nearest_zero
      have whole := delay_eq_countdown difference.1
      rw [countdown, if_neg nothing.not_gt] at whole
      exact_mod_cast whole
    · exact absurd passed (not_infinity_le infinite elapsedFinite)
  · exact none

/-- The delay never decreases when a period grows and never increases with the time that has
passed, and it is zero from the time on that covers the period. None of this stops at periods
that overflow. -/
theorem delay_monotone (durations : timing.AreDurations) :
    (∀ longer : Timing, longer.AreDurations → timing.Within longer →
      ∀ elapsed, timing.delay elapsed ≤ longer.delay elapsed) ∧
    (∀ elapsed later, elapsed ≤ later → timing.delay later ≤ timing.delay elapsed) ∧
    ∀ elapsed, timing.period ≤ seconds elapsed * 1000 → timing.delay elapsed = 0 :=
  ⟨fun _ longerDurations within _ => delay_le_of_saturated_le durations longerDurations
      (within.saturated_period_le durations longerDurations) le_rfl,
    fun _ _ ordered => delay_le_of_saturated_le durations durations le_rfl ordered,
    fun _ passed => delay_eq_zero_of_le durations passed⟩

/-- An interval of five seconds beside one whose milliseconds overflow. -/
theorem delay_monotone_at_overflow :
    let timing : Timing := ⟨3, 4, 5⟩
    let longer : Timing := ⟨3, 4, 1e308⟩
    (timing.AreDurations ∧ longer.AreDurations ∧ timing.Within longer) ∧
      longer.period.isInf = true ∧ longer.delay 2000000000 = 2 ^ 64 - 1 ∧
      timing.delay 2000000000 ≤ longer.delay 2000000000 ∧
      timing.delay 9000000000 ≤ timing.delay 2000000000 ∧
      timing.delay 9000000000 = 0 := by
  intro timing longer
  have three : IsDuration 3 := isDuration_ofNat (n := 3) (by norm_num)
  have four : IsDuration 4 := isDuration_ofNat (n := 4) (by norm_num)
  have durations : timing.AreDurations :=
    ⟨three, four, isDuration_ofNat (n := 5) (by norm_num)⟩
  have longerDurations : longer.AreDurations :=
    ⟨three, four, by decide +kernel, by decide +kernel⟩
  have within : timing.Within longer :=
    ⟨by decide +kernel, by decide +kernel, by decide +kernel⟩
  obtain ⟨grows, shrinks, vanishes⟩ := delay_monotone durations
  exact ⟨⟨durations, longerDurations, within⟩, by decide +kernel, by decide +kernel,
    grows longer longerDurations within _, shrinks _ _ (by norm_num),
    vanishes _ (by decide +kernel)⟩

end Timing
end NetworkConsole
