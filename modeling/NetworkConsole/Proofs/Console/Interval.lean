import Mathlib.Data.List.Induction
import NetworkConsole.Proofs.Command.Timing
import NetworkConsole.Proofs.Console.Edits

/-!
# The continuous interval

Only an edit of a seconds dial and a loaded panel can move a test duration, and both set the
interval anew from the durations. No other operation brings the interval below the shorter
duration, so it is never below it.
-/

namespace NetworkConsole
namespace Session

open Binary64

/-! ## Operations that set durations -/

/-- An operation that is about the test durations: an edit of a seconds dial, or a panel. -/
def Operation.SetsDuration : Operation → Prop
  | .changeDial _ dial _ _ => dial = .seconds
  | .loadPanel _ _ => True
  | _ => False

theorem duration_congr
    {first second : Session}
    (same : first.linkage = second.linkage)
    (direction : Direction) :
    first.duration direction = second.duration direction := by
  rw [duration, duration, same]

@[simp] theorem duration_refreshInterval (session : Session) (direction : Direction) :
    session.refreshInterval.duration direction = session.duration direction := by
  obtain ⟨interval, refreshed⟩ := session.refreshInterval_frame
  rw [refreshed]
  rfl

@[simp] theorem defaultInterval_refreshInterval (session : Session) :
    session.refreshInterval.defaultInterval = session.defaultInterval := by
  simp [defaultInterval]

theorem seconds_setLock
    (linkage : Linkage)
    (direction : Direction)
    (lock : Lock)
    (other : Direction) :
    ((linkage.setLock direction lock).panel other).get .seconds =
      (linkage.panel other).get .seconds := by
  cases direction <;> cases other <;> rfl

/-- Other operations leave both durations. An edit of another dial solves no duration. -/
theorem duration_apply
    {session : Session}
    (idle : session.linkage.Idle)
    {operation : Operation}
    (other : ¬ operation.SetsDuration)
    (direction : Direction) :
    (session.apply operation).duration direction = session.duration direction := by
  have linkage := session.linkage_apply operation
  cases operation with
  | changeDial edited dial value now =>
      obtain ⟨own, others, -⟩ := changeDial_of_idle idle edited dial value now
      unfold duration
      by_cases same : direction = edited
      · rw [same, apply, own]
        exact Panel.get_edit_of_ne _ (Ne.symm other) (recomputed_ne_seconds _ _).symm value
      · rw [apply, others direction same]
  | loadPanel => exact absurd trivial other
  | setLock locked lock =>
      rw [duration, linkage]
      exact seconds_setLock _ _ _ _
  | reset =>
      rw [duration, linkage]
      exact (seconds_setLock _ _ _ _).trans (seconds_setLock _ _ _ _)
  | _ => exact duration_congr linkage direction

/-- An edit of a dial moves what it moves first, and then sets the interval if the dial is
the seconds dial. -/
theorem exists_changeDial_eq
    (session : Session)
    (direction : Direction)
    (dial : Dial)
    (value : Float)
    (now : Int) :
    ∃ moved : Session, moved.interval = session.interval ∧
      (session.changeDial direction dial value now).1 =
        if dial = .seconds then moved.refreshInterval else moved := by
  obtain ⟨notices, noticed⟩ := post_foldl_frame
    (((session.linkage.change direction dial value).2 ::
      (session.linkage.change direction dial value).1.settle.2).flatMap (·.notices))
    { session with linkage := (session.linkage.change direction dial value).1.settle.1 } now
  unfold changeDial
  dsimp only
  rw [noticed]
  refine ⟨_, ?_, rfl⟩
  rfl

/-- Other operations keep the interval, unless it is chosen or set from the durations. -/
theorem interval_apply
    (session : Session)
    {operation : Operation}
    (other : ¬ operation.SetsDuration) :
    (session.apply operation).interval = session.interval ∨
      session.apply operation = session.refreshInterval ∨
      ∃ seconds, session.apply operation = session.setInterval seconds := by
  cases operation with
  | changeDial direction dial value now =>
      obtain ⟨moved, kept, edited⟩ := session.exists_changeDial_eq direction dial value now
      have notSeconds : dial ≠ .seconds := other
      left
      rw [apply, edited, if_neg notSeconds, kept]
  | loadPanel => exact absurd trivial other
  | refreshInterval => exact .inr (.inl rfl)
  | setInterval seconds => exact .inr (.inr ⟨seconds, rfl⟩)
  | switchTab app now =>
      obtain ⟨notices, switched⟩ := session.switchTab_frame app now
      left
      rw [apply, switched]
  | finish ticket response now time =>
      obtain ⟨results, board, statistics, finished⟩ :=
        session.finish_frame ticket response now time
      left
      rw [apply, finished]
  | reset =>
      obtain ⟨selection, cleared⟩ := session.reset_frame
      left
      rw [apply, cleared]
  | _ => exact .inl rfl

/-- An operation that is about the durations sets the interval after it has set them, or is
refused. -/
theorem apply_of_setsDuration
    (session : Session)
    {operation : Operation}
    (sets : operation.SetsDuration) :
    session.apply operation = session ∨
      ∃ moved : Session, moved.interval = session.interval ∧
        session.apply operation = moved.refreshInterval := by
  cases operation with
  | changeDial direction dial value now =>
      obtain ⟨moved, kept, edited⟩ := session.exists_changeDial_eq direction dial value now
      have isSeconds : dial = .seconds := sets
      rw [if_pos isSeconds] at edited
      exact .inr ⟨moved, kept, edited⟩
  | loadPanel direction panel =>
      simp only [apply, loadPanel]
      cases panel.checkRanges with
      | error error => exact .inl rfl
      | ok =>
          right
          exact ⟨{ session with linkage := session.linkage.load direction panel }, rfl, rfl⟩
  | _ => exact sets.elim

/-! ## Intervals beside durations -/

/-- Both durations are in the range of their dial. -/
def DurationsInRange (session : Session) : Prop :=
  ∀ direction, Dial.accepts .seconds (session.duration direction) = true

theorem durationsInRange_run
    (additionalOptions : String)
    (now : Int)
    (operations : List Operation) :
    ((start additionalOptions now).run operations).DurationsInRange :=
  fun direction => inRange_run additionalOptions now operations direction .seconds

/-- The interval is a number that is not below the shorter duration. -/
structure Timely (session : Session) : Prop where
  finite : session.interval.isFinite = true
  least : min (value (session.duration .clientToServer))
      (value (session.duration .serverToClient)) ≤ value session.interval

section

variable {session : Session} (inRange : session.DurationsInRange)

include inRange

/-- An interval that is set from the durations is the one that follows from them, also where
it was of equal value before. -/
theorem interval_refreshInterval (finite : session.interval.isFinite = true) :
    session.refreshInterval.interval = session.defaultInterval := by
  have defaultFinite : session.defaultInterval.isFinite = true :=
    Timing.isFinite_defaultInterval (inRange _) (inRange _)
  have nonzero : value session.defaultInterval ≠ 0 := by
    have least := (Timing.bounds_of_accepts (inRange .clientToServer)).2.1
    have longest : max _ _ ≤ value session.defaultInterval :=
      Timing.max_le_value_defaultInterval (inRange _) (inRange _)
    have := (le_max_left _ _).trans longest
    linarith
  unfold refreshInterval
  split_ifs with different
  · rfl
  · rw [bne_iff defaultFinite finite, not_not] at different
    exact (eq_of_value_eq defaultFinite finite nonzero different).symm

theorem timely_of_interval_eq (set : session.interval = session.defaultInterval) :
    session.Timely := by
  constructor
  · rw [set]
    exact Timing.isFinite_defaultInterval (inRange _) (inRange _)
  · rw [set]
    exact min_le_max.trans (Timing.max_le_value_defaultInterval (inRange _) (inRange _))

theorem timely_refreshInterval (finite : session.interval.isFinite = true) :
    session.refreshInterval.Timely := by
  apply timely_of_interval_eq
  · intro direction
    rw [duration_refreshInterval]
    exact inRange direction
  · rw [interval_refreshInterval inRange finite, defaultInterval_refreshInterval]

theorem timely_setInterval (seconds : Float) : (session.setInterval seconds).Timely := by
  have clientToServer := (Timing.bounds_of_accepts (inRange .clientToServer)).1
  have serverToClient := (Timing.bounds_of_accepts (inRange .serverToClient)).1
  obtain ⟨leastFinite, least⟩ := Number.smaller_value clientToServer serverToClient
  unfold setInterval
  split_ifs with finite
  · obtain ⟨chosenFinite, chosen⟩ := Number.larger_value finite leastFinite
    exact ⟨chosenFinite, least.ge.trans ((le_max_right _ _).trans chosen.ge)⟩
  · exact ⟨leastFinite, least.ge⟩

end

theorem Timely.of_eq
    {first second : Session}
    (timely : first.Timely)
    (interval : second.interval = first.interval)
    (durations : ∀ direction, second.duration direction = first.duration direction) :
    second.Timely := by
  constructor
  · rw [interval]
    exact timely.finite
  · rw [interval, durations, durations]
    exact timely.least

/-- After an operation that moves a duration, the interval is the one that follows from the
durations. -/
theorem interval_apply_of_setsDuration
    {session : Session}
    (finite : session.interval.isFinite = true)
    {operation : Operation}
    (inRange : (session.apply operation).DurationsInRange)
    (sets : operation.SetsDuration) :
    session.apply operation = session ∨
      (session.apply operation).interval = (session.apply operation).defaultInterval := by
  rcases session.apply_of_setsDuration sets with refused | ⟨moved, kept, set⟩
  · exact .inl refused
  · right
    have movedInRange : moved.DurationsInRange := by
      intro direction
      rw [← duration_refreshInterval, ← set]
      exact inRange direction
    rw [set, interval_refreshInterval movedInRange (kept ▸ finite),
      defaultInterval_refreshInterval]

/-- Every operation keeps the interval from falling below the shorter duration. -/
theorem Timely.apply
    {session : Session}
    (timely : session.Timely)
    (idle : session.linkage.Idle)
    (inRange : session.DurationsInRange)
    {operation : Operation}
    (laterInRange : (session.apply operation).DurationsInRange) :
    (session.apply operation).Timely := by
  by_cases sets : operation.SetsDuration
  -- The durations may have grown past the old interval, which is then replaced.
  · rcases interval_apply_of_setsDuration timely.finite laterInRange sets with refused | set
    · rwa [refused]
    · exact timely_of_interval_eq laterInRange set
  · rcases session.interval_apply sets with kept | refreshed | ⟨seconds, chosen⟩
    · exact timely.of_eq kept (duration_apply idle sets)
    · rw [refreshed]
      exact timely_refreshInterval inRange timely.finite
    · rw [chosen]
      exact timely_setInterval inRange seconds

theorem run_concat (session : Session) (operations : List Operation) (last : Operation) :
    session.run (operations ++ [last]) = (session.run operations).apply last := by
  rw [run, List.foldl_append]
  rfl

theorem timely_run
    (additionalOptions : String)
    (now : Int)
    (operations : List Operation) :
    ((start additionalOptions now).run operations).Timely := by
  induction operations using List.reverseRecOn with
  | nil =>
      apply timely_refreshInterval
      · intro direction
        cases direction <;> exact Panel.inRange_initial .seconds
      · exact isFinite_ofNat (n := 0) (by norm_num)
  | append_singleton operations last inductionHypothesis =>
      have later := durationsInRange_run additionalOptions now (operations ++ [last])
      rw [run_concat] at later ⊢
      exact inductionHypothesis.apply (idle_run additionalOptions now operations)
        (durationsInRange_run additionalOptions now operations) later

/-- After any operations the interval is a number that is not below the shorter test duration.
An operation that moves either duration leaves it at a second more than the longer one, as
one sum, and for whole durations exactly. -/
theorem interval_of_run
    (additionalOptions : String)
    (now : Int)
    (operations : List Operation) :
    let before := (start additionalOptions now).run operations
    (before.interval.isFinite = true ∧
      min (value (before.duration .clientToServer)) (value (before.duration .serverToClient)) ≤
        value before.interval) ∧
      ∀ operation,
        let after := before.apply operation
        let longer := max (value (after.duration .clientToServer))
          (value (after.duration .serverToClient))
        (∃ direction, after.duration direction ≠ before.duration direction) →
          after.interval =
              Number.larger (after.duration .clientToServer) (after.duration .serverToClient) +
                1 ∧
            ((∀ direction, ∃ n : ℕ, value (after.duration direction) = n) →
              value after.interval = longer + 1) := by
  intro before
  have timely : before.Timely := timely_run additionalOptions now operations
  refine ⟨⟨timely.finite, timely.least⟩, ?_⟩
  rintro operation after longer ⟨direction, moved⟩
  have idle : before.linkage.Idle := idle_run additionalOptions now operations
  have inRange : after.DurationsInRange := by
    have later := durationsInRange_run additionalOptions now (operations ++ [operation])
    rwa [run_concat] at later
  have sets : operation.SetsDuration := by
    by_contra other
    exact moved (duration_apply idle other direction)
  rcases interval_apply_of_setsDuration timely.finite inRange sets with refused | set
  · exact absurd (congrArg (·.duration direction) refused) moved
  · refine ⟨set.trans (Timing.defaultInterval_eq _ _), fun whole => ?_⟩
    obtain ⟨n, clientToServer⟩ := whole .clientToServer
    obtain ⟨m, serverToClient⟩ := whole .serverToClient
    rw [set]
    exact Timing.value_defaultInterval_of_whole (inRange _) (inRange _) clientToServer
      serverToClient

/-- A longer duration replaces a long interval that was chosen. -/
theorem interval_after_longerTest :
    let before := (start "" 0).run [.setInterval 60]
    let after := before.apply (.changeDial .serverToClient .seconds 6 0)
    (∃ direction, after.duration direction ≠ before.duration direction) ∧
      (∀ direction, ∃ n : ℕ, value (after.duration direction) = n) ∧
      before.interval = 60 ∧
      after.interval = 7 ∧
      value after.interval = max (value (after.duration .clientToServer))
        (value (after.duration .serverToClient)) + 1 := by
  intro before after
  have moved : after.duration .serverToClient ≠ before.duration .serverToClient := by
    decide +kernel
  have toServer : after.duration .clientToServer = Float.ofNat 3 := by decide +kernel
  have toClient : after.duration .serverToClient = Float.ofNat 6 := by decide +kernel
  have whole : ∀ direction, ∃ n : ℕ, value (after.duration direction) = n := by
    intro direction
    cases direction with
    | clientToServer => exact ⟨3, toServer ▸ value_ofNat (by norm_num)⟩
    | serverToClient => exact ⟨6, toClient ▸ value_ofNat (by norm_num)⟩
  obtain ⟨set, sum⟩ := (interval_of_run "" 0 [.setInterval 60]).2
    (.changeDial .serverToClient .seconds 6 0) ⟨_, moved⟩
  exact ⟨⟨_, moved⟩, whole, by decide +kernel, set.trans (by decide +kernel), sum whole⟩

end Session
end NetworkConsole
