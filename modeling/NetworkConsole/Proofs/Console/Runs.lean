import NetworkConsole.Proofs.Console.Commands
import NetworkConsole.Proofs.Throughput.Statistics

/-!
# Runs of a session

The response to a bandwidth command is one run of both directions, if it is accepted, and
nothing else is. No response can fail on its way into the statistics, whatever rates it
reports.
-/

namespace NetworkConsole
namespace Session

/-! ## Responses -/

/-- An accepted response to a bandwidth command is taken into the statistics, and no other
response touches them. -/
theorem finish_taken
    (session : Session)
    (ticket : Ticket)
    (response : String)
    (now time : Int) :
    (∃ outcome, (session.finish ticket response now time).2 = .ok outcome) ∧
      ((session.dispatcher.current? ticket).isSome = true → ticket.app = .bandwidth →
        session.statistics.record (.ofOutput response session.linkage) =
          .ok (session.finish ticket response now time).1.statistics) ∧
      ((session.dispatcher.current? ticket).isSome = false ∨ ticket.app ≠ .bandwidth →
        (session.finish ticket response now time).1.statistics = session.statistics) := by
  cases found : session.dispatcher.current? ticket with
  | none =>
      rw [finish_of_stale found]
      exact ⟨⟨_, rfl⟩, nofun, fun _ => rfl⟩
  | some current =>
      have timed : (session.dispatcher.setTiming session.timing).current? ticket = some current :=
        found
      have taken := (Dispatcher.finish_of_current?_eq_some timed now).1
      unfold finish
      dsimp only
      split
      · rename_i stale
        rw [stale] at taken
        exact absurd rfl taken
      · cases ticket.app with
        | bandwidth =>
            obtain ⟨statistics, recorded, -⟩ :=
              session.statistics.exists_record_eq (.ofOutput response session.linkage)
            simp only [record, recorded]
            exact ⟨⟨_, rfl⟩, fun _ _ => trivial, by simp⟩
        | camera => exact ⟨⟨_, rfl⟩, nofun, fun _ => rfl⟩
        | sensor => exact ⟨⟨_, rfl⟩, nofun, fun _ => rfl⟩

/-- Only responses touch the statistics. -/
theorem statistics_apply (session : Session) (operation : Operation) :
    (session.apply operation).statistics =
      match operation with
      | .finish ticket response now time => (session.finish ticket response now time).1.statistics
      | _ => session.statistics := by
  cases operation with
  | changeDial direction dial value now =>
      obtain ⟨notices, interval, changed⟩ := session.changeDial_frame direction dial value now
      rw [apply, changed]
  | loadPanel direction panel =>
      obtain ⟨interval, loaded⟩ := session.loadPanel_frame direction panel
      rw [loaded]
  | refreshInterval =>
      obtain ⟨interval, refreshed⟩ := session.refreshInterval_frame
      rw [apply, refreshed]
  | switchTab app now =>
      obtain ⟨notices, switched⟩ := session.switchTab_frame app now
      rw [apply, switched]
  | reset =>
      obtain ⟨selection, cleared⟩ := session.reset_frame
      rw [apply, cleared]
  | _ => rfl

/-! ## Counting -/

/-- How many runs an operation brings in: one for the accepted response to a bandwidth
command. -/
def runsBy (session : Session) : Operation → Nat
  | .finish ticket response now time =>
      if ticket.app = .bandwidth then
        (session.answeredBy (.finish ticket response now time)).length
      else 0
  | _ => 0

/-- How many responses to bandwidth commands are accepted in the course of operations. -/
def acceptedRuns (session : Session) : List Operation → Nat
  | [] => 0
  | operation :: later => session.runsBy operation + (session.apply operation).acceptedRuns later

/-- Both directions have counted a number of runs, each as failed or as a sample. -/
structure Tallied (session : Session) (runs : Nat) : Prop where
  counted : ∀ direction, (session.statistics.get direction).runs = runs
  balanced : ∀ direction, (session.statistics.get direction).Balanced

theorem tallied_start (additionalOptions : String) (now : Int) :
    (start additionalOptions now).Tallied 0 := by
  obtain ⟨interval, refreshed⟩ := refreshInterval_frame _
  rw [start, refreshed]
  constructor
  · intro direction
    cases direction <;> rfl
  · intro direction
    cases direction <;> rfl

namespace Tallied

variable {session : Session} {runs : Nat}

/-- Only the statistics matter. -/
theorem of_eq
    {other : Session}
    (tallied : session.Tallied runs)
    (same : other.statistics = session.statistics) :
    other.Tallied runs :=
  ⟨fun direction => same ▸ tallied.counted direction,
    fun direction => same ▸ tallied.balanced direction⟩

theorem finish
    (tallied : session.Tallied runs)
    (ticket : Ticket)
    (response : String)
    (now time : Int) :
    (session.finish ticket response now time).1.Tallied
      (runs + session.runsBy (.finish ticket response now time)) := by
  obtain ⟨-, bandwidth, others⟩ := session.finish_taken ticket response now time
  dsimp only [runsBy]
  split_ifs with app
  · cases found : session.dispatcher.current? ticket with
    | none =>
        rw [answeredBy_finish_of_stale found]
        exact tallied.of_eq (others (.inl (by rw [found]; rfl)))
    | some current =>
        rw [answeredBy_finish_of_current found]
        have recorded := bandwidth (by rw [found]; rfl) app
        obtain ⟨later, alsoRecorded, counted⟩ :=
          session.statistics.exists_record_eq (.ofOutput response session.linkage)
        cases recorded.symm.trans alsoRecorded
        constructor
        · intro direction
          rw [counted, tallied.counted]
          rfl
        · exact Statistics.balanced_record tallied.balanced recorded
  · exact tallied.of_eq (others (.inr app))

theorem apply (tallied : session.Tallied runs) (operation : Operation) :
    (session.apply operation).Tallied (runs + session.runsBy operation) := by
  cases operation with
  | finish ticket response now time => exact tallied.finish ticket response now time
  | _ => exact tallied.of_eq (session.statistics_apply _)

theorem run (tallied : session.Tallied runs) (operations : List Operation) :
    (session.run operations).Tallied (runs + session.acceptedRuns operations) := by
  induction operations generalizing session runs with
  | nil => exact tallied
  | cons operation later inductionHypothesis =>
      rw [acceptedRuns, ← Nat.add_assoc]
      exact inductionHypothesis (tallied.apply operation)

end Tallied

/-- After any operations, whichever tickets their responses carried, no response fails: a
rate that is taken into the statistics lies within the bounds of the histogram. In both
directions the runs are as many as the accepted responses to bandwidth commands, and each
has either failed or added one sample. -/
theorem runs_of_run
    (additionalOptions : String)
    (start : Int)
    (operations : List Operation) :
    let session := (Session.start additionalOptions start).run operations
    (∀ ticket response now time,
      ∃ outcome, (session.finish ticket response now time).2 = .ok outcome) ∧
      (∀ metrics rate, RunStatistics.sample? metrics = some rate →
        1 ≤ rate ∧ rate ≤ Histogram.greatest) ∧
      ∀ direction,
        (session.statistics.get direction).runs =
            (Session.start additionalOptions start).acceptedRuns operations ∧
          (session.statistics.get direction).runs =
            (session.statistics.get direction).failed +
              (session.statistics.get direction).count := by
  intro session
  have tallied := (tallied_start additionalOptions start).run operations
  rw [Nat.zero_add] at tallied
  refine ⟨?_, ?_, fun direction => ⟨tallied.counted direction, tallied.balanced direction⟩⟩
  · intro ticket response now time
    exact (session.finish_taken ticket response now time).1
  · intro metrics rate sampled
    exact ⟨RunStatistics.one_le_of_sample? sampled, RunStatistics.le_greatest_of_sample? sampled⟩

end Session
end NetworkConsole
