import Mathlib.Data.List.Nodup
import NetworkConsole.Proofs.Console.Operation

/-!
# Commands of a session

Responses arrive in any order, late or more than once. A journal of a session keeps the
commands that were started and which of them were answered. The running command is the
newest one, as long as it is not answered, and only its response is accepted.
-/

namespace NetworkConsole
namespace Session

/-! ## Responses -/

/-- A response that is ignored touches no more than the timing of the next one. -/
theorem finish_of_stale
    {session : Session}
    {ticket : Ticket}
    (stale : session.dispatcher.current? ticket = none)
    (response : String)
    (now time : Int) :
    session.finish ticket response now time =
      ({ session with dispatcher := session.dispatcher.setTiming session.timing },
        .ok .ignored) := by
  have timed : (session.dispatcher.setTiming session.timing).current? ticket = none := stale
  unfold finish
  rw [Dispatcher.finish_of_current?_eq_none timed]

/-- The response to the running command is not ignored and replaces the results pane. -/
theorem finish_of_current
    {session : Session}
    {ticket current : Ticket}
    (found : session.dispatcher.current? ticket = some current)
    (response : String)
    (now time : Int) :
    (session.finish ticket response now time).2 ≠ .ok .ignored ∧
      (session.finish ticket response now time).1.results = response := by
  have timed : (session.dispatcher.setTiming session.timing).current? ticket = some current := found
  have taken := (Dispatcher.finish_of_current?_eq_some timed now).1
  unfold finish record
  dsimp only
  split
  · rename_i stale
    rw [stale] at taken
    exact absurd rfl taken
  · split
    · split
      · exact ⟨nofun, rfl⟩
      · exact ⟨nofun, rfl⟩
    · exact ⟨nofun, rfl⟩
    · exact ⟨nofun, rfl⟩

theorem finish_ne_ignored_iff
    (session : Session)
    (ticket : Ticket)
    (response : String)
    (now time : Int) :
    (session.finish ticket response now time).2 ≠ .ok .ignored ↔
      ∃ current, session.dispatcher.current? ticket = some current := by
  constructor
  · intro accepted
    cases found : session.dispatcher.current? ticket with
    | none => exact absurd (congrArg Prod.snd (finish_of_stale found response now time)) accepted
    | some current => exact ⟨current, rfl⟩
  · rintro ⟨current, found⟩
    exact (finish_of_current found response now time).1

/-- Every operation keeps the controls, the tabs and the running command in step. -/
theorem governed_apply
    {session : Session}
    (governed : session.dispatcher.Governed)
    (operation : Operation) :
    (session.apply operation).dispatcher.Governed := by
  rw [dispatcher_apply]
  cases operation with
  | setContinuous on => exact governed.setContinuous on
  | stop => exact governed.setContinuous false
  | switchTab app now => exact governed.switchTab app
  | begin now => exact governed.begin now
  | finish ticket response now time => exact (governed.setTiming session.timing).finish ticket now
  | _ => exact governed

/-! ## What a journal notes -/

/-- The tickets of the commands that an operation starts. -/
def issuedBy (session : Session) : Operation → List Ticket
  | .begin now => [(session.begin now).2]
  | _ => []

/-- The numbers of the responses that an operation brings in, if they are accepted. -/
def answeredBy (session : Session) : Operation → List Nat
  | .finish ticket response now time =>
      match (session.finish ticket response now time).2 with
      | .ok .ignored => []
      | _ => [ticket.number]
  | _ => []

theorem answeredBy_finish_of_stale
    {session : Session}
    {ticket : Ticket}
    (stale : session.dispatcher.current? ticket = none)
    (response : String)
    (now time : Int) :
    session.answeredBy (.finish ticket response now time) = [] := by
  rw [answeredBy, finish_of_stale stale]

theorem answeredBy_finish_of_current
    {session : Session}
    {ticket current : Ticket}
    (found : session.dispatcher.current? ticket = some current)
    (response : String)
    (now time : Int) :
    session.answeredBy (.finish ticket response now time) = [ticket.number] := by
  dsimp only [answeredBy]
  split
  · rename_i ignored
    exact absurd ignored (finish_of_current found response now time).1
  · rfl

end Session

/-- A session, the tickets of the commands that were started and the numbers of those that
were answered, both from the oldest to the newest. -/
structure Journal where
  session : Session
  issued : List Ticket
  answered : List Nat

namespace Journal

/-- The journal of a session before the first operation. -/
def start (additionalOptions : String) (now : Int) : Journal where
  session := .start additionalOptions now
  issued := []
  answered := []

/-- Carry out an operation and note its commands and responses. -/
def apply (journal : Journal) (operation : Session.Operation) : Journal where
  session := journal.session.apply operation
  issued := journal.issued ++ journal.session.issuedBy operation
  answered := journal.answered ++ journal.session.answeredBy operation

/-- Carry out operations one after another. -/
def run (journal : Journal) (operations : List Session.Operation) : Journal :=
  operations.foldl apply journal

/-- A journal notes what happens to the session and does not change it. -/
theorem session_run (journal : Journal) (operations : List Session.Operation) :
    (journal.run operations).session = journal.session.run operations := by
  induction operations generalizing journal with
  | nil => rfl
  | cons operation later inductionHypothesis => exact inductionHypothesis (journal.apply operation)

/-- Commands are numbered from one on, each is answered at most once, and the running
command is the newest one unless it was answered. -/
structure Valid (journal : Journal) : Prop where
  governed : journal.session.dispatcher.Governed
  numbers : journal.issued.map (·.number) =
    List.range' 1 journal.session.dispatcher.lastNumber
  bounded : ∀ number ∈ journal.answered, number ≤ journal.session.dispatcher.lastNumber
  once : journal.answered.Nodup
  running : journal.session.dispatcher.running =
    journal.issued.getLast?.filter (·.number ∉ journal.answered)

theorem valid_start (additionalOptions : String) (now : Int) :
    (start additionalOptions now).Valid := by
  have initial : (start additionalOptions now).session.dispatcher = .initial :=
    Session.dispatcher_start additionalOptions now
  constructor
  · rw [initial]
    exact Dispatcher.governed_initial
  · rw [initial]
    rfl
  · intro number member
    cases member
  · exact List.nodup_nil
  · rw [initial]
    rfl

namespace Valid

variable {journal : Journal}

theorem nodup_numbers (valid : journal.Valid) : (journal.issued.map (·.number)).Nodup := by
  rw [valid.numbers]
  exact List.nodup_range'

/-- The running command is the newest one and not answered. -/
theorem running_eq_some_iff (valid : journal.Valid) (ticket : Ticket) :
    journal.session.dispatcher.running = some ticket ↔
      journal.issued.getLast? = some ticket ∧ ticket.number ∉ journal.answered := by
  rw [valid.running, Option.filter_eq_some_iff, decide_eq_true_iff]

/-- The journal stays valid as long as the running command and the numbering do. -/
theorem of_kept
    (valid : journal.Valid)
    {operation : Session.Operation}
    (noCommand : journal.session.issuedBy operation = [])
    (noAnswer : journal.session.answeredBy operation = [])
    (kept : (journal.session.apply operation).dispatcher.running =
        journal.session.dispatcher.running ∧
      (journal.session.apply operation).dispatcher.lastNumber =
        journal.session.dispatcher.lastNumber) :
    (journal.apply operation).Valid := by
  obtain ⟨sameRunning, sameNumber⟩ := kept
  constructor
  · exact Session.governed_apply valid.governed operation
  · simp only [apply, noCommand, List.append_nil, sameNumber]
    exact valid.numbers
  · simp only [apply, noAnswer, List.append_nil, sameNumber]
    exact valid.bounded
  · simp only [apply, noAnswer, List.append_nil]
    exact valid.once
  · simp only [apply, noCommand, noAnswer, List.append_nil, sameRunning]
    exact valid.running

/-- A command gets a new number and is the running one. -/
theorem begin (valid : journal.Valid) (now : Int) : (journal.apply (.begin now)).Valid := by
  constructor
  · exact Session.governed_apply valid.governed (.begin now)
  · change (journal.issued ++ [(journal.session.begin now).2]).map (·.number) =
      List.range' 1 (journal.session.dispatcher.lastNumber + 1)
    rw [List.map_append, valid.numbers, List.range'_1_concat, Nat.add_comm 1]
    rfl
  · simp only [apply, Session.answeredBy, List.append_nil]
    intro number member
    exact Nat.le_succ_of_le (valid.bounded number member)
  · simp only [apply, Session.answeredBy, List.append_nil]
    exact valid.once
  · have fresh : (journal.session.begin now).2.number ∉ journal.answered := by
      intro member
      exact absurd (valid.bounded _ member) (Nat.not_succ_le_self _)
    simp only [apply, Session.answeredBy, Session.issuedBy, List.append_nil, List.getLast?_concat]
    rw [Option.filter_some, if_pos (decide_eq_true fresh)]
    rfl

/-- The response to the running command is the first one to it. -/
theorem finish_of_current
    (valid : journal.Valid)
    {ticket current : Ticket}
    (found : journal.session.dispatcher.current? ticket = some current)
    (response : String)
    (now time : Int) :
    (journal.apply (.finish ticket response now time)).Valid := by
  obtain ⟨running, same⟩ := (Dispatcher.current?_eq_some_iff _ _ _).mp found
  obtain ⟨newest, unanswered⟩ := (valid.running_eq_some_iff current).mp running
  have answer := Session.answeredBy_finish_of_current found response now time
  have timed : (journal.session.dispatcher.setTiming journal.session.timing).current? ticket =
      some current := found
  have dispatcher : (journal.session.apply (.finish ticket response now time)).dispatcher =
      ((journal.session.dispatcher.setTiming journal.session.timing).finish ticket now).1 :=
    journal.session.dispatcher_apply _
  obtain ⟨-, idle, sameNumber⟩ := Dispatcher.finish_of_current?_eq_some timed now
  rw [← dispatcher] at idle sameNumber
  constructor
  · exact Session.governed_apply valid.governed _
  · simp only [apply, Session.issuedBy, List.append_nil, sameNumber]
    exact valid.numbers
  · simp only [apply, answer, sameNumber]
    intro number member
    rcases List.mem_append.mp member with earlier | new
    · exact valid.bounded number earlier
    · rw [List.mem_singleton.mp new, ← same, (valid.governed.running current running).2]
      exact Nat.le_refl _
  · simp only [apply, answer]
    rw [← same, ← List.concat_eq_append]
    exact valid.once.concat unanswered
  · simp only [apply, Session.issuedBy, answer, List.append_nil, idle, newest]
    rw [Option.filter_some, if_neg]
    simp [same]

theorem apply (valid : journal.Valid) (operation : Session.Operation) :
    (journal.apply operation).Valid := by
  have dispatcher := journal.session.dispatcher_apply operation
  cases operation with
  | setContinuous on =>
      refine valid.of_kept rfl rfl ?_
      rw [dispatcher]
      exact Dispatcher.running_setContinuous _ on
  | stop =>
      refine valid.of_kept rfl rfl ?_
      rw [dispatcher]
      exact Dispatcher.running_setContinuous _ false
  | switchTab app now =>
      refine valid.of_kept rfl rfl ?_
      rw [dispatcher]
      exact Dispatcher.running_switchTab _ app
  | begin now => exact valid.begin now
  | finish ticket response now time =>
      cases found : journal.session.dispatcher.current? ticket with
      | none =>
          have noAnswer := Session.answeredBy_finish_of_stale found response now time
          refine valid.of_kept rfl noAnswer ?_
          rw [Session.apply, Session.finish_of_stale found]
          exact ⟨rfl, rfl⟩
      | some current => exact valid.finish_of_current found response now time
  | _ =>
      refine valid.of_kept rfl rfl ?_
      rw [dispatcher]
      exact ⟨rfl, rfl⟩

theorem run (valid : journal.Valid) (operations : List Session.Operation) :
    (journal.run operations).Valid := by
  induction operations generalizing journal with
  | nil => exact valid
  | cons operation later inductionHypothesis => exact inductionHypothesis (valid.apply operation)

/-- Of the commands that were started, only the newest can still be answered, and once. -/
theorem finish_ne_ignored_iff
    (valid : journal.Valid)
    {ticket : Ticket}
    (started : ticket ∈ journal.issued)
    (response : String)
    (now time : Int) :
    (journal.session.finish ticket response now time).2 ≠ .ok .ignored ↔
      journal.issued.getLast? = some ticket ∧ ticket.number ∉ journal.answered := by
  rw [Session.finish_ne_ignored_iff]
  constructor
  · rintro ⟨current, found⟩
    obtain ⟨running, same⟩ := (Dispatcher.current?_eq_some_iff _ _ _).mp found
    have unanswered := (valid.running_eq_some_iff current).mp running
    have member := List.mem_of_getLast? unanswered.1
    rwa [List.inj_on_of_nodup_map valid.nodup_numbers member started same] at unanswered
  · intro unanswered
    have running := (valid.running_eq_some_iff ticket).mpr unanswered
    exact ⟨ticket, (Dispatcher.current?_eq_some_iff _ _ _).mpr ⟨running, rfl⟩⟩

end Valid

/-! ## Commands of a run -/

/-- After any operations, whichever tickets their responses carried, all commands have
different numbers and none was answered twice. The response to a command that was started
is accepted exactly if it is the newest one and not answered yet. An ignored response
leaves all that the console shows, and an accepted one is shown as the results. -/
theorem accepts_newest_of_run
    (additionalOptions : String)
    (start : Int)
    (operations : List Session.Operation) :
    let journal := (Journal.start additionalOptions start).run operations
    let session := (Session.start additionalOptions start).run operations
    journal.session = session ∧
      (journal.issued.map (·.number)).Nodup ∧
      journal.answered.Nodup ∧
      (∀ ticket ∈ journal.issued, ∀ response now time,
        (session.finish ticket response now time).2 ≠ .ok .ignored ↔
          journal.issued.getLast? = some ticket ∧ ticket.number ∉ journal.answered) ∧
      ∀ ticket response now time,
        session.finish ticket response now time =
            ({ session with dispatcher := session.dispatcher.setTiming session.timing },
              .ok .ignored) ∨
          (session.finish ticket response now time).2 ≠ .ok .ignored ∧
            (session.finish ticket response now time).1.results = response := by
  intro journal session
  have valid : journal.Valid := (valid_start additionalOptions start).run operations
  have same : journal.session = session := session_run _ operations
  refine ⟨same, valid.nodup_numbers, valid.once, ?_, ?_⟩
  · intro ticket started response now time
    rw [← same]
    exact valid.finish_ne_ignored_iff started response now time
  · intro ticket response now time
    cases found : session.dispatcher.current? ticket with
    | none => exact .inl (Session.finish_of_stale found response now time)
    | some current => exact .inr (Session.finish_of_current found response now time)

/-- After any operations the controls are enabled exactly if no command is running and
testing is not continuous. All tabs are enabled with the controls, and only the active one
otherwise. The running command is the newest one and belongs to the active tab, which is
the bandwidth tab during continuous testing. -/
theorem governed_of_run
    (additionalOptions : String)
    (start : Int)
    (operations : List Session.Operation) :
    let journal := (Journal.start additionalOptions start).run operations
    let dispatcher := ((Session.start additionalOptions start).run operations).dispatcher
    (dispatcher.controlsEnabled = true ↔
        dispatcher.running = none ∧ dispatcher.continuous = false) ∧
      (∀ app, dispatcher.tabs.isEnabled app = true ↔
        dispatcher.controlsEnabled = true ∨ app = dispatcher.activeApp) ∧
      (∀ ticket, dispatcher.running = some ticket →
        ticket.app = dispatcher.activeApp ∧
          ticket.number = dispatcher.lastNumber ∧
          journal.issued.getLast? = some ticket) ∧
      (dispatcher.continuous = true → dispatcher.activeApp = .bandwidth) := by
  intro journal dispatcher
  have valid : journal.Valid := (valid_start additionalOptions start).run operations
  have same : journal.session.dispatcher = dispatcher :=
    congrArg (·.dispatcher) (session_run _ operations)
  have governed : dispatcher.Governed := same ▸ valid.governed
  refine ⟨governed.controls, governed.isEnabled_iff, ?_, governed.continuous⟩
  intro ticket running
  obtain ⟨app, number⟩ := governed.running ticket running
  rw [← same] at running
  exact ⟨app, number, ((valid.running_eq_some_iff ticket).mp running).1⟩

end Journal
end NetworkConsole
