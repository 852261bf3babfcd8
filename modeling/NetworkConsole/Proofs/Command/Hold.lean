import NetworkConsole.Proofs.Command.Control

/-!
# Holds of commands and of continuous testing

A command holds the controls and all tabs but its own, and continuous testing holds them
at the bandwidth tab. A dispatcher keeps both holds as long as they do not meet: no
command of another application may begin during continuous testing, and continuous
testing may not be turned on during one. Where they meet, one hold displaces the other,
and the response to the command releases what continuous testing still claims to hold.
-/

namespace NetworkConsole
namespace Dispatcher

/-! ## Operations -/

/-- What can be asked of a dispatcher. -/
inductive Operation
  | begin (app : App) (now : Int)
  | finish (ticket : Ticket) (now : Int)
  | setContinuous (on : Bool)
  | switchTab (app : App)
  | stop
  | setTiming (timing : Timing)

/-- Carry out an operation. -/
def apply (dispatcher : Dispatcher) : Operation → Dispatcher
  | .begin app now => (dispatcher.begin app now).1
  | .finish ticket now => (dispatcher.finish ticket now).1
  | .setContinuous on => (dispatcher.setContinuous on).1
  | .switchTab app => (dispatcher.switchTab app).1
  | .stop => dispatcher.stop
  | .setTiming timing => dispatcher.setTiming timing

/-- Carry out operations one after another. -/
def run (dispatcher : Dispatcher) (operations : List Operation) : Dispatcher :=
  operations.foldl apply dispatcher

/-! ## Holds -/

/-- The controls cannot be used, and of the tabs only one. -/
def HeldAt (dispatcher : Dispatcher) (app : App) : Prop :=
  dispatcher.controlsEnabled = false ∧
    ∀ other, dispatcher.tabs.isEnabled other = true ↔ other = app

/-- A running command holds its own tab and continuous testing the bandwidth tab. -/
structure Holding (dispatcher : Dispatcher) : Prop where
  command : ∀ ticket, dispatcher.running = some ticket → dispatcher.HeldAt ticket.app
  continuous : dispatcher.continuous = true → dispatcher.HeldAt .bandwidth

theorem heldAt_hold (dispatcher : Dispatcher) (app : App) : (dispatcher.hold app).HeldAt app := by
  refine ⟨rfl, fun other => ?_⟩
  rw [hold, Tabs.isEnabled_hold, decide_eq_true_iff, eq_comm]

/-- Only the controls matter and which tabs can be used. -/
theorem HeldAt.of_eq
    {dispatcher other : Dispatcher}
    {app : App}
    (held : dispatcher.HeldAt app)
    (controls : other.controlsEnabled = dispatcher.controlsEnabled)
    (tabs : ∀ app, other.tabs.isEnabled app = dispatcher.tabs.isEnabled app) :
    other.HeldAt app := by
  refine ⟨controls.trans held.1, fun app => ?_⟩
  rw [tabs]
  exact held.2 app

/-- The tabs are held at one tab only. -/
theorem HeldAt.unique
    {dispatcher : Dispatcher}
    {app other : App}
    (held : dispatcher.HeldAt app)
    (otherHeld : dispatcher.HeldAt other) :
    app = other := (otherHeld.2 app).mp ((held.2 app).mpr rfl)

theorem holding_initial : Holding initial := by
  constructor
  · intro ticket running
    cases running
  · intro continuous
    cases continuous

namespace Holding

variable {dispatcher : Dispatcher}

/-- While both holds are kept, the command that runs during continuous testing is a
bandwidth test. -/
theorem app_eq_bandwidth
    (holding : Holding dispatcher)
    {ticket : Ticket}
    (running : dispatcher.running = some ticket)
    (continuous : dispatcher.continuous = true) :
    ticket.app = .bandwidth :=
  (holding.command ticket running).unique (holding.continuous continuous)

/-- Between commands outside continuous testing nothing is held. -/
theorem of_idle
    (notRunning : dispatcher.running = none)
    (single : dispatcher.continuous = false) :
    Holding dispatcher := by
  constructor
  · intro ticket running
    cases notRunning.symm.trans running
  · intro continuous
    cases single.symm.trans continuous

/-- Nothing that the holds speak of has changed, but for the tab that is shown. -/
theorem of_eq
    {other : Dispatcher}
    (holding : Holding dispatcher)
    (running : other.running = dispatcher.running)
    (continuous : other.continuous = dispatcher.continuous)
    (controls : other.controlsEnabled = dispatcher.controlsEnabled)
    (tabs : ∀ app, other.tabs.isEnabled app = dispatcher.tabs.isEnabled app) :
    Holding other := by
  constructor
  · intro ticket otherRunning
    exact (holding.command ticket (running.symm.trans otherRunning)).of_eq controls tabs
  · intro otherContinuous
    exact (holding.continuous (continuous.symm.trans otherContinuous)).of_eq controls tabs

theorem begin
    {app : App}
    (allowed : dispatcher.continuous = true → app = .bandwidth)
    (now : Int) :
    Holding (dispatcher.begin app now).1 := by
  have held : (dispatcher.begin app now).1.HeldAt app :=
    (dispatcher.heldAt_hold app).of_eq rfl fun _ => rfl
  constructor
  · intro ticket running
    cases running
    exact held
  · intro continuous
    obtain rfl := allowed continuous
    exact held

/-- The response to a command leaves the hold of continuous testing, if both were kept. -/
theorem finish (holding : Holding dispatcher) (ticket : Ticket) (now : Int) :
    Holding (dispatcher.finish ticket now).1 := by
  cases found : dispatcher.current? ticket with
  | none =>
      rw [finish_of_current?_eq_none found]
      exact holding
  | some current =>
      obtain ⟨running, -⟩ := (dispatcher.current?_eq_some_iff ticket current).mp found
      have idle := (finish_of_current?_eq_some found now).2.1
      constructor
      · intro other otherRunning
        cases idle.symm.trans otherRunning
      · unfold Dispatcher.finish
        rw [found]
        dsimp only
        split_ifs with scheduled
        · intro continuous
          exact (holding.continuous continuous).of_eq rfl fun _ => rfl
        · intro continuous
          have on : dispatcher.continuous = true := continuous
          exact absurd (by simp [on, holding.app_eq_bandwidth running on]) scheduled

theorem setContinuous
    (holding : Holding dispatcher)
    {on : Bool}
    (allowed : on = true → dispatcher.activeApp = .bandwidth →
      ∀ ticket, dispatcher.running = some ticket → ticket.app = .bandwidth) :
    Holding (dispatcher.setContinuous on).1 := by
  unfold Dispatcher.setContinuous
  dsimp only
  split_ifs with refused turnedOn running
  · exact holding
  · have active : dispatcher.activeApp = .bandwidth := by simpa [turnedOn] using refused
    have held := heldAt_hold { dispatcher with continuous := on } .bandwidth
    constructor
    · intro ticket runningTicket
      rwa [allowed turnedOn active ticket runningTicket]
    · exact fun _ => held
  · constructor
    · intro ticket runningTicket
      exact (holding.command ticket runningTicket).of_eq rfl fun _ => rfl
    · intro continuous
      exact absurd continuous turnedOn
  · exact of_idle (Option.not_isSome_iff_eq_none.mp running) (Bool.not_eq_true _ ▸ turnedOn)

theorem switchTab (holding : Holding dispatcher) (app : App) :
    Holding (dispatcher.switchTab app).1 := by
  unfold Dispatcher.switchTab
  split_ifs with leaving
  · have notRunning : dispatcher.running = none := by
      rw [Bool.and_eq_true, Bool.not_eq_true', isRunning, Option.isSome_eq_false_iff] at leaving
      exact Option.isNone_iff_eq_none.mp leaving.2
    exact of_idle notRunning rfl
  · unfold Tabs.activate
    split_ifs
    · exact holding.of_eq rfl rfl rfl fun _ => rfl
    · exact holding

end Holding

/-! ## Where the holds meet -/

/-- An operation makes the two holds meet if it begins a command of another application
during continuous testing, or turns on continuous testing during such a command. -/
def Operation.Entangles (dispatcher : Dispatcher) : Operation → Prop
  | .begin app _ => dispatcher.continuous = true ∧ app ≠ .bandwidth
  | .setContinuous on =>
      on = true ∧ dispatcher.activeApp = .bandwidth ∧
        ∃ ticket, dispatcher.running = some ticket ∧ ticket.app ≠ .bandwidth
  | _ => False

/-- No operation of a run makes the holds meet. -/
def Untangled (dispatcher : Dispatcher) : List Operation → Prop
  | [] => True
  | operation :: later =>
      ¬ operation.Entangles dispatcher ∧ (dispatcher.apply operation).Untangled later

/-- An operation keeps both holds exactly if it does not make them meet. -/
theorem Holding.apply_iff
    {dispatcher : Dispatcher}
    (holding : Holding dispatcher)
    (operation : Operation) :
    Holding (dispatcher.apply operation) ↔ ¬ operation.Entangles dispatcher := by
  cases operation with
  | begin app now =>
      constructor
      · rintro later ⟨continuous, other⟩
        exact other (later.app_eq_bandwidth rfl continuous)
      · intro apart
        apply Holding.begin
        intro continuous
        by_contra other
        exact apart ⟨continuous, other⟩
  | setContinuous on =>
      constructor
      · rintro later ⟨rfl, active, ticket, running, other⟩
        have turnedOn : dispatcher.apply (.setContinuous true) =
            { dispatcher with continuous := true }.hold .bandwidth := by
          simp [apply, Dispatcher.setContinuous, active]
        rw [turnedOn] at later
        exact other (later.app_eq_bandwidth running rfl)
      · intro apart
        apply holding.setContinuous
        intro turnedOn active ticket running
        by_contra other
        exact apart ⟨turnedOn, active, ticket, running, other⟩
  | finish ticket now => exact ⟨fun _ => id, fun _ => holding.finish ticket now⟩
  | switchTab app => exact ⟨fun _ => id, fun _ => holding.switchTab app⟩
  | stop =>
      have stopped : Holding dispatcher.stop := holding.setContinuous nofun
      exact ⟨fun _ => id, fun _ => stopped⟩
  | setTiming timing => exact ⟨fun _ => id, fun _ => holding.of_eq rfl rfl rfl fun _ => rfl⟩

/-- Both holds are kept throughout a run exactly if no operation makes them meet. -/
theorem Holding.run_iff
    {dispatcher : Dispatcher}
    (holding : Holding dispatcher)
    (operations : List Operation) :
    (∀ earlier, earlier <+: operations → Holding (dispatcher.run earlier)) ↔
      dispatcher.Untangled operations := by
  induction operations generalizing dispatcher with
  | nil =>
      refine ⟨fun _ => trivial, ?_⟩
      rintro - earlier started
      rwa [List.prefix_nil.mp started]
  | cons operation later inductionHypothesis =>
      constructor
      · intro kept
        have next : Holding (dispatcher.apply operation) :=
          kept [operation] (List.prefix_append [operation] later)
        refine ⟨(holding.apply_iff operation).mp next, (inductionHypothesis next).mp ?_⟩
        intro earlier started
        exact kept (operation :: earlier) (List.cons_prefix_cons.mpr ⟨rfl, started⟩)
      · rintro ⟨apart, untangled⟩ earlier started
        have next := (holding.apply_iff operation).mpr apart
        rcases List.prefix_cons_iff.mp started with rfl | ⟨rest, rfl, restStarted⟩
        · exact holding
        · exact (inductionHypothesis next).mpr untangled rest restStarted

/-! ## Controls during a command -/

theorem controlsEnabled_setContinuous_of_running
    {dispatcher : Dispatcher}
    (disabled : dispatcher.running.isSome = true → dispatcher.controlsEnabled = false)
    (on : Bool) :
    (dispatcher.setContinuous on).1.running.isSome = true →
      (dispatcher.setContinuous on).1.controlsEnabled = false := by
  unfold setContinuous
  dsimp only
  split_ifs with refused turnedOn running
  · exact disabled
  · exact fun _ => rfl
  · exact disabled
  · exact fun started => absurd started running

/-- No operation lets the controls be used while a command runs. -/
theorem controlsEnabled_apply_of_running
    {dispatcher : Dispatcher}
    (disabled : dispatcher.running.isSome = true → dispatcher.controlsEnabled = false)
    (operation : Operation) :
    (dispatcher.apply operation).running.isSome = true →
      (dispatcher.apply operation).controlsEnabled = false := by
  cases operation with
  | begin app now => exact fun _ => rfl
  | finish ticket now =>
      dsimp only [apply]
      cases found : dispatcher.current? ticket with
      | none =>
          rw [finish_of_current?_eq_none found]
          exact disabled
      | some current =>
          rw [(finish_of_current?_eq_some found now).2.1]
          exact nofun
  | setContinuous on => exact controlsEnabled_setContinuous_of_running disabled on
  | switchTab app =>
      dsimp only [apply, switchTab]
      split_ifs with leaving
      · rw [Bool.and_eq_true, Bool.not_eq_true'] at leaving
        exact fun started => absurd started (leaving.2 ▸ Bool.false_ne_true)
      · unfold Tabs.activate
        split_ifs
        · exact disabled
        · exact disabled
  | stop => exact controlsEnabled_setContinuous_of_running disabled false
  | setTiming timing => exact disabled

theorem controlsEnabled_run_of_running
    {dispatcher : Dispatcher}
    (disabled : dispatcher.running.isSome = true → dispatcher.controlsEnabled = false)
    (operations : List Operation) :
    (dispatcher.run operations).running.isSome = true →
      (dispatcher.run operations).controlsEnabled = false := by
  induction operations generalizing dispatcher with
  | nil => exact disabled
  | cons operation later inductionHypothesis =>
      exact inductionHypothesis (controlsEnabled_apply_of_running disabled operation)

/-! ## Runs -/

/-- After any operations, whichever tickets the responses carried, the controls cannot be
used while a command runs. A command's own tab and, during continuous testing, the
bandwidth tab are the only ones that can be used throughout a run exactly if no command
of another application begins during continuous testing and continuous testing is not
turned on during one. -/
theorem holding_iff_of_run (operations : List Operation) :
    ((initial.run operations).running.isSome = true →
      (initial.run operations).controlsEnabled = false) ∧
      ((∀ earlier, earlier <+: operations → Holding (initial.run earlier)) ↔
        initial.Untangled operations) := by
  constructor
  · apply controlsEnabled_run_of_running
    intro running
    cases running
  · exact holding_initial.run_iff operations

/-- Continuous testing does not hold the tabs during a camera command, and once that is
answered it holds nothing at all. A camera command loses its tab to continuous testing
that is turned on after it. -/
theorem not_holding_entangled :
    let begun := initial.run [.setContinuous true, .begin .camera 0]
    let answered := begun.run [.finish ⟨1, .camera, 0⟩ 10]
    let displaced := initial.run [.begin .camera 0, .setContinuous true]
    begun.running = some ⟨1, .camera, 0⟩ ∧ begun.continuous = true ∧ ¬ Holding begun ∧
      answered.running = none ∧ answered.continuous = true ∧
      answered.controlsEnabled = true ∧ (∀ app, answered.tabs.isEnabled app = true) ∧
      ¬ Holding answered ∧
      displaced.running = some ⟨1, .camera, 0⟩ ∧ displaced.tabs.isEnabled .camera = false ∧
      ¬ Holding displaced := by
  intro begun answered displaced
  refine ⟨rfl, rfl, ?_, rfl, rfl, rfl, fun _ => rfl, ?_, rfl, rfl, ?_⟩
  · intro holding
    cases holding.app_eq_bandwidth rfl rfl
  · intro holding
    cases (holding.continuous rfl).1
  · intro holding
    cases holding.app_eq_bandwidth rfl rfl

end Dispatcher
end NetworkConsole
