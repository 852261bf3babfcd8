import Mathlib.Data.List.Basic
import NetworkConsole.Command.Dispatcher

/-!
# Control of commands and tabs

The controls, the tabs, the running command and continuous testing are kept in step by
every operation of a dispatcher, whichever ticket a response carries.
-/

namespace NetworkConsole
namespace Dispatcher

/-! ## Running commands -/

/-- Only commands and responses change which command is running and which was the last. -/
theorem running_setContinuous (dispatcher : Dispatcher) (on : Bool) :
    (dispatcher.setContinuous on).1.running = dispatcher.running ∧
      (dispatcher.setContinuous on).1.lastNumber = dispatcher.lastNumber := by
  unfold setContinuous
  dsimp only
  split_ifs <;> exact ⟨rfl, rfl⟩

theorem running_switchTab (dispatcher : Dispatcher) (app : App) :
    (dispatcher.switchTab app).1.running = dispatcher.running ∧
      (dispatcher.switchTab app).1.lastNumber = dispatcher.lastNumber := by
  unfold switchTab
  split
  · exact ⟨rfl, rfl⟩
  · split <;> exact ⟨rfl, rfl⟩

/-- A refused change of tabs changes nothing. -/
theorem switchTab_of_locked
    {dispatcher : Dispatcher}
    {app : App}
    (locked : (dispatcher.switchTab app).2 = .locked) :
    (dispatcher.switchTab app).1 = dispatcher := by
  revert locked
  unfold switchTab
  split_ifs
  · intro locked
    cases locked
  · split
    · intro locked
      cases locked
    · exact fun _ => rfl

theorem current?_eq_some_iff
    (dispatcher : Dispatcher)
    (ticket current : Ticket) :
    dispatcher.current? ticket = some current ↔
      dispatcher.running = some current ∧ current.number = ticket.number := by
  simp [current?, Option.filter_eq_some_iff]

/-- The response to a command that is not running is stale. -/
theorem finish_of_current?_eq_none
    {dispatcher : Dispatcher}
    {ticket : Ticket}
    (none : dispatcher.current? ticket = none)
    (now : Int) :
    dispatcher.finish ticket now = (dispatcher, .stale) := by
  unfold finish
  rw [none]

/-- The response to the running command is not stale, after which no command is running. -/
theorem finish_of_current?_eq_some
    {dispatcher : Dispatcher}
    {ticket current : Ticket}
    (some : dispatcher.current? ticket = some current)
    (now : Int) :
    (dispatcher.finish ticket now).2 ≠ .stale ∧
      (dispatcher.finish ticket now).1.running = none ∧
      (dispatcher.finish ticket now).1.lastNumber = dispatcher.lastNumber := by
  unfold finish
  rw [some]
  dsimp only
  split_ifs <;> exact ⟨by simp, rfl, rfl⟩

/-! ## Control -/

/-- The controls are enabled exactly between commands while testing is not continuous, and
otherwise the tabs are held at the active one. A running command is the last one and
belongs to the active tab, and continuous testing belongs to the bandwidth tab. -/
structure Governed (dispatcher : Dispatcher) : Prop where
  controls : dispatcher.controlsEnabled = true ↔
    dispatcher.running = none ∧ dispatcher.continuous = false
  held : dispatcher.tabs.held =
    if dispatcher.controlsEnabled then none else some dispatcher.activeApp
  running : ∀ ticket, dispatcher.running = some ticket →
    ticket.app = dispatcher.activeApp ∧ ticket.number = dispatcher.lastNumber
  continuous : dispatcher.continuous = true → dispatcher.activeApp = .bandwidth

theorem governed_initial : Governed initial := by
  constructor
  · exact ⟨fun _ => ⟨rfl, rfl⟩, fun _ => rfl⟩
  · rfl
  · intro ticket running
    cases running
  · intro continuous
    cases continuous

namespace Governed

variable {dispatcher : Dispatcher}

/-- The tabs that can be switched to are the active one and, with the controls, all. -/
theorem isEnabled_iff (governed : Governed dispatcher) (app : App) :
    dispatcher.tabs.isEnabled app = true ↔
      dispatcher.controlsEnabled = true ∨ app = dispatcher.activeApp := by
  unfold Tabs.isEnabled
  rw [governed.held]
  by_cases enabled : dispatcher.controlsEnabled = true
  · simp [enabled]
  · simp [enabled, eq_comm]

theorem setTiming (governed : Governed dispatcher) (timing : Timing) :
    Governed (dispatcher.setTiming timing) :=
  ⟨governed.controls, governed.held, governed.running, governed.continuous⟩

/-- Between commands outside continuous testing everything is released. -/
theorem of_released
    (enabled : dispatcher.controlsEnabled = true)
    (free : dispatcher.tabs.held = none)
    (notRunning : dispatcher.running = none)
    (single : dispatcher.continuous = false) :
    Governed dispatcher := by
  constructor
  · exact ⟨fun _ => ⟨notRunning, single⟩, fun _ => enabled⟩
  · rw [free, enabled]
    rfl
  · intro ticket running
    cases notRunning.symm.trans running
  · intro continuous
    cases single.symm.trans continuous

/-- While a command runs the controls are not enabled. -/
theorem controlsEnabled_of_running
    (governed : Governed dispatcher)
    {ticket : Ticket}
    (running : dispatcher.running = some ticket) :
    dispatcher.controlsEnabled = false := by
  by_contra enabled
  have idle := (governed.controls.mp (Bool.not_eq_false _ ▸ enabled)).1
  cases idle.symm.trans running

theorem begin (governed : Governed dispatcher) (now : Int) :
    Governed (dispatcher.begin dispatcher.activeApp now).1 := by
  constructor
  · constructor
    · intro enabled
      cases enabled
    · rintro ⟨running, -⟩
      cases running
  · rfl
  · intro ticket running
    cases running
    exact ⟨rfl, rfl⟩
  · exact governed.continuous

theorem finish (governed : Governed dispatcher) (ticket : Ticket) (now : Int) :
    Governed (dispatcher.finish ticket now).1 := by
  unfold Dispatcher.finish
  cases found : dispatcher.current? ticket with
  | none => exact governed
  | some current =>
      obtain ⟨running, -⟩ := (dispatcher.current?_eq_some_iff ticket current).mp found
      dsimp only
      split_ifs with scheduled
      · rw [Bool.and_eq_true] at scheduled
        constructor
        · simp [governed.controlsEnabled_of_running running, scheduled.1]
        · exact governed.held
        · intro other otherRunning
          cases otherRunning
        · exact governed.continuous
      · -- The tab of a running command is active, so continuous testing was off.
        apply of_released rfl rfl rfl
        by_contra continuous
        apply scheduled
        have on : dispatcher.continuous = true := Bool.not_eq_false _ ▸ continuous
        simp [on, (governed.running current running).1, governed.continuous on]

theorem setContinuous (governed : Governed dispatcher) (on : Bool) :
    Governed (dispatcher.setContinuous on).1 := by
  unfold Dispatcher.setContinuous
  dsimp only
  split_ifs with refused turnedOn running
  · exact governed
  · have active : dispatcher.activeApp = .bandwidth := by
      simpa [turnedOn] using refused
    constructor
    · simp [hold, turnedOn]
    · simp only [hold, Tabs.hold, activeApp, Bool.false_eq_true, ↓reduceIte]
      exact congrArg some active.symm
    · intro ticket runningTicket
      exact governed.running ticket runningTicket
    · intro _
      exact active
  · obtain ⟨ticket, runningTicket⟩ := Option.isSome_iff_exists.mp running
    constructor
    · constructor
      · intro enabled
        cases enabled.symm.trans (governed.controlsEnabled_of_running runningTicket)
      · rintro ⟨notRunning, -⟩
        cases notRunning.symm.trans runningTicket
    · exact governed.held
    · exact governed.running
    · intro continuous
      exact absurd continuous turnedOn
  · exact of_released rfl rfl (Option.not_isSome_iff_eq_none.mp running)
      (Bool.not_eq_true _ ▸ turnedOn)

theorem switchTab (governed : Governed dispatcher) (app : App) :
    Governed (dispatcher.switchTab app).1 := by
  unfold Dispatcher.switchTab
  split_ifs with leaving
  · have notRunning : dispatcher.running = none := by
      rw [Bool.and_eq_true, Bool.not_eq_true', isRunning, Option.isSome_eq_false_iff] at leaving
      exact Option.isNone_iff_eq_none.mp leaving.2
    exact of_released rfl rfl notRunning rfl
  · unfold Tabs.activate
    by_cases enabled : dispatcher.tabs.isEnabled app = true
    · rw [if_pos enabled]
      rcases (governed.isEnabled_iff app).mp enabled with free | rfl
      · obtain ⟨notRunning, single⟩ := governed.controls.mp free
        have held := governed.held
        rw [if_pos free] at held
        exact of_released free held notRunning single
      · exact governed
    · rw [if_neg enabled]
      exact governed

end Governed

end Dispatcher
end NetworkConsole
