import NetworkConsole.Command.Dispatcher

/-!
# Answers to commands

The answer to a command that has just begun frees the controls and the tabs, unless the
next continuous run follows.
-/

namespace NetworkConsole
namespace Dispatcher

/-- No command is running or to follow, and the controls and all tabs can be used. -/
structure AtRest (dispatcher : Dispatcher) : Prop where
  running : dispatcher.running = none
  continuous : dispatcher.continuous = false
  controls : dispatcher.controlsEnabled = true
  tabs : ∀ app, dispatcher.tabs.isEnabled app = true

@[simp] theorem activeApp_setContinuous (dispatcher : Dispatcher) (on : Bool) :
    (dispatcher.setContinuous on).1.activeApp = dispatcher.activeApp := by
  unfold setContinuous
  dsimp only
  split
  · rfl
  · split
    · rfl
    · split <;> rfl

@[simp] theorem activeApp_stop (dispatcher : Dispatcher) :
    dispatcher.stop.activeApp = dispatcher.activeApp := dispatcher.activeApp_setContinuous false

/-- Stopping between commands lets a dispatcher rest. -/
theorem atRest_stop {dispatcher : Dispatcher} (idle : dispatcher.running = none) :
    dispatcher.stop.AtRest := by
  have released : dispatcher.stop = { dispatcher with continuous := false }.release := by
    simp [stop, setContinuous, isRunning, idle]
  rw [released]
  exact ⟨idle, rfl, rfl, fun _ => rfl⟩

/-- What a dispatcher becomes once the command that it began for an application is answered. -/
structure Answered (before after : Dispatcher) (app : App) (next : Finish) : Prop where
  running : after.running = none
  continuous : after.continuous = before.continuous
  activeApp : after.activeApp = before.activeApp
  scheduled : before.continuous = true → app = .bandwidth → ∃ delay, next = .scheduleNext delay
  rested : before.continuous = false → next = .released ∧ after.AtRest

/-- The answer to a command that has just begun is not stale. -/
theorem answered_finish_begin
    (dispatcher : Dispatcher)
    (app : App)
    (timing : Timing)
    (began now : Int) :
    let begun := dispatcher.begin app began
    let finished := (begun.1.setTiming timing).finish begun.2 now
    finished.2 ≠ .stale ∧ dispatcher.Answered finished.1 app finished.2 := by
  intro begun finished
  have current : (begun.1.setTiming timing).current? begun.2 = some begun.2 := by
    simp [begun, current?, begin, setTiming]
  have finishedEq : finished =
      if dispatcher.continuous && app = .bandwidth then
        ({ begun.1.setTiming timing with running := none },
          .scheduleNext (timing.delay (elapsed began now)))
      else ({ begun.1.setTiming timing with running := none }.release, .released) := by
    simp only [finished, finish, current]
    rfl
  rw [finishedEq]
  cases repeating : dispatcher.continuous && app = .bandwidth with
  | true =>
      rw [Bool.and_eq_true, decide_eq_true_iff] at repeating
      constructor
      · nofun
      · refine ⟨rfl, rfl, rfl, fun _ _ => ⟨_, rfl⟩, ?_⟩
        intro single
        cases single.symm.trans repeating.1
  | false =>
      rw [Bool.and_eq_false_iff, decide_eq_false_iff_not] at repeating
      constructor
      · nofun
      · refine ⟨rfl, rfl, rfl, ?_, fun single => ⟨rfl, rfl, single, rfl, fun _ => rfl⟩⟩
        intro continuous bandwidth
        rcases repeating with single | other
        · cases single.symm.trans continuous
        · exact absurd bandwidth other

end Dispatcher
end NetworkConsole
