import NetworkConsole.Console.Session
import NetworkConsole.Proofs.Command.Control

/-!
# Operations of a session

A session is reached from its start by a list of operations. Only edits of dials, locks,
loaded panels and resets touch the linkage of the dials, and only commands, responses,
tabs and continuous testing touch the dispatcher.
-/

namespace NetworkConsole
namespace Session

/-- What can be asked of a session. The notices and the chosen nodes can be changed by
their own operations, so any of their values may follow. -/
inductive Operation
  | changeDial (direction : Direction) (dial : Dial) (value : Float) (now : Int)
  | setLock (direction : Direction) (lock : Lock)
  | loadPanel (direction : Direction) (panel : Panel)
  | refreshInterval
  | setInterval (seconds : Float)
  | setContinuous (on : Bool)
  | stop
  | switchTab (app : App) (now : Int)
  | setFocus (focused : Bool)
  | tick (now : Int)
  | begin (now : Int)
  | addDot
  | finish (ticket : Ticket) (response : String) (now time : Int)
  | setImage (image : CameraImage)
  | reset
  | arrangeNotices (notices : NoticeBoard)
  | arrangeNodes (selection : Selection)

/-- Carry out an operation. A refused panel changes nothing. -/
def apply (session : Session) : Operation → Session
  | .changeDial direction dial value now => (session.changeDial direction dial value now).1
  | .setLock direction lock => session.setLock direction lock
  | .loadPanel direction panel =>
      match session.loadPanel direction panel with
      | .ok loaded => loaded
      | .error _ => session
  | .refreshInterval => session.refreshInterval
  | .setInterval seconds => session.setInterval seconds
  | .setContinuous on => (session.setContinuous on).1
  | .stop => session.stop
  | .switchTab app now => (session.switchTab app now).1
  | .setFocus focused => session.setFocus focused
  | .tick now => session.tick now
  | .begin now => (session.begin now).1
  | .addDot => session.addDot
  | .finish ticket response now time => (session.finish ticket response now time).1
  | .setImage image => session.setImage image
  | .reset => session.reset
  | .arrangeNotices notices => { session with notices }
  | .arrangeNodes selection => { session with selection }

/-- Carry out operations one after another. -/
def run (session : Session) (operations : List Operation) : Session :=
  operations.foldl apply session

/-- What every operation keeps holds after any of them. -/
theorem run_invariant
    (Invariant : Session → Prop)
    {session : Session}
    {operations : List Operation}
    (initially : Invariant session)
    (kept : ∀ session, ∀ operation ∈ operations,
      Invariant session → Invariant (session.apply operation)) :
    Invariant (session.run operations) := by
  induction operations generalizing session with
  | nil => exact initially
  | cons operation later inductionHypothesis =>
      apply inductionHypothesis (kept session operation List.mem_cons_self initially)
      intro session other member
      exact kept session other (List.mem_cons_of_mem _ member)

/-! ## What operations touch -/

theorem refreshInterval_frame (session : Session) :
    ∃ interval, session.refreshInterval = { session with interval } := by
  unfold refreshInterval
  split
  · exact ⟨_, rfl⟩
  · exact ⟨session.interval, rfl⟩

theorem post_foldl_frame (notices : List RangeNotice) (session : Session) (now : Int) :
    ∃ shown, notices.foldl (fun session notice => session.post notice.text now) session =
      { session with notices := shown } := by
  induction notices generalizing session with
  | nil => exact ⟨session.notices, rfl⟩
  | cons notice later inductionHypothesis =>
      exact inductionHypothesis (session.post notice.text now)

theorem selectFirst_frame (session : Session) (role : Role) :
    ∃ selection, session.selectFirst role = { session with selection } := by
  unfold selectFirst
  split
  · exact ⟨_, rfl⟩
  · exact ⟨session.selection, rfl⟩

/-- An edit of a dial leaves the linkage as the settled change does. -/
theorem changeDial_frame
    (session : Session)
    (direction : Direction)
    (dial : Dial)
    (value : Float)
    (now : Int) :
    ∃ notices interval, (session.changeDial direction dial value now).1 =
      { session with
        linkage := (session.linkage.change direction dial value).1.settle.1
        notices
        interval } := by
  unfold changeDial
  dsimp only
  obtain ⟨notices, noticed⟩ := post_foldl_frame
    (((session.linkage.change direction dial value).2 ::
      (session.linkage.change direction dial value).1.settle.2).flatMap (·.notices))
    { session with linkage := (session.linkage.change direction dial value).1.settle.1 } now
  rw [noticed]
  split
  · obtain ⟨interval, refreshed⟩ := refreshInterval_frame { session with
      linkage := (session.linkage.change direction dial value).1.settle.1
      notices }
    exact ⟨notices, interval, refreshed⟩
  · exact ⟨notices, session.interval, rfl⟩

theorem loadPanel_frame (session : Session) (direction : Direction) (panel : Panel) :
    ∃ interval, session.apply (.loadPanel direction panel) =
      { session with
        linkage :=
          match panel.checkRanges with
          | .ok () => session.linkage.load direction panel
          | .error _ => session.linkage
        interval } := by
  simp only [apply, loadPanel]
  cases panel.checkRanges with
  | error error => exact ⟨session.interval, rfl⟩
  | ok => exact refreshInterval_frame _

/-- A refused change of tabs is none to the dispatcher either. -/
theorem switchTab_frame (session : Session) (app : App) (now : Int) :
    ∃ notices, (session.switchTab app now).1 =
      { session with dispatcher := (session.dispatcher.switchTab app).1, notices } := by
  unfold switchTab
  split
  · rename_i locked
    have refused : (session.dispatcher.switchTab app).2 = .locked := by rw [locked]
    rw [Dispatcher.switchTab_of_locked refused]
    exact ⟨session.notices, rfl⟩
  · rename_i switched
    rw [switched]
    exact ⟨session.notices, rfl⟩
  · rename_i switched
    rw [switched]
    exact ⟨_, rfl⟩

theorem finish_frame
    (session : Session)
    (ticket : Ticket)
    (response : String)
    (now time : Int) :
    ∃ results board statistics, (session.finish ticket response now time).1 =
      { session with
        dispatcher := ((session.dispatcher.setTiming session.timing).finish ticket now).1
        results
        board
        statistics } := by
  unfold finish record
  dsimp only
  split
  · rename_i stale
    rw [stale]
    exact ⟨session.results, session.board, session.statistics, rfl⟩
  · rename_i dispatcher next current taken
    rw [taken]
    split
    · split
      · exact ⟨_, _, _, rfl⟩
      · exact ⟨_, _, session.statistics, rfl⟩
    · exact ⟨_, session.board, session.statistics, rfl⟩
    · exact ⟨_, session.board, session.statistics, rfl⟩

theorem reset_frame (session : Session) :
    ∃ selection, session.reset =
      { session with
        linkage := (session.linkage.setLock .clientToServer .size).setLock .serverToClient .size
        results := ""
        image := none
        selection } := by
  unfold reset
  simp only [Direction.all, Role.all, List.foldl_cons, List.foldl_nil]
  obtain ⟨client, first⟩ := selectFirst_frame
    ((setLock { session with results := "", image := none } .clientToServer .size).setLock
      .serverToClient .size) .client
  rw [first]
  exact selectFirst_frame _ .server

/-! ## The linkage and the dispatcher -/

theorem linkage_start (additionalOptions : String) (now : Int) :
    (start additionalOptions now).linkage = .initial := by
  obtain ⟨interval, refreshed⟩ := refreshInterval_frame _
  rw [start, refreshed]

theorem dispatcher_start (additionalOptions : String) (now : Int) :
    (start additionalOptions now).dispatcher = .initial := by
  obtain ⟨interval, refreshed⟩ := refreshInterval_frame _
  rw [start, refreshed]

/-- What each operation does to the linkage. -/
theorem linkage_apply (session : Session) (operation : Operation) :
    (session.apply operation).linkage =
      match operation with
      | .changeDial direction dial value _ =>
          (session.linkage.change direction dial value).1.settle.1
      | .setLock direction lock => session.linkage.setLock direction lock
      | .loadPanel direction panel =>
          match panel.checkRanges with
          | .ok () => session.linkage.load direction panel
          | .error _ => session.linkage
      | .reset => (session.linkage.setLock .clientToServer .size).setLock .serverToClient .size
      | _ => session.linkage := by
  cases operation with
  | changeDial direction dial value now =>
      obtain ⟨notices, interval, changed⟩ := session.changeDial_frame direction dial value now
      rw [apply, changed]
  | loadPanel direction panel =>
      obtain ⟨interval, loaded⟩ := session.loadPanel_frame direction panel
      rw [loaded]
  | refreshInterval =>
      obtain ⟨interval, refreshed⟩ := session.refreshInterval_frame
      rw [apply, refreshed]
  | switchTab app now =>
      obtain ⟨notices, switched⟩ := session.switchTab_frame app now
      rw [apply, switched]
  | finish ticket response now time =>
      obtain ⟨results, board, statistics, finished⟩ :=
        session.finish_frame ticket response now time
      rw [apply, finished]
  | reset =>
      obtain ⟨selection, cleared⟩ := session.reset_frame
      rw [apply, cleared]
  | _ => rfl

/-- What each operation does to the dispatcher. -/
theorem dispatcher_apply (session : Session) (operation : Operation) :
    (session.apply operation).dispatcher =
      match operation with
      | .setContinuous on => (session.dispatcher.setContinuous on).1
      | .stop => session.dispatcher.stop
      | .switchTab app _ => (session.dispatcher.switchTab app).1
      | .begin now => (session.dispatcher.begin session.activeApp now).1
      | .finish ticket _ now _ =>
          ((session.dispatcher.setTiming session.timing).finish ticket now).1
      | _ => session.dispatcher := by
  cases operation with
  | changeDial direction dial value now =>
      obtain ⟨notices, interval, changed⟩ := session.changeDial_frame direction dial value now
      rw [apply, changed]
  | loadPanel direction panel =>
      obtain ⟨interval, loaded⟩ := session.loadPanel_frame direction panel
      rw [loaded]
  | refreshInterval =>
      obtain ⟨interval, refreshed⟩ := session.refreshInterval_frame
      rw [apply, refreshed]
  | switchTab app now =>
      obtain ⟨notices, switched⟩ := session.switchTab_frame app now
      rw [apply, switched]
  | finish ticket response now time =>
      obtain ⟨results, board, statistics, finished⟩ :=
        session.finish_frame ticket response now time
      rw [apply, finished]
  | reset =>
      obtain ⟨selection, cleared⟩ := session.reset_frame
      rw [apply, cleared]
  | _ => rfl

end Session
end NetworkConsole
