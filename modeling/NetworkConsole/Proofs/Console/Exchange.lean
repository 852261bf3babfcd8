import NetworkConsole.Console.Conversation
import NetworkConsole.Proofs.Command.Answer
import NetworkConsole.Proofs.Console.Form
import NetworkConsole.Proofs.Report.Completeness
import NetworkConsole.Proofs.Throughput.Statistics

/-!
# Exchanges with the backend

A command that is run on a scripted backend makes one request and is at an end once the
reply has arrived, whichever reply it is. A camera command may fetch an image after that.
-/

namespace NetworkConsole

/-! ## Scripts -/

namespace Stage

/-- The result of the reply that is still to come after `index` others. -/
def reply (stage : Stage) (index : Nat) : Except ConsoleError String :=
  (stage.replies.getD index exhausted).result

/-- The image that the reply after `index` others and the one after it make up. -/
def imageReply (stage : Stage) (index : Nat) : Except ConsoleError CameraImage := do
  let text ← stage.reply index
  let html ← stage.reply (index + 1)
  return ⟨text, html⟩

/-- The requests for an image. Its markup is only asked for once its description arrived. -/
def imageRequests (stage : Stage) (index : Nat) : List Request :=
  match stage.reply index with
  | .ok _ => [.imageText, .image]
  | .error _ => [.imageText]

@[simp] theorem requests_ask (stage : Stage) (request : Request) :
    (stage.ask request).1.requests = stage.requests ++ [request] := rfl

@[simp] theorem reply_wait (stage : Stage) (milliseconds index : Nat) :
    (stage.wait milliseconds).reply index = stage.reply index := rfl

@[simp] theorem reply_print (stage : Stage) (text : String) (index : Nat) :
    (stage.print text).reply index = stage.reply index := rfl

@[simp] theorem result_ask (stage : Stage) (request : Request) :
    (stage.ask request).2.result = stage.reply 0 := by
  unfold ask reply
  cases stage.replies <;> rfl

@[simp] theorem reply_ask (stage : Stage) (request : Request) (index : Nat) :
    (stage.ask request).1.reply index = stage.reply (index + 1) := by
  unfold ask reply
  cases stage.replies <;> rfl

@[simp] theorem imageReply_ask (stage : Stage) (request : Request) (index : Nat) :
    (stage.ask request).1.imageReply index = stage.imageReply (index + 1) := by
  simp only [imageReply, reply_ask]

@[simp] theorem imageRequests_ask (stage : Stage) (request : Request) (index : Nat) :
    (stage.ask request).1.imageRequests index = stage.imageRequests (index + 1) := by
  simp only [imageRequests, reply_ask]

theorem imageReply_eq_ok_iff (stage : Stage) (index : Nat) (image : CameraImage) :
    stage.imageReply index = .ok image ↔
      stage.reply index = .ok image.text ∧ stage.reply (index + 1) = .ok image.html := by
  unfold imageReply
  cases stage.reply index with
  | error error => simp [bind, Except.bind]
  | ok text =>
      cases stage.reply (index + 1) with
      | error error => simp [bind, Except.bind]
      | ok html =>
          cases image
          simp [bind, Except.bind, pure, Except.pure]

end Stage

/-- The text that is shown for the result of a command: the response or the wording of the
error. -/
def shownText : Except ConsoleError String → String
  | .ok text => text
  | .error error => error.message

/-- The notices that are put up for the result of a request: the wording of its error. -/
def noticesOf : Except ConsoleError α → List String
  | .ok _ => []
  | .error error => [error.message]

/-! ## Answers -/

namespace Session

/-- What the command of an application leads to, where a text answers it. -/
def outcomeOf (session : Session) (app : App) (text : String) (next : Finish) : Outcome :=
  match app with
  | .bandwidth => .bandwidth (.ofOutput text session.linkage) next
  | .camera => .camera (Text.contains cameraDone.toList text.toList)
  | .sensor => .general

/-- A bandwidth run is always taken into the charts and the statistics. -/
theorem exists_record_eq (session : Session) (report : Report) (next : Finish) (time : Int) :
    ∃ board statistics,
      session.record report next time =
        ({ session with board, statistics }, .ok (.bandwidth report next)) ∧
      ∀ direction,
        (statistics.get direction).runs = (session.statistics.get direction).runs + 1 := by
  obtain ⟨statistics, recorded, counted⟩ := session.statistics.exists_record_eq report
  refine ⟨session.board.record report time, statistics, ?_, counted⟩
  simp only [record, recorded]

/-- A response that is not stale replaces the results pane. -/
theorem exists_finish_eq
    (session : Session)
    {ticket : Ticket}
    {dispatcher : Dispatcher}
    {next : Finish}
    {now : Int}
    (taken : (session.dispatcher.setTiming session.timing).finish ticket now = (dispatcher, next))
    (current : next ≠ .stale)
    (response : String)
    (time : Int) :
    ∃ board statistics,
      session.finish ticket response now time =
        ({ session with dispatcher, results := response, board, statistics },
          .ok (session.outcomeOf ticket.app response next)) ∧
      ∀ direction, ticket.app = .bandwidth →
        (statistics.get direction).runs = (session.statistics.get direction).runs + 1 := by
  unfold finish outcomeOf
  rw [taken]
  split
  · rename_i stale
    cases stale
    exact absurd rfl current
  · rename_i notStale
    cases notStale
    cases ticket.app with
    | bandwidth =>
        obtain ⟨board, statistics, recorded, counted⟩ :=
          { session with dispatcher, results := response }.exists_record_eq
            (.ofOutput response session.linkage) next time
        exact ⟨board, statistics, recorded, fun direction _ => counted direction⟩
    | camera => exact ⟨session.board, session.statistics, rfl, nofun⟩
    | sensor => exact ⟨session.board, session.statistics, rfl, nofun⟩

/-- What a session becomes once a text answers the command that it began. Nothing that its
form is made of changes. -/
structure Answered (before after : Session) (text : String) (next : Finish) : Prop where
  setup : before.SameSetup after
  results : after.results = text
  dispatcher : before.dispatcher.Answered after.dispatcher before.activeApp next
  statistics : ∀ direction, before.activeApp = .bandwidth →
    (after.statistics.get direction).runs = (before.statistics.get direction).runs + 1

/-- The charts and the notices may move on between a command and its answer. -/
theorem exists_finish_begin_eq
    (session : Session)
    (began now time : Int)
    (board : Chart.Board)
    (notices : NoticeBoard)
    (response : String) :
    let begun := session.begin began
    let finished := { begun.1 with board, notices }.finish begun.2 response now time
    ∃ next,
      finished.2 = .ok (session.outcomeOf session.activeApp response next) ∧
      session.Answered finished.1 response next ∧
      finished.1.notices = notices ∧ finished.1.image = begun.1.image := by
  intro begun finished
  obtain ⟨current, answered⟩ := session.dispatcher.answered_finish_begin session.activeApp
    begun.1.timing began now
  obtain ⟨board, statistics, finishedEq, counted⟩ :=
    { begun.1 with board, notices }.exists_finish_eq rfl current response time
  refine ⟨_, congrArg Prod.snd finishedEq, ?_⟩
  have sessionEq := congrArg Prod.fst finishedEq
  change finished.1 = _ at sessionEq
  rw [sessionEq]
  exact ⟨⟨⟨⟨rfl, answered.activeApp.symm⟩, rfl, rfl⟩, rfl, answered, counted⟩, rfl, rfl⟩

/-- The charts, the notices and the image are none of what an answer is judged by. -/
theorem Answered.of_frame
    {before after : Session}
    {text : String}
    {next : Finish}
    (answered : before.Answered after text next)
    (board : Chart.Board)
    (notices : NoticeBoard)
    (image : Option CameraImage) :
    before.Answered { after with board, notices, image } text next :=
  ⟨⟨⟨answered.setup.selection, answered.setup.activeApp⟩, answered.setup.linkage,
    answered.setup.additionalOptions⟩, answered.results, answered.dispatcher, answered.statistics⟩

theorem tick_foldl_frame (times : List Int) (session : Session) :
    ∃ board, times.foldl tick session = { session with board } := by
  induction times generalizing session with
  | nil => exact ⟨session.board, rfl⟩
  | cons time later inductionHypothesis =>
      obtain ⟨board, ticked⟩ := inductionHypothesis (session.tick time)
      exact ⟨board, ticked⟩

end Session

namespace Console

/-- Waiting lets no more than the charts move on. -/
theorem waitUntil_frame (console : Console) (clock : Clock) :
    ∃ board,
      console.waitUntil clock =
        { console with session := { console.session with board }, clock } := by
  obtain ⟨board, ticked⟩ := Session.tick_foldl_frame
    (tickTimes console.session.board.window.cadence console.clock.wall clock.wall) console.session
  refine ⟨board, ?_⟩
  rw [waitUntil, ticked]

/-- The result of a command is put up as a notice if it is an error. -/
theorem receive_frame (console : Console) (result : Except ConsoleError String) :
    ∃ notices,
      console.receive result =
        ({ console with session := { console.session with notices } }, shownText result) ∧
      notices.history = console.session.notices.history ++ noticesOf result := by
  cases result with
  | ok text => exact ⟨console.session.notices, rfl, (List.append_nil _).symm⟩
  | error error => exact ⟨_, rfl, rfl⟩

/-- The console after the answer to a command that is begun on it, and what the command led
to. -/
def commandTaken (console : Console) (answer : Answer) : Console × Except ConsoleError Outcome :=
  let (begun, ticket) := console.session.begin console.clock.steady
  takeAnswer { console with session := begun } ticket answer

theorem exists_commandTaken_eq (console : Console) (answer : Answer) :
    let begun := console.session.begin console.clock.steady
    let taken := console.commandTaken answer
    let text := shownText answer.result
    ∃ next,
      taken.2 = .ok (console.session.outcomeOf console.session.activeApp text next) ∧
      console.session.Answered taken.1.session text next ∧
      taken.1.clock = answer.clock ∧
      taken.1.session.notices.history =
        console.session.notices.history ++ noticesOf answer.result ∧
      taken.1.session.image = begun.1.image := by
  intro begun taken text
  obtain ⟨board, waited⟩ := waitUntil_frame { console with session := begun.1 } answer.clock
  obtain ⟨notices, received, history⟩ :=
    receive_frame ⟨{ begun.1 with board }, answer.clock, console.remarks⟩ answer.result
  obtain ⟨next, outcome, answered, sameNotices, sameImage⟩ :=
    console.session.exists_finish_begin_eq console.clock.steady answer.clock.steady
      answer.clock.wall board notices text
  let finished :=
    { begun.1 with board, notices }.finish begun.2 text answer.clock.steady answer.clock.wall
  have takenEq : taken =
      (⟨finished.1, answer.clock, console.remarks⟩,
        finished.2.mapError fun rate => .statistics (console.remarks.onRate rate)) := by
    simp only [taken, commandTaken, takeAnswer]
    rw [waited, received]
  rw [takenEq]
  refine ⟨next, congrArg (Except.mapError _) outcome, answered, rfl, ?_, sameImage⟩
  rw [sameNotices]
  exact history

/-- An image that is fetched is shown, and where a request for it fails, a notice is put up. -/
theorem play_fetchImage (console : Console) (stage : Stage) :
    let played := console.fetchImage.play stage
    ∃ board notices,
      played.2.session =
        { console.session with
          board
          notices
          image := (stage.imageReply 0).toOption.or console.session.image } ∧
      notices.history = console.session.notices.history ++ noticesOf (stage.imageReply 0) ∧
      played.1.requests = stage.requests ++ stage.imageRequests 0 := by
  intro played
  obtain ⟨board, waited⟩ := console.waitUntil_frame (stage.wait imageDelay).clock
  unfold Stage.imageReply Stage.imageRequests
  cases described : stage.reply 0 with
  | error error =>
      simp only [played, fetchImage, Dialogue.play, Stage.result_ask, Stage.reply_wait, described,
        waited]
      exact ⟨board, _, rfl, rfl, rfl⟩
  | ok text =>
      cases marked : stage.reply 1 with
      | error error =>
          simp only [played, fetchImage, Dialogue.play, Stage.result_ask, Stage.reply_wait,
            Stage.reply_ask, described, marked, waited]
          refine ⟨board, _, rfl, rfl, ?_⟩
          simp [Stage.wait]
      | ok html =>
          simp only [played, fetchImage, Dialogue.play, Stage.result_ask, Stage.reply_wait,
            Stage.reply_ask, described, marked, waited]
          refine ⟨board, console.session.notices, rfl, (List.append_nil _).symm, ?_⟩
          simp [Stage.wait]

/-! ## Commands -/

/-- The text is one that tells on the camera tab that an image is stored. -/
def LeavesImage (console : Console) (text : String) : Prop :=
  console.session.activeApp = .camera ∧
    ∃ before after, text.toList = before ++ Session.cameraDone.toList ++ after

theorem leavesImage_iff (console : Console) (text : String) (next : Finish) :
    console.LeavesImage text ↔
      console.session.outcomeOf console.session.activeApp text next = .camera true := by
  unfold LeavesImage Session.outcomeOf
  rw [← Text.contains_iff]
  cases console.session.activeApp <;> simp

/-- A command whose form cannot be made is not run. -/
theorem play_runCommand_of_error
    {console : Console}
    {error : ConsoleError}
    (formed : console.session.form = .error error)
    (stage : Stage) :
    console.runCommand.play stage = (stage, console, .error error) := by
  rw [runCommand, formed]
  rfl

/-- A command whose form can be made is run, and its image is fetched if there is one. -/
theorem play_runCommand_of_form
    {console : Console}
    {form : Form}
    (formed : console.session.form = .ok form)
    (stage : Stage) :
    let asked := stage.ask (.command form)
    let taken := console.commandTaken asked.2
    let ended := (taken.1.fetchImageAfter taken.2).play asked.1
    console.runCommand.play stage = (ended.1, ended.2, taken.2) := by
  intro asked taken ended
  rw [runCommand, formed]
  simp only [Dialogue.play, Dialogue.play_bind, Dialogue.play_pure]
  rfl

/-- A command that is run makes its request first, and then those for an image it has left. -/
theorem exists_play_runCommand_eq
    {console : Console}
    {form : Form}
    (formed : console.session.form = .ok form)
    (stage : Stage) :
    let played := console.runCommand.play stage
    let text := shownText (stage.reply 0)
    let history := console.session.notices.history ++ noticesOf (stage.reply 0)
    ∃ next,
      played.2.2 = .ok (console.session.outcomeOf console.session.activeApp text next) ∧
      console.session.Answered played.2.1.session text next ∧
      (console.LeavesImage text →
        played.1.requests = stage.requests ++ .command form :: stage.imageRequests 1 ∧
        played.2.1.session.notices.history = history ++ noticesOf (stage.imageReply 1) ∧
        played.2.1.session.image = (stage.imageReply 1).toOption) ∧
      (¬ console.LeavesImage text →
        played.1.requests = stage.requests ++ [.command form] ∧
        played.2.1.session.notices.history = history ∧
        played.2.1.session.image = (console.session.begin console.clock.steady).1.image) := by
  intro played text history
  have playedEq : played = _ := play_runCommand_of_form formed stage
  obtain ⟨next, outcome, answered, -, takenHistory, takenImage⟩ :=
    console.exists_commandTaken_eq (stage.ask (.command form)).2
  rw [Stage.result_ask] at outcome answered takenHistory
  generalize console.commandTaken (stage.ask (.command form)).2 = taken at *
  rw [outcome] at playedEq
  rw [playedEq]
  refine ⟨next, rfl, ?_⟩
  by_cases leaves : console.LeavesImage text
  · obtain ⟨board, notices, fetched, fetchedHistory, requests⟩ :=
      taken.1.play_fetchImage (stage.ask (.command form)).1
    -- A camera command begins without an image, so only a fetched one can be shown.
    have noImage : taken.1.session.image = none := by
      rw [takenImage, Session.begin]
      exact if_pos leaves.1
    rw [Stage.imageReply_ask, takenHistory] at fetchedHistory
    rw [Stage.imageReply_ask, noImage, Option.or_none] at fetched
    rw [Stage.requests_ask, Stage.imageRequests_ask, List.append_assoc] at requests
    rw [(console.leavesImage_iff text next).mp leaves, fetchImageAfter, fetched]
    exact ⟨answered.of_frame _ _ _, fun _ => ⟨requests, fetchedHistory, rfl⟩,
      fun leavesNone => absurd leaves leavesNone⟩
  · have notCamera : fetchImageAfter
        (.ok (console.session.outcomeOf console.session.activeApp text next)) taken.1 =
          .done taken.1 := by
      rw [leavesImage_iff console text next] at leaves
      unfold fetchImageAfter
      split
      · rename_i camera
        exact absurd (Except.ok.inj camera) leaves
      · rfl
    rw [notCamera]
    exact ⟨answered, fun leavesOne => absurd leavesOne leaves,
      fun _ => ⟨rfl, takenHistory, takenImage⟩⟩

/-- An image is shown after a camera command exactly if the client stored one and both of
its requests succeeded. -/
theorem image_eq_some_iff_of_camera
    {console : Console}
    {form : Form}
    (formed : console.session.form = .ok form)
    (camera : console.session.activeApp = .camera)
    (stage : Stage)
    (image : CameraImage) :
    (console.runCommand.play stage).2.1.session.image = some image ↔
      console.LeavesImage (shownText (stage.reply 0)) ∧
        stage.reply 1 = .ok image.text ∧ stage.reply 2 = .ok image.html := by
  obtain ⟨-, -, -, withImage, without⟩ := exists_play_runCommand_eq formed stage
  rw [← stage.imageReply_eq_ok_iff 1 image]
  by_cases leaves : console.LeavesImage (shownText (stage.reply 0))
  · rw [(withImage leaves).2.2]
    cases stage.imageReply 1 <;> simp [leaves, Except.toOption]
  · rw [(without leaves).2.2, Session.begin]
    simp [camera, leaves]

/-- A command whose form cannot be made gives its error back and does nothing else. Any other
is requested once, and whichever reply arrives, no command runs afterwards and the reply is
shown. Only a camera client that stored an image is followed by requests for it, and a
bandwidth run is reported at the rates of the dials that its form was made of. -/
theorem runCommand_settles (console : Console) (stage : Stage) :
    let played := console.runCommand.play stage
    let later := played.2.1.session
    let text := shownText (stage.reply 0)
    let history := console.session.notices.history ++ noticesOf (stage.reply 0)
    (∀ error, console.session.form = .error error → played = (stage, console, .error error)) ∧
      ∀ form, console.session.form = .ok form →
        (∃ outcome, played.2.2 = .ok outcome ∧ outcome ≠ .ignored) ∧
        later.dispatcher.running = none ∧
        (console.session.dispatcher.continuous = false → later.dispatcher.AtRest) ∧
        later.results = text ∧
        (console.LeavesImage text →
          played.1.requests = stage.requests ++ .command form :: stage.imageRequests 1 ∧
          later.notices.history = history ++ noticesOf (stage.imageReply 1)) ∧
        (¬ console.LeavesImage text →
          played.1.requests = stage.requests ++ [.command form] ∧
          later.notices.history = history) ∧
        (console.session.activeApp = .camera → ∀ image : CameraImage,
          later.image = some image ↔
            console.LeavesImage text ∧
              stage.reply 1 = .ok image.text ∧ stage.reply 2 = .ok image.html) ∧
        (console.session.activeApp = .bandwidth → ∃ report next,
          played.2.2 = .ok (.bandwidth report next) ∧
          ∀ direction, ((Report.scan text).get direction).Incomplete →
            (report.get direction).bandwidth =
              some (console.session.linkage.panel direction).targetBps ∧
            form.lookup ("bw_" ++ direction.tag) =
              some ((console.session.linkage.panel direction).testArgument direction)) := by
  intro played later text history
  constructor
  · intro error formed
    exact play_runCommand_of_error formed stage
  · intro form formed
    obtain ⟨next, outcome, answered, withImage, without⟩ := exists_play_runCommand_eq formed stage
    refine ⟨⟨_, outcome, ?_⟩, answered.dispatcher.running,
      fun single => (answered.dispatcher.rested single).2, answered.results,
      fun leaves => ⟨(withImage leaves).1, (withImage leaves).2.1⟩,
      fun leavesNone => ⟨(without leavesNone).1, (without leavesNone).2.1⟩,
      fun camera image => image_eq_some_iff_of_camera formed camera stage image, ?_⟩
    · unfold Session.outcomeOf
      split <;> nofun
    · intro bandwidth
      rw [bandwidth] at outcome
      refine ⟨_, next, outcome, fun direction incomplete => ⟨?_, ?_⟩⟩
      · rw [Report.get_ofOutput, Report.markIncomplete_of_incomplete incomplete]
      · exact Session.lookup_form formed bandwidth direction

end Console
end NetworkConsole
