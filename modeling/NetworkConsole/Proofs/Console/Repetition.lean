import NetworkConsole.Proofs.Console.Exchange

/-!
# Repeated bandwidth runs

Every run makes the same request, whatever the replies to the runs before it were. A failed
request counts as a run, so continuous testing ends after exactly as many runs as its limit
asks for.
-/

namespace NetworkConsole
namespace Console

/-- What bandwidth runs with a form come to, one after another: each makes one request, shows
the text of its reply, is read from that text and is displayed once. -/
structure Tested
    (display : Session → Report → Int → String)
    (form : Form)
    (runs : List Run)
    (before after : Stage × Console) : Prop where
  requests : after.1.requests =
    before.1.requests ++ List.replicate runs.length (.command form)
  replies : ∀ index, after.1.reply index = before.1.reply (runs.length + index)
  wall : after.1.clock.wall = before.1.clock.wall
  texts : runs.map (·.session.results) =
    (List.range runs.length).map fun index => shownText (before.1.reply index)
  reports : ∀ run ∈ runs,
    run.report = .ofOutput run.session.results before.2.session.linkage
  printed : after.1.printed =
    before.1.printed ++ runs.map fun run => display run.session run.report before.1.clock.wall
  setup : before.2.session.SameSetup after.2.session
  statistics : ∀ direction,
    (after.2.session.statistics.get direction).runs =
      (before.2.session.statistics.get direction).runs + runs.length

namespace Tested

variable {display : Session → Report → Int → String} {form : Form}

/-- Runs that follow one another are runs together. -/
theorem append
    {first second : List Run}
    {before between after : Stage × Console}
    (left : Tested display form first before between)
    (right : Tested display form second between after) :
    Tested display form (first ++ second) before after := by
  constructor
  · rw [right.requests, left.requests, List.append_assoc, List.replicate_append_replicate,
      List.length_append]
  · intro index
    rw [right.replies, left.replies, List.length_append, Nat.add_assoc]
  · rw [right.wall, left.wall]
  · simp only [List.map_append, List.length_append, List.range_add, List.map_map, left.texts,
      right.texts, left.replies]
    rfl
  · intro run member
    rcases List.mem_append.mp member with earlier | later
    · exact left.reports run earlier
    · rw [left.setup.linkage]
      exact right.reports run later
  · rw [right.printed, left.printed, left.wall, List.append_assoc, List.map_append]
  · exact left.setup.trans right.setup
  · intro direction
    rw [right.statistics, left.statistics, List.length_append, Nat.add_assoc]

/-- Where nothing is asked or printed and the setup stays, there is no run. -/
theorem nil
    {before after : Stage × Console}
    (requests : after.1.requests = before.1.requests)
    (replies : after.1.replies = before.1.replies)
    (wall : after.1.clock.wall = before.1.clock.wall)
    (printed : after.1.printed = before.1.printed)
    (setup : before.2.session.SameSetup after.2.session)
    (statistics : after.2.session.statistics = before.2.session.statistics) :
    Tested display form [] before after := by
  refine ⟨?_, ?_, wall, rfl, ?_, ?_, setup, fun direction => by rw [statistics]; rfl⟩
  · rw [requests]
    exact (List.append_nil _).symm
  · intro index
    rw [Stage.reply, replies, List.length_nil, Nat.zero_add, Stage.reply]
  · intro run member
    cases member
  · rw [printed]
    exact (List.append_nil _).symm

theorem wait (stage : Stage) (console : Console) (delay : Nat) :
    Tested display form [] (stage, console)
      (stage.wait delay, console.waitUntil (stage.wait delay).clock) := by
  obtain ⟨board, waited⟩ := console.waitUntil_frame (stage.wait delay).clock
  rw [waited]
  exact nil rfl rfl rfl rfl ⟨⟨rfl, rfl⟩, rfl, rfl⟩ rfl

theorem stop (stage : Stage) (console : Console) :
    Tested display form [] (stage, console) (stage, console.stop) :=
  nil rfl rfl rfl rfl ⟨⟨rfl, console.session.dispatcher.activeApp_stop.symm⟩, rfl, rfl⟩ rfl

end Tested

/-! ## Runs of the loop -/

/-- A bandwidth command is one run. -/
theorem exists_tested_runCommand
    (display : Session → Report → Int → String)
    {console : Console}
    {form : Form}
    (formed : console.session.form = .ok form)
    (active : console.session.activeApp = .bandwidth)
    (stage : Stage) :
    ∃ ended later report next,
      console.runCommand.play stage = (ended, later, .ok (.bandwidth report next)) ∧
      Tested display form [⟨later.session, report⟩] (stage, console)
        (ended.print (display later.session report later.clock.wall), later) ∧
      console.session.dispatcher.Answered later.session.dispatcher .bandwidth next := by
  have played : console.runCommand.play stage = _ := play_runCommand_of_form formed stage
  obtain ⟨next, outcome, answered, clock, -, -⟩ :=
    console.exists_commandTaken_eq (stage.ask (.command form)).2
  rw [Stage.result_ask] at outcome answered
  rw [active] at outcome
  generalize console.commandTaken (stage.ask (.command form)).2 = taken at *
  rw [outcome] at played
  refine ⟨(stage.ask (.command form)).1, taken.1, _, next, played, ?_, active ▸ answered.dispatcher⟩
  constructor
  · rfl
  · intro index
    rw [Stage.reply_print, Stage.reply_ask, List.length_singleton, Nat.add_comm]
  · rfl
  · exact congrArg (fun text => [text]) answered.results
  · intro run member
    rw [List.mem_singleton.mp member, answered.results]
  · rw [clock]
    rfl
  · exact answered.setup
  · intro direction
    exact answered.statistics direction active

section Loop

variable
  (display : Session → Report → Int → String)
  (limit : Option Nat)
  {console : Console}
  {form : Form}

/-- Outside continuous testing the loop ends after one run. -/
theorem exists_play_repeatRuns_of_single
    (formed : console.session.form = .ok form)
    (active : console.session.activeApp = .bandwidth)
    (single : console.session.dispatcher.continuous = false)
    (stage : Stage) :
    ∃ (run : Run) (ended : Stage × Console),
      Tested display form [run] (stage, console) ended ∧
      ended.2.session.dispatcher.AtRest ∧
      ∀ rounds runs,
        (console.repeatRuns display limit (rounds + 1) runs).play stage =
          (ended.1, ended.2, ⟨runs ++ [run], none⟩) := by
  obtain ⟨ended, later, report, next, played, tested, answered⟩ :=
    exists_tested_runCommand display formed active stage
  obtain ⟨released, atRest⟩ := answered.rested single
  refine ⟨_, _, tested, atRest, ?_⟩
  intro rounds runs
  rw [repeatRuns, Dialogue.play_bind, played, released]
  rfl

/-- In continuous testing the loop waits for the next run or stops. -/
theorem exists_play_repeatRuns_of_continuous
    (formed : console.session.form = .ok form)
    (active : console.session.activeApp = .bandwidth)
    (continuous : console.session.dispatcher.continuous = true)
    (stage : Stage) :
    ∃ (run : Run) (waited stopped : Stage × Console),
      Tested display form [run] (stage, console) waited ∧
      waited.2.session.dispatcher.continuous = true ∧
      Tested display form [run] (stage, console) stopped ∧
      stopped.2.session.dispatcher.AtRest ∧
      ∀ rounds runs,
        (console.repeatRuns display limit (rounds + 1) runs).play stage =
          if limit.all ((runs ++ [run]).length < ·) then
            (waited.2.repeatRuns display limit rounds (runs ++ [run])).play waited.1
          else (stopped.1, stopped.2, ⟨runs ++ [run], none⟩) := by
  obtain ⟨ended, later, report, next, played, tested, answered⟩ :=
    exists_tested_runCommand display formed active stage
  obtain ⟨delay, scheduled⟩ := answered.scheduled continuous rfl
  have stillContinuous : (later.waitUntil
      ((ended.print (display later.session report later.clock.wall)).wait delay).clock
      ).session.dispatcher.continuous = true := by
    obtain ⟨board, waited⟩ := later.waitUntil_frame
      ((ended.print (display later.session report later.clock.wall)).wait delay).clock
    rw [waited]
    exact answered.continuous.trans continuous
  refine ⟨_, _, _, tested.append (.wait _ _ delay), stillContinuous, tested.append (.stop _ _),
    Dispatcher.atRest_stop answered.running, ?_⟩
  intro rounds runs
  rw [repeatRuns, Dialogue.play_bind, played, scheduled]
  by_cases more : limit.all ((runs ++ [Run.mk later.session report]).length < ·) = true
  · rw [if_pos more]
    simp only [Dialogue.play, more, if_true, stillContinuous]
  · rw [if_neg more]
    simp only [Dialogue.play, more]
    rfl

/-- Whatever the replies are, the loop makes only runs, and at least one of them. -/
theorem exists_tested_repeatRuns
    (rounds : Nat)
    (runs : List Run)
    (formed : console.session.form = .ok form)
    (active : console.session.activeApp = .bandwidth)
    (stage : Stage) :
    let played := (console.repeatRuns display limit rounds runs).play stage
    ∃ later,
      played.2.2 = ⟨runs ++ later, none⟩ ∧
      Tested display form later (stage, console) (played.1, played.2.1) ∧
      (rounds ≠ 0 → later ≠ []) := by
  induction rounds generalizing runs console stage with
  | zero =>
      refine ⟨[], ?_, .nil rfl rfl rfl rfl (.refl _) rfl, fun positive => absurd rfl positive⟩
      rw [List.append_nil]
      rfl
  | succ rounds inductionHypothesis =>
      cases continuous : console.session.dispatcher.continuous with
      | false =>
          obtain ⟨run, ended, tested, -, played⟩ :=
            exists_play_repeatRuns_of_single display limit formed active continuous stage
          simp only [played]
          exact ⟨[run], rfl, tested, fun _ => List.cons_ne_nil _ _⟩
      | true =>
          obtain ⟨run, waited, stopped, tested, -, testedLast, -, played⟩ :=
            exists_play_repeatRuns_of_continuous display limit formed active continuous stage
          simp only [played]
          split
          · -- A run leaves the setup as it was, so the next one starts from the same form.
            obtain ⟨later, result, testedLater, -⟩ := inductionHypothesis (runs ++ [run])
              (tested.setup.form_eq ▸ formed) (tested.setup.activeApp ▸ active) waited.1
            refine ⟨run :: later, ?_, tested.append testedLater, fun _ => List.cons_ne_nil _ _⟩
            rw [result, List.append_assoc]
            rfl
          · exact ⟨[run], rfl, testedLast, fun _ => List.cons_ne_nil _ _⟩

/-- In continuous testing with a limit the loop ends at the limit, if there are rounds enough
to reach it, and leaves nothing to follow. More rounds than enough change nothing. -/
theorem repeatRuns_of_enough
    {most rounds : Nat}
    {runs : List Run}
    (formed : console.session.form = .ok form)
    (active : console.session.activeApp = .bandwidth)
    (continuous : console.session.dispatcher.continuous = true)
    (enough : max most (runs.length + 1) ≤ runs.length + rounds)
    (stage : Stage) :
    let played := (console.repeatRuns display (some most) rounds runs).play stage
    played.2.2.runs.length = max most (runs.length + 1) ∧
      played.2.1.session.dispatcher.AtRest ∧
      ∀ further,
        (console.repeatRuns display (some most) (rounds + further) runs).play stage = played := by
  induction rounds generalizing runs console stage with
  | zero => omega
  | succ rounds inductionHypothesis =>
      obtain ⟨run, waited, stopped, tested, stillContinuous, -, atRest, played⟩ :=
        exists_play_repeatRuns_of_continuous display (some most) formed active continuous stage
      have longer : (runs ++ [run]).length = runs.length + 1 := List.length_append
      simp only [Nat.add_right_comm rounds 1, played, Option.all_some, decide_eq_true_eq, longer]
      split
      · -- Each run takes one round, so rounds that were enough before it still are.
        have still : max most ((runs ++ [run]).length + 1) ≤ (runs ++ [run]).length + rounds := by
          omega
        obtain ⟨length, atRest, same⟩ := inductionHypothesis
          (tested.setup.form_eq ▸ formed) (tested.setup.activeApp ▸ active) stillContinuous
          still waited.1
        exact ⟨by omega, atRest, same⟩
      · refine ⟨?_, atRest, fun _ => rfl⟩
        change (runs ++ [run]).length = _
        omega

/-- How many runs the loop makes, where continuous testing has a limit. -/
def runCount (console : Console) (limit : Option Nat) : Nat :=
  if console.session.dispatcher.continuous then max (limit.getD 0) 1 else 1

/-- The loop makes the runs that it should, and the rounds that it is given only need to be
as many. -/
theorem repeatRuns_ends
    {rounds : Nat}
    (formed : console.session.form = .ok form)
    (active : console.session.activeApp = .bandwidth)
    (bounded : console.session.dispatcher.continuous = true → limit ≠ none)
    (enough : console.runCount limit ≤ rounds)
    (stage : Stage) :
    let played := (console.repeatRuns display limit rounds []).play stage
    played.2.2.runs.length = console.runCount limit ∧
      played.2.1.session.dispatcher.AtRest ∧
      played = (console.repeatRuns display limit (console.runCount limit) []).play stage := by
  obtain ⟨further, rfl⟩ := Nat.exists_eq_add_of_le enough
  unfold runCount
  cases continuous : console.session.dispatcher.continuous with
  | false =>
      obtain ⟨run, ended, -, atRest, played⟩ :=
        exists_play_repeatRuns_of_single display limit formed active continuous stage
      have one : (if false = true then max (limit.getD 0) 1 else 1) = 0 + 1 := rfl
      rw [one, Nat.add_right_comm, played, played]
      exact ⟨rfl, atRest, rfl⟩
  | true =>
      obtain ⟨most, rfl⟩ := Option.ne_none_iff_exists'.mp (bounded continuous)
      have reached : max most (([] : List Run).length + 1) ≤
          ([] : List Run).length + max most 1 := by
        simp
      obtain ⟨length, atRest, same⟩ :=
        repeatRuns_of_enough display formed active continuous reached stage
      rw [if_pos rfl, Option.getD_some, same]
      exact ⟨length, atRest, rfl⟩

end Loop

/-! ## The bandwidth test -/

/-- No run is made where the form of the first one cannot be made. -/
theorem play_runBandwidth_of_error
    {console : Console}
    {error : ConsoleError}
    (formed : console.session.form = .error error)
    (display : Session → Report → Int → String)
    (limit : Option Nat)
    (patience : Nat)
    (stage : Stage) :
    (console.runBandwidth display limit patience).play stage =
      (stage, console, ⟨[], some error⟩) := by
  obtain ⟨rounds, positive⟩ : ∃ rounds, max (limit.getD patience) 1 = rounds + 1 :=
    Nat.exists_eq_add_one.mpr (Nat.le_max_right _ _)
  rw [runBandwidth, positive, repeatRuns, Dialogue.play_bind, play_runCommand_of_error formed]
  rfl

/-- Where the form can be made, the test consists of runs, and of one at least. -/
theorem exists_tested_runBandwidth
    {console : Console}
    {form : Form}
    (formed : console.session.form = .ok form)
    (active : console.session.activeApp = .bandwidth)
    (display : Session → Report → Int → String)
    (limit : Option Nat)
    (patience : Nat)
    (stage : Stage) :
    let played := (console.runBandwidth display limit patience).play stage
    ∃ tests,
      played.2.2 = ⟨tests, none⟩ ∧
      Tested display form tests (stage, console) (played.1, played.2.1) ∧
      tests ≠ [] := by
  intro played
  obtain ⟨tests, result, tested, atLeastOne⟩ := exists_tested_repeatRuns display limit
    (max (limit.getD patience) 1) [] formed active stage
  exact ⟨tests, result, tested, atLeastOne (Nat.ne_of_gt (Nat.le_max_right _ _))⟩

/-- On the bandwidth tab, with a node listed for both roles, continuous testing with a limit
makes as many runs as the limit allows, and at least one; testing that is not continuous makes
one. All runs make the same request, and every run shows and displays what its own reply
says, a failed request included. Afterwards nothing is running or to follow, and it is not the
number of rounds that ended the loop. -/
theorem runBandwidth_runs
    {console : Console}
    {limit : Option Nat}
    (active : console.session.activeApp = .bandwidth)
    (offers : ∀ role, console.session.selection.Offers role .bandwidth)
    (bounded : console.session.dispatcher.continuous = true → limit ≠ none)
    (display : Session → Report → Int → String)
    (patience : Nat)
    (stage : Stage) :
    let count := console.runCount limit
    let played := (console.runBandwidth display limit patience).play stage
    let runs := played.2.2.runs
    let later := played.2.1.session
    runs.length = count ∧
      played.2.2.failure = none ∧
      (∃ form, console.session.form = .ok form ∧
        played.1.requests = stage.requests ++ List.replicate count (.command form)) ∧
      runs.map (·.session.results) =
        (List.range count).map (fun index => shownText (stage.reply index)) ∧
      (∀ run ∈ runs, run.report = .ofOutput run.session.results console.session.linkage) ∧
      played.1.printed =
        stage.printed ++ runs.map (fun run => display run.session run.report stage.clock.wall) ∧
      later.dispatcher.AtRest ∧
      (∀ direction,
        (later.statistics.get direction).runs =
          (console.session.statistics.get direction).runs + count) ∧
      ∀ rounds, count ≤ rounds →
        (console.repeatRuns display limit rounds []).play stage = played := by
  intro count played runs later
  obtain ⟨form, formed⟩ := Session.exists_form_eq (active ▸ offers)
  have enough : count ≤ max (limit.getD patience) 1 := by
    simp only [count, runCount]
    split
    · obtain ⟨most, rfl⟩ := Option.ne_none_iff_exists'.mp (bounded ‹_›)
      exact Nat.le_refl _
    · exact Nat.le_max_right _ _
  obtain ⟨tests, result, tested, -⟩ :=
    exists_tested_runBandwidth formed active display limit patience stage
  obtain ⟨length, atRest, same⟩ := repeatRuns_ends display limit formed active bounded enough stage
  have runsEq : runs = tests := congrArg Runs.runs result
  have testsLength : tests.length = count := runsEq ▸ length
  obtain ⟨requests, -, -, texts, reports, printed, -, statistics⟩ := tested
  rw [testsLength] at requests texts statistics
  rw [runsEq]
  refine ⟨testsLength, congrArg Runs.failure result, ⟨form, formed, requests⟩, texts, reports,
    printed, atRest, statistics, ?_⟩
  intro rounds enoughRounds
  exact (repeatRuns_ends display limit formed active bounded enoughRounds stage).2.2.trans same.symm

/-- A console with a node for each role on which continuous testing is turned on. -/
def continuousConsole (remarks : Remarks) : Console where
  session :=
    let node : Node := ⟨"lo", "1-ff00:0:110", "127.0.0.1", 30001⟩
    { Session.start "" 0 with
      selection :=
        ⟨⟨some ⟨[("all", [node])]⟩, 0⟩, ⟨some ⟨[("bwtester", [node])]⟩, 0⟩⟩
      dispatcher := (Dispatcher.initial.setContinuous true).1 }
  clock := ⟨0, 0⟩
  remarks

/-- A script whose first reply is a failure, on which the client remarks. -/
def failingStage (remark : String) : Stage where
  replies := [⟨.error (.transport remark []), 10⟩, ⟨.ok "Done", 3000⟩]
  clock := ⟨0, 0⟩

theorem runBandwidth_continuousConsole :
    (∀ remarks,
      (continuousConsole remarks).session.activeApp = .bandwidth ∧
        (∀ role, (continuousConsole remarks).session.selection.Offers role .bandwidth) ∧
        (continuousConsole remarks).session.dispatcher.continuous = true) ∧
      ∀ remarks remark,
        let played := ((continuousConsole remarks).runBandwidth (fun _ _ _ => "") (some 2) 0).play
          (failingStage remark)
        played.2.2.runs.map (·.session.results) = ["HTTP error: " ++ remark, "Done"] ∧
          played.2.1.session.dispatcher.AtRest := by
  have offers : ∀ remarks role,
      (continuousConsole remarks).session.selection.Offers role .bandwidth := by
    intro remarks role
    cases role <;> exact ⟨_, rfl, List.cons_ne_nil _ _⟩
  refine ⟨fun remarks => ⟨rfl, offers remarks, rfl⟩, fun remarks remark => ?_⟩
  obtain ⟨-, -, -, texts, -, -, atRest, -⟩ := runBandwidth_runs rfl (offers remarks)
    (fun _ => Option.some_ne_none 2) (fun _ _ _ => "") 0 (failingStage remark)
  exact ⟨texts, atRest⟩

end Console
end NetworkConsole
