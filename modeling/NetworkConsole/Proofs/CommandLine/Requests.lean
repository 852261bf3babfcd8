import NetworkConsole.CommandLine.Execution
import NetworkConsole.Proofs.Console.Repetition

/-!
# Requests of a command

A command asks for the nodes first, for the clients and for the servers that go with the
chosen client. Everything that can be wrong with its setup shows before the first request
to run a client, after which it cannot fail any more.
-/

namespace NetworkConsole

/-! ## Loading the nodes -/

namespace Console

theorem play_fetchCatalog (list : NodeList) (console : Console) (stage : Stage) :
    (console.fetchCatalog list).play stage =
      ((stage.ask (.nodes list)).1, { console with clock := (stage.ask (.nodes list)).2.clock },
        (stage.reply 0).bind (Catalog.read console.remarks.onText)) := by
  rw [← stage.result_ask (.nodes list)]
  rfl

/-- The servers are asked for once, and the client stays the chosen one. -/
theorem play_selectClient
    (client : Node)
    (server : Option String)
    (console : Console)
    (stage : Stage) :
    let played := (console.selectClient client server).play stage
    played.1.requests = stage.requests ++ [.nodes (.serversFor client)] ∧
      played.2.1.session.selection.get .client = console.session.selection.get .client ∧
      played.2.1.session.dispatcher = console.session.dispatcher := by
  intro played
  have serverOnly : Role.client ≠ Role.server := by decide
  simp only [played, selectClient, Dialogue.play_bind, play_fetchCatalog]
  cases (stage.reply 0).bind (Catalog.read console.remarks.onText) with
  | error error => exact ⟨rfl, rfl, rfl⟩
  | ok catalog =>
      cases server with
      | none => exact ⟨rfl, Selection.get_set_of_ne _ serverOnly _, rfl⟩
      | some name =>
          dsimp only
          split
          · exact ⟨rfl, Selection.get_set_of_ne _ serverOnly _, rfl⟩
          · rename_i chosen
            refine ⟨rfl, ?_, rfl⟩
            exact ((Selection.selected_of_selectNamed chosen).2 .client serverOnly).trans
              (Selection.get_set_of_ne _ serverOnly _)

/-- The client that is chosen when the nodes are loaded is one of the clients. -/
theorem selected_of_chooseClient
    {console : Console}
    {client : Option String}
    {selection : Selection}
    {node : Node}
    (chosen : console.chooseClient client = .ok (selection, node)) :
    selection.selected .client console.session.activeApp = .ok node := by
  unfold chooseClient at chosen
  cases client with
  | some name => exact (Selection.selected_of_selectNamed chosen).1
  | none =>
      obtain ⟨same, isNode, isPair⟩ := map_eq_ok_iff.mp chosen
      cases isPair
      exact isNode

/-- Loading the nodes runs no client. If it succeeds, it has asked for the clients and for the
servers that go with the client that is chosen then. -/
theorem play_loadNodes (client server : Option String) (console : Console) (stage : Stage) :
    let played := (console.loadNodes client server).play stage
    ∃ requested,
      played.1.requests = stage.requests ++ requested ∧
      (∀ form, .command form ∉ requested) ∧
      (played.2.2 = .ok () →
        played.2.1.session.dispatcher = console.session.dispatcher ∧
        ∃ node,
          requested = [.nodes .clientsDefault, .nodes (.serversFor node)] ∧
          played.2.1.session.selection.selected .client console.session.activeApp = .ok node) := by
  intro played
  simp only [played, loadNodes, Dialogue.play_bind, play_fetchCatalog]
  cases (stage.reply 0).bind (Catalog.read console.remarks.onText) with
  | error error => exact ⟨[.nodes .clientsDefault], rfl, by simp, nofun⟩
  | ok catalog =>
      dsimp only
      split
      · exact ⟨[.nodes .clientsDefault], rfl, by simp, nofun⟩
      · rename_i selection node chosen
        obtain ⟨requests, client, dispatcher⟩ := play_selectClient node server
          (withSelection _ selection) (stage.ask (.nodes .clientsDefault)).1
        refine ⟨[.nodes .clientsDefault, .nodes (.serversFor node)], ?_, by simp, fun _ => ?_⟩
        · rw [requests, Stage.requests_ask, List.append_assoc]
          rfl
        · refine ⟨dispatcher, node, rfl, ?_⟩
          rw [Selection.selected_congr client]
          exact (selected_of_chooseClient chosen :)

end Console

/-! ## Commands -/

/-- What carrying out a command on loaded nodes comes to: no nodes are asked for any more, the
chosen client stays, and a command that fails has not asked for anything. -/
structure Carried
    (requested : List Request)
    (before : Stage × Console)
    (after : Stage × Completion) : Prop where
  requests : after.1.requests = before.1.requests ++ requested
  client : after.2.1.session.selection.get .client = before.2.session.selection.get .client
  noNodes : ∀ list, .nodes list ∉ requested
  failed : after.2.2 ≠ none → requested = []

/-- A command that fails before its first request. -/
theorem Carried.ofFailure
    {before after : Console}
    (client : after.session.selection.get .client = before.session.selection.get .client)
    (stage : Stage)
    (failure : Failure) :
    Carried [] (stage, before) (stage, after, some failure) :=
  ⟨(List.append_nil _).symm, client, nofun, fun _ => rfl⟩

namespace Session.SameChoices

theorem loadPanel
    {session loaded : Session}
    {direction : Direction}
    {panel : Panel}
    (accepted : session.loadPanel direction panel = .ok loaded) :
    SameChoices session loaded := by
  unfold Session.loadPanel at accepted
  split at accepted
  · cases accepted
  · cases accepted
    obtain ⟨interval, refreshed⟩ := Session.refreshInterval_frame
      { session with linkage := session.linkage.load direction panel }
    rw [refreshed]
    exact ⟨rfl, rfl⟩

theorem changeDial
    (session : Session)
    (direction : Direction)
    (dial : Dial)
    (value : Float)
    (now : Int) :
    SameChoices session (session.changeDial direction dial value now).1 := by
  obtain ⟨notices, interval, changed⟩ := session.changeDial_frame direction dial value now
  rw [changed]
  exact ⟨rfl, rfl⟩

theorem setContinuous (session : Session) (on : Bool) :
    SameChoices session (session.setContinuous on).1 :=
  ⟨rfl, (session.dispatcher.activeApp_setContinuous on).symm⟩

end Session.SameChoices

namespace BandwidthPlan

open Session (SameChoices)

theorem sameChoices_prepareDirection
    (plan : BandwidthPlan)
    (console : Console)
    (direction : Direction) :
    SameChoices console.session (plan.prepareDirection console direction).1.session := by
  unfold prepareDirection
  split
  · exact ⟨rfl, rfl⟩
  · rename_i loaded accepted
    have loads := SameChoices.loadPanel accepted
    have locks : SameChoices console.session
        (loaded.setLock direction (plan.locks.get direction)) :=
      ⟨loads.selection, loads.activeApp⟩
    split
    · exact locks
    · exact locks.trans (.changeDial _ _ _ _ _)

theorem sameChoices_prepareSchedule (plan : BandwidthPlan) (console : Console) :
    SameChoices console.session (plan.prepareSchedule console).1.session := by
  have chosen : SameChoices console.session (plan.chooseInterval console.session) := by
    unfold chooseInterval
    split <;> exact ⟨rfl, rfl⟩
  have turned := chosen.trans (.setContinuous _ true)
  unfold prepareSchedule
  dsimp only
  split
  · split
    · rename_i followed
      rwa [followed] at turned
    · rename_i refused
      rwa [refused] at turned
  · exact chosen

/-- Preparing a test leaves the nodes and the tab as they are. -/
theorem sameChoices_prepare (plan : BandwidthPlan) (console : Console) :
    SameChoices console.session (plan.prepare console).1.session := by
  have first := plan.sameChoices_prepareDirection console .clientToServer
  unfold prepare
  split
  · rename_i failed
    rwa [failed] at first
  · rename_i between firstReady
    rw [firstReady] at first
    have second := plan.sameChoices_prepareDirection between .serverToClient
    split
    · rename_i failed
      rw [failed] at second
      exact first.trans second
    · rename_i ready secondReady
      rw [secondReady] at second
      exact (first.trans second).trans (plan.sameChoices_prepareSchedule ready)

/-- A bandwidth test either fails before its first run or makes runs only. -/
theorem exists_carried
    (plan : BandwidthPlan)
    (terminal : Display.Terminal)
    (patience : Nat)
    {console : Console}
    (active : console.session.activeApp = .bandwidth)
    (stage : Stage) :
    let played := (plan.carryOut terminal patience console).play stage
    ∃ requested,
      Carried requested (stage, console) played ∧
      (played.2.2 = none → ∃ form, .command form ∈ requested) := by
  intro played
  have prepares := plan.sameChoices_prepare console
  simp only [played, carryOut]
  split
  · rename_i prepared failure failed
    rw [failed] at prepares
    have client := congrArg (Selection.get · .client) prepares.selection.symm
    exact ⟨[], .ofFailure client stage failure, nofun⟩
  · rename_i prepared ready
    rw [ready] at prepares
    simp only [Dialogue.play_bind]
    cases formed : prepared.session.form with
    | error error =>
        rw [Console.play_runBandwidth_of_error formed]
        have client := congrArg (Selection.get · .client) prepares.selection.symm
        exact ⟨[], .ofFailure client stage _, nofun⟩
    | ok form =>
        obtain ⟨runs, result, tested, atLeastOne⟩ := Console.exists_tested_runBandwidth formed
          (prepares.activeApp.symm.trans active)
          (fun session report time => Display.run terminal session.linkage report time) plan.limit
          patience stage
        rw [result]
        have selection := (prepares.selection.trans tested.setup.selection).symm
        have client := congrArg (Selection.get · .client) selection
        have noNodes : ∀ list, .nodes list ∉ List.replicate runs.length (Request.command form) := by
          intro list member
          cases List.eq_of_mem_replicate member
        have member : .command form ∈ List.replicate runs.length (Request.command form) := by
          rw [List.mem_replicate]
          exact ⟨mt List.length_eq_zero_iff.mp atLeastOne, rfl⟩
        refine ⟨_, ?_, fun _ => ⟨form, member⟩⟩
        dsimp only
        split <;> exact ⟨tested.requests, client, noNodes, fun failed => absurd rfl failed⟩

end BandwidthPlan

namespace Console

theorem client_switchTab (console : Console) (app : App) :
    (console.switchTab app).1.session.selection.get .client =
      console.session.selection.get .client := by
  obtain ⟨notices, switched⟩ := console.session.switchTab_frame app console.clock.steady
  have selection := congrArg Session.selection switched
  unfold switchTab
  split
  · rename_i held
    rw [held] at selection
    rw [selection]
  · rename_i shown
    rw [shown] at selection
    split
    · rename_i chosen
      rw [(Selection.selected_of_select chosen).2 .client (by decide), selection]
    · rw [selection]

theorem client_chooseServer
    {console ready : Console}
    {app : App}
    {server : Option String}
    (chosen : console.chooseServer app server = .ok ready) :
    ready.session.selection.get .client = console.session.selection.get .client := by
  unfold chooseServer at chosen
  cases server with
  | none =>
      cases chosen
      rfl
  | some name =>
      obtain ⟨found, named, kept⟩ := exists_of_bind_eq_ok chosen
      cases kept
      exact (Selection.selected_of_selectNamed named).2 .client (by decide)

/-- Running a client is its first request, and no nodes are asked for after it. -/
theorem exists_requests_runCommand
    {console : Console}
    {form : Form}
    (formed : console.session.form = .ok form)
    (stage : Stage) :
    ∃ images,
      (console.runCommand.play stage).1.requests = stage.requests ++ .command form :: images ∧
      ∀ list, .nodes list ∉ images := by
  obtain ⟨-, -, -, withImage, without⟩ := exists_play_runCommand_eq formed stage
  by_cases leaves : console.LeavesImage (shownText (stage.reply 0))
  · refine ⟨_, (withImage leaves).1, ?_⟩
    unfold Stage.imageRequests
    split <;> simp
  · exact ⟨[], (without leaves).1, nofun⟩

/-- The command of another application either fails before its only run or makes it. -/
theorem exists_carried_app
    (terminal : Display.Terminal)
    (app : App)
    (server : Option String)
    (console : Console)
    (stage : Stage) :
    let played := (console.carryOutApp terminal app server).play stage
    ∃ requested,
      Carried requested (stage, console) played ∧
      (played.2.2 = none → ∃ form, .command form ∈ requested) := by
  intro played
  have switches := console.client_switchTab app
  simp only [played, carryOutApp]
  split
  · rename_i held heldEq
    rw [heldEq] at switches
    exact ⟨[], .ofFailure switches stage _, nofun⟩
  · rename_i switched switchedEq
    rw [switchedEq] at switches
    split
    · exact ⟨[], .ofFailure switches stage _, nofun⟩
    · rename_i ready chosen
      have chooses := (client_chooseServer chosen).trans switches
      simp only [Dialogue.play_bind]
      cases formed : ready.session.form with
      | error error =>
          rw [play_runCommand_of_error formed]
          exact ⟨[], .ofFailure chooses stage _, nofun⟩
      | ok form =>
          obtain ⟨next, outcome, answered, -⟩ := exists_play_runCommand_eq formed stage
          obtain ⟨images, requests, noNodes⟩ := exists_requests_runCommand formed stage
          rw [outcome]
          have client := congrArg (Selection.get · .client) answered.setup.selection.symm
          refine ⟨_, ⟨requests, client.trans chooses, ?_, fun failed => absurd rfl failed⟩,
            fun _ => ⟨form, List.mem_cons_self⟩⟩
          intro list member
          rcases List.mem_cons.mp member with command | image
          · cases command
          · exact noNodes list image

end Console

/-- Carrying out a command that does not fail runs a client, unless nodes are to be listed. -/
theorem ConsoleCommand.exists_carried
    (command : ConsoleCommand)
    (settings : Settings)
    (terminal : Display.Terminal)
    (patience : Nat)
    {console : Console}
    (active : console.session.activeApp = .bandwidth)
    (stage : Stage) :
    let played := (command.carryOut settings terminal patience console).play stage
    ∃ requested,
      Carried requested (stage, console) played ∧
      (played.2.2 = none → ((∃ form, .command form ∈ requested) ↔ command ≠ .nodes)) := by
  intro played
  cases command with
  | bandwidth plan =>
      obtain ⟨requested, carried, runs⟩ := plan.exists_carried terminal patience active stage
      exact ⟨requested, carried, fun done => ⟨nofun, fun _ => runs done⟩⟩
  | camera =>
      obtain ⟨requested, carried, runs⟩ :=
        console.exists_carried_app terminal .camera settings.server stage
      exact ⟨requested, carried, fun done => ⟨nofun, fun _ => runs done⟩⟩
  | sensor =>
      obtain ⟨requested, carried, runs⟩ :=
        console.exists_carried_app terminal .sensor settings.server stage
      exact ⟨requested, carried, fun done => ⟨nofun, fun _ => runs done⟩⟩
  | nodes =>
      refine ⟨[], ⟨(List.append_nil _).symm, rfl, nofun, fun _ => rfl⟩, fun _ => ?_⟩
      simp

theorem Invocation.activeApp_console
    (invocation : Invocation)
    (surroundings : Surroundings)
    (clock : Clock) :
    (invocation.console surroundings clock).session.activeApp = .bandwidth :=
  congrArg Dispatcher.activeApp (Session.dispatcher_start _ _)

/-- Where a command fails it has not run a client, and where it does not fail it has, unless
the nodes were to be listed. A client is only run after the nodes were asked for twice: for the
clients, and for the servers that go with the client that is chosen in the end. -/
theorem Invocation.requests_of_completion
    (invocation : Invocation)
    (surroundings : Surroundings)
    (patience : Nat)
    (clock : Clock)
    (stage : Stage) :
    let played := (invocation.completion surroundings patience clock).play stage
    let finished := played.2.1.session
    let failure := played.2.2
    (invocation.carryOut surroundings patience clock).play stage = (played.1, failure) ∧
      ∃ requested,
        played.1.requests = stage.requests ++ requested ∧
        (failure ≠ none → ∀ form, .command form ∉ requested) ∧
        (failure = none →
          ((∃ form, .command form ∈ requested) ↔ invocation.command ≠ .nodes)) ∧
        ∀ form, .command form ∈ requested → ∃ client later,
          finished.selection.selected .client finished.activeApp = .ok client ∧
          requested = .nodes .clientsDefault :: .nodes (.serversFor client) :: later ∧
          ∀ list, .nodes list ∉ later := by
  intro played finished failure
  refine ⟨by rw [carryOut, Dialogue.play_bind]; rfl, ?_⟩
  have active := invocation.activeApp_console surroundings clock
  obtain ⟨loading, loads, noCommand, succeeds⟩ := Console.play_loadNodes invocation.settings.client
    invocation.firstServer (invocation.console surroundings clock) stage
  simp only [finished, failure, played, completion, Dialogue.play_bind]
  generalize (Console.loadNodes invocation.settings.client invocation.firstServer
    (invocation.console surroundings clock)).play stage = loaded at *
  obtain ⟨ready, console, result⟩ := loaded
  cases result with
  | error error =>
      exact ⟨loading, loads, fun _ => noCommand, nofun,
        fun form member => absurd member (noCommand form)⟩
  | ok done =>
      obtain ⟨dispatcher, client, rfl, chosen⟩ := succeeds rfl
      obtain ⟨requested, carried, runs⟩ := invocation.command.exists_carried invocation.settings
        surroundings.terminal patience ((congrArg _ dispatcher).trans active) ready
      simp only [Dialogue.play_bind]
      generalize (invocation.command.carryOut invocation.settings surroundings.terminal patience
        console).play ready = carriedOut at *
      -- Loading runs no client, so the command alone decides whether one is run.
      have member_iff : ∀ form,
          .command form ∈ [.nodes .clientsDefault, .nodes (.serversFor client)] ++ requested ↔
            .command form ∈ requested := by
        simp
      refine ⟨[.nodes .clientsDefault, .nodes (.serversFor client)] ++ requested, ?_, ?_, ?_, ?_⟩
      · rw [← List.append_assoc, ← loads]
        exact carried.requests
      · intro failed form
        rw [member_iff, carried.failed failed]
        exact List.not_mem_nil
      · intro succeeded
        simp only [member_iff]
        exact runs succeeded
      · intro form member
        refine ⟨client, requested, ?_, rfl, carried.noNodes⟩
        exact Selection.selected_client_of_selected
          ((Selection.selected_congr carried.client _).trans chosen) _

end NetworkConsole
