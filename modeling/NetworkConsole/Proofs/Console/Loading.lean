import NetworkConsole.Proofs.CommandLine.Requests
import NetworkConsole.Proofs.Node.History

/-!
# Loading the nodes

The clients are loaded before the servers, and the servers are those that go with the client
that is chosen then. Loading can fail at either reply and at either choice. It stops at the
first failure, which is put up as the only notice, and what the later steps would have set is
left as it was.
-/

namespace NetworkConsole

/-! ## Fresh catalogs -/

/-- The nodes that a catalog lists for a role and an application, none without such a list. -/
def Catalog.nodesFor (catalog : Catalog) (role : Role) (app : App) : List Node :=
  (catalog.nodes? (Selection.key role app)).getD []

/-- The first node with a given name, or the first node where no name is given. -/
def nodeFor? (nodes : List Node) : Option String → Option Node
  | none => nodes.head?
  | some name => nodes.find? (·.name = name)

namespace Selection

/-- A catalog has just been loaded for a role. -/
def Fresh (selection : Selection) (role : Role) (catalog : Catalog) : Prop :=
  selection.get role = ⟨some catalog, 0⟩

theorem fresh_setCatalog (selection : Selection) (role : Role) (catalog : Catalog) :
    (selection.setCatalog role catalog).Fresh role catalog :=
  get_set_same selection role _

namespace Fresh

variable {selection : Selection} {role : Role} {catalog : Catalog}

theorem listed_eq (fresh : selection.Fresh role catalog) (app : App) :
    selection.listed role app = catalog.nodesFor role app := by
  unfold listed options Catalog.nodesFor
  rw [fresh]
  cases named : catalog.nodes? (key role app) <;> simp [named]

/-- The first node of a fresh catalog is the chosen one. -/
theorem selected_eq_ok_iff (fresh : selection.Fresh role catalog) (app : App) (node : Node) :
    selection.selected role app = .ok node ↔
      nodeFor? (catalog.nodesFor role app) none = some node := by
  rw [Selection.selected_eq_ok_iff, fresh.listed_eq, fresh, nodeAt?_eq, ← List.head?_eq_getElem?,
    Option.or_self, nodeFor?]

theorem nodeFor?_of_selectNamed
    {app : App}
    {name : String}
    {later : Selection}
    {node : Node}
    (fresh : selection.Fresh role catalog)
    (chosen : selection.selectNamed role app name = .ok (later, node)) :
    nodeFor? (catalog.nodesFor role app) (some name) = some node ∧
      (later.get role).catalog = some catalog := by
  obtain ⟨index, found, present, rfl⟩ := (selectNamed_eq_ok_iff _ _ _ _ _ _).mp chosen
  rw [fresh.listed_eq] at found present
  rw [nodeFor?, List.find?_eq_bind_findIdx?_getElem?, found, get_set_same, fresh]
  exact ⟨present, rfl⟩

theorem nodeFor?_of_refused
    {app : App}
    {name : String}
    {error : ConsoleError}
    (fresh : selection.Fresh role catalog)
    (refused : selection.selectNamed role app name = .error error) :
    nodeFor? (catalog.nodesFor role app) (some name) = none := by
  rw [← fresh.listed_eq]
  cases found : nodeFor? (selection.listed role app) (some name) with
  | none => rfl
  | some node =>
      rw [nodeFor?, List.find?_eq_bind_findIdx?_getElem?, Option.bind_eq_some_iff] at found
      obtain ⟨index, isIndex, present⟩ := found
      have chosen := (selectNamed_eq_ok_iff _ _ _ _ _ _).mpr ⟨index, isIndex, present, rfl⟩
      cases refused.symm.trans chosen

end Fresh
end Selection

/-! ## Steps -/

namespace Stage

/-- The catalog in the reply that is still to come after `index` others, if it is one. -/
def catalog? (stage : Stage) (index : Nat) : Option Catalog :=
  (stage.reply index).toOption.bind Catalog.ofJson?

/-- That reply as the console reads it, with the remark on a text that is not a catalog. -/
def catalogReply (stage : Stage) (remark : String → String) (index : Nat) :
    Except ConsoleError Catalog :=
  (stage.reply index).bind (Catalog.read remark)

@[simp] theorem catalogReply_ask
    (stage : Stage)
    (request : Request)
    (remark : String → String)
    (index : Nat) :
    (stage.ask request).1.catalogReply remark index = stage.catalogReply remark (index + 1) := by
  simp only [catalogReply, reply_ask]

/-- What is remarked does not matter for whether a reply is a catalog. -/
theorem toOption_catalogReply (stage : Stage) (remark : String → String) (index : Nat) :
    (stage.catalogReply remark index).toOption = stage.catalog? index := by
  unfold catalogReply catalog?
  cases stage.reply index with
  | error error => rfl
  | ok text =>
      change (Catalog.read remark text).toOption = Catalog.ofJson? text
      unfold Catalog.read
      cases Catalog.ofJson? text <;> rfl

theorem catalog?_of_error
    {stage : Stage}
    {remark : String → String}
    {index : Nat}
    {error : ConsoleError}
    (failed : stage.catalogReply remark index = .error error) :
    stage.catalog? index = none := by
  rw [← stage.toOption_catalogReply remark, failed]
  rfl

theorem catalog?_of_ok
    {stage : Stage}
    {remark : String → String}
    {index : Nat}
    {catalog : Catalog}
    (read : stage.catalogReply remark index = .ok catalog) :
    stage.catalog? index = some catalog := by
  rw [← stage.toOption_catalogReply remark, read]
  rfl

end Stage

namespace Console

/-- The console once a request has been answered. -/
def afterAnswer (console : Console) (stage : Stage) (request : Request) : Console :=
  { console with clock := (stage.ask request).2.clock }

/-- Choose the server with a given name, if a name is given. -/
def pickServer (server : Option String) (console : Console) :
    Console × Except ConsoleError Unit :=
  match server with
  | none => (console, .ok ())
  | some name =>
      match console.session.selection.selectNamed .server console.session.activeApp name with
      | .error error => console.giveUp error
      | .ok (selection, _) => (console.withSelection selection, .ok ())

@[simp] theorem selection_withSelection (console : Console) (selection : Selection) :
    (console.withSelection selection).session.selection = selection := rfl

@[simp] theorem activeApp_withSelection (console : Console) (selection : Selection) :
    (console.withSelection selection).session.activeApp = console.session.activeApp := rfl

theorem play_fetchCatalog_eq (list : NodeList) (console : Console) (stage : Stage) :
    (console.fetchCatalog list).play stage =
      ((stage.ask (.nodes list)).1, console.afterAnswer stage (.nodes list),
        stage.catalogReply console.remarks.onText 0) :=
  console.play_fetchCatalog list stage

theorem play_selectClient_eq
    (client : Node)
    (server : Option String)
    (console : Console)
    (stage : Stage) :
    let request := Request.nodes (.serversFor client)
    let waiting := console.afterAnswer stage request
    (console.selectClient client server).play stage =
      ((stage.ask request).1,
        match stage.catalogReply console.remarks.onText 0 with
        | .error error => waiting.giveUp error
        | .ok servers =>
            (waiting.withSelection
              (waiting.session.selection.setCatalog .server servers)).pickServer server) := by
  simp only [selectClient, Dialogue.play_bind, play_fetchCatalog_eq]
  generalize console.afterAnswer stage (.nodes (.serversFor client)) = waiting
  cases stage.catalogReply console.remarks.onText 0 with
  | error error => rfl
  | ok servers =>
      cases server with
      | none => rfl
      | some name =>
          simp only [pickServer, selection_withSelection, activeApp_withSelection]
          cases (waiting.session.selection.setCatalog .server servers).selectNamed .server
            waiting.session.activeApp name <;> rfl

theorem play_loadNodes_eq
    (client server : Option String)
    (console : Console)
    (stage : Stage) :
    let asked := (stage.ask (.nodes .clientsDefault)).1
    let waiting := console.afterAnswer stage (.nodes .clientsDefault)
    (console.loadNodes client server).play stage =
      match stage.catalogReply console.remarks.onText 0 with
      | .error error => (asked, waiting.giveUp error)
      | .ok clients =>
          let loaded := waiting.withSelection
            (waiting.session.selection.setCatalog .client clients)
          match loaded.chooseClient client with
          | .error error => (asked, loaded.giveUp error)
          | .ok (selection, node) =>
              ((loaded.withSelection selection).selectClient node server).play asked := by
  simp only [loadNodes, Dialogue.play_bind, play_fetchCatalog_eq]
  generalize console.afterAnswer stage (.nodes .clientsDefault) = waiting
  cases stage.catalogReply console.remarks.onText 0 with
  | error error => rfl
  | ok clients =>
      dsimp only
      generalize waiting.withSelection (waiting.session.selection.setCatalog .client clients) =
        loaded
      cases loaded.chooseClient client <;> rfl

section

variable {console : Console} {client server : Option String} {clients servers : Catalog}

theorem nodeFor?_of_chooseClient
    {selection : Selection}
    {node : Node}
    (fresh : console.session.selection.Fresh .client clients)
    (chosen : console.chooseClient client = .ok (selection, node)) :
    nodeFor? (clients.nodesFor .client console.session.activeApp) client = some node ∧
      (selection.get .client).catalog = some clients ∧
      selection.get .server = console.session.selection.get .server := by
  unfold chooseClient at chosen
  cases client with
  | some name =>
      obtain ⟨found, loaded⟩ := fresh.nodeFor?_of_selectNamed chosen
      exact ⟨found, loaded, (Selection.selected_of_selectNamed chosen).2 _ (by decide)⟩
  | none =>
      obtain ⟨same, isNode, isPair⟩ := map_eq_ok_iff.mp chosen
      cases isPair
      refine ⟨(fresh.selected_eq_ok_iff _ _).mp isNode, ?_, rfl⟩
      rw [fresh]

theorem nodeFor?_of_noClient
    {error : ConsoleError}
    (fresh : console.session.selection.Fresh .client clients)
    (refused : console.chooseClient client = .error error) :
    nodeFor? (clients.nodesFor .client console.session.activeApp) client = none := by
  unfold chooseClient at refused
  cases client with
  | some name => exact fresh.nodeFor?_of_refused refused
  | none =>
      cases found : nodeFor? (clients.nodesFor .client console.session.activeApp) none with
      | none => rfl
      | some node =>
          dsimp only at refused
          rw [(fresh.selected_eq_ok_iff _ _).mpr found] at refused
          cases refused

end

end Console

/-! ## Outcomes -/

/-- Both replies are catalogs, and the client is found in the first one. -/
structure Stage.Serves
    (stage : Stage)
    (app : App)
    (client : Option String)
    (clients : Catalog)
    (chosen : Node)
    (servers : Catalog) : Prop where
  firstReply : stage.catalog? 0 = some clients
  isChosen : nodeFor? (clients.nodesFor .client app) client = some chosen
  secondReply : stage.catalog? 1 = some servers

theorem Stage.Serves.unique
    {stage : Stage}
    {app : App}
    {client : Option String}
    {clients otherClients servers otherServers : Catalog}
    {chosen other : Node}
    (serves : stage.Serves app client clients chosen servers)
    (servesOther : stage.Serves app client otherClients other otherServers) :
    otherClients = clients ∧ other = chosen ∧ otherServers = servers := by
  cases serves.firstReply.symm.trans servesOther.firstReply
  cases serves.isChosen.symm.trans servesOther.isChosen
  cases serves.secondReply.symm.trans servesOther.secondReply
  exact ⟨rfl, rfl, rfl⟩

namespace Console

/-- A server is found, unless one is named that the catalog does not list. -/
def FindsServer (servers : Catalog) (app : App) (server : Option String) : Prop :=
  server ≠ none → nodeFor? (servers.nodesFor .server app) server ≠ none

/-- What loading the nodes comes to: it is given up before there are servers, it is given up
because the named server is missing, or it is done. -/
inductive LoadOutcome
    (client server : Option String)
    (before : Session)
    (stage : Stage) : Console × Except ConsoleError Unit → Prop
  | unserved
      {selection : Selection}
      {clock : Clock}
      {remarks : Remarks}
      {error : ConsoleError}
      (noServers : ∀ clients chosen servers,
        ¬ stage.Serves before.activeApp client clients chosen servers)
      (kept : selection.get .server = before.selection.get .server)
      (unanswered : stage.catalog? 0 = none → selection = before.selection) :
      LoadOutcome client server before stage
        ((⟨{ before with selection }, clock, remarks⟩ : Console).giveUp error)
  | missing
      {selection : Selection}
      {clock : Clock}
      {remarks : Remarks}
      {error : ConsoleError}
      {clients servers : Catalog}
      {chosen : Node}
      (serves : stage.Serves before.activeApp client clients chosen servers)
      (noServer : ¬ FindsServer servers before.activeApp server) :
      LoadOutcome client server before stage
        ((⟨{ before with selection }, clock, remarks⟩ : Console).giveUp error)
  | done
      {selection : Selection}
      {clock : Clock}
      {remarks : Remarks}
      {clients servers : Catalog}
      {chosen : Node}
      (serves : stage.Serves before.activeApp client clients chosen servers)
      (finds : FindsServer servers before.activeApp server)
      (clientCatalog : (selection.get .client).catalog = some clients)
      (isClient : selection.selected .client before.activeApp = .ok chosen)
      (serverCatalog : (selection.get .server).catalog = some servers)
      (isServer : ∀ node,
        nodeFor? (servers.nodesFor .server before.activeApp) server = some node →
          selection.selected .server before.activeApp = .ok node) :
      LoadOutcome client server before stage
        (⟨{ before with selection }, clock, remarks⟩, .ok ())

theorem loadOutcome_pickServer
    {client server : Option String}
    {before : Session}
    {stage : Stage}
    {clients servers : Catalog}
    {chosen : Node}
    {selection : Selection}
    {clock : Clock}
    {remarks : Remarks}
    (serves : stage.Serves before.activeApp client clients chosen servers)
    (clientCatalog : (selection.get .client).catalog = some clients)
    (isClient : selection.selected .client before.activeApp = .ok chosen)
    (fresh : selection.Fresh .server servers) :
    LoadOutcome client server before stage
      ((⟨{ before with selection }, clock, remarks⟩ : Console).pickServer server) := by
  unfold pickServer
  cases server with
  | none =>
      have finds : FindsServer servers before.activeApp none := absurd rfl
      refine .done serves finds clientCatalog isClient ?_ fun node => ?_
      · rw [fresh]
      · exact (fresh.selected_eq_ok_iff _ node).mpr
  | some name =>
      dsimp only
      split
      · rename_i error refused
        have missing := fresh.nodeFor?_of_refused refused
        exact .missing serves fun finds => finds nofun missing
      · rename_i later node choice
        obtain ⟨found, serverCatalog⟩ := fresh.nodeFor?_of_selectNamed choice
        obtain ⟨selected, kept⟩ := Selection.selected_of_selectNamed choice
        have sameClient := kept .client (by decide)
        refine .done serves (fun _ noServer => ?_) ?_ ?_ serverCatalog ?_
        · cases found.symm.trans noServer
        · rw [sameClient, clientCatalog]
        · rw [Selection.selected_congr sameClient, isClient]
        · rintro other isOther
          cases found.symm.trans isOther
          exact selected

theorem loadOutcome_loadNodes
    (client server : Option String)
    (console : Console)
    (stage : Stage) :
    LoadOutcome client server console.session stage
      ((console.loadNodes client server).play stage).2 := by
  have serverOnly : Role.client ≠ Role.server := by decide
  rw [play_loadNodes_eq]
  cases first : stage.catalogReply console.remarks.onText 0 with
  | error error =>
      refine .unserved (fun _ _ _ serves => ?_) rfl fun _ => rfl
      cases (Stage.catalog?_of_error first).symm.trans serves.firstReply
  | ok clients =>
      have isCatalog := Stage.catalog?_of_ok first
      have freshClients := console.session.selection.fresh_setCatalog .client clients
      dsimp only
      split
      · rename_i error refused
        have noClient := nodeFor?_of_noClient freshClients refused
        refine .unserved (fun _ _ _ serves => ?_) ?_ fun fails => nomatch isCatalog.symm.trans fails
        · cases isCatalog.symm.trans serves.firstReply
          cases noClient.symm.trans serves.isChosen
        · exact Selection.get_set_of_ne _ serverOnly.symm _
      · rename_i selection chosen choice
        obtain ⟨isChosen, clientCatalog, kept⟩ := nodeFor?_of_chooseClient freshClients choice
        have isClient := selected_of_chooseClient choice
        rw [play_selectClient_eq, Stage.catalogReply_ask]
        dsimp only [withSelection, afterAnswer]
        cases second : stage.catalogReply console.remarks.onText 1 with
        | error error =>
            refine .unserved (fun _ _ _ serves => ?_) ?_ fun fails =>
              nomatch isCatalog.symm.trans fails
            · cases (Stage.catalog?_of_error second).symm.trans serves.secondReply
            · exact kept.trans (Selection.get_set_of_ne _ serverOnly.symm _)
        | ok servers =>
            have serves : stage.Serves console.session.activeApp client clients chosen servers :=
              ⟨isCatalog, isChosen, Stage.catalog?_of_ok second⟩
            have keptClient := selection.get_set_of_ne serverOnly ⟨some servers, 0⟩
            have fresh := selection.fresh_setCatalog .server servers
            exact loadOutcome_pickServer serves
              ((congrArg RoleSelection.catalog keptClient).trans clientCatalog)
              ((Selection.selected_congr keptClient _).trans isClient) fresh

namespace LoadOutcome

variable
  {client server : Option String}
  {before : Session}
  {stage : Stage}
  {settled : Console × Except ConsoleError Unit}

theorem eq_ok_iff (outcome : LoadOutcome client server before stage settled) :
    settled.2 = .ok () ↔
      ∃ clients chosen servers,
        stage.Serves before.activeApp client clients chosen servers ∧
          FindsServer servers before.activeApp server := by
  cases outcome with
  | unserved noServers =>
      refine iff_of_false nofun ?_
      rintro ⟨clients, chosen, servers, serves, -⟩
      exact noServers clients chosen servers serves
  | missing serves noServer =>
      refine iff_of_false nofun ?_
      rintro ⟨clients, chosen, servers, servesOther, finds⟩
      obtain ⟨-, -, rfl⟩ := serves.unique servesOther
      exact noServer finds
  | done serves finds => exact iff_of_true rfl ⟨_, _, _, serves, finds⟩

theorem selection_of_ok
    (outcome : LoadOutcome client server before stage settled)
    (succeeded : settled.2 = .ok ())
    {clients servers : Catalog}
    {chosen : Node}
    (serves : stage.Serves before.activeApp client clients chosen servers) :
    let selection := settled.1.session.selection
    settled.1.session = { before with selection } ∧
      (selection.get .client).catalog = some clients ∧
      selection.selected .client before.activeApp = .ok chosen ∧
      (selection.get .server).catalog = some servers ∧
      ∀ node, nodeFor? (servers.nodesFor .server before.activeApp) server = some node →
        selection.selected .server before.activeApp = .ok node := by
  cases outcome with
  | unserved => cases succeeded
  | missing => cases succeeded
  | done servesOther finds clientCatalog isClient serverCatalog isServer =>
      obtain ⟨rfl, rfl, rfl⟩ := servesOther.unique serves
      exact ⟨rfl, clientCatalog, isClient, serverCatalog, isServer⟩

theorem session_of_error
    (outcome : LoadOutcome client server before stage settled)
    {error : ConsoleError}
    (failed : settled.2 = .error error) :
    let after := settled.1.session
    after.notices = before.notices.post error.message settled.1.clock.steady ∧
      ((∀ clients chosen servers,
          ¬ stage.Serves before.activeApp client clients chosen servers) →
        after.selection.get .server = before.selection.get .server) ∧
      (stage.catalog? 0 = none → after = { before with notices := after.notices }) := by
  cases outcome with
  | unserved noServers kept unanswered =>
      cases failed
      refine ⟨rfl, fun _ => kept, fun fails => ?_⟩
      rw [unanswered fails]
      rfl
  | missing serves =>
      cases failed
      refine ⟨rfl, fun noServers => absurd serves (noServers _ _ _), fun fails => ?_⟩
      cases fails.symm.trans serves.firstReply
  | done => cases failed

end LoadOutcome

/-- Loading the nodes succeeds exactly if both replies are catalogs, the client is found in the
first one, and a named server in the second one. Then the catalogs are those of the replies,
the second one being that of the servers that go with the client, and the chosen nodes are the
first ones with the given names, or the first ones where no name is given. A failure is put up
as the only notice; the servers stay as they were unless both replies had been taken, and
nothing but the notices changes where the first reply was no catalog. -/
theorem loadNodes_settles
    (client server : Option String)
    (console : Console)
    (stage : Stage) :
    let played := (console.loadNodes client server).play stage
    let before := console.session
    let after := played.2.1.session
    let app := before.activeApp
    (played.2.2 = .ok () ↔
      ∃ clients chosen servers, stage.Serves app client clients chosen servers ∧
        FindsServer servers app server) ∧
    (∀ clients chosen servers, stage.Serves app client clients chosen servers →
      played.2.2 = .ok () →
        played.1.requests =
          stage.requests ++ [.nodes .clientsDefault, .nodes (.serversFor chosen)] ∧
        (after.selection.get .client).catalog = some clients ∧
        after.selection.selected .client app = .ok chosen ∧
        (after.selection.get .server).catalog = some servers ∧
        (∀ node, nodeFor? (servers.nodesFor .server app) server = some node →
          after.selection.selected .server app = .ok node) ∧
        after = { before with selection := after.selection }) ∧
    ∀ error, played.2.2 = .error error →
      after.notices = before.notices.post error.message played.2.1.clock.steady ∧
      ((∀ clients chosen servers, ¬ stage.Serves app client clients chosen servers) →
        after.selection.get .server = before.selection.get .server) ∧
      (stage.catalog? 0 = none → after = { before with notices := after.notices }) := by
  intro played before after app
  have outcome : LoadOutcome client server before stage played.2 :=
    loadOutcome_loadNodes client server console stage
  refine ⟨outcome.eq_ok_iff, fun clients chosen servers serves succeeded => ?_, fun error => ?_⟩
  · obtain ⟨session, clientCatalog, isClient, serverCatalog, isServer⟩ :=
      outcome.selection_of_ok succeeded serves
    obtain ⟨requested, requests, -, whenDone⟩ := play_loadNodes client server console stage
    obtain ⟨-, other, rfl, isOther⟩ := whenDone succeeded
    cases isClient.symm.trans isOther
    exact ⟨requests, clientCatalog, isClient, serverCatalog, isServer, session⟩
  · exact outcome.session_of_error

end Console
end NetworkConsole
