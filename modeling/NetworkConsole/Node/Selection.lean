import NetworkConsole.Console.Error
import NetworkConsole.Node.Catalog

/-!
# Node selection

For each role the console keeps the loaded catalog and the index of the chosen node. The
servers on offer depend on the application, and one index serves all applications; where
it points past the end of a list, the first node stands for it.
-/

namespace NetworkConsole

/-- The catalog that the backend answered with, or the remark on a text that is not one. -/
def Catalog.read (remark : String → String) (text : String) : Except ConsoleError Catalog :=
  match Catalog.ofJson? text with
  | some catalog => .ok catalog
  | none => .error (.contract (.malformedCatalog (remark text)))

/-- The catalog of a role and the index chosen in its lists. -/
structure RoleSelection where
  catalog : Option Catalog
  index : Nat
  deriving DecidableEq, Repr

/-- The selections of both roles. -/
structure Selection where
  client : RoleSelection
  server : RoleSelection
  deriving DecidableEq, Repr

namespace Selection

/-- A selection before any catalog is loaded. -/
def empty : Selection := ⟨⟨none, 0⟩, ⟨none, 0⟩⟩

/-- The selection of a role. -/
def get (selection : Selection) : Role → RoleSelection
  | .client => selection.client
  | .server => selection.server

/-- Replace the selection of a role. -/
def set (selection : Selection) (role : Role) (value : RoleSelection) : Selection :=
  match role with
  | .client => { selection with client := value }
  | .server => { selection with server := value }

@[simp] theorem get_set_same (selection : Selection) (role : Role) (value : RoleSelection) :
    (selection.set role value).get role = value := by
  cases role <;> rfl

theorem get_set_of_ne
    (selection : Selection)
    {role other : Role}
    (different : other ≠ role)
    (value : RoleSelection) :
    (selection.set role value).get other = selection.get other := by
  cases role <;> cases other <;> first | rfl | exact absurd rfl different

/-- Load a catalog for a role and choose the first node. -/
def setCatalog (selection : Selection) (role : Role) (catalog : Catalog) : Selection :=
  selection.set role ⟨some catalog, 0⟩

/-- Key of the list of clients, which serves every application. -/
def clientKey : String := "all"

/-- Key of the list that a role is offered while an application's tab is shown. -/
def key (role : Role) (app : App) : String :=
  match role with
  | .client => clientKey
  | .server => app.name

/-- The nodes on offer. -/
def options (selection : Selection) (role : Role) (app : App) : Except ConsoleError (List Node) :=
  match (selection.get role).catalog with
  | none => .error (.contract (.noNodeList role))
  | some catalog =>
      match catalog.nodes? (key role app) with
      | none => .error (.contract (.noEntry (key role app)))
      | some nodes => .ok nodes

/-- The chosen node. -/
def selected (selection : Selection) (role : Role) (app : App) : Except ConsoleError Node := do
  let nodes ← selection.options role app
  match nodes[(selection.get role).index]?.or nodes.head? with
  | some node => .ok node
  | none => .error (.contract (.emptyList role app))

/-- Choose the node at an index. -/
def select (selection : Selection) (role : Role) (app : App) (index : Nat) :
    Except ConsoleError (Selection × Node) := do
  let nodes ← selection.options role app
  match nodes[index]? with
  | some node =>
      .ok (selection.set role { selection.get role with index }, node)
  | none => .error (.configuration (.noNodeAt role index nodes.length))

/-- Choose the first node with a name. -/
def selectNamed (selection : Selection) (role : Role) (app : App) (name : String) :
    Except ConsoleError (Selection × Node) := do
  let nodes ← selection.options role app
  match nodes.findIdx? (·.name = name) with
  | some index => selection.select role app index
  | none => .error (.configuration (.noNodeNamed role name))

/-- Form fields of the chosen node. -/
def formFields (selection : Selection) (role : Role) (app : App) :
    Except ConsoleError (List (String × String)) := do
  let node ← selection.selected role app
  .ok
    [("ia_" ++ role.suffix, node.ia), ("addr_" ++ role.suffix, node.addr),
     ("port_" ++ role.suffix, toString node.port.toNat)]

end Selection

end NetworkConsole
