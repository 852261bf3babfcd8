import NetworkConsole.Command.Tabs

/-!
# Test nodes

A node is an end point of a test. It is known by a name and has the address of its
autonomous system, a host address and a port.
-/

namespace NetworkConsole

/-- An end point of a test. -/
structure Node where
  name : String
  isdas : String
  addr : String
  port : UInt16
  deriving DecidableEq, Repr

/-- The address of a node's autonomous system with colons where files may have
underscores. -/
def Node.ia (node : Node) : String :=
  String.ofList (node.isdas.toList.map fun character => if character = '_' then ':' else character)

/-- The side of a test that a node takes. -/
inductive Role
  | client
  | server
  deriving DecidableEq, Repr

namespace Role

/-- Both roles. -/
def all : List Role := [.client, .server]

/-- Suffix of the form fields of a role. -/
def suffix : Role → String
  | .client => "cli"
  | .server => "ser"

end Role

/-- A named list of nodes that the backend serves. -/
inductive NodeList
  | clientsDefault
  | serversDefault
  | serversUser
  deriving DecidableEq, Repr

namespace NodeList

/-- Name of a list in a request. -/
def name : NodeList → String
  | .clientsDefault => "clients_default"
  | .serversDefault => "servers_default"
  | .serversUser => "servers_user"

/-- Name of the client that is the loop back to the same host. -/
def loopback : String := "lo"

/-- The list of servers for a client: the user's own servers for the loop back. -/
def serversFor (client : Node) : NodeList :=
  if client.name = loopback then .serversUser else .serversDefault

end NodeList

end NetworkConsole
