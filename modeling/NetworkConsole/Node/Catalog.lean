import NetworkConsole.Json.Value
import NetworkConsole.Node.Basic
import NetworkConsole.Number.Numeral
import NetworkConsole.Text.Blank

/-!
# Node catalogs

A catalog is a JSON object whose members are lists of nodes. A node is an object with the
fields `name`, `isdas`, `addr` and `port`, each exactly once, among other fields that are
passed over; or it is an array of the four values in that order. A port is a number or a
text with blanks allowed around the number.
-/

namespace NetworkConsole

/-- Lists of nodes under keys, in the order in which they were read. -/
structure Catalog where
  entries : List (String × List Node)
  deriving DecidableEq, Repr

namespace Catalog

open Json (Reader Token)

/-- The last list read under a key. -/
def nodes? (catalog : Catalog) (key : String) : Option (List Node) :=
  catalog.entries.foldl (fun found entry => if entry.1 = key then some entry.2 else found) none

/-- Read a text. -/
def readText : Reader String
  | .text (some content) :: rest => some (String.ofList content, rest)
  | _ => none

/-- One more than the greatest port. -/
def portLimit : Nat := 65536

/-- Read a port. -/
def readPort : Reader UInt16
  | .number (some value) :: rest =>
      if value < portLimit then some (UInt16.ofNat value, rest) else none
  | .text (some content) :: rest =>
      match Number.readNat portLimit (Text.trim content) with
      | .ok value => some (UInt16.ofNat value, rest)
      | .error _ => none
  | _ => none

/-- A member of a node object. -/
inductive Member
  | name (value : String)
  | isdas (value : String)
  | addr (value : String)
  | port (value : UInt16)
  | other
  deriving DecidableEq, Repr

/-- Apply a constructor to what a reader reads. -/
def readAs (reader : Reader α) (wrap : α → Member) : Reader Member := fun tokens =>
  (reader tokens).map fun (value, rest) => (wrap value, rest)

/-- Read the value of a member with a given name. -/
def readMemberValue (name : String) : Reader Member :=
  match name with
  | "name" => readAs readText .name
  | "isdas" => readAs readText .isdas
  | "addr" => readAs readText .addr
  | "port" => readAs readPort .port
  | _ => fun tokens => (Json.skipValue tokens).map fun rest => (.other, rest)

/-- Read a member of a node object. -/
def readMember : Reader Member
  | .text (some name) :: .colon :: rest => readMemberValue (String.ofList name) rest
  | _ => none

/-- The only element of a list. -/
def only? : List α → Option α
  | [value] => some value
  | _ => none

/-- The node of an object's members. -/
def nodeOf? (members : List Member) : Option Node := do
  let name ← only? (members.filterMap fun | .name value => some value | _ => none)
  let isdas ← only? (members.filterMap fun | .isdas value => some value | _ => none)
  let addr ← only? (members.filterMap fun | .addr value => some value | _ => none)
  let port ← only? (members.filterMap fun | .port value => some value | _ => none)
  some { name, isdas, addr, port }

/-- Read a token that must be there. -/
def readToken (expected : Token) : Reader Unit
  | token :: rest => if token = expected then some ((), rest) else none
  | [] => none

/-- Read the four values of a node that is written as an array. -/
def readNodeItems : Reader Node := fun tokens => do
  let (name, rest) ← readText tokens
  let (_, rest) ← readToken .comma rest
  let (isdas, rest) ← readText rest
  let (_, rest) ← readToken .comma rest
  let (addr, rest) ← readText rest
  let (_, rest) ← readToken .comma rest
  let (port, rest) ← readPort rest
  let (_, rest) ← readToken .closeArray rest
  some ({ name, isdas, addr, port }, rest)

/-- Read a node. -/
def readNode : Reader Node
  | .openObject :: rest => do
      let (members, rest) ← Json.items readMember .closeObject rest
      let node ← nodeOf? members
      some (node, rest)
  | .openArray :: rest => readNodeItems rest
  | _ => none

/-- Read a key with its list of nodes. -/
def readEntry : Reader (String × List Node)
  | .text (some key) :: .colon :: .openArray :: rest =>
      (Json.items readNode .closeArray rest).map fun (nodes, after) =>
        ((String.ofList key, nodes), after)
  | _ => none

/-- Read a catalog that makes up a whole token list. -/
def ofTokens? : List Token → Option Catalog
  | .openObject :: rest =>
      match Json.items readEntry .closeObject rest with
      | some (entries, []) => some ⟨entries⟩
      | _ => none
  | _ => none

/-- Read a catalog from its JSON text. -/
def ofJson? (text : String) : Option Catalog := (Json.tokens? text.toList).bind ofTokens?

end Catalog

end NetworkConsole
