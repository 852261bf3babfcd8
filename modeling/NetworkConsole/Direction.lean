/-!
# Directions of a bandwidth test

A test sends packets both ways between a client and a server. Everything that is
kept once for each way is a `PerDirection`.
-/

namespace NetworkConsole

/-- The way the packets of a bandwidth test travel. -/
inductive Direction
  | clientToServer
  | serverToClient
  deriving DecidableEq, Repr

namespace Direction

/-- Both directions, the one that leaves the client first. -/
def all : List Direction := [.clientToServer, .serverToClient]

/-- Short tag used in form fields and in printed labels. -/
def tag : Direction → String
  | .clientToServer => "cs"
  | .serverToClient => "sc"

/-- Flag that selects the direction for the test client. -/
def flag : Direction → String
  | .clientToServer => "-cs"
  | .serverToClient => "-sc"

/-- The direction of a tag or of an arrow between the two ends, in any letter case. -/
def ofName? (name : String) : Option Direction :=
  match String.ofList (name.toList.map Char.toLower) with
  | "cs" | "c->s" => some .clientToServer
  | "sc" | "s->c" => some .serverToClient
  | _ => none

end Direction

/-- One value for each direction. -/
structure PerDirection (α : Type) where
  clientToServer : α
  serverToClient : α
  deriving DecidableEq, Repr

namespace PerDirection

/-- The same value for both directions. -/
def both (value : α) : PerDirection α := ⟨value, value⟩

/-- The value kept for a direction. -/
def get (pair : PerDirection α) : Direction → α
  | .clientToServer => pair.clientToServer
  | .serverToClient => pair.serverToClient

/-- Replace the value kept for one direction. -/
def set (pair : PerDirection α) (direction : Direction) (value : α) : PerDirection α :=
  match direction with
  | .clientToServer => { pair with clientToServer := value }
  | .serverToClient => { pair with serverToClient := value }

/-- Change the value kept for one direction. -/
def modify (pair : PerDirection α) (direction : Direction) (change : α → α) : PerDirection α :=
  pair.set direction (change (pair.get direction))

/-- Apply a function to both values. -/
def map (function : α → β) (pair : PerDirection α) : PerDirection β :=
  ⟨function pair.clientToServer, function pair.serverToClient⟩

/-- Build both values from their direction. -/
def tabulate (function : Direction → α) : PerDirection α :=
  ⟨function .clientToServer, function .serverToClient⟩

@[simp] theorem get_both (value : α) (direction : Direction) :
    (both value).get direction = value := by
  cases direction <;> rfl

@[simp] theorem get_set_same
    (pair : PerDirection α)
    (direction : Direction)
    (value : α) :
    (pair.set direction value).get direction = value := by
  cases direction <;> rfl

theorem get_set_of_ne
    (pair : PerDirection α)
    {direction other : Direction}
    (different : other ≠ direction)
    (value : α) :
    (pair.set direction value).get other = pair.get other := by
  cases direction <;> cases other <;> first | rfl | exact absurd rfl different

@[simp] theorem get_map (function : α → β) (pair : PerDirection α) (direction : Direction) :
    (pair.map function).get direction = function (pair.get direction) := by
  cases direction <;> rfl

@[simp] theorem get_tabulate (function : Direction → α) (direction : Direction) :
    (tabulate function).get direction = function direction := by
  cases direction <;> rfl

@[ext] theorem ext_get
    {first second : PerDirection α}
    (same : ∀ direction, first.get direction = second.get direction) :
    first = second := by
  cases first
  cases second
  exact congr (congrArg PerDirection.mk (same .clientToServer)) (same .serverToClient)

end PerDirection

end NetworkConsole
