import NetworkConsole.Dial.Basic
import NetworkConsole.Number.Notation

/-!
# Errors of dial parameters

The causes for which a name or a set of dials is refused, with their wording, and the
readers of names that raise them.
-/

namespace NetworkConsole

/-- Why dial parameters are refused. -/
inductive DialError
  | unknownDirection (name : String)
  | unknownDial (name : String)
  | notLockable (dial : Dial)
  | invalidParameters (text : String)
  | outOfRange (dial : Dial) (value : Float)

/-- The wording of a refusal. -/
def DialError.message : DialError → String
  | .unknownDirection name => "Unknown direction: " ++ name
  | .unknownDial name => "Unknown dial field: " ++ name
  | .notLockable dial => "Field " ++ dial.key ++ " cannot be locked"
  | .invalidParameters text => "Invalid test parameters '" ++ text ++ "': expected sec,size,pkt"
  | .outOfRange dial value =>
      dial.label ++ " " ++ Number.plain value ++ " is outside " ++ Number.plain dial.min ++ "..=" ++
        Number.plain dial.max

/-- Read the name of a direction. -/
def Direction.ofName (name : String) : Except DialError Direction :=
  match Direction.ofName? name with
  | some direction => .ok direction
  | none => .error (.unknownDirection name)

/-- Read the name of a dial. -/
def Dial.ofName (name : String) : Except DialError Dial :=
  match Dial.ofName? name with
  | some dial => .ok dial
  | none => .error (.unknownDial name)

/-- Read the name of a dial that may be locked. -/
def Lock.ofName (name : String) : Except DialError Lock := do
  let dial ← Dial.ofName name
  match Lock.on? dial with
  | some lock => .ok lock
  | none => .error (.notLockable dial)

end NetworkConsole
