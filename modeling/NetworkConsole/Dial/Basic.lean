import NetworkConsole.Direction
import NetworkConsole.Number.Rounding

/-!
# Dials

The four linked dials of a bandwidth test, their ranges and their precision. One of
three of them is locked in each direction: it is computed from the others.
-/

namespace NetworkConsole

/-- One of the linked dials of a direction. -/
inductive Dial
  | seconds
  | size
  | packets
  | bandwidth
  deriving DecidableEq, Repr

namespace Dial

/-- All dials, in the order in which they are shown. -/
def all : List Dial := [.seconds, .size, .packets, .bandwidth]

/-- Short key of a dial. -/
def key : Dial → String
  | .seconds => "sec"
  | .size => "size"
  | .packets => "pkt"
  | .bandwidth => "bw"

/-- Name of a dial in notices. -/
def label : Dial → String
  | .seconds => "seconds"
  | .size => "packet size"
  | .packets => "packets"
  | .bandwidth => "bandwidth"

/-- The least value of a dial. -/
def min : Dial → Float
  | .seconds => 1
  | .size => 64
  | .packets => 1
  | .bandwidth => 0.0000001

/-- The greatest value of a dial. -/
def max : Dial → Float
  | .seconds => 10
  | .size => 1400
  | .packets => 187500000
  | .bandwidth => 150

/-- A relative slack that keeps truncation from turning a product just below a whole
number into the number before it. -/
def slack : Float := 0.000000001

/-- Apply a dial's precision: bandwidth has two decimals, the others are whole. -/
def normalize (dial : Dial) (value : Float) : Float :=
  match dial with
  | .bandwidth => Number.round (value * 100) / 100
  | _ => Number.truncate (value * (1 + slack))

/-- Whether a value is a number in the dial's range. -/
def accepts (dial : Dial) (value : Float) : Bool :=
  value.isFinite && dial.min ≤ value && value ≤ dial.max

/-- Bring a value into the dial's range. -/
def clamp (dial : Dial) (value : Float) : Float := Number.clamp value dial.min dial.max

/-- The dial with a given key or name, in any letter case. -/
def ofName? (name : String) : Option Dial :=
  match String.ofList (name.toList.map Char.toLower) with
  | "sec" | "seconds" => some .seconds
  | "size" => some .size
  | "pkt" | "packets" => some .packets
  | "bw" | "bandwidth" => some .bandwidth
  | _ => none

end Dial

/-- The dial of a direction that is computed and not set. -/
inductive Lock
  | size
  | packets
  | bandwidth
  deriving DecidableEq, Repr

namespace Lock

/-- The locked dial. -/
def dial : Lock → Dial
  | .size => .size
  | .packets => .packets
  | .bandwidth => .bandwidth

/-- The lock on a dial; the duration has none. -/
def on? : Dial → Option Lock
  | .seconds => none
  | .size => some .size
  | .packets => some .packets
  | .bandwidth => some .bandwidth

end Lock

/-- One value for each dial. -/
structure PerDial (α : Type) where
  seconds : α
  size : α
  packets : α
  bandwidth : α
  deriving DecidableEq, Repr

namespace PerDial

/-- The same value for every dial. -/
def all (value : α) : PerDial α := ⟨value, value, value, value⟩

/-- The value kept for a dial. -/
def get (values : PerDial α) : Dial → α
  | .seconds => values.seconds
  | .size => values.size
  | .packets => values.packets
  | .bandwidth => values.bandwidth

/-- Replace the value kept for one dial. -/
def set (values : PerDial α) (dial : Dial) (value : α) : PerDial α :=
  match dial with
  | .seconds => { values with seconds := value }
  | .size => { values with size := value }
  | .packets => { values with packets := value }
  | .bandwidth => { values with bandwidth := value }

@[simp] theorem get_all (value : α) (dial : Dial) : (all value).get dial = value := by
  cases dial <;> rfl

@[simp] theorem get_set_same (values : PerDial α) (dial : Dial) (value : α) :
    (values.set dial value).get dial = value := by
  cases dial <;> rfl

theorem get_set_of_ne
    (values : PerDial α)
    {dial other : Dial}
    (different : other ≠ dial)
    (value : α) :
    (values.set dial value).get other = values.get other := by
  cases dial <;> cases other <;> first | rfl | exact absurd rfl different

end PerDial

end NetworkConsole
