import NetworkConsole.Dial.Error
import NetworkConsole.Number.Numeral
import NetworkConsole.Text.Blank

/-!
# The dial panel of a direction

The four dials of a direction are tied by `packets * size * 8 = bandwidth * seconds`,
with bandwidth in bits per second. Any one of them can be solved from the other three.
-/

namespace NetworkConsole

/-- Duration, packet size and packet count as they are typed. -/
structure TestParameters where
  seconds : Float
  size : Float
  packets : Float

/-- The pieces of a text between commas. -/
def splitCommas : List Char → List (List Char)
  | [] => [[]]
  | ',' :: rest => [] :: splitCommas rest
  | character :: rest =>
      match splitCommas rest with
      | [] => [[character]]
      | piece :: pieces => (character :: piece) :: pieces

/-- Read `seconds,size,packets`, with blanks allowed around each number. -/
def TestParameters.ofText (text : String) : Except DialError TestParameters :=
  match (splitCommas text.toList).mapM fun piece => Number.readFloat? (Text.trim piece) with
  | some [seconds, size, packets] => .ok ⟨seconds, size, packets⟩
  | _ => .error (.invalidParameters text)

/-- The dials of one direction and the one of them that is locked. Bandwidth is in
megabits per second. -/
structure Panel where
  values : PerDial Float
  lock : Lock
  deriving DecidableEq

namespace Panel

/-- Bits per second in one unit of the bandwidth dial. -/
def bitsPerMegabit : Float := 1000000

/-- The panel a console starts with. -/
def initial : Panel where
  values := { seconds := 3, size := 1000, packets := 30, bandwidth := 0.08 }
  lock := .size

/-- The value of a dial. -/
def get (panel : Panel) (dial : Dial) : Float := panel.values.get dial

/-- The panel with one dial at another value. -/
def set (panel : Panel) (dial : Dial) (value : Float) : Panel :=
  { panel with values := panel.values.set dial value }

/-- Bandwidth in bits per second. -/
def bandwidthBps (panel : Panel) : Float := panel.values.bandwidth * bitsPerMegabit

/-- The rate in bits per second that sends all packets in the test's duration. It does
not depend on the rounding of the bandwidth dial. -/
def targetBps (panel : Panel) : Float :=
  panel.values.packets * panel.values.size * 8 / panel.values.seconds

/-- One dial solved from the other three, before its precision is applied. A division
by zero gives a value that is not finite. -/
def derive (panel : Panel) : Dial → Float
  | .seconds => panel.values.packets * panel.values.size * 8 / panel.bandwidthBps
  | .size => panel.bandwidthBps * panel.values.seconds / (panel.values.packets * 8)
  | .packets => panel.bandwidthBps * panel.values.seconds / (panel.values.size * 8)
  | .bandwidth =>
      panel.values.packets * panel.values.size * 8 / panel.values.seconds / bitsPerMegabit

/-- One dial solved from the other three, at its precision. -/
def solve (panel : Panel) (dial : Dial) : Float := dial.normalize (panel.derive dial)

/-- Bits by which what is sent differs from what the rate allows. -/
def residualBits (panel : Panel) : Float :=
  (panel.values.packets * panel.values.size * 8 -
    panel.bandwidthBps * panel.values.seconds).abs

/-- The panel of typed parameters: each at its dial's precision, the bandwidth solved. -/
def ofParameters (parameters : TestParameters) : Panel :=
  let panel : Panel :=
    { values :=
        { seconds := Dial.normalize .seconds parameters.seconds
          size := Dial.normalize .size parameters.size
          packets := Dial.normalize .packets parameters.packets
          bandwidth := 0 }
      lock := .size }
  panel.set .bandwidth (panel.solve .bandwidth)

/-- Refuse a panel at its first dial that is out of range. -/
def checkRanges (panel : Panel) : Except DialError Unit :=
  match Dial.all.find? fun dial => !dial.accepts (panel.get dial) with
  | some dial => .error (.outOfRange dial (panel.get dial))
  | none => .ok ()

/-- Argument of the test client, such as `-cs=3,1000,30,80000bps`. -/
def testArgument (panel : Panel) (direction : Direction) : String :=
  direction.flag ++ "=" ++ Number.plain panel.values.seconds ++ "," ++
    Number.plain panel.values.size ++ "," ++ Number.plain panel.values.packets ++ "," ++
    Number.plain (Number.truncate panel.targetBps) ++ "bps"

/-- Summary of a panel, such as `cs: 3s, 1000b x 30 pkts, 0.08 Mbps`. -/
def summary (panel : Panel) (direction : Direction) : String :=
  direction.tag ++ ": " ++ Number.plain panel.values.seconds ++ "s, " ++
    Number.plain panel.values.size ++ "b x " ++ Number.plain panel.values.packets ++ " pkts, " ++
    Number.plain panel.values.bandwidth ++ " Mbps"

@[simp] theorem get_set_same (panel : Panel) (dial : Dial) (value : Float) :
    (panel.set dial value).get dial = value := by
  simp [get, set]

theorem get_set_of_ne
    (panel : Panel)
    {dial other : Dial}
    (different : other ≠ dial)
    (value : Float) :
    (panel.set dial value).get other = panel.get other := by
  simp [get, set, PerDial.get_set_of_ne panel.values different]

@[simp] theorem lock_set (panel : Panel) (dial : Dial) (value : Float) :
    (panel.set dial value).lock = panel.lock := rfl

end Panel

end NetworkConsole
