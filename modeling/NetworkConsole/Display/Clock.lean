import NetworkConsole.Number.Notation

/-!
# Time of day

A time in milliseconds since the epoch is shown as its time of day. The calendar covers
the years from -262143 to 262142, where year 0 is the one before year 1.
-/

namespace NetworkConsole.Display

/-- The last millisecond of the calendar. -/
def lastTime : Int := 8210266876799999

/-- The first millisecond of the calendar. -/
def firstTime : Int := -8334601228800000

/-- A number with at least two digits. -/
def twoDigits (n : Nat) : String :=
  String.ofList (Number.zeros (2 - (Number.digitText n).length) ++ Number.digitText n)

/-- Hours, minutes and seconds of a time of day. -/
def timeOfDay (milliseconds : Int) : String :=
  if firstTime ≤ milliseconds ∧ milliseconds ≤ lastTime then
    let seconds := (milliseconds / 1000 % 86400).toNat
    twoDigits (seconds / 3600) ++ ":" ++ twoDigits (seconds / 60 % 60) ++ ":" ++
      twoDigits (seconds % 60)
  else "--:--:--"

end NetworkConsole.Display
