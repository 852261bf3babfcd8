/-!
# Tabs

Each test application has a tab. While a command runs, only its application's tab can
be switched to.
-/

namespace NetworkConsole

/-- A test application that the console drives. -/
inductive App
  | bandwidth
  | camera
  | sensor
  deriving DecidableEq, Repr

namespace App

/-- All applications, in the order of their tabs. -/
def all : List App := [.bandwidth, .camera, .sensor]

/-- Name of an application in form fields and node lists. -/
def name : App → String
  | .bandwidth => "bwtester"
  | .camera => "camerapp"
  | .sensor => "sensorapp"

end App

/-- The tab shown, and the only tab that can be switched to if the tabs are held. -/
structure Tabs where
  active : App
  held : Option App
  deriving DecidableEq, Repr

namespace Tabs

/-- The tabs a console starts with. -/
def initial : Tabs := ⟨.bandwidth, none⟩

/-- Whether a tab can be switched to. -/
def isEnabled (tabs : Tabs) (app : App) : Bool := tabs.held.all (· = app)

/-- Switch to a tab if it can be switched to; tells whether it could. -/
def activate (tabs : Tabs) (app : App) : Tabs × Bool :=
  if tabs.isEnabled app then ({ tabs with active := app }, true) else (tabs, false)

/-- Hold the tabs so that only one of them can be switched to. -/
def hold (tabs : Tabs) (app : App) : Tabs := { tabs with held := some app }

/-- Let every tab be switched to. -/
def release (tabs : Tabs) : Tabs := { tabs with held := none }

@[simp] theorem isEnabled_hold (tabs : Tabs) (app other : App) :
    (tabs.hold app).isEnabled other = decide (app = other) := rfl

@[simp] theorem isEnabled_release (tabs : Tabs) (app : App) :
    tabs.release.isEnabled app = true := rfl

@[simp] theorem active_hold (tabs : Tabs) (app : App) : (tabs.hold app).active = tabs.active := rfl

@[simp] theorem active_release (tabs : Tabs) : tabs.release.active = tabs.active := rfl

end Tabs

end NetworkConsole
