/-!
# Notices

One notice is visible at a time. A new notice takes the place of the old one and is
visible for the board's lifetime. The board keeps the texts of all notices until they
are drained.
-/

namespace NetworkConsole

/-- A notice with the time in milliseconds at which it was shown. -/
structure Notice where
  text : String
  shownAt : Int
  deriving DecidableEq, Repr

/-- The notice shown last, how long a notice is visible, and the texts not yet drained. -/
structure NoticeBoard where
  latest : Option Notice
  lifetime : Nat
  history : List String
  deriving DecidableEq, Repr

namespace NoticeBoard

/-- A board whose notices are visible for a number of milliseconds. -/
def withLifetime (lifetime : Nat) : NoticeBoard := ⟨none, lifetime, []⟩

/-- A board whose notices are visible for four seconds. -/
def empty : NoticeBoard := withLifetime 4000

/-- Put up a notice. -/
def post (board : NoticeBoard) (text : String) (now : Int) : NoticeBoard :=
  { board with latest := some ⟨text, now⟩, history := board.history ++ [text] }

/-- Whether a notice is visible at a given time. A time before it was shown counts as the
time at which it was shown. -/
def isVisible (board : NoticeBoard) (now : Int) (notice : Notice) : Bool :=
  (now - notice.shownAt).toNat < board.lifetime

/-- The text of the notice that is visible at a given time. -/
def current (board : NoticeBoard) (now : Int) : Option String :=
  (board.latest.filter (board.isVisible now)).map (·.text)

/-- Forget the notice if it is no longer visible. -/
def expire (board : NoticeBoard) (now : Int) : NoticeBoard :=
  if (board.current now).isNone then { board with latest := none } else board

/-- Take the texts of the notices shown since the last time. -/
def drain (board : NoticeBoard) : NoticeBoard × List String :=
  ({ board with history := [] }, board.history)

end NoticeBoard

end NetworkConsole
