import NetworkConsole.Dial.Panel

/-!
# Linked dials

An edit of one dial recomputes exactly one other dial of its direction, so that the
panel stays consistent. Every value that the linkage itself puts on a dial is applied
at once, and a change notice for it is queued. A flag armed with the write swallows
that notice when it is delivered, so a write never causes another one.
-/

namespace NetworkConsole

/-- The dial recomputed after an edit. Where it is the edited dial itself, the edit is
replaced by the value that the other three dials determine. -/
def recomputed : (edited : Dial) → (lock : Lock) → Dial
  | .seconds, .size => .bandwidth
  | .seconds, .packets => .bandwidth
  | .seconds, .bandwidth => .packets
  | .size, .size => .size
  | .size, .packets => .bandwidth
  | .size, .bandwidth => .packets
  | .packets, .size => .bandwidth
  | .packets, .packets => .packets
  | .packets, .bandwidth => .size
  | .bandwidth, .size => .packets
  | .bandwidth, .packets => .size
  | .bandwidth, .bandwidth => .bandwidth

/-- An end of a dial's range. -/
inductive Bound
  | min
  | max
  deriving DecidableEq, Repr

/-- The end of the range that a value is reported at. What is not finite counts as too
large. -/
def Bound.crossed (dial : Dial) (value : Float) : Bound :=
  if value.isFinite && value < dial.min then .min else .max

/-- A dial was reset because of a range, which may be that of another dial. -/
structure RangeNotice where
  direction : Direction
  dial : Dial
  bound : Bound
  deriving DecidableEq, Repr

namespace RangeNotice

/-- The limit that would have been crossed. -/
def limit (notice : RangeNotice) : Float :=
  match notice.bound with
  | .min => notice.dial.min
  | .max => notice.dial.max

/-- The wording of a notice. -/
def text (notice : RangeNotice) : String :=
  match notice.bound with
  | .max =>
      "Dial reset. It would cause the " ++ notice.dial.label ++ " dial to exceed its limit of " ++
        Number.plain (Number.truncate notice.limit) ++ "."
  | .min =>
      "Dial reset. It would cause the " ++ notice.dial.label ++
        " dial to fall below its limit of " ++ Number.plain notice.limit ++ "."

end RangeNotice

/-- What a change of a dial led to. -/
inductive ChangeOutcome
  /-- The change was a write of the linkage itself; nothing is recomputed. -/
  | suppressed
  /-- The edit was kept and another dial solved. -/
  | updated (recomputed : Dial)
  /-- The dependent dial would have left its range, so the edited dial was solved. -/
  | reverted (dial : Dial)
  /-- The edit was not a number; the value before it was restored. -/
  | rejected
  deriving DecidableEq, Repr

/-- A change's outcome with the notices to show. -/
structure ChangeReport where
  outcome : ChangeOutcome
  notices : List RangeNotice
  deriving DecidableEq, Repr

/-- A value put on a dial by the linkage, whose change notice is still to come. -/
structure DialWrite where
  direction : Direction
  dial : Dial
  value : Float
  deriving DecidableEq

/-- Whether a write is for a given dial. -/
def DialWrite.isFor (write : DialWrite) (direction : Direction) (dial : Dial) : Bool :=
  write.direction = direction ∧ write.dial = dial

/-- The panels of both directions, the armed flags and the queue of writes. -/
structure Linkage where
  panels : PerDirection Panel
  armed : PerDirection (PerDial Bool)
  queue : List DialWrite
  deriving DecidableEq

namespace Linkage

/-- Both panels as a console starts with them. -/
def initial : Linkage where
  panels := .both .initial
  armed := .both (.all false)
  queue := []

/-- The panel of a direction. -/
def panel (linkage : Linkage) (direction : Direction) : Panel := linkage.panels.get direction

/-- Whether the flag of a dial is armed. -/
def isArmed (linkage : Linkage) (direction : Direction) (dial : Dial) : Bool :=
  (linkage.armed.get direction).get dial

/-- Whether a write for a dial is queued. -/
def isQueued (linkage : Linkage) (direction : Direction) (dial : Dial) : Bool :=
  linkage.queue.any (·.isFor direction dial)

/-- Put a value on a dial. -/
def setDial (linkage : Linkage) (direction : Direction) (dial : Dial) (value : Float) : Linkage :=
  { linkage with panels := linkage.panels.modify direction (·.set dial value) }

/-- Arm or disarm the flag of a dial. -/
def setArmed (linkage : Linkage) (direction : Direction) (dial : Dial) (armed : Bool) : Linkage :=
  { linkage with armed := linkage.armed.modify direction (·.set dial armed) }

/-- Replace a direction's panel and keep its lock. -/
def load (linkage : Linkage) (direction : Direction) (panel : Panel) : Linkage :=
  { linkage with
    panels := linkage.panels.set direction { panel with lock := (linkage.panel direction).lock } }

/-- Lock a dial; the dial locked before can be edited from then on. -/
def setLock (linkage : Linkage) (direction : Direction) (lock : Lock) : Linkage :=
  { linkage with panels := linkage.panels.modify direction ({ · with lock }) }

/-- Put a value into the first queued write for its dial, or else at the queue's end. -/
def enqueue (queue : List DialWrite) (write : DialWrite) : List DialWrite :=
  match queue with
  | [] => [write]
  | queued :: rest =>
      if queued.isFor write.direction write.dial then write :: rest
      else queued :: enqueue rest write

/-- Put a value on a dial, arm its flag and queue the change notice. -/
def write (linkage : Linkage) (direction : Direction) (dial : Dial) (value : Float) : Linkage :=
  let applied := (linkage.setDial direction dial value).setArmed direction dial true
  { applied with queue := enqueue applied.queue ⟨direction, dial, value⟩ }

/-- Keep an edit whose value is at its dial's precision and within its range, and solve
the dependent dial. If that dial would leave its range, solve the edited dial instead,
or restore the value before the edit if that fails too. -/
def resolve
    (linkage : Linkage)
    (direction : Direction)
    (dial : Dial)
    (previous : Float)
    (notices : List RangeNotice) : Linkage × ChangeReport :=
  let panel := linkage.panel direction
  let target := recomputed dial panel.lock
  let candidate := panel.solve target
  if target.accepts candidate then
    (linkage.write direction target candidate, ⟨.updated target, notices⟩)
  else
    let solved := panel.solve dial
    let restored := if dial.accepts solved then solved else previous
    (linkage.write direction dial restored,
      ⟨.reverted dial, notices ++ [⟨direction, target, .crossed target candidate⟩]⟩)

/-- An edit of a dial whose flag is not armed. -/
def edit (linkage : Linkage) (direction : Direction) (dial : Dial) (value : Float) :
    Linkage × ChangeReport :=
  let previous := (linkage.panel direction).get dial
  let normalized := dial.normalize value
  if normalized.isFinite then
    let accepted := dial.clamp normalized
    let notices :=
      if accepted != normalized then [⟨direction, dial, .crossed dial normalized⟩] else []
    let applied :=
      if accepted != value then linkage.write direction dial accepted
      else linkage.setDial direction dial accepted
    applied.resolve direction dial previous notices
  else
    (linkage.write direction dial previous,
      ⟨.rejected, [⟨direction, dial, .crossed dial normalized⟩]⟩)

/-- A dial's value has changed. An armed flag swallows the change. -/
def change (linkage : Linkage) (direction : Direction) (dial : Dial) (value : Float) :
    Linkage × ChangeReport :=
  if linkage.isArmed direction dial then
    ((linkage.setArmed direction dial false).setDial direction dial value, ⟨.suppressed, []⟩)
  else linkage.edit direction dial value

/-- Queued writes whose flag is not armed; they are delivered as edits. -/
def unarmedWrites (linkage : Linkage) : List DialWrite :=
  linkage.queue.filter fun write => !linkage.isArmed write.direction write.dial

/-- A bound on the deliveries still to come: an armed write needs one, and an unarmed one
is an edit that queues at most two armed writes. -/
def workload (linkage : Linkage) : Nat :=
  linkage.queue.length + 2 * linkage.unarmedWrites.length

/-- Deliver the change notices of queued writes, at most `deliveries` of them. -/
def deliver : (deliveries : Nat) → Linkage → Linkage × List ChangeReport
  | 0, linkage => (linkage, [])
  | deliveries + 1, linkage =>
      match linkage.queue with
      | [] => (linkage, [])
      | write :: rest =>
          let (changed, report) :=
            { linkage with queue := rest }.change write.direction write.dial write.value
          let (settled, reports) := deliver deliveries changed
          (settled, report :: reports)

/-- Deliver the change notices of all queued writes. -/
def settle (linkage : Linkage) : Linkage × List ChangeReport :=
  deliver linkage.workload linkage

end Linkage

end NetworkConsole
