import NetworkConsole.Console.Session

/-!
# Dialogues with the backend

A dialogue is a finite plan of requests, pauses and printed texts, in which every step
may depend on the answers before it. The same dialogue can be carried out against a real
backend or be played from a script of replies.
-/

namespace NetworkConsole

/-- A request to the backend. -/
inductive Request
  /-- Run the client of the active application. -/
  | command (form : Form)
  /-- Fetch a named list of nodes. -/
  | nodes (list : NodeList)
  /-- Fetch the description of the newest image. -/
  | imageText
  /-- Fetch the markup of the newest image. -/
  | image
  deriving DecidableEq, Repr

/-- The readings of two clocks in milliseconds: one that only moves forward and measures
durations, and the wall clock, which dates the points of charts. -/
structure Clock where
  steady : Int
  wall : Int
  deriving DecidableEq, Repr

/-- The backend's answer to a request, and the time at which it arrived. -/
structure Answer where
  result : Except ConsoleError String
  clock : Clock

/-- A plan of requests, pauses and printed texts that ends with a value. -/
inductive Dialogue (α : Type)
  | done (value : α)
  | ask (request : Request) (resume : Answer → Dialogue α)
  | pause (milliseconds : Nat) (resume : Clock → Dialogue α)
  | print (text : String) (rest : Dialogue α)

namespace Dialogue

/-- Go on with the value of a dialogue. -/
def bind : Dialogue α → (α → Dialogue β) → Dialogue β
  | done value, next => next value
  | ask request resume, next => .ask request fun answer => (resume answer).bind next
  | pause milliseconds resume, next => .pause milliseconds fun clock => (resume clock).bind next
  | print text rest, next => .print text (rest.bind next)

instance : Monad Dialogue where
  pure := done
  bind := bind

end Dialogue

/-- A reply of a scripted backend, and the milliseconds that it takes. -/
structure ScriptedReply where
  result : Except ConsoleError String
  delay : Nat

/-- A scripted backend: the replies still to come, what happened so far, and the clocks.
Playing takes no wall time. -/
structure Stage where
  replies : List ScriptedReply
  clock : Clock
  requests : List Request := []
  printed : List String := []

namespace Stage

/-- The reply that a request is given once the script is used up. -/
def exhausted : ScriptedReply := ⟨.error (.contract (.reported "script exhausted")), 0⟩

/-- Let time pass on the steady clock. -/
def wait (stage : Stage) (milliseconds : Nat) : Stage :=
  { stage with clock := { stage.clock with steady := stage.clock.steady + milliseconds } }

/-- Take the next reply for a request. -/
def ask (stage : Stage) (request : Request) : Stage × Answer :=
  let reply := stage.replies.headD exhausted
  let waited := stage.wait reply.delay
  ({ waited with replies := stage.replies.tail, requests := stage.requests ++ [request] },
    ⟨reply.result, waited.clock⟩)

/-- Print a text. -/
def print (stage : Stage) (text : String) : Stage :=
  { stage with printed := stage.printed ++ [text] }

/-- Everything printed so far. -/
def output (stage : Stage) : String := String.join stage.printed

end Stage

namespace Dialogue

/-- Play a dialogue on a scripted backend. -/
def play : Dialogue α → Stage → Stage × α
  | done value, stage => (stage, value)
  | ask request resume, stage =>
      let (asked, answer) := stage.ask request
      (resume answer).play asked
  | pause milliseconds resume, stage =>
      let waited := stage.wait milliseconds
      (resume waited.clock).play waited
  | print text rest, stage => rest.play (stage.print text)

@[simp] theorem play_pure (value : α) (stage : Stage) :
    (pure value : Dialogue α).play stage = (stage, value) := rfl

/-- A dialogue that goes on with another is played one after the other. -/
@[simp] theorem play_bind
    (dialogue : Dialogue α)
    (next : α → Dialogue β)
    (stage : Stage) :
    (dialogue >>= next).play stage =
      (next (dialogue.play stage).2).play (dialogue.play stage).1 := by
  change (dialogue.bind next).play stage = _
  induction dialogue generalizing stage with
  | done value => rfl
  | ask request resume induction => exact induction _ _
  | pause milliseconds resume induction => exact induction _ _
  | print text rest induction => exact induction _

end Dialogue

end NetworkConsole
