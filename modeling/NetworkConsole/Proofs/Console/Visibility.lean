import Mathlib.Data.List.Induction
import NetworkConsole.Console.Notices

/-!
# Visibility of notices

A board that forgets a notice once its lifetime is over answers like one that never forgets:
what is visible depends on the newest notice and the time that has passed since it was posted,
and on nothing else. Draining a board tells every text once.
-/

namespace NetworkConsole
namespace NoticeBoard

/-! ## Operations -/

/-- What can be asked of a board. -/
inductive Operation
  | post (text : String) (now : Int)
  | expire (now : Int)
  | query (now : Int)
  | drain
  deriving DecidableEq, Repr

namespace Operation

/-- The time of an operation; draining takes place at any time. -/
def time? : Operation → Option Int
  | post _ now => some now
  | expire now => some now
  | query now => some now
  | drain => none

/-- The notice that an operation puts up. -/
def notice? : Operation → Option Notice
  | post text now => some ⟨text, now⟩
  | _ => none

/-- Whether an operation only lets the board forget. -/
def isExpiry : Operation → Bool
  | expire _ => true
  | _ => false

end Operation

/-- The times of operations, in order. -/
def times (operations : List Operation) : List Int := operations.filterMap (·.time?)

/-- The notices that operations put up, in order. -/
def posted (operations : List Operation) : List Notice := operations.filterMap (·.notice?)

/-- Operations without those that let the board forget. -/
def unexpired (operations : List Operation) : List Operation := operations.filter (!·.isExpiry)

/-- The times of operations never go back. -/
def Chronological (operations : List Operation) : Prop := (times operations).Pairwise (· ≤ ·)

instance (operations : List Operation) : Decidable (Chronological operations) :=
  inferInstanceAs (Decidable (List.Pairwise _ _))

/-- What a board tells: the visible text, or the texts that are taken from it. -/
inductive Answer
  | visible (text : Option String)
  | drained (texts : List String)
  deriving DecidableEq, Repr

/-- The texts that are taken from a board with an answer. -/
def Answer.texts : Answer → List String
  | visible _ => []
  | drained texts => texts

/-- Carry out an operation. -/
def apply (board : NoticeBoard) : Operation → NoticeBoard
  | .post text now => board.post text now
  | .expire now => board.expire now
  | .query _ => board
  | .drain => board.drain.1

/-- What the board tells at an operation. -/
def answer? (board : NoticeBoard) : Operation → Option Answer
  | .query now => some (.visible (board.current now))
  | .drain => some (.drained board.drain.2)
  | _ => none

/-- Carry out operations one after another. -/
def run (board : NoticeBoard) (operations : List Operation) : NoticeBoard :=
  operations.foldl apply board

/-- What the board tells during a run. -/
def answers (board : NoticeBoard) : List Operation → List Answer
  | [] => []
  | operation :: later => (board.answer? operation).toList ++ (board.apply operation).answers later

theorem run_concat (board : NoticeBoard) (operations : List Operation) (last : Operation) :
    board.run (operations ++ [last]) = (board.run operations).apply last := by
  rw [run, List.foldl_append]
  rfl

theorem answers_concat (board : NoticeBoard) (operations : List Operation) (last : Operation) :
    board.answers (operations ++ [last]) =
      board.answers operations ++ ((board.run operations).answer? last).toList := by
  induction operations generalizing board with
  | nil => exact List.append_nil _
  | cons operation later inductionHypothesis =>
      rw [List.cons_append, answers, inductionHypothesis, answers, List.append_assoc]
      rfl

@[simp] theorem history_expire (board : NoticeBoard) (now : Int) :
    (board.expire now).history = board.history := by
  unfold expire
  split_ifs <;> rfl

theorem unexpired_concat (operations : List Operation) (last : Operation) :
    unexpired (operations ++ [last]) =
      unexpired operations ++ if last.isExpiry then [] else [last] := by
  rw [unexpired, List.filter_append]
  cases expiry : last.isExpiry <;> simp [unexpired, expiry]

theorem posted_unexpired (operations : List Operation) :
    posted (unexpired operations) = posted operations := by
  rw [posted, unexpired, List.filterMap_filter]
  congr 1
  funext operation
  cases operation <;> rfl

theorem times_unexpired_sublist (operations : List Operation) :
    (times (unexpired operations)).Sublist (times operations) :=
  List.filter_sublist.filterMap _

namespace Chronological

variable {operations : List Operation} {last : Operation}

theorem init (chronological : Chronological (operations ++ [last])) : Chronological operations :=
  chronological.sublist ((List.sublist_append_left _ _).filterMap _)

theorem unexpired (chronological : Chronological operations) :
    Chronological (unexpired operations) :=
  chronological.sublist (times_unexpired_sublist operations)

/-- The time of an operation is not before those of the operations before it. -/
theorem le_of_time?
    (chronological : Chronological (operations ++ [last]))
    {now : Int}
    (timed : last.time? = some now) :
    ∀ time ∈ times operations, time ≤ now := by
  rw [Chronological, times, List.filterMap_append, List.pairwise_append] at chronological
  intro time member
  exact chronological.2.2 time member now (by simp [timed])

end Chronological

/-! ## Visible texts -/

/-- The text of the newest notice, if less than the lifetime has passed since it was posted. -/
def newestText (lifetime : Nat) (notices : List Notice) (now : Int) : Option String :=
  match notices.getLast? with
  | some notice => if now - notice.shownAt < lifetime then some notice.text else none
  | none => none

/-- Once the newest notice is no longer visible, it stays so. -/
theorem newestText_eq_none_of_le
    {lifetime : Nat}
    {notices : List Notice}
    {earlier now : Int}
    (ordered : earlier ≤ now)
    (gone : newestText lifetime notices earlier = none) :
    newestText lifetime notices now = none := by
  unfold newestText at gone ⊢
  split at gone
  · split_ifs at gone with visible
    exact if_neg (by omega)
  · rfl

/-- A board shows what the notices posted by some operations make visible, now and later. -/
structure Tracks (board : NoticeBoard) (lifetime : Nat) (operations : List Operation) : Prop where
  lifetime_eq : board.lifetime = lifetime
  current_eq : ∀ now, (∀ time ∈ times operations, time ≤ now) →
    board.current now = newestText lifetime (posted operations) now

namespace Tracks

variable {board : NoticeBoard} {lifetime : Nat} {operations : List Operation}

theorem post
    (tracks : board.Tracks lifetime operations)
    (text : String)
    (shownAt : Int) :
    (board.post text shownAt).Tracks lifetime (operations ++ [.post text shownAt]) := by
  refine ⟨tracks.lifetime_eq, fun now later => ?_⟩
  have passed : shownAt ≤ now := later shownAt (by simp [times, Operation.time?])
  have newest : posted (operations ++ [.post text shownAt]) =
      posted operations ++ [⟨text, shownAt⟩] :=
    List.filterMap_append
  have visible : ((now - shownAt).toNat < board.lifetime) ↔ now - shownAt < lifetime := by
    rw [tracks.lifetime_eq]
    omega
  rw [newest, newestText, List.getLast?_concat]
  simp only [current, NoticeBoard.post, isVisible, Option.filter, visible]
  split_ifs <;> simp_all

/-- A notice is forgotten only where it is not visible and will never be again. -/
theorem expire
    (tracks : board.Tracks lifetime operations)
    {time : Int}
    (newest : ∀ earlier ∈ times operations, earlier ≤ time) :
    (board.expire time).Tracks lifetime (operations ++ [.expire time]) := by
  have same : posted (operations ++ [.expire time]) = posted operations := by
    simp [posted, Operation.notice?]
  unfold NoticeBoard.expire
  split_ifs with gone
  · refine ⟨tracks.lifetime_eq, fun now later => ?_⟩
    have passed : time ≤ now := later time (by simp [times, Operation.time?])
    rw [Option.isNone_iff_eq_none, tracks.current_eq time newest] at gone
    rw [same, newestText_eq_none_of_le passed gone]
    rfl
  · refine ⟨tracks.lifetime_eq, fun now later => ?_⟩
    rw [same]
    exact tracks.current_eq now fun earlier member => later earlier (by simp_all [times])

theorem apply
    (tracks : board.Tracks lifetime operations)
    {last : Operation}
    (chronological : Chronological (operations ++ [last])) :
    (board.apply last).Tracks lifetime (operations ++ [last]) := by
  cases last with
  | post text now => exact tracks.post text now
  | expire now => exact tracks.expire (chronological.le_of_time? rfl)
  | query time =>
      refine ⟨tracks.lifetime_eq, fun now later => ?_⟩
      have same : posted (operations ++ [.query time]) = posted operations := by
        simp [posted, Operation.notice?]
      rw [same]
      exact tracks.current_eq now fun earlier member => later earlier (by simp_all [times])
  | drain =>
      have sameTimes : times (operations ++ [.drain]) = times operations := by
        simp [times, Operation.time?]
      have same : posted (operations ++ [.drain]) = posted operations := by
        simp [posted, Operation.notice?]
      exact ⟨tracks.lifetime_eq, fun now later => by
        rw [same]
        exact tracks.current_eq now (sameTimes ▸ later)⟩

end Tracks

/-- Whatever was forgotten, the board shows the newest notice during its lifetime. -/
theorem tracks_run
    (lifetime : Nat)
    {operations : List Operation}
    (chronological : Chronological operations) :
    ((withLifetime lifetime).run operations).Tracks lifetime operations := by
  induction operations using List.reverseRecOn with
  | nil => exact ⟨rfl, fun _ _ => rfl⟩
  | append_singleton operations last inductionHypothesis =>
      rw [run_concat]
      exact (inductionHypothesis chronological.init).apply chronological

/-! ## Answers -/

/-- Forgetting a notice keeps the texts that are not yet taken. -/
theorem history_run_unexpired (board : NoticeBoard) (operations : List Operation) :
    (board.run (unexpired operations)).history = (board.run operations).history := by
  induction operations using List.reverseRecOn with
  | nil => rfl
  | append_singleton operations last inductionHypothesis =>
      rw [unexpired_concat, run_concat]
      cases last <;> simp [Operation.isExpiry, run_concat, apply, post, drain, inductionHypothesis]

/-- Operations that let the board forget change no answer. -/
theorem answers_unexpired
    (lifetime : Nat)
    {operations : List Operation}
    (chronological : Chronological operations) :
    (withLifetime lifetime).answers (unexpired operations) =
      (withLifetime lifetime).answers operations := by
  induction operations using List.reverseRecOn with
  | nil => rfl
  | append_singleton operations last inductionHypothesis =>
      have earlier := inductionHypothesis chronological.init
      rw [unexpired_concat, answers_concat]
      cases last with
      | post text now => simp [Operation.isExpiry, answers_concat, earlier, answer?]
      | expire now => simp [Operation.isExpiry, earlier, answer?]
      | query now =>
          have newest := chronological.le_of_time? rfl
          have current := (tracks_run lifetime chronological.init).current_eq now newest
          have unexpiredCurrent := (tracks_run lifetime chronological.init.unexpired).current_eq now
            fun time member => newest time ((times_unexpired_sublist operations).subset member)
          rw [posted_unexpired, ← current] at unexpiredCurrent
          simp [Operation.isExpiry, answers_concat, earlier, answer?, unexpiredCurrent]
      | drain =>
          simp [Operation.isExpiry, answers_concat, earlier, answer?, drain, history_run_unexpired]

/-- The texts taken during a run and those not yet taken are the texts posted. -/
theorem texts_answers_append_history (lifetime : Nat) (operations : List Operation) :
    ((withLifetime lifetime).answers operations).flatMap (·.texts) ++
        ((withLifetime lifetime).run operations).history =
      (posted operations).map (·.text) := by
  induction operations using List.reverseRecOn with
  | nil => rfl
  | append_singleton operations last inductionHypothesis =>
      rw [answers_concat, run_concat, List.flatMap_append, posted, List.filterMap_append,
        List.map_append, ← posted, ← inductionHypothesis]
      cases last <;> simp [answer?, apply, post, drain, Answer.texts, Operation.notice?]

/-- Where the time never goes back, a board that is asked at any time shows the text of the
notice posted last if less than the lifetime has passed since, and nothing otherwise. It tells
the same with more or fewer operations that let it forget. The texts taken from it and those
still on it are all texts posted, in order and each once. -/
theorem answers_of_run
    (lifetime : Nat)
    (operations : List Operation)
    (chronological : Chronological operations) :
    (∀ earlier now later, operations = earlier ++ .query now :: later →
      ((withLifetime lifetime).run earlier).current now =
        newestText lifetime (posted earlier) now) ∧
    (∀ others, Chronological others → unexpired others = unexpired operations →
      (withLifetime lifetime).answers others = (withLifetime lifetime).answers operations) ∧
    ((withLifetime lifetime).answers operations).flatMap (·.texts) ++
        ((withLifetime lifetime).run operations).history =
      (posted operations).map (·.text) := by
  refine ⟨?_, ?_, texts_answers_append_history lifetime operations⟩
  · rintro earlier now later rfl
    have queried : Chronological (earlier ++ [.query now]) := by
      refine chronological.sublist (List.Sublist.filterMap _ ?_)
      exact (List.singleton_sublist.mpr List.mem_cons_self).append_left earlier
    exact (tracks_run lifetime queried.init).current_eq now (queried.le_of_time? rfl)
  · intro others otherChronological same
    rw [← answers_unexpired lifetime otherChronological, same,
      answers_unexpired lifetime chronological]

/-- A notice is visible up to the last moment of its lifetime and not at its end, whether or not
the board forgets it there. -/
theorem answers_at_endOfLifetime :
    let operations : List Operation :=
      [.post "first" 0, .post "second" 1000, .drain, .query 2999, .expire 3000, .query 3000,
        .post "third" 3000]
    Chronological operations ∧
      (withLifetime 2000).answers operations =
        [.drained ["first", "second"], .visible (some "second"), .visible none] ∧
      (withLifetime 2000).answers (unexpired operations) =
        (withLifetime 2000).answers operations ∧
      ((withLifetime 2000).run operations).history = ["third"] := by
  intro operations
  have chronological : Chronological operations := by decide
  obtain ⟨-, same, texts⟩ := answers_of_run 2000 operations chronological
  have answered : (withLifetime 2000).answers operations =
      [.drained ["first", "second"], .visible (some "second"), .visible none] := by decide
  refine ⟨chronological, answered, same (unexpired operations) (by decide) (by decide), ?_⟩
  rw [answered] at texts
  exact List.append_cancel_left (show ["first", "second"] ++ _ = _ ++ ["third"] from texts)

end NoticeBoard
end NetworkConsole
