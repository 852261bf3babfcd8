import NetworkConsole.Proofs.Chart.Board

/-!
# Room in a chart window

Ticks that are a period apart fill a window with a limited number of points. A point is
followed by one point for each tick since its time, or for each seed, and so by no more than
fit between it and the newest one. The oldest point that a tick leaves is inside the window,
which bounds them all. Results come on top of that and neither add to nor take from the other
points.
-/

namespace NetworkConsole
namespace Chart

open Binary64

/-! ## Times at ticks -/

/-- The times after a tick: those that are inside the window, and that of the tick. -/
def Window.advance (window : Window) (times : List ℤ) (now : ℤ) : List ℤ :=
  times.dropWhile (· < now - window.reach) ++ [now]

/-- Times of which every one is followed by no more than there are ticks from it to the last
time, where a millisecond is allowed for. -/
structure Spaced (cadence : Cadence) (last : ℤ) (times : List ℤ) : Prop where
  notLater : ∀ time ∈ times, time ≤ last
  sparse : ∀ time later, time :: later <:+ times →
    1000 * (later.length : ℤ) ≤ cadence.perSecond * (last - time + 1)

namespace Spaced

variable {window : Window} {last now : ℤ} {times : List ℤ}

/-- A tick that is a period later keeps the times spaced. -/
theorem advance
    (spaced : Spaced window.cadence last times)
    (apart : last + window.cadence.period ≤ now) :
    Spaced window.cadence now (window.advance times now) := by
  constructor
  · intro time member
    rcases List.mem_append.mp member with kept | added
    · have before := spaced.notLater time ((List.dropWhile_suffix _).subset kept)
      omega
    · exact (List.mem_singleton.mp added).le
  · intro time later suffix
    rcases List.suffix_concat_iff.mp suffix with none | ⟨kept, split, keptSuffix⟩
    · cases none
    · cases kept with
      | nil =>
          obtain ⟨rfl, rfl⟩ := List.cons.inj split
          simp
      | cons first rest =>
          obtain ⟨rfl, rfl⟩ := List.cons.inj split
          have sparse := spaced.sparse _ rest (keptSuffix.trans (List.dropWhile_suffix _))
          rw [List.append_eq, List.length_append, List.length_singleton, Nat.cast_add_one]
          calc 1000 * ((rest.length : ℤ) + 1)
              = 1000 * rest.length + 1000 := mul_add_one _ _
            _ ≤ window.cadence.perSecond * (last - time + 1) +
                  window.cadence.perSecond * window.cadence.period :=
                add_le_add sparse window.cadence.le_perSecond_mul_period
            _ = window.cadence.perSecond * (last - time + 1 + window.cadence.period) :=
                (mul_add _ _ _).symm
            _ ≤ window.cadence.perSecond * (now - time + 1) :=
                mul_le_mul_of_nonneg_left (by omega) (by positivity)

/-- The oldest time that a tick leaves is inside the window, and bounds the number of others. -/
theorem length_advance_le
    (spaced : Spaced window.cadence last times)
    (apart : last + window.cadence.period ≤ now) :
    (window.advance times now).length ≤ window.capacity := by
  have room := window.period_le_room
  unfold Window.advance
  cases kept : times.dropWhile fun time => decide (time < now - window.reach) with
  | nil => exact window.capacity_pos
  | cons first rest =>
      have inside := List.head?_dropWhile_not (fun time => decide (time < now - window.reach)) times
      rw [kept] at inside
      have notOlder : now - window.reach ≤ first := not_lt.mp (of_decide_eq_false inside)
      have sparse := spaced.sparse first rest (kept ▸ List.dropWhile_suffix _)
      have few : 1000 * (rest.length : ℤ) < 1000 * (window.capacity - 1) :=
        (sparse.trans (mul_le_mul_of_nonneg_left (by omega) (by positivity))).trans_lt room
      rw [List.length_append, List.length_cons, List.length_singleton]
      omega

/-- A run of ticks that are a period apart never leaves more times than the window has room for. -/
theorem length_foldl_advance_le
    (spaced : Spaced window.cadence last times)
    {ticks : List ℤ}
    (apart : (last :: (ticks ++ [now])).IsChain fun earlier later : ℤ =>
      earlier + window.cadence.period ≤ later) :
    ((ticks ++ [now]).foldl window.advance times).length ≤ window.capacity := by
  induction ticks generalizing last times with
  | nil => exact spaced.length_advance_le (List.isChain_cons_cons.mp apart).1
  | cons tick ticks inductionHypothesis =>
      obtain ⟨first, rest⟩ := List.isChain_cons_cons.mp apart
      exact inductionHypothesis (spaced.advance first) rest

end Spaced

/-! ## Seeds -/

/-- Milliseconds from the newest seed to the one that lies some ticks back. -/
def Cadence.offset (cadence : Cadence) (count : ℕ) : ℤ :=
  Number.nearestAwayOf (nearest (-(count * value cadence.tickMilliseconds)))

theorem Cadence.offset_nonpos (cadence : Cadence) (count : ℕ) : cadence.offset count ≤ 0 := by
  have zero : Number.nearestAwayOf 0 = 0 := by norm_num [Number.nearestAwayOf]
  have nonneg : 0 ≤ count * value cadence.tickMilliseconds :=
    mul_nonneg (by positivity) (Series.value_tickMilliseconds cadence).2.1
  have below := Number.nearestAwayOf_mono (nearest_mono (neg_nonpos.mpr nonneg))
  rwa [nearest_zero, zero] at below

/-- The seeds, counted from the newest one back. -/
theorem seedTimes_eq (start : ℤ) (cadence : Cadence) :
    Series.seedTimes start cadence =
      (List.range (cadence.ticks + 1)).reverse.map (start + cadence.offset ·) := by
  have few : cadence.ticks ≤ 140 := by cases cadence <;> decide
  refine List.ext_getElem (by simp [Series.seedTimes]) fun index inSeeds inRange => ?_
  have bounded : index ≤ cadence.ticks := by
    simpa [Series.seedTimes, Nat.lt_add_one_iff] using inSeeds
  have age : (index : ℤ) - cadence.ticks = -((cadence.ticks - index : ℕ) : ℤ) := by omega
  simp only [Series.seedTimes, List.getElem_map, List.getElem_range, List.getElem_reverse,
    List.length_range, Nat.add_sub_cancel]
  rw [Series.toInt_round_offset cadence (abs_le.mpr (by omega)), age, Int.cast_neg,
    Int.cast_natCast, neg_mul]
  rfl

/-- A seed lies as far back as its number of ticks, to half a millisecond. -/
theorem Cadence.le_perSecond_mul_age (cadence : Cadence) {count : ℕ} (few : count ≤ 1000) :
    1000 * (count : ℤ) ≤ cadence.perSecond * (1 - cadence.offset count) := by
  obtain ⟨-, tickNonneg, tickGreatest⟩ := Series.value_tickMilliseconds cadence
  have fewCast : (count : ℚ) ≤ 1000 := by exact_mod_cast few
  have often : (0 : ℚ) < cadence.perSecond := by
    cases cadence <;> norm_num [Cadence.perSecond]
  have counted : (count : ℚ) * (1000 / cadence.perSecond - (2 ^ 40)⁻¹) ≤
      count * value cadence.tickMilliseconds :=
    mul_le_mul_of_nonneg_left cadence.lt_value_tickMilliseconds.le (by positivity)
  have size : (count : ℚ) * value cadence.tickMilliseconds ≤ 1000 * 1000 :=
    mul_le_mul fewCast tickGreatest tickNonneg (by norm_num)
  have loss : nearest (-(count * value cadence.tickMilliseconds)) -
      -(count * value cadence.tickMilliseconds) < (2 ^ 30)⁻¹ := by
    apply nearest_sub_lt (by norm_num)
    rw [abs_neg, abs_of_nonneg (mul_nonneg (by positivity) tickNonneg)]
    linarith
  -- Both losses together stay below the half millisecond that the seed is rounded by.
  have rounded := Number.nearestAwayOf_le (nearest (-(count * value cadence.tickMilliseconds)))
  have reached : (count : ℚ) * (1000 / cadence.perSecond) ≤ 1 - cadence.offset count := by
    unfold Cadence.offset
    rw [mul_sub] at counted
    linarith
  rw [mul_div_assoc', div_le_iff₀' often, mul_comm] at reached
  exact_mod_cast reached

/-- The seeds of a window are spaced as ticks are. -/
theorem spaced_offsets (start : ℤ) (cadence : Cadence) {count : ℕ} (few : count ≤ 1001) :
    Spaced cadence start ((List.range count).reverse.map (start + cadence.offset ·)) := by
  induction count with
  | zero => exact ⟨by simp, by simp⟩
  | succ count inductionHypothesis =>
      have spaced := inductionHypothesis (by omega)
      rw [List.range_succ, List.reverse_append, List.reverse_singleton, List.singleton_append,
        List.map_cons]
      constructor
      · intro time member
        have nonpos := cadence.offset_nonpos count
        rcases List.mem_cons.mp member with rfl | newer
        · omega
        · exact spaced.notLater time newer
      · intro time later suffix
        rcases List.suffix_cons_iff.mp suffix with whole | newer
        · obtain ⟨rfl, rfl⟩ := List.cons.inj whole
          have age := cadence.le_perSecond_mul_age (show count ≤ 1000 by omega)
          rw [List.length_map, List.length_reverse, List.length_range]
          convert age using 2
          ring
        · exact spaced.sparse time later newer

theorem spaced_seedTimes (start : ℤ) (cadence : Cadence) :
    Spaced cadence start (Series.seedTimes start cadence) := by
  have few : cadence.ticks ≤ 140 := by cases cadence <;> decide
  rw [seedTimes_eq]
  exact spaced_offsets start cadence (by omega)

/-! ## Ticks a second apart -/

/-- Milliseconds from the newest of some times, a second apart, to each of them. -/
def ages (count : ℕ) : List ℤ := (List.range count).reverse.map fun (index : ℕ) => -1000 * index

/-- Times a second apart, up to a given one. -/
def edges (now : ℤ) (count : ℕ) : List ℤ := (ages count).map (now + ·)

theorem length_edges (now : ℤ) (count : ℕ) : (edges now count).length = count := by
  simp [edges, ages]

theorem Cadence.offset_unfocused {count : ℕ} (few : count ≤ 1000) :
    Cadence.offset .unfocused count = -1000 * count := by
  have tick : value (Cadence.tickMilliseconds .unfocused) = 1000 := by
    have whole : (1000 : ℚ) / Cadence.perSecond .unfocused = (1000 : ℕ) := by
      norm_num [Cadence.perSecond]
    rw [(Cadence.tickMilliseconds_eq _).2, whole,
      (representable_natCast (by norm_num)).nearest_eq, Nat.cast_ofNat]
  have exact : -((count : ℚ) * 1000) = ((-1000 * count : ℤ) : ℚ) := by
    push_cast
    ring
  have kept : nearest ((-1000 * count : ℤ) : ℚ) = (-1000 * count : ℤ) :=
    (representable_intCast (abs_lt.mpr (by omega))).nearest_eq
  have rounded := Number.nearestAwayOf_of_abs_eq_floor (q := ((-1000 * count : ℤ) : ℚ))
    (by rw [← Int.cast_abs, Int.floor_intCast])
  rw [Cadence.offset, tick, exact, kept]
  exact_mod_cast rounded

theorem seedTimes_unfocused (start : ℤ) : Series.seedTimes start .unfocused = edges start 21 := by
  rw [seedTimes_eq, edges, ages, List.map_map]
  apply List.map_congr_left
  intro age member
  rw [List.mem_reverse, List.mem_range] at member
  have few : age < 21 := member
  rw [Cadence.offset_unfocused (by omega)]
  rfl

/-- A tick a second later moves the times on by a second. -/
theorem advance_edges
    (trimmed : Bool)
    {count : ℕ}
    (full : count = 21 ∨ count = (Window.mk .unfocused trimmed).capacity)
    (last : ℤ) :
    (Window.mk .unfocused trimmed).advance (edges last count) (last + 1000) =
      edges (last + 1000) (Window.mk .unfocused trimmed).capacity := by
  have moved : (ages count).dropWhile (· < 1000 - (Window.mk .unfocused trimmed).reach) ++ [1000] =
      (ages (Window.mk .unfocused trimmed).capacity).map (1000 + ·) := by
    rcases full with rfl | rfl <;> cases trimmed <;> decide +kernel
  have same : (fun time => decide (time < last + 1000 - (Window.mk .unfocused trimmed).reach)) ∘
      (last + ·) = fun age => decide (age < 1000 - (Window.mk .unfocused trimmed).reach) := by
    funext age
    rw [Function.comp_apply, decide_eq_decide]
    omega
  calc (Window.mk .unfocused trimmed).advance (edges last count) (last + 1000)
      = ((ages count).dropWhile (· < 1000 - (Window.mk .unfocused trimmed).reach) ++ [1000]).map
          (last + ·) := by
        rw [Window.advance, edges, List.dropWhile_map, same, List.map_append, List.map_singleton]
    _ = edges (last + 1000) (Window.mk .unfocused trimmed).capacity := by
        rw [moved, List.map_map, edges]
        exact List.map_congr_left fun age _ => (add_assoc _ _ _).symm

/-- A run of ticks a second apart leaves as many times as the window has room for. -/
theorem length_foldl_advance_edges
    (trimmed : Bool)
    {count : ℕ}
    (full : count = 21 ∨ count = (Window.mk .unfocused trimmed).capacity)
    {last now : ℤ}
    {ticks : List ℤ}
    (even : (last :: (ticks ++ [now])).IsChain fun earlier later : ℤ => later = earlier + 1000) :
    ((ticks ++ [now]).foldl (Window.mk .unfocused trimmed).advance (edges last count)).length =
      (Window.mk .unfocused trimmed).capacity := by
  induction ticks generalizing last count with
  | nil =>
      obtain rfl := (List.isChain_cons_cons.mp even).1
      rw [List.nil_append, List.foldl_cons, List.foldl_nil, advance_edges trimmed full,
        length_edges]
  | cons tick ticks inductionHypothesis =>
      obtain ⟨rfl, rest⟩ := List.isChain_cons_cons.mp even
      rw [List.cons_append, List.foldl_cons, advance_edges trimmed full]
      exact inductionHypothesis (.inr rfl) rest

/-! ## Ticks of a board -/

theorem insertByTime_newest
    {point : Point}
    {points : List Point}
    (notLater : ∀ other ∈ points, other.time ≤ point.time) :
    Series.insertByTime point points = points ++ [point] := by
  induction points with
  | nil => rfl
  | cons first rest inductionHypothesis =>
      rw [Series.insertByTime, if_pos (notLater first List.mem_cons_self),
        inductionHypothesis fun other member => notLater other (List.mem_cons_of_mem _ member)]
      rfl

namespace Board

variable {board : Board} {direction : Direction} {curve : Curve}

/-- A tick advances the times of a series that has gaps only. -/
theorem points_tick
    {times : List ℤ}
    {now : ℤ}
    (points : (board.series direction curve).points = times.map Point.gap)
    (notLater : ∀ time ∈ times, time ≤ now)
    (bounded : |now| < 2 ^ 50) :
    ((board.tick now).series direction curve).points =
      (board.window.advance times now).map Point.gap := by
  have older : Series.isBefore (board.window.floor now) ∘ Point.gap =
      fun time => decide (time < now - board.window.reach) :=
    funext fun time => decide_eq_decide.mpr (board.window.ofInt_lt_floor_iff bounded time)
  rw [series_tick, Series.push, Series.evict, points, List.dropWhile_map, older,
    insertByTime_newest, Window.advance, List.map_append, List.map_singleton]
  intro other member
  obtain ⟨time, kept, rfl⟩ := List.mem_map.mp member
  exact notLater time ((List.dropWhile_suffix _).subset kept)

theorem points_run_ticks
    {times ticks : List ℤ}
    {last : ℤ}
    (points : (board.series direction curve).points = times.map Point.gap)
    (spaced : Spaced board.window.cadence last times)
    (apart : (last :: ticks).IsChain fun earlier later : ℤ =>
      earlier + board.window.cadence.period ≤ later)
    (bounded : ∀ now ∈ ticks, |now| < 2 ^ 50) :
    ((board.run (ticks.map .tick)).series direction curve).points =
      (ticks.foldl board.window.advance times).map Point.gap := by
  induction ticks generalizing board times last with
  | nil => exact points
  | cons tick ticks inductionHypothesis =>
      obtain ⟨first, rest⟩ := List.isChain_cons_cons.mp apart
      have notLater : ∀ time ∈ times, time ≤ tick := fun time member => by
        have before := spaced.notLater time member
        omega
      exact inductionHypothesis
        (points_tick points notLater (bounded tick List.mem_cons_self))
        (spaced.advance first) rest fun now member => bounded now (List.mem_cons_of_mem _ member)

/-! ## Results between ticks -/

/-- No operation changes the focus. -/
def KeepsFocus (operations : List Operation) : Prop := ∀ focused, .setFocus focused ∉ operations

namespace KeepsFocus

variable {operation : Operation} {operations : List Operation}

theorem of_cons (keepsFocus : KeepsFocus (operation :: operations)) : KeepsFocus operations :=
  fun focused member => keepsFocus focused (List.mem_cons_of_mem _ member)

theorem init (keepsFocus : KeepsFocus (operations ++ [operation])) : KeepsFocus operations :=
  fun focused member => keepsFocus focused (List.mem_append_left _ member)

theorem window_eq (keepsFocus : KeepsFocus (operation :: operations)) (window : Window) :
    operation.window window = window := by
  cases operation with
  | setFocus focused => exact absurd List.mem_cons_self (keepsFocus focused)
  | _ => rfl

end KeepsFocus

/-- The times of the ticks of a run. -/
def tickTimes (operations : List Operation) : List ℤ :=
  operations.filterMap fun
    | .tick now => some now
    | _ => none

/-- The points that results add to a series, with the floors of the window at all later ticks. -/
def recordings
    (direction : Direction)
    (curve : Curve)
    (window : Window) : List Operation → List Arrival
  | [] => []
  | .record report now :: later =>
      ((Operation.record report now).added direction curve).map (⟨·, floors window later⟩) ++
        recordings direction curve window later
  | operation :: later => recordings direction curve (operation.window window) later

theorem remaining_perm (arrivals : List Arrival) :
    (remaining arrivals).Perm (surviving arrivals) :=
  ((List.mergeSort_perm arrivals _).filter _).map _

theorem surviving_perm {first second : List Arrival} (same : first.Perm second) :
    (surviving first).Perm (surviving second) :=
  (same.filter _).map _

/-- Results have no floors, so a run has those of its ticks. -/
theorem floors_tickTimes
    {operations : List Operation}
    (keepsFocus : KeepsFocus operations)
    (window : Window) :
    floors window ((tickTimes operations).map .tick) = floors window operations := by
  induction operations with
  | nil => rfl
  | cons operation later inductionHypothesis =>
      have rest := inductionHypothesis keepsFocus.of_cons
      cases operation with
      | tick now => exact congrArg (window.floor now :: ·) rest
      | record report now => exact rest
      | setFocus focused => exact absurd List.mem_cons_self (keepsFocus focused)

/-- What a run adds to a series is what its ticks add and what its results add. -/
theorem arrivals_perm
    {operations : List Operation}
    (keepsFocus : KeepsFocus operations)
    (window : Window) :
    (arrivals direction curve window operations).Perm
      (arrivals direction curve window ((tickTimes operations).map .tick) ++
        recordings direction curve window operations) := by
  induction operations with
  | nil => exact .refl _
  | cons operation later inductionHypothesis =>
      have rest := inductionHypothesis keepsFocus.of_cons
      cases operation with
      | tick now =>
          change (⟨.gap now, floors window later⟩ :: arrivals direction curve window later).Perm
            (⟨.gap now, floors window ((tickTimes later).map .tick)⟩ :: _)
          rw [floors_tickTimes keepsFocus.of_cons]
          exact rest.cons _
      | record report now =>
          exact (rest.append_left _).trans (List.perm_append_comm_assoc _ _ _)
      | setFocus focused => exact absurd List.mem_cons_self (keepsFocus focused)

/-- Results neither add to nor take from the other points of a run. -/
theorem points_run_perm
    (ordered : (board.series direction curve).points.Pairwise fun first second =>
      first.time ≤ second.time)
    {operations : List Operation}
    (keepsFocus : KeepsFocus operations) :
    ((board.run operations).series direction curve).points.Perm
      (((board.run ((tickTimes operations).map .tick)).series direction curve).points ++
        surviving (recordings direction curve board.window operations)) := by
  rw [points_run ordered, points_run ordered, floors_tickTimes keepsFocus]
  refine (remaining_perm _).trans ?_
  refine (surviving_perm ((arrivals_perm keepsFocus _).append_left _)).trans ?_
  rw [← List.append_assoc, surviving_append]
  exact (remaining_perm _).symm.append_right _

/-! ## Runs -/

/-- A run without a change of focus, whose ticks are at least a period apart. -/
structure Paced (start : ℤ) (cadence : Cadence) (operations : List Operation) : Prop where
  keepsFocus : KeepsFocus operations
  apart : (start :: tickTimes operations).IsChain fun earlier later : ℤ =>
    earlier + cadence.period ≤ later
  bounded : ∀ now ∈ tickTimes operations, |now| < 2 ^ 50

theorem tickTimes_concat (operations : List Operation) (now : ℤ) :
    tickTimes (operations ++ [.tick now]) = tickTimes operations ++ [now] :=
  List.filterMap_append

theorem points_withWindow
    (start : ℤ)
    (window : Window)
    (direction : Direction)
    (curve : Curve) :
    ((withWindow start window).series direction curve).points =
      (Series.seedTimes start window.cadence).map Point.gap := by
  rw [series, chart, withWindow, PerDirection.get_both]
  cases curve <;> rfl

theorem ordered_withWindow
    (start : ℤ)
    (window : Window)
    (direction : Direction)
    (curve : Curve) :
    ((withWindow start window).series direction curve).points.Pairwise fun first second =>
      first.time ≤ second.time := by
  rw [points_withWindow, List.pairwise_map]
  exact Series.ordered_seedTimes start window.cadence

theorem window_run
    {operations : List Operation}
    (keepsFocus : KeepsFocus operations)
    (board : Board) :
    (board.run operations).window = board.window := by
  induction operations generalizing board with
  | nil => rfl
  | cons operation later inductionHypothesis =>
      rw [run, List.foldl_cons, ← run, inductionHypothesis keepsFocus.of_cons, window_apply,
        keepsFocus.window_eq]

theorem ordered_run
    (ordered : (board.series direction curve).points.Pairwise fun first second =>
      first.time ≤ second.time)
    (operations : List Operation) :
    ((board.run operations).series direction curve).points.Pairwise fun first second =>
      first.time ≤ second.time := by
  rw [points_run ordered]
  exact (stablySorted_remaining _).ordered

/-- No point that a tick leaves is older than the window. -/
theorem isBefore_eq_false_of_mem_tick
    (ordered : (board.series direction curve).points.Pairwise fun first second =>
      first.time ≤ second.time)
    {now : ℤ}
    (bounded : |now| < 2 ^ 50)
    {point : Point}
    (member : point ∈ ((board.tick now).series direction curve).points) :
    Series.isBefore (board.window.floor now) point = false := by
  rw [series_tick, Series.push, Series.mem_insertByTime, Series.evict,
    dropWhile_eq_filter (fun _ _ => Series.isBefore_of_le) ordered, List.mem_filter,
    Bool.not_eq_true'] at member
  rcases member with rfl | ⟨-, inside⟩
  · have few := board.window.margin_le
    apply decide_eq_false
    rw [board.window.ofInt_lt_floor_iff bounded]
    change ¬ now < now - board.window.reach
    unfold Window.reach
    omega
  · exact inside

/-- After every tick a series has, besides the points of results, no more points than its
window has room for, and none that is older than the window. With ticks a second apart it has
exactly that many. -/
theorem points_of_paced
    {start now : ℤ}
    {window : Window}
    {operations : List Operation}
    (paced : Paced start window.cadence (operations ++ [.tick now]))
    (direction : Direction)
    (curve : Curve) :
    let board := (withWindow start window).run (operations ++ [.tick now])
    let points := (board.series direction curve).points
    (∃ times : List ℤ,
      points.Perm (times.map Point.gap ++
        surviving (recordings direction curve window (operations ++ [.tick now]))) ∧
      times.length ≤ window.capacity ∧
      (window.cadence = .unfocused →
        ((start :: tickTimes (operations ++ [.tick now])).IsChain
          fun earlier later : ℤ => later = earlier + 1000) →
        times.length = window.capacity)) ∧
      ∀ point ∈ points, Series.isBefore (window.floor now) point = false := by
  intro board points
  have bounded := paced.bounded
  have apart := paced.apart
  have seeds := points_withWindow start window direction curve
  have spaced := spaced_seedTimes start window.cadence
  have merged := points_run_perm (ordered_withWindow start window direction curve) paced.keepsFocus
  rw [points_run_ticks seeds spaced apart bounded] at merged
  rw [tickTimes_concat] at apart
  constructor
  · refine ⟨_, merged, ?_, ?_⟩
    · rw [tickTimes_concat]
      exact spaced.length_foldl_advance_le apart
    · obtain ⟨cadence, trimmed⟩ := window
      rintro rfl even
      rw [tickTimes_concat] at even ⊢
      rw [seedTimes_unfocused]
      exact length_foldl_advance_edges trimmed (.inl rfl) even
  · intro point member
    have last : board = ((withWindow start window).run operations).tick now :=
      List.foldl_concat _ _ _ _
    have same := window_run paced.keepsFocus.init (withWindow start window)
    have ordered := ordered_run (ordered_withWindow start window direction curve) operations
    have small := bounded now (by simp [tickTimes_concat])
    have left : point ∈
        ((((withWindow start window).run operations).tick now).series direction curve).points :=
      last ▸ member
    have inside := isBefore_eq_false_of_mem_tick ordered small left
    rwa [same] at inside

/-- Ticks one and two seconds after the start, with a result between them. -/
theorem points_of_paced_at_two_seconds :
    let window : Window := ⟨.unfocused, false⟩
    let report : Report := ⟨.both { bandwidth := some 8000 }, none⟩
    let operations : List Operation := [.tick 1000, .record report 1500] ++ [.tick 2000]
    let points := (((withWindow 0 window).run operations).series .clientToServer .attempted).points
    Paced 0 .unfocused operations ∧ points.length = 22 ∧
      ∀ point ∈ points, Series.isBefore (window.floor 2000) point = false := by
  intro window report operations points
  have even : ((0 : ℤ) :: tickTimes operations).IsChain fun earlier later : ℤ =>
      later = earlier + 1000 := by
    decide
  have paced : Paced 0 window.cadence ([.tick 1000, .record report 1500] ++ [.tick 2000]) := by
    refine ⟨by simp [KeepsFocus], ?_, by decide⟩
    exact even.imp fun earlier later apart => by
      rw [Cadence.period_unfocused]
      omega
  obtain ⟨⟨times, same, -, full⟩, inside⟩ := points_of_paced paced .clientToServer .attempted
  have results :
      (surviving (recordings .clientToServer .attempted window operations)).length = 1 := by
    decide +kernel
  refine ⟨paced, ?_, inside⟩
  rw [same.length_eq, List.length_append, List.length_map, full rfl even, results]
  rfl

end Board
end Chart
end NetworkConsole
