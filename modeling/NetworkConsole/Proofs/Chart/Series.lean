import Mathlib.Data.List.Basic
import NetworkConsole.Chart.Series
import NetworkConsole.Proofs.Chart.Window
import NetworkConsole.Proofs.Number.Integer

/-!
# Points in order of time

A series keeps its points stably sorted: in order of time, and those of one time in the
order in which they were added. Every point that is older than the window is then left of
all others, so dropping points from the left drops exactly the old ones.
-/

namespace NetworkConsole
namespace Chart

/-! ## Stable sorting -/

/-- A list is another one in order of a key, where the elements of one key keep their
order. -/
structure StablySorted (key : α → ℤ) (sorted list : List α) : Prop where
  ordered : sorted.Pairwise fun first second => key first ≤ key second
  stable : ∀ shared, sorted.filter (key · = shared) = list.filter (key · = shared)

namespace StablySorted

variable {key : α → ℤ}

theorem of_ordered
    {list : List α}
    (ordered : list.Pairwise fun first second => key first ≤ key second) :
    StablySorted key list list :=
  ⟨ordered, fun _ => rfl⟩

theorem key_head_le
    {head other : α}
    {tail : List α}
    (ordered : (head :: tail).Pairwise fun first second => key first ≤ key second)
    (member : other ∈ head :: tail) :
    key head ≤ key other := by
  rcases List.mem_cons.mp member with rfl | later
  · exact le_rfl
  · exact List.rel_of_pairwise_cons ordered later

theorem mem_of_filter_eq
    {first second : List α}
    (same : ∀ shared, first.filter (key · = shared) = second.filter (key · = shared))
    {element : α}
    (member : element ∈ first) :
    element ∈ second := by
  have kept : element ∈ first.filter (key · = key element) :=
    List.mem_filter.mpr ⟨member, decide_eq_true rfl⟩
  rw [same] at kept
  exact List.mem_of_mem_filter kept

/-- The order and the elements of each key make up the whole list. -/
theorem eq_of_filter_eq
    {first second : List α}
    (firstOrdered : first.Pairwise fun first second => key first ≤ key second)
    (secondOrdered : second.Pairwise fun first second => key first ≤ key second)
    (same : ∀ shared, first.filter (key · = shared) = second.filter (key · = shared)) :
    first = second := by
  induction first generalizing second with
  | nil =>
      cases second with
      | nil => rfl
      | cons head tail =>
          cases mem_of_filter_eq (fun shared => (same shared).symm) List.mem_cons_self
  | cons head tail inductionHypothesis =>
      cases second with
      | nil => cases mem_of_filter_eq same List.mem_cons_self
      | cons other others =>
          have sameKey : key head = key other := le_antisymm
            (key_head_le firstOrdered
              (mem_of_filter_eq (fun shared => (same shared).symm) List.mem_cons_self))
            (key_head_le secondOrdered (mem_of_filter_eq same List.mem_cons_self))
          have heads := same (key head)
          rw [List.filter_cons_of_pos (by simp), List.filter_cons_of_pos (by simp [sameKey]),
            List.cons.injEq] at heads
          obtain ⟨rfl, -⟩ := heads
          rw [inductionHypothesis firstOrdered.of_cons secondOrdered.of_cons]
          intro shared
          have kept := same shared
          by_cases atKey : key head = shared
          · rwa [List.filter_cons_of_pos (by simp [atKey]),
              List.filter_cons_of_pos (by simp [atKey]), List.cons_inj_right] at kept
          · rwa [List.filter_cons_of_neg (by simp [atKey]),
              List.filter_cons_of_neg (by simp [atKey])] at kept

theorem unique
    {first second list : List α}
    (left : StablySorted key first list)
    (right : StablySorted key second list) :
    first = second :=
  eq_of_filter_eq left.ordered right.ordered fun shared =>
    (left.stable shared).trans (right.stable shared).symm

theorem mergeSort (key : α → ℤ) (list : List α) :
    StablySorted key (list.mergeSort fun first second => key first ≤ key second) list := by
  have transitive : ∀ a b c : α, decide (key a ≤ key b) = true → decide (key b ≤ key c) = true →
      decide (key a ≤ key c) = true := by
    simp only [decide_eq_true_iff]
    exact fun a b c => le_trans
  have total : ∀ a b : α, (decide (key a ≤ key b) || decide (key b ≤ key a)) = true := by
    simp only [Bool.or_eq_true, decide_eq_true_iff]
    exact fun a b => le_total _ _
  constructor
  · simpa using List.pairwise_mergeSort transitive total list
  · intro shared
    have equalKeys : (list.filter (key · = shared)).Pairwise fun first second =>
        decide (key first ≤ key second) = true := by
      apply List.pairwise_of_forall_mem_list
      intro first firstMember second secondMember
      rw [List.mem_filter, decide_eq_true_iff] at firstMember secondMember
      exact decide_eq_true (firstMember.2.trans secondMember.2.symm).le
    have kept := (List.sublist_mergeSort transitive total equalKeys List.filter_sublist).filter
      (key · = shared)
    have count := ((List.mergeSort_perm list fun first second => key first ≤ key second).filter
      (key · = shared)).length_eq
    rw [List.filter_filter, List.filter_congr (fun _ _ => Bool.and_self _)] at kept
    exact (kept.eq_of_length count.symm).symm

theorem filter
    {sorted list : List α}
    (stablySorted : StablySorted key sorted list)
    (keep : α → Bool) :
    StablySorted key (sorted.filter keep) (list.filter keep) := by
  refine ⟨stablySorted.ordered.filter keep, ?_⟩
  intro shared
  rw [List.filter_comm, stablySorted.stable, List.filter_comm]

theorem map
    {key : β → ℤ}
    {change : α → β}
    {sorted list : List α}
    (stablySorted : StablySorted (key ∘ change) sorted list) :
    StablySorted key (sorted.map change) (list.map change) := by
  refine ⟨List.pairwise_map.mpr stablySorted.ordered, ?_⟩
  intro shared
  rw [List.filter_map, List.filter_map]
  exact congrArg (List.map change) (stablySorted.stable shared)

end StablySorted

/-! ## Points -/

/-- What is dropped from the left of an ordered list is all that is to be dropped. -/
theorem dropWhile_eq_filter
    {key : α → ℤ}
    {dropped : α → Bool}
    (closed : ∀ first second, key first ≤ key second → dropped second = true →
      dropped first = true)
    {list : List α}
    (ordered : list.Pairwise fun first second => key first ≤ key second) :
    list.dropWhile dropped = list.filter (!dropped ·) := by
  induction list with
  | nil => rfl
  | cons head tail inductionHypothesis =>
      cases left : dropped head with
      | true =>
          rw [List.dropWhile_cons_of_pos left, List.filter_cons_of_neg (by simp [left])]
          exact inductionHypothesis ordered.of_cons
      | false =>
          rw [List.dropWhile_cons_of_neg (by simp [left]), eq_comm, List.filter_eq_self]
          intro element member
          by_contra old
          have older := closed head element (StablySorted.key_head_le ordered member)
            (by simpa using old)
          exact absurd (left.symm.trans older) (by decide)

namespace Series

open Binary64

/-- What is not later than an old point is old. -/
theorem isBefore_of_le
    {floor : Float}
    {first second : Point}
    (ordered : first.time ≤ second.time)
    (old : isBefore floor second = true) :
    isBefore floor first = true :=
  decide_eq_true (ofInt_lt_of_le ordered (of_decide_eq_true old))

theorem mem_insertByTime {point other : Point} {points : List Point} :
    other ∈ insertByTime point points ↔ other = point ∨ other ∈ points := by
  induction points with
  | nil => simp [insertByTime]
  | cons first rest inductionHypothesis =>
      unfold insertByTime
      split_ifs
      · rw [List.mem_cons, inductionHypothesis, List.mem_cons, or_left_comm]
      · rw [List.mem_cons]

theorem ordered_insertByTime
    {points : List Point}
    (ordered : points.Pairwise fun first second => first.time ≤ second.time)
    (point : Point) :
    (insertByTime point points).Pairwise fun first second => first.time ≤ second.time := by
  induction points with
  | nil => exact List.pairwise_singleton _ _
  | cons first rest inductionHypothesis =>
      unfold insertByTime
      split_ifs with notLater
      · refine List.pairwise_cons.mpr ⟨?_, inductionHypothesis ordered.of_cons⟩
        intro other member
        rcases mem_insertByTime.mp member with rfl | later
        · exact notLater
        · exact List.rel_of_pairwise_cons ordered later
      · refine List.pairwise_cons.mpr ⟨?_, ordered⟩
        intro other member
        exact (not_le.mp notLater).le.trans (StablySorted.key_head_le ordered member)

/-- An inserted point comes after all points of its time. -/
theorem filter_insertByTime
    {points : List Point}
    (ordered : points.Pairwise fun first second => first.time ≤ second.time)
    (point : Point)
    (shared : ℤ) :
    (insertByTime point points).filter (·.time = shared) =
      (points ++ [point]).filter (·.time = shared) := by
  induction points with
  | nil => rfl
  | cons first rest inductionHypothesis =>
      unfold insertByTime
      split_ifs with notLater
      · rw [List.cons_append, List.filter_cons, List.filter_cons,
          inductionHypothesis ordered.of_cons]
      · rw [List.filter_append]
        by_cases atTime : point.time = shared
        · have none : (first :: rest).filter (·.time = shared) = [] := by
            rw [List.filter_eq_nil_iff]
            intro other member
            have later := StablySorted.key_head_le ordered member
            simp only [decide_eq_true_iff]
            omega
          rw [List.filter_cons_of_pos (by simp [atTime]), none,
            List.filter_cons_of_pos (by simp [atTime])]
          rfl
        · have none : [point].filter (·.time = shared) = [] := by simp [atTime]
          rw [List.filter_cons_of_neg (by simp [atTime]), none, List.append_nil]

/-- Adding a point adds it to the sorted list as the newest one. -/
theorem stablySorted_push
    {series : Series}
    {points : List Point}
    (stablySorted : StablySorted Point.time series.points points)
    (point : Point) :
    StablySorted Point.time (series.push point).points (points ++ [point]) := by
  refine ⟨ordered_insertByTime stablySorted.ordered point, ?_⟩
  intro shared
  rw [push, filter_insertByTime stablySorted.ordered, List.filter_append, List.filter_append,
    stablySorted.stable]

/-- Dropping points from the left drops exactly those that are older than the window. -/
theorem stablySorted_evict
    {series : Series}
    {points : List Point}
    (stablySorted : StablySorted Point.time series.points points)
    (floor : Float) :
    StablySorted Point.time (series.evict floor).points (points.filter (!isBefore floor ·)) := by
  rw [evict, dropWhile_eq_filter (fun _ _ => isBefore_of_le) stablySorted.ordered]
  exact stablySorted.filter _

/-! ## Seeds -/

/-- A tick lasts at most a second. -/
theorem value_tickMilliseconds (cadence : Cadence) :
    cadence.tickMilliseconds.isFinite = true ∧
      0 ≤ value cadence.tickMilliseconds ∧ value cadence.tickMilliseconds ≤ 1000 := by
  obtain ⟨finite, -⟩ := cadence.tickMilliseconds_eq
  obtain ⟨least, greatest⟩ := cadence.value_tickMilliseconds_bounds
  refine ⟨finite, ?_⟩
  cases cadence with
  | focused =>
      rw [Cadence.period_focused, Nat.cast_ofNat] at least greatest
      constructor <;> linarith
  | unfocused =>
      rw [Cadence.period_unfocused, Nat.cast_ofNat] at least greatest
      constructor <;> linarith

/-- Milliseconds from now to an earlier edge of the window. -/
theorem toInt_round_offset
    (cadence : Cadence)
    {offset : ℤ}
    (small : |offset| ≤ 1000) :
    Number.toInt (Number.round (Float.ofInt offset * cadence.tickMilliseconds)) =
      Number.nearestAwayOf (nearest (offset * value cadence.tickMilliseconds)) := by
  obtain ⟨tickFinite, nonneg, atMost⟩ := value_tickMilliseconds cadence
  obtain ⟨offsetFinite, exact⟩ := value_ofInt (small.trans_lt (by norm_num))
  have product := mul_roundsTo offsetFinite tickFinite
  rw [exact] at product
  have bounded : |(offset : ℚ) * value cadence.tickMilliseconds| ≤ (1000000 : ℕ) := by
    have size : |(offset : ℚ)| ≤ 1000 := by exact_mod_cast small
    rw [abs_mul, abs_of_nonneg nonneg]
    calc |(offset : ℚ)| * value cadence.tickMilliseconds ≤ 1000 * 1000 :=
          mul_le_mul size atMost nonneg (by norm_num)
      _ = (1000000 : ℕ) := by norm_num
  have whole := representable_natCast (n := 1000000) (by norm_num)
  have finite := product.isFinite_of_le whole (natCast_lt_overflow (by norm_num)) bounded
  rw [← product.value_eq finite]
  apply Number.toInt_round finite
  rw [product.value_eq finite]
  exact (abs_nearest_le whole bounded).trans_lt (by norm_num)

/-- The seeds of a window are in order of time. -/
theorem ordered_seedTimes (now : ℤ) (cadence : Cadence) :
    (seedTimes now cadence).Pairwise (· ≤ ·) := by
  unfold seedTimes
  rw [List.pairwise_map]
  apply List.pairwise_lt_range.imp_of_mem
  intro first second firstMember secondMember earlier
  rw [List.mem_range] at firstMember secondMember
  have few : cadence.ticks ≤ 140 := by cases cadence <;> decide
  dsimp only
  rw [toInt_round_offset cadence (abs_le.mpr (by omega)),
    toInt_round_offset cadence (abs_le.mpr (by omega))]
  apply Int.add_le_add_left
  apply Number.nearestAwayOf_mono
  apply nearest_mono
  apply mul_le_mul_of_nonneg_right _ (value_tickMilliseconds cadence).2.1
  rw [Int.cast_le]
  omega

end Series
end Chart
end NetworkConsole
