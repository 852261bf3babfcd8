import NetworkConsole.Proofs.Dial.Feedback

/-!
# Separate directions

Both directions share one queue, whose writes come in any order. What belongs to one
direction is nevertheless the same in any two linkages that agree on it, whatever the
other direction holds and whenever its writes are delivered. So operations on the other
direction can be taken out of a run.
-/

namespace NetworkConsole
namespace Linkage

/-! ## Sides -/

/-- What a linkage keeps for one direction. -/
structure Side where
  panel : Panel
  armed : PerDial Bool
  queue : List DialWrite

/-- Whether a write is for a direction. -/
def isOn (direction : Direction) (write : DialWrite) : Bool := write.direction = direction

/-- The side of a direction. -/
def side (linkage : Linkage) (direction : Direction) : Side where
  panel := linkage.panel direction
  armed := linkage.armed.get direction
  queue := linkage.queue.filter (isOn direction)

/-- Putting in a write for a direction does the same to its writes alone. -/
theorem filter_enqueue
    (queue : List DialWrite)
    (write : DialWrite) :
    (enqueue queue write).filter (isOn write.direction) =
      enqueue (queue.filter (isOn write.direction)) write := by
  have own : isOn write.direction write = true := decide_eq_true rfl
  induction queue with
  | nil => simp [enqueue, own]
  | cons queued rest inductionHypothesis =>
      by_cases same : queued.isFor write.direction write.dial = true
      · have queuedOwn : isOn write.direction queued = true :=
          decide_eq_true (congrArg Prod.fst ((queued.isFor_write_iff write).mp same))
        rw [enqueue, if_pos same, List.filter_cons_of_pos own, List.filter_cons_of_pos queuedOwn,
          enqueue, if_pos same]
      · rw [enqueue, if_neg same]
        by_cases queuedOwn : isOn write.direction queued = true
        · rw [List.filter_cons_of_pos queuedOwn, List.filter_cons_of_pos queuedOwn, enqueue,
            if_neg same, inductionHypothesis]
        · rw [List.filter_cons_of_neg queuedOwn, List.filter_cons_of_neg queuedOwn,
            inductionHypothesis]

/-- Putting in a write leaves the writes for the other direction. -/
theorem filter_enqueue_of_ne
    (queue : List DialWrite)
    {write : DialWrite}
    {direction : Direction}
    (different : direction ≠ write.direction) :
    (enqueue queue write).filter (isOn direction) = queue.filter (isOn direction) := by
  have foreign : ¬ isOn direction write = true := by simpa [isOn] using different.symm
  induction queue with
  | nil => simp [enqueue, foreign]
  | cons queued rest inductionHypothesis =>
      by_cases same : queued.isFor write.direction write.dial = true
      · have queuedForeign : ¬ isOn direction queued = true := by
          have direction : queued.direction = write.direction :=
            congrArg Prod.fst ((queued.isFor_write_iff write).mp same)
          simpa [isOn, direction] using different.symm
        rw [enqueue, if_pos same, List.filter_cons_of_neg foreign,
          List.filter_cons_of_neg queuedForeign]
      · rw [enqueue, if_neg same]
        by_cases queuedOwn : isOn direction queued = true
        · rw [List.filter_cons_of_pos queuedOwn, List.filter_cons_of_pos queuedOwn,
            inductionHypothesis]
        · rw [List.filter_cons_of_neg queuedOwn, List.filter_cons_of_neg queuedOwn,
            inductionHypothesis]

/-! ## Operations on the other direction -/

section

variable (linkage : Linkage) {direction other : Direction} (different : direction ≠ other)
include different

theorem side_setDial_of_ne (dial : Dial) (value : Float) :
    (linkage.setDial other dial value).side direction = linkage.side direction := by
  rw [side, panel_setDial_of_ne _ different]
  rfl

theorem side_setArmed_of_ne (dial : Dial) (armed : Bool) :
    (linkage.setArmed other dial armed).side direction = linkage.side direction := by
  simp only [side, setArmed, PerDirection.modify, PerDirection.get_set_of_ne _ different]
  rfl

theorem side_write_of_ne (dial : Dial) (value : Float) :
    (linkage.write other dial value).side direction = linkage.side direction := by
  have queue : (enqueue linkage.queue ⟨other, dial, value⟩).filter (isOn direction) =
      linkage.queue.filter (isOn direction) :=
    filter_enqueue_of_ne linkage.queue different
  calc (linkage.write other dial value).side direction
      = ((linkage.setDial other dial value).setArmed other dial true).side direction :=
        congrArg (Side.mk _ _) queue
    _ = linkage.side direction := by
        rw [side_setArmed_of_ne _ different, side_setDial_of_ne _ different]

theorem side_edit_of_ne (dial : Dial) (value : Float) :
    (linkage.edit other dial value).1.side direction = linkage.side direction := by
  obtain ⟨-, applied, target, last, origin, result⟩ :=
    linkage.exists_edit_eq_write other dial value
  rw [result, side_write_of_ne _ different]
  rcases origin with rfl | ⟨x, rfl⟩ | ⟨x, rfl⟩
  · rfl
  · exact side_write_of_ne _ different dial x
  · exact side_setDial_of_ne _ different dial x

theorem side_change_of_ne (dial : Dial) (value : Float) :
    (linkage.change other dial value).1.side direction = linkage.side direction := by
  unfold change
  split_ifs
  · rw [side_setDial_of_ne _ different, side_setArmed_of_ne _ different]
  · exact linkage.side_edit_of_ne different dial value

theorem side_setLock_of_ne (lock : Lock) :
    (linkage.setLock other lock).side direction = linkage.side direction := by
  simp only [side, panel, setLock, PerDirection.modify, PerDirection.get_set_of_ne _ different]

theorem side_load_of_ne (loaded : Panel) :
    (linkage.load other loaded).side direction = linkage.side direction := by
  simp only [side, panel, load, PerDirection.get_set_of_ne _ different]

end

/-! ## Operations on a direction itself -/

section

variable {first second : Linkage} {direction : Direction}

theorem panel_eq_of_side_eq (same : first.side direction = second.side direction) :
    first.panel direction = second.panel direction := congrArg Side.panel same

theorem side_setDial_congr
    (same : first.side direction = second.side direction)
    (dial : Dial)
    (value : Float) :
    (first.setDial direction dial value).side direction =
      (second.setDial direction dial value).side direction := by
  rw [side, side, panel_setDial, panel_setDial, panel_eq_of_side_eq same]
  exact congrArg (fun side => Side.mk _ side.armed side.queue) same

theorem side_setArmed_congr
    (same : first.side direction = second.side direction)
    (dial : Dial)
    (armed : Bool) :
    (first.setArmed direction dial armed).side direction =
      (second.setArmed direction dial armed).side direction := by
  simp only [side, setArmed, PerDirection.modify, PerDirection.get_set_same]
  exact congrArg (fun side => Side.mk side.panel (side.armed.set dial armed) side.queue) same

theorem side_write_congr
    (same : first.side direction = second.side direction)
    (dial : Dial)
    (value : Float) :
    (first.write direction dial value).side direction =
      (second.write direction dial value).side direction := by
  have side_write (linkage : Linkage) : (linkage.write direction dial value).side direction =
      let armed := ((linkage.setDial direction dial value).setArmed direction dial true).side
        direction
      { armed with queue := enqueue armed.queue ⟨direction, dial, value⟩ } :=
    congrArg (Side.mk _ _) (filter_enqueue linkage.queue ⟨direction, dial, value⟩)
  rw [side_write, side_write, side_setArmed_congr (side_setDial_congr same dial value)]

theorem resolve_congr
    (same : first.side direction = second.side direction)
    (dial : Dial)
    (previous : Float)
    (notices : List RangeNotice) :
    (first.resolve direction dial previous notices).1.side direction =
        (second.resolve direction dial previous notices).1.side direction ∧
      (first.resolve direction dial previous notices).2 =
        (second.resolve direction dial previous notices).2 := by
  unfold resolve
  rw [panel_eq_of_side_eq same]
  dsimp only
  split_ifs
  all_goals exact ⟨side_write_congr same _ _, rfl⟩

theorem edit_congr
    (same : first.side direction = second.side direction)
    (dial : Dial)
    (value : Float) :
    (first.edit direction dial value).1.side direction =
        (second.edit direction dial value).1.side direction ∧
      (first.edit direction dial value).2 = (second.edit direction dial value).2 := by
  unfold edit
  rw [panel_eq_of_side_eq same]
  dsimp only
  by_cases finite : (dial.normalize value).isFinite = true
  · rw [if_pos finite, if_pos finite]
    apply resolve_congr
    split_ifs
    · exact side_write_congr same _ _
    · exact side_setDial_congr same _ _
  · rw [if_neg finite, if_neg finite]
    exact ⟨side_write_congr same _ _, rfl⟩

/-- A change depends on its own direction alone. -/
theorem change_congr
    (same : first.side direction = second.side direction)
    (dial : Dial)
    (value : Float) :
    (first.change direction dial value).1.side direction =
        (second.change direction dial value).1.side direction ∧
      (first.change direction dial value).2 = (second.change direction dial value).2 := by
  have armed : first.isArmed direction dial = second.isArmed direction dial :=
    congrArg (fun side => side.armed.get dial) same
  unfold change
  rw [armed]
  split_ifs
  · exact ⟨side_setDial_congr (side_setArmed_congr same dial false) dial value, rfl⟩
  · exact edit_congr same dial value

theorem side_setLock_congr (same : first.side direction = second.side direction) (lock : Lock) :
    (first.setLock direction lock).side direction =
      (second.setLock direction lock).side direction := by
  simp only [side, panel, setLock, PerDirection.modify, PerDirection.get_set_same]
  exact congrArg (fun side => Side.mk { side.panel with lock } side.armed side.queue) same

theorem side_load_congr (same : first.side direction = second.side direction) (loaded : Panel) :
    (first.load direction loaded).side direction =
      (second.load direction loaded).side direction := by
  simp only [side, panel, load, PerDirection.get_set_same]
  exact congrArg
    (fun side => Side.mk { loaded with lock := side.panel.lock } side.armed side.queue) same

end

/-! ## Deliveries -/

/-- The deliveries of a settling, at most `limit` of them: the direction of each write and
the report of its change. -/
def deliveries : (limit : ℕ) → Linkage → List (Direction × ChangeReport)
  | 0, _ => []
  | limit + 1, linkage =>
      match linkage.queue with
      | [] => []
      | write :: rest =>
          let next := (linkage.afterFirst rest).change write.direction write.dial write.value
          (write.direction, next.2) :: deliveries limit next.1

theorem deliveries_of_nil {linkage : Linkage} (empty : linkage.queue = []) (limit : ℕ) :
    linkage.deliveries limit = [] := by
  cases limit with
  | zero => rfl
  | succ limit => rw [deliveries, empty]

theorem deliveries_of_cons
    {linkage : Linkage}
    {write : DialWrite}
    {rest : List DialWrite}
    (head : linkage.queue = write :: rest)
    (limit : ℕ) :
    linkage.deliveries (limit + 1) =
      let next := (linkage.afterFirst rest).change write.direction write.dial write.value
      (write.direction, next.2) :: next.1.deliveries limit := by
  rw [deliveries, head]

/-- The deliveries to a direction. -/
def deliveriesTo (direction : Direction) (limit : ℕ) (linkage : Linkage) :
    List (Direction × ChangeReport) :=
  (linkage.deliveries limit).filter fun delivery => delivery.1 = direction

theorem deliveriesTo_of_cons
    {linkage : Linkage}
    {write : DialWrite}
    {rest : List DialWrite}
    (head : linkage.queue = write :: rest)
    (direction : Direction)
    (limit : ℕ) :
    linkage.deliveriesTo direction (limit + 1) =
      let next := (linkage.afterFirst rest).change write.direction write.dial write.value
      if write.direction = direction then
        (write.direction, next.2) :: next.1.deliveriesTo direction limit
      else next.1.deliveriesTo direction limit := by
  simp [deliveriesTo, deliveries_of_cons head, List.filter_cons]

namespace Coherent

variable {linkage : Linkage} {write : DialWrite} {rest : List DialWrite} {direction : Direction}

/-- Nothing is left to deliver once there is no limit. -/
theorem queue_of_workload_le_zero (enough : linkage.workload ≤ 0) : linkage.queue = [] := by
  rw [workload_eq] at enough
  exact List.eq_nil_of_length_eq_zero (by omega)

/-- A delivery to the other direction. -/
theorem side_delivery_of_ne
    (head : linkage.queue = write :: rest)
    (different : direction ≠ write.direction) :
    ((linkage.afterFirst rest).change write.direction write.dial write.value).1.side direction =
      linkage.side direction := by
  have foreign : ¬ isOn direction write = true := by simpa [isOn] using different.symm
  rw [side_change_of_ne _ different]
  simp only [side, head, List.filter_cons_of_neg foreign]
  rfl

/-- Where no write of a direction is queued, a settling leaves its side. -/
theorem deliver_of_side_nil
    {limit : ℕ}
    (coherent : Coherent linkage)
    (enough : linkage.workload ≤ limit)
    (none : (linkage.side direction).queue = []) :
    (linkage.deliver limit).1.side direction = linkage.side direction ∧
      linkage.deliveriesTo direction limit = [] := by
  induction limit generalizing linkage with
  | zero => exact ⟨rfl, rfl⟩
  | succ limit inductionHypothesis =>
      cases head : linkage.queue with
      | nil =>
          rw [deliver_of_nil head, deliveriesTo, deliveries_of_nil head]
          exact ⟨rfl, rfl⟩
      | cons write rest =>
          have different : direction ≠ write.direction := by
            intro same
            have own : isOn direction write = true := decide_eq_true same.symm
            rw [side, head, List.filter_cons_of_pos own] at none
            cases none
          have kept := side_delivery_of_ne head different
          obtain ⟨changed, smaller⟩ := coherent.delivery head
          obtain ⟨settled, delivered⟩ := inductionHypothesis changed (by omega) (kept ▸ none)
          rw [deliver_of_cons head, deliveriesTo_of_cons head]
          dsimp only
          rw [if_neg different.symm]
          exact ⟨settled.trans kept, delivered⟩

/-- A settling first delivers the writes of the other direction that stand before the
first write of a direction. -/
theorem exists_deliver_eq_of_side_cons
    {limit : ℕ}
    {own : List DialWrite}
    (coherent : Coherent linkage)
    (enough : linkage.workload ≤ limit)
    (first : (linkage.side direction).queue = write :: own) :
    ∃ reached remaining rest,
      Coherent reached ∧ reached.queue = write :: rest ∧
        reached.side direction = linkage.side direction ∧
        reached.workload ≤ remaining + 1 ∧ remaining < limit ∧
        (linkage.deliver limit).1 = (reached.deliver (remaining + 1)).1 ∧
        linkage.deliveriesTo direction limit =
          reached.deliveriesTo direction (remaining + 1) := by
  induction limit generalizing linkage with
  | zero =>
      rw [side, queue_of_workload_le_zero enough] at first
      cases first
  | succ limit inductionHypothesis =>
      cases head : linkage.queue with
      | nil =>
          rw [side, head] at first
          cases first
      | cons next rest =>
          by_cases same : next.direction = direction
          · have onDirection : isOn direction next = true := decide_eq_true same
            rw [side, head, List.filter_cons_of_pos onDirection] at first
            cases first
            exact ⟨linkage, limit, rest, coherent, head, rfl, enough, Nat.lt_succ_self _, rfl, rfl⟩
          · have kept := side_delivery_of_ne head (Ne.symm same)
            obtain ⟨changed, smaller⟩ := coherent.delivery head
            obtain ⟨reached, remaining, left, reachedCoherent, queue, sides, fits, fewer, settled,
              delivered⟩ := inductionHypothesis changed (by omega) (kept ▸ first)
            refine ⟨reached, remaining, left, reachedCoherent, queue, sides.trans kept, fits,
              Nat.lt_succ_of_lt fewer, ?_, ?_⟩
            · rw [deliver_of_cons head]
              exact settled
            · rw [deliveriesTo_of_cons head]
              dsimp only
              rwa [if_neg same]

/-- What a settling does to a direction depends on its side alone. -/
theorem deliver_congr
    {first second : Linkage}
    {limit otherLimit : ℕ}
    (firstCoherent : Coherent first)
    (secondCoherent : Coherent second)
    (enough : first.workload ≤ limit)
    (otherEnough : second.workload ≤ otherLimit)
    (same : first.side direction = second.side direction) :
    (first.deliver limit).1.side direction = (second.deliver otherLimit).1.side direction ∧
      first.deliveriesTo direction limit = second.deliveriesTo direction otherLimit := by
  -- Both settlings are taken up to their next delivery to the direction, which is the same.
  induction limit using Nat.strongRecOn generalizing first second otherLimit with
  | ind limit inductionHypothesis =>
      cases queued : (first.side direction).queue with
      | nil =>
          obtain ⟨settled, delivered⟩ := firstCoherent.deliver_of_side_nil enough queued
          obtain ⟨otherSettled, otherDelivered⟩ :=
            secondCoherent.deliver_of_side_nil otherEnough (same ▸ queued)
          exact ⟨by rw [settled, otherSettled, same], by rw [delivered, otherDelivered]⟩
      | cons write own =>
          obtain ⟨reached, remaining, rest, coherent, head, side, fits, fewer, settled,
            delivered⟩ := firstCoherent.exists_deliver_eq_of_side_cons enough queued
          obtain ⟨otherReached, otherRemaining, otherRest, otherCoherent, otherHead, otherSide,
            otherFits, -, otherSettled, otherDelivered⟩ :=
            secondCoherent.exists_deliver_eq_of_side_cons otherEnough (same ▸ queued)
          have onDirection : isOn direction write = true := by
            have member : write ∈ (first.side direction).queue := by
              rw [queued]
              exact List.mem_cons_self
            exact (List.mem_filter.mp member).2
          have sides : (reached.afterFirst rest).side direction =
              (otherReached.afterFirst otherRest).side direction := by
            have reachedSame := (side.trans same).trans otherSide.symm
            simp only [Linkage.side, head, otherHead, List.filter_cons_of_pos onDirection,
              Side.mk.injEq, List.cons.injEq, true_and] at reachedSame
            simp only [Linkage.side, queue_afterFirst, Side.mk.injEq]
            exact reachedSame
          obtain rfl : write.direction = direction := of_decide_eq_true onDirection
          obtain ⟨changed, reports⟩ := change_congr sides write.dial write.value
          obtain ⟨nextCoherent, smaller⟩ := coherent.delivery head
          obtain ⟨otherNextCoherent, otherSmaller⟩ := otherCoherent.delivery otherHead
          obtain ⟨later, laterDelivered⟩ := inductionHypothesis remaining fewer nextCoherent
            otherNextCoherent (by omega) (show _ ≤ otherRemaining by omega) changed
          constructor
          · rw [settled, otherSettled, deliver_of_cons head, deliver_of_cons otherHead]
            exact later
          · rw [delivered, otherDelivered, deliveriesTo_of_cons head,
              deliveriesTo_of_cons otherHead]
            dsimp only
            rw [if_pos rfl, if_pos rfl, reports, laterDelivered]

end Coherent

/-! ## Runs -/

/-- Whether an operation is addressed to a direction. Settling serves both. -/
def Operation.concerns (direction : Direction) : Operation → Bool
  | .change other _ _ | .write other _ _ | .setLock other _ | .load other _ => other = direction
  | .settle => true

/-- The reports of all changes of a direction's dials in an operation, those that settling
delivers included. -/
def reportsTo (direction : Direction) (linkage : Linkage) : Operation → List ChangeReport
  | .change other dial value =>
      if other = direction then [(linkage.change other dial value).2] else []
  | .settle => (linkage.deliveriesTo direction linkage.workload).map Prod.snd
  | _ => []

/-- The operations of a run with their reports to a direction. -/
def log (direction : Direction) (linkage : Linkage) :
    List Operation → List (Operation × List ChangeReport)
  | [] => []
  | operation :: later =>
      (operation, linkage.reportsTo direction operation) ::
        (linkage.apply operation).log direction later

/-- An operation on the other direction. -/
theorem side_apply_of_not_concerns
    (linkage : Linkage)
    {direction : Direction}
    {operation : Operation}
    (unconcerned : ¬ operation.concerns direction = true) :
    (linkage.apply operation).side direction = linkage.side direction := by
  cases operation with
  | settle => exact absurd rfl unconcerned
  | change other dial value =>
      exact linkage.side_change_of_ne (by simpa [Operation.concerns, eq_comm] using unconcerned) _ _
  | write other dial value =>
      exact linkage.side_write_of_ne (by simpa [Operation.concerns, eq_comm] using unconcerned) _ _
  | setLock other lock =>
      exact linkage.side_setLock_of_ne (by simpa [Operation.concerns, eq_comm] using unconcerned) _
  | load other panel =>
      exact linkage.side_load_of_ne (by simpa [Operation.concerns, eq_comm] using unconcerned) _

/-- An operation on a direction, or a settling, does the same to two linkages that agree on
the direction, with the same reports. -/
theorem Coherent.apply_congr
    {first second : Linkage}
    {direction : Direction}
    {operation : Operation}
    (firstCoherent : Coherent first)
    (secondCoherent : Coherent second)
    (same : first.side direction = second.side direction)
    (concerned : operation.concerns direction = true) :
    (first.apply operation).side direction = (second.apply operation).side direction ∧
      first.reportsTo direction operation = second.reportsTo direction operation := by
  cases operation with
  | settle =>
      obtain ⟨settled, delivered⟩ := firstCoherent.deliver_congr secondCoherent (Nat.le_refl _)
        (Nat.le_refl _) same
      exact ⟨settled, congrArg (List.map Prod.snd) delivered⟩
  | change other dial value =>
      obtain rfl : other = direction := of_decide_eq_true concerned
      obtain ⟨changed, reports⟩ := change_congr same dial value
      refine ⟨changed, ?_⟩
      rw [reportsTo, reportsTo, if_pos rfl, if_pos rfl, reports]
  | write other dial value =>
      obtain rfl : other = direction := of_decide_eq_true concerned
      exact ⟨side_write_congr same dial value, rfl⟩
  | setLock other lock =>
      obtain rfl : other = direction := of_decide_eq_true concerned
      exact ⟨side_setLock_congr same lock, rfl⟩
  | load other panel =>
      obtain rfl : other = direction := of_decide_eq_true concerned
      exact ⟨side_load_congr same panel, rfl⟩

/-- Without the operations on the other direction a run does the same to a direction. -/
theorem Coherent.run_congr
    {first second : Linkage}
    {direction : Direction}
    (firstCoherent : Coherent first)
    (secondCoherent : Coherent second)
    (same : first.side direction = second.side direction)
    (operations : List Operation) :
    let kept := operations.filter (Operation.concerns direction)
    (first.run operations).side direction = (second.run kept).side direction ∧
      (first.log direction operations).filter (fun entry => entry.1.concerns direction) =
        second.log direction kept := by
  induction operations generalizing first second with
  | nil => exact ⟨same, rfl⟩
  | cons operation later inductionHypothesis =>
      by_cases concerned : operation.concerns direction = true
      · obtain ⟨applied, reports⟩ := firstCoherent.apply_congr secondCoherent same concerned
        obtain ⟨sides, logs⟩ := inductionHypothesis (firstCoherent.apply operation)
          (secondCoherent.apply operation) applied
        rw [List.filter_cons_of_pos concerned]
        refine ⟨sides, ?_⟩
        rw [log, List.filter_cons, if_pos concerned, log, reports, logs]
      · have kept := first.side_apply_of_not_concerns concerned
        obtain ⟨sides, logs⟩ :=
          inductionHypothesis (firstCoherent.apply operation) secondCoherent (kept.trans same)
        rw [List.filter_cons_of_neg concerned]
        refine ⟨sides, ?_⟩
        rw [log, List.filter_cons, if_neg concerned, logs]

/-- The operations addressed to the other direction can be taken out of a run: the panel,
the flags and the queued writes of a direction end up the same, in the same order, and so
are the reports of every change of its dials, made by hand or delivered. -/
theorem side_of_run (direction : Direction) (operations : List Operation) :
    let kept := operations.filter (Operation.concerns direction)
    (initial.run operations).panel direction = (initial.run kept).panel direction ∧
      (∀ dial, (initial.run operations).isArmed direction dial =
        (initial.run kept).isArmed direction dial) ∧
      (initial.run operations).queue.filter (isOn direction) =
        (initial.run kept).queue.filter (isOn direction) ∧
      (initial.log direction operations).filter (fun entry => entry.1.concerns direction) =
        initial.log direction kept := by
  intro kept
  obtain ⟨sides, logs⟩ := coherent_initial.run_congr coherent_initial rfl operations
  exact ⟨congrArg Side.panel sides, fun dial => congrArg (fun side => side.armed.get dial) sides,
    congrArg Side.queue sides, logs⟩

end Linkage
end NetworkConsole
