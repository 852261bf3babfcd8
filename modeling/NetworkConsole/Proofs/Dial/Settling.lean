import NetworkConsole.Proofs.Dial.Coherence

/-!
# Settling

A delivered write that is an edit queues at most two armed writes, and an armed write
queues none. Every delivery therefore shrinks the workload of a coherent linkage, and
its queue can always be emptied.
-/

namespace NetworkConsole
namespace Linkage

/-! ## Workload -/

theorem workload_eq (linkage : Linkage) :
    linkage.workload = linkage.queue.length +
      2 * linkage.queue.countP fun write => !linkage.isArmed write.direction write.dial := by
  rw [workload, unarmedWrites, List.countP_eq_length_filter]

/-- A write adds at most one delivery. -/
theorem workload_write_le
    (linkage : Linkage)
    (direction : Direction)
    (dial : Dial)
    (value : Float) :
    (linkage.write direction dial value).workload ≤ linkage.workload + 1 := by
  have queued : (linkage.write direction dial value).queue =
      enqueue linkage.queue ⟨direction, dial, value⟩ := rfl
  have length := length_enqueue_le linkage.queue ⟨direction, dial, value⟩
  have unarmed := countP_enqueue_le
    (fun write => !linkage.isArmed write.direction write.dial)
    (fun write => !(linkage.write direction dial value).isArmed write.direction write.dial)
    ⟨direction, dial, value⟩
    (by simp [isArmed_write])
    (by
      intro queued
      rw [isArmed_write]
      split_ifs <;> simp)
    linkage.queue
  rw [workload_eq, workload_eq, queued]
  omega

/-- An edit adds at most two deliveries. -/
theorem workload_edit_le
    (linkage : Linkage)
    (direction : Direction)
    (dial : Dial)
    (value : Float) :
    (linkage.edit direction dial value).1.workload ≤ linkage.workload + 2 := by
  obtain ⟨-, applied, target, last, origin, result⟩ :=
    linkage.exists_edit_eq_write direction dial value
  have ending := applied.workload_write_le direction target last
  rw [result]
  rcases origin with rfl | ⟨x, rfl⟩ | ⟨x, rfl⟩
  · omega
  · have first := linkage.workload_write_le direction dial x
    omega
  · have same : (linkage.setDial direction dial x).workload = linkage.workload := rfl
    omega

/-! ## Deliveries -/

/-- The linkage without its first queued write. -/
def afterFirst (linkage : Linkage) (rest : List DialWrite) : Linkage :=
  { linkage with queue := rest }

@[simp] theorem queue_afterFirst (linkage : Linkage) (rest : List DialWrite) :
    (linkage.afterFirst rest).queue = rest := rfl

@[simp] theorem isArmed_afterFirst
    (linkage : Linkage)
    (rest : List DialWrite)
    (direction : Direction)
    (dial : Dial) :
    (linkage.afterFirst rest).isArmed direction dial = linkage.isArmed direction dial := rfl

namespace Coherent

variable {linkage : Linkage} {write : DialWrite} {rest : List DialWrite}

/-- The writes after the first one are for other dials, and for all other dials with an
armed flag. -/
theorem rest_addresses
    (coherent : Coherent linkage)
    (head : linkage.queue = write :: rest) :
    write.address ∉ rest.map DialWrite.address ∧
      (rest.map DialWrite.address).Nodup ∧
      ∀ direction dial, (direction, dial) ≠ write.address →
        linkage.isArmed direction dial = true →
        (direction, dial) ∈ rest.map DialWrite.address := by
  have distinct := coherent.distinct
  rw [head, List.map_cons, List.nodup_cons] at distinct
  refine ⟨distinct.1, distinct.2, ?_⟩
  intro direction dial different armed
  have queued := (isQueued_iff _ _ _).mp (coherent.queued direction dial armed)
  rw [head, List.map_cons, List.mem_cons] at queued
  exact queued.resolve_left different

/-- A swallowed delivery disarms the flag of the write's dial. -/
theorem delivery_of_swallowed
    (coherent : Coherent linkage)
    (head : linkage.queue = write :: rest) :
    Coherent ((linkage.afterFirst rest).setArmed write.direction write.dial false) ∧
      ((linkage.afterFirst rest).setArmed write.direction write.dial false).workload <
        linkage.workload := by
  obtain ⟨fresh, distinct, elsewhere⟩ := coherent.rest_addresses head
  refine ⟨⟨distinct, ?_⟩, ?_⟩
  · intro direction dial stillArmed
    rw [isArmed_setArmed] at stillArmed
    split_ifs at stillArmed with same
    exact (isQueued_iff _ _ _).mpr (elsewhere direction dial same stillArmed)
  · have others : rest.countP (fun queued =>
        !((linkage.afterFirst rest).setArmed write.direction write.dial false).isArmed
          queued.direction queued.dial) =
        rest.countP fun queued => !linkage.isArmed queued.direction queued.dial := by
      apply List.countP_congr
      intro queued member
      have different : (queued.direction, queued.dial) ≠ (write.direction, write.dial) := by
        intro same
        exact fresh (List.mem_map.mpr ⟨queued, member, same⟩)
      rw [isArmed_setArmed, if_neg different, isArmed_afterFirst]
    have queue : ((linkage.afterFirst rest).setArmed write.direction write.dial false).queue =
        rest := rfl
    rw [workload_eq, workload_eq, head, queue, others, List.length_cons, List.countP_cons]
    omega

/-- A write whose flag is not armed leaves a smaller workload behind it. -/
theorem delivery_of_not_armed
    (coherent : Coherent linkage)
    (head : linkage.queue = write :: rest)
    (notArmed : linkage.isArmed write.direction write.dial = false) :
    Coherent (linkage.afterFirst rest) ∧
      (linkage.afterFirst rest).workload + 3 = linkage.workload := by
  obtain ⟨-, distinct, elsewhere⟩ := coherent.rest_addresses head
  refine ⟨⟨distinct, ?_⟩, ?_⟩
  · intro direction dial armed
    have different : (direction, dial) ≠ write.address := by
      intro same
      cases same
      rw [isArmed_afterFirst, notArmed] at armed
      exact absurd armed (by decide)
    exact (isQueued_iff _ _ _).mpr (elsewhere direction dial different armed)
  · rw [workload_eq, workload_eq, head, queue_afterFirst, List.length_cons,
      List.countP_cons_of_pos (by simp [notArmed])]
    simp only [isArmed_afterFirst]
    omega

/-- A delivery keeps coherence and shrinks the workload. -/
theorem delivery
    (coherent : Coherent linkage)
    (head : linkage.queue = write :: rest) :
    Coherent ((linkage.afterFirst rest).change write.direction write.dial write.value).1 ∧
      ((linkage.afterFirst rest).change write.direction write.dial write.value).1.workload <
        linkage.workload := by
  unfold Linkage.change
  rw [isArmed_afterFirst]
  by_cases armed : linkage.isArmed write.direction write.dial = true
  · rw [if_pos armed]
    obtain ⟨swallowed, smaller⟩ := coherent.delivery_of_swallowed head
    exact ⟨swallowed.of_eq rfl rfl, smaller⟩
  · rw [if_neg armed]
    obtain ⟨remaining, smaller⟩ :=
      coherent.delivery_of_not_armed head (Bool.not_eq_true _ ▸ armed)
    have edited :=
      (linkage.afterFirst rest).workload_edit_le write.direction write.dial write.value
    exact ⟨remaining.edit _ _ _, by omega⟩

end Coherent

/-! ## Settling -/

theorem deliver_of_nil {linkage : Linkage} (empty : linkage.queue = []) (deliveries : ℕ) :
    linkage.deliver deliveries = (linkage, []) := by
  cases deliveries with
  | zero => rfl
  | succ deliveries => rw [deliver, empty]

theorem deliver_of_cons
    {linkage : Linkage}
    {write : DialWrite}
    {rest : List DialWrite}
    (head : linkage.queue = write :: rest)
    (deliveries : ℕ) :
    linkage.deliver (deliveries + 1) =
      let next := (linkage.afterFirst rest).change write.direction write.dial write.value
      ((next.1.deliver deliveries).1, next.2 :: (next.1.deliver deliveries).2) := by
  rw [deliver, head]
  rfl

/-- Delivering the writes at the front of the queue until the queue is empty, without any
bound on the number of deliveries. -/
inductive Settles : Linkage → Linkage → List ChangeReport → Prop
  | done {linkage : Linkage} (empty : linkage.queue = []) : Settles linkage linkage []
  | deliver
      {linkage settled : Linkage}
      {write : DialWrite}
      {rest : List DialWrite}
      {reports : List ChangeReport}
      (head : linkage.queue = write :: rest)
      (later : Settles
        ((linkage.afterFirst rest).change write.direction write.dial write.value).1
        settled reports) :
      Settles linkage settled
        (((linkage.afterFirst rest).change write.direction write.dial write.value).2 :: reports)

/-- The deliveries have one outcome only. -/
theorem Settles.unique
    {linkage settled other : Linkage}
    {reports otherReports : List ChangeReport}
    (first : Settles linkage settled reports)
    (second : Settles linkage other otherReports) :
    other = settled ∧ otherReports = reports := by
  induction first generalizing otherReports with
  | done empty =>
      cases second with
      | done => exact ⟨rfl, rfl⟩
      | deliver head later =>
          rw [empty] at head
          cases head
  | deliver head later inductionHypothesis =>
      cases second with
      | done empty =>
          rw [empty] at head
          cases head
      | deliver otherHead otherLater =>
          rw [head] at otherHead
          cases otherHead
          obtain ⟨same, sameReports⟩ := inductionHypothesis otherLater
          exact ⟨same, by rw [sameReports]⟩

/-- A coherent linkage is settled by as many deliveries as its workload. -/
theorem Coherent.deliver
    {linkage : Linkage}
    {deliveries : ℕ}
    (coherent : Coherent linkage)
    (enough : linkage.workload ≤ deliveries) :
    Settles linkage (linkage.deliver deliveries).1 (linkage.deliver deliveries).2 ∧
      (linkage.deliver deliveries).2.length ≤ linkage.workload ∧
      Coherent (linkage.deliver deliveries).1 ∧
      (linkage.deliver deliveries).1.queue = [] := by
  -- Every delivery takes at least one from the workload, so the bound is never met early.
  induction deliveries generalizing linkage with
  | zero =>
      have empty : linkage.queue = [] := by
        rw [workload_eq] at enough
        exact List.eq_nil_of_length_eq_zero (by omega)
      exact ⟨.done empty, by simp [Linkage.deliver], coherent, empty⟩
  | succ deliveries inductionHypothesis =>
      cases head : linkage.queue with
      | nil =>
          rw [deliver_of_nil head]
          exact ⟨.done head, by simp, coherent, head⟩
      | cons write rest =>
          obtain ⟨changed, smaller⟩ := coherent.delivery head
          obtain ⟨settles, length, settled, empty⟩ := inductionHypothesis changed (by omega)
          rw [deliver_of_cons head]
          refine ⟨.deliver head settles, ?_, settled, empty⟩
          rw [List.length_cons]
          omega

/-- A coherent linkage settles, with one report for each delivery and no more deliveries
than its workload. -/
theorem Coherent.settle {linkage : Linkage} (coherent : Coherent linkage) :
    Settles linkage linkage.settle.1 linkage.settle.2 ∧
      linkage.settle.2.length ≤ linkage.workload ∧
      linkage.settle.1.queue = [] ∧
      ∀ direction dial, linkage.settle.1.isArmed direction dial = false := by
  obtain ⟨settles, length, settled, empty⟩ := coherent.deliver (Nat.le_refl _)
  refine ⟨settles, length, empty, ?_⟩
  intro direction dial
  by_contra armed
  have queued := settled.queued direction dial (Bool.not_eq_false _ ▸ armed)
  rw [isQueued_iff, empty] at queued
  exact absurd queued List.not_mem_nil

/-! ## Runs -/

/-- What can be asked of a linkage. -/
inductive Operation
  /-- A change of a dial, by hand or by a delivered write. -/
  | change (direction : Direction) (dial : Dial) (value : Float)
  /-- A value put on a dial by the program. -/
  | write (direction : Direction) (dial : Dial) (value : Float)
  /-- The delivery of all queued writes. -/
  | settle
  /-- Another locked dial. -/
  | setLock (direction : Direction) (lock : Lock)
  /-- Another panel. -/
  | load (direction : Direction) (panel : Panel)

/-- Carry out an operation. -/
def apply (linkage : Linkage) : Operation → Linkage
  | .change direction dial value => (linkage.change direction dial value).1
  | .write direction dial value => linkage.write direction dial value
  | .settle => linkage.settle.1
  | .setLock direction lock => linkage.setLock direction lock
  | .load direction panel => linkage.load direction panel

/-- Carry out operations one after another. -/
def run (linkage : Linkage) (operations : List Operation) : Linkage :=
  operations.foldl apply linkage

theorem Coherent.apply
    {linkage : Linkage}
    (coherent : Coherent linkage)
    (operation : Operation) :
    Coherent (linkage.apply operation) := by
  cases operation with
  | change direction dial value => exact coherent.change direction dial value
  | write direction dial value => exact coherent.write direction dial value
  | settle => exact (coherent.deliver (Nat.le_refl _)).2.2.1
  | setLock direction lock => exact coherent.of_eq rfl rfl
  | load direction panel => exact coherent.of_eq rfl rfl

theorem Coherent.run
    {linkage : Linkage}
    (coherent : Coherent linkage)
    (operations : List Operation) :
    Coherent (linkage.run operations) := by
  induction operations generalizing linkage with
  | nil => exact coherent
  | cons operation later inductionHypothesis =>
      exact inductionHypothesis (coherent.apply operation)

/-- After any operations no dial has two queued writes, and every armed flag belongs to a
queued write. Unbounded delivery ends, with the outcome of `settle` and no other: at most
one report for each queued write and two more for each whose flag is not armed, an empty
queue and no armed flag. -/
theorem settles_of_run (operations : List Operation) :
    let linkage := initial.run operations
    (linkage.queue.map DialWrite.address).Nodup ∧
      (∀ direction dial,
        linkage.isArmed direction dial = true → linkage.isQueued direction dial = true) ∧
      (∀ settled reports,
        Settles linkage settled reports ↔ (settled, reports) = linkage.settle) ∧
      linkage.settle.2.length ≤ linkage.queue.length + 2 * linkage.unarmedWrites.length ∧
      linkage.settle.1.queue = [] ∧
      ∀ direction dial, linkage.settle.1.isArmed direction dial = false := by
  intro linkage
  have coherent : Coherent linkage := coherent_initial.run operations
  obtain ⟨settles, length, empty, disarmed⟩ := coherent.settle
  refine ⟨coherent.distinct, coherent.queued, ?_, length, empty, disarmed⟩
  intro settled reports
  constructor
  · intro other
    obtain ⟨same, sameReports⟩ := settles.unique other
    rw [same, sameReports]
  · intro same
    rwa [← same] at settles

end Linkage
end NetworkConsole
