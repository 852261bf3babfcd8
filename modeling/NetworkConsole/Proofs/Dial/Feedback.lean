import NetworkConsole.Proofs.Dial.Settling

/-!
# Feedback

The writes of an edit repeat values that are on the dials already, and their flags are
armed. Settling swallows them without touching a dial, after which no write is queued
and no flag is armed. So the next edit is never mistaken for a write.
-/

namespace NetworkConsole

@[simp] theorem PerDirection.set_get_self (pair : PerDirection α) (direction : Direction) :
    pair.set direction (pair.get direction) = pair := by
  cases direction <;> rfl

@[simp] theorem Panel.set_get_self (panel : Panel) (dial : Dial) :
    panel.set dial (panel.get dial) = panel := by
  cases dial <;> rfl

namespace Linkage

theorem panel_setDial
    (linkage : Linkage)
    (direction : Direction)
    (dial : Dial)
    (value : Float) :
    (linkage.setDial direction dial value).panel direction =
      (linkage.panel direction).set dial value := by
  simp [panel, setDial, PerDirection.modify]

theorem panel_setDial_of_ne
    (linkage : Linkage)
    {direction other : Direction}
    (different : other ≠ direction)
    (dial : Dial)
    (value : Float) :
    (linkage.setDial direction dial value).panel other = linkage.panel other := by
  simp [panel, setDial, PerDirection.modify, PerDirection.get_set_of_ne _ different]

@[simp] theorem panel_write
    (linkage : Linkage)
    (direction other : Direction)
    (dial : Dial)
    (value : Float) :
    (linkage.write direction dial value).panel other =
      (linkage.setDial direction dial value).panel other := rfl

/-- A value put on one dial leaves the others as they are. -/
theorem get_panel_setDial_of_ne
    (linkage : Linkage)
    {direction other : Direction}
    {dial otherDial : Dial}
    (different : (other, otherDial) ≠ (direction, dial))
    (value : Float) :
    ((linkage.setDial direction dial value).panel other).get otherDial =
      (linkage.panel other).get otherDial := by
  by_cases sameDirection : other = direction
  · subst sameDirection
    have otherwise : otherDial ≠ dial := fun same => different (by rw [same])
    rw [panel_setDial, Panel.get_set_of_ne _ otherwise]
  · rw [panel_setDial_of_ne _ sameDirection]

/-- A dial that shows a value already is not touched by that value. -/
theorem setDial_shown
    {linkage : Linkage}
    {direction : Direction}
    {dial : Dial}
    {value : Float}
    (shown : (linkage.panel direction).get dial = value) :
    linkage.setDial direction dial value = linkage := by
  have kept : linkage.panels.modify direction (·.set dial value) = linkage.panels := by
    change linkage.panels.set direction ((linkage.panel direction).set dial value) = linkage.panels
    rw [← shown, Panel.set_get_self]
    exact PerDirection.set_get_self _ _
  rw [setDial, kept]

/-- No write is queued and no flag is armed. -/
structure Idle (linkage : Linkage) : Prop where
  empty : linkage.queue = []
  disarmed : ∀ direction dial, linkage.isArmed direction dial = false

theorem idle_initial : Idle initial := by
  constructor
  · rfl
  · intro direction dial
    simp [initial, isArmed]

/-- Every queued write has its flag armed and repeats the value that its dial shows. -/
structure Echoing (linkage : Linkage) : Prop where
  coherent : Coherent linkage
  armed : ∀ write ∈ linkage.queue, linkage.isArmed write.direction write.dial = true
  shown : ∀ write ∈ linkage.queue, (linkage.panel write.direction).get write.dial = write.value

namespace Idle

variable {linkage : Linkage}

theorem coherent (idle : Idle linkage) : Coherent linkage := by
  constructor
  · simp [idle.empty]
  · intro direction dial armed
    rw [idle.disarmed] at armed
    exact absurd armed (by decide)

theorem echoing (idle : Idle linkage) : Echoing linkage := by
  constructor
  · exact idle.coherent
  · simp [idle.empty]
  · simp [idle.empty]

/-- Only the queue and the flags matter. -/
theorem of_eq
    {other : Linkage}
    (idle : Idle linkage)
    (queue : other.queue = linkage.queue)
    (armed : other.armed = linkage.armed) :
    Idle other := by
  constructor
  · exact queue.trans idle.empty
  · intro direction dial
    unfold isArmed
    rw [armed]
    exact idle.disarmed direction dial

end Idle

namespace Echoing

variable {linkage : Linkage}

theorem write
    (echoing : Echoing linkage)
    (direction : Direction)
    (dial : Dial)
    (value : Float) :
    Echoing (linkage.write direction dial value) := by
  constructor
  · exact echoing.coherent.write direction dial value
  · intro queued member
    rw [isArmed_write]
    rcases eq_or_mem_of_mem_enqueue echoing.coherent.distinct member with rfl | ⟨old, different⟩
    · rw [if_pos rfl]
    · have other : (queued.direction, queued.dial) ≠ (direction, dial) := different
      rw [if_neg other]
      exact echoing.armed queued old
  · intro queued member
    rw [panel_write]
    rcases eq_or_mem_of_mem_enqueue echoing.coherent.distinct member with rfl | ⟨old, different⟩
    · rw [panel_setDial, Panel.get_set_same]
    · rw [get_panel_setDial_of_ne _ different]
      exact echoing.shown queued old

/-- The first queued write is swallowed, and no dial changes. -/
theorem delivery
    (echoing : Echoing linkage)
    {write : DialWrite}
    {rest : List DialWrite}
    (head : linkage.queue = write :: rest) :
    (linkage.afterFirst rest).change write.direction write.dial write.value =
        ((linkage.afterFirst rest).setArmed write.direction write.dial false,
          ⟨.suppressed, []⟩) ∧
      Echoing ((linkage.afterFirst rest).setArmed write.direction write.dial false) := by
  have first : write ∈ linkage.queue := by simp [head]
  have later : ∀ queued ∈ rest, queued ∈ linkage.queue := by
    intro queued member
    rw [head]
    exact List.mem_cons_of_mem _ member
  obtain ⟨fresh, -, -⟩ := echoing.coherent.rest_addresses head
  constructor
  · unfold change
    rw [isArmed_afterFirst, if_pos (echoing.armed write first)]
    rw [setDial_shown]
    exact echoing.shown write first
  · constructor
    · exact (echoing.coherent.delivery_of_swallowed head).1
    · intro queued member
      have different : (queued.direction, queued.dial) ≠ (write.direction, write.dial) := by
        intro same
        exact fresh (List.mem_map.mpr ⟨queued, member, same⟩)
      rw [isArmed_setArmed, if_neg different, isArmed_afterFirst]
      exact echoing.armed queued (later queued member)
    · intro queued member
      exact echoing.shown queued (later queued member)

/-- All queued writes are swallowed, and no dial changes. -/
theorem deliver
    {deliveries : ℕ}
    (echoing : Echoing linkage)
    (enough : linkage.queue.length ≤ deliveries) :
    (linkage.deliver deliveries).1.panels = linkage.panels ∧
      (linkage.deliver deliveries).2 =
        List.replicate linkage.queue.length ⟨.suppressed, []⟩ := by
  induction deliveries generalizing linkage with
  | zero =>
      have empty : linkage.queue.length = 0 := by omega
      rw [empty]
      exact ⟨rfl, rfl⟩
  | succ deliveries inductionHypothesis =>
      cases head : linkage.queue with
      | nil =>
          rw [deliver_of_nil head]
          exact ⟨rfl, rfl⟩
      | cons write rest =>
          obtain ⟨swallowed, remaining⟩ := echoing.delivery head
          rw [head, List.length_cons] at enough
          obtain ⟨panels, reports⟩ := inductionHypothesis remaining
            (show rest.length ≤ deliveries by omega)
          rw [deliver_of_cons head, swallowed]
          refine ⟨panels, ?_⟩
          rw [List.length_cons, List.replicate_succ]
          exact congrArg _ reports

theorem settle (echoing : Echoing linkage) :
    linkage.settle.1.panels = linkage.panels ∧
      linkage.settle.2 = List.replicate linkage.queue.length ⟨.suppressed, []⟩ ∧
      Idle linkage.settle.1 := by
  have enough : linkage.queue.length ≤ linkage.workload := by
    rw [workload_eq]
    omega
  obtain ⟨panels, reports⟩ := echoing.deliver enough
  obtain ⟨-, -, empty, disarmed⟩ := echoing.coherent.settle
  exact ⟨panels, reports, empty, disarmed⟩

end Echoing

/-! ## Edits of an idle linkage -/

theorem length_queue_write
    (linkage : Linkage)
    (direction : Direction)
    (dial : Dial)
    (value : Float) :
    0 < (linkage.write direction dial value).queue.length ∧
      (linkage.write direction dial value).queue.length ≤ linkage.queue.length + 1 := by
  refine ⟨?_, length_enqueue_le _ _⟩
  have member : (direction, dial) ∈
      (enqueue linkage.queue ⟨direction, dial, value⟩).map DialWrite.address :=
    (mem_addresses_enqueue _ _ _).mpr (.inl rfl)
  have nonempty := List.length_pos_of_mem member
  rwa [List.length_map] at nonempty

namespace Idle

variable {linkage : Linkage}

/-- An edit queues one or two writes, all of them armed and repeating their dial. -/
theorem edit
    (idle : Idle linkage)
    (direction : Direction)
    (dial : Dial)
    (value : Float) :
    Echoing (linkage.edit direction dial value).1 ∧
      0 < (linkage.edit direction dial value).1.queue.length ∧
      (linkage.edit direction dial value).1.queue.length ≤ 2 := by
  obtain ⟨-, applied, target, last, origin, result⟩ :=
    linkage.exists_edit_eq_write direction dial value
  have put : Echoing applied ∧ applied.queue.length ≤ 1 := by
    rcases origin with rfl | ⟨x, rfl⟩ | ⟨x, rfl⟩
    · exact ⟨idle.echoing, by simp [idle.empty]⟩
    · have length := (linkage.length_queue_write direction dial x).2
      rw [idle.empty] at length
      exact ⟨idle.echoing.write direction dial x, length⟩
    · have quiet : Idle (linkage.setDial direction dial x) := idle.of_eq rfl rfl
      exact ⟨quiet.echoing, by simp [quiet.empty]⟩
  have length := applied.length_queue_write direction target last
  rw [result]
  exact ⟨put.1.write direction target last, length.1, by omega⟩

/-- A change is never swallowed. Its one or two writes are, and the dials keep the values
that the edit gave them. -/
theorem change
    (idle : Idle linkage)
    (direction : Direction)
    (dial : Dial)
    (value : Float) :
    linkage.change direction dial value = linkage.edit direction dial value ∧
      (linkage.edit direction dial value).2.outcome ≠ .suppressed ∧
      (linkage.edit direction dial value).1.settle.1.panels =
        (linkage.edit direction dial value).1.panels ∧
      Idle (linkage.edit direction dial value).1.settle.1 ∧
      ∃ deliveries, (deliveries = 1 ∨ deliveries = 2) ∧
        (linkage.edit direction dial value).1.settle.2 =
          List.replicate deliveries ⟨.suppressed, []⟩ := by
  obtain ⟨echoing, nonempty, few⟩ := idle.edit direction dial value
  obtain ⟨panels, reports, settled⟩ := echoing.settle
  have unswallowed : linkage.change direction dial value = linkage.edit direction dial value := by
    unfold Linkage.change
    rw [if_neg (by simp [idle.disarmed])]
  exact ⟨unswallowed, (linkage.exists_edit_eq_write direction dial value).1, panels, settled,
    _, by omega, reports⟩

end Idle

end Linkage
end NetworkConsole
