import NetworkConsole.Proofs.Dial.Feedback

/-!
# Changes and loads before delivery

A queued write is delivered without effect if its flag is still armed and its dial still
shows its value. An edit that comes first is swallowed in its place, and the write is then
taken for an edit itself. A panel that is loaded first gives way to the write. Settling
has no effect exactly if neither happened to any queued write.
-/

namespace NetworkConsole
namespace Linkage

/-- Settling swallows every queued write and leaves every dial as it is. -/
def SettlesQuietly (linkage : Linkage) : Prop :=
  (∀ report ∈ linkage.settle.2, report.outcome = .suppressed) ∧
    ∀ direction dial,
      (linkage.settle.1.panel direction).get dial = (linkage.panel direction).get dial

/-! ## Deliveries of armed writes -/

section

variable {linkage : Linkage} {write : DialWrite} {rest : List DialWrite}

/-- The linkage after its first queued write was swallowed. -/
def afterSwallowed (linkage : Linkage) (write : DialWrite) (rest : List DialWrite) : Linkage :=
  ((linkage.afterFirst rest).setArmed write.direction write.dial false).setDial
    write.direction write.dial write.value

theorem change_afterFirst_of_armed
    (armed : linkage.isArmed write.direction write.dial = true) :
    (linkage.afterFirst rest).change write.direction write.dial write.value =
      (linkage.afterSwallowed write rest, ⟨.suppressed, []⟩) := by
  unfold change
  rw [isArmed_afterFirst, if_pos armed]
  rfl

/-- The flags of the other queued writes are not touched. -/
theorem Coherent.isArmed_afterSwallowed
    (coherent : Coherent linkage)
    (head : linkage.queue = write :: rest)
    {queued : DialWrite}
    (member : queued ∈ rest) :
    (linkage.afterSwallowed write rest).isArmed queued.direction queued.dial =
      linkage.isArmed queued.direction queued.dial := by
  obtain ⟨fresh, -, -⟩ := coherent.rest_addresses head
  have different : (queued.direction, queued.dial) ≠ (write.direction, write.dial) := by
    intro same
    exact fresh (List.mem_map.mpr ⟨queued, member, same⟩)
  change ((linkage.afterFirst rest).setArmed write.direction write.dial false).isArmed
    queued.direction queued.dial = _
  rw [isArmed_setArmed, if_neg different, isArmed_afterFirst]

theorem Coherent.afterSwallowed
    (coherent : Coherent linkage)
    (head : linkage.queue = write :: rest) :
    Coherent (linkage.afterSwallowed write rest) :=
  (coherent.delivery_of_swallowed head).1.of_eq rfl rfl

/-- Armed writes are all swallowed. Each dial with a queued write ends up at the value of
that write, and the others stay as they are. -/
theorem Coherent.deliver_of_armed
    {deliveries : ℕ}
    (coherent : Coherent linkage)
    (armed : ∀ write ∈ linkage.queue, linkage.isArmed write.direction write.dial = true)
    (enough : linkage.queue.length ≤ deliveries) :
    (∀ report ∈ (linkage.deliver deliveries).2, report.outcome = .suppressed) ∧
      (∀ write ∈ linkage.queue,
        ((linkage.deliver deliveries).1.panel write.direction).get write.dial = write.value) ∧
      ∀ direction dial, (direction, dial) ∉ linkage.queue.map DialWrite.address →
        ((linkage.deliver deliveries).1.panel direction).get dial =
          (linkage.panel direction).get dial := by
  induction deliveries generalizing linkage with
  | zero =>
      have empty : linkage.queue = [] := List.eq_nil_of_length_eq_zero (by omega)
      rw [empty]
      exact ⟨by simp [Linkage.deliver], by simp, fun direction dial _ => rfl⟩
  | succ deliveries inductionHypothesis =>
      cases head : linkage.queue with
      | nil =>
          rw [deliver_of_nil head]
          exact ⟨by simp, by simp, fun direction dial _ => rfl⟩
      | cons write rest =>
          obtain ⟨fresh, -, -⟩ := coherent.rest_addresses head
          rw [head, List.length_cons] at enough
          rw [head, List.forall_mem_cons] at armed
          have remaining : ∀ queued ∈ (linkage.afterSwallowed write rest).queue,
              (linkage.afterSwallowed write rest).isArmed queued.direction queued.dial = true := by
            intro queued member
            rw [coherent.isArmed_afterSwallowed head member]
            exact armed.2 queued member
          obtain ⟨suppressed, written, kept⟩ :=
            inductionHypothesis (coherent.afterSwallowed head) remaining
              (show rest.length ≤ deliveries by omega)
          rw [deliver_of_cons head, change_afterFirst_of_armed armed.1]
          refine ⟨List.forall_mem_cons.mpr ⟨rfl, suppressed⟩,
            List.forall_mem_cons.mpr ⟨?_, written⟩, ?_⟩
          · -- No later write is for the dial of the first one.
            rw [kept write.direction write.dial fresh, Linkage.afterSwallowed, panel_setDial,
              Panel.get_set_same]
          · intro direction dial absent
            rw [List.map_cons, List.mem_cons, not_or] at absent
            rw [kept direction dial absent.2]
            exact get_panel_setDial_of_ne _ absent.1 write.value

end

/-! ## Quiet settling -/

/-- Where every report is a swallowed write, every queued write was armed. -/
theorem Coherent.armed_of_deliver
    {linkage : Linkage}
    {deliveries : ℕ}
    (coherent : Coherent linkage)
    (enough : linkage.workload ≤ deliveries)
    (suppressed : ∀ report ∈ (linkage.deliver deliveries).2, report.outcome = .suppressed) :
    ∀ write ∈ linkage.queue, linkage.isArmed write.direction write.dial = true := by
  induction deliveries generalizing linkage with
  | zero =>
      have empty : linkage.queue = [] := by
        rw [workload_eq] at enough
        exact List.eq_nil_of_length_eq_zero (by omega)
      simp [empty]
  | succ deliveries inductionHypothesis =>
      cases head : linkage.queue with
      | nil => simp
      | cons write rest =>
          rw [deliver_of_cons head, List.forall_mem_cons] at suppressed
          have armed : linkage.isArmed write.direction write.dial = true := by
            by_contra unarmed
            apply ((linkage.afterFirst rest).exists_edit_eq_write write.direction write.dial
              write.value).1
            have swallowed := suppressed.1
            unfold Linkage.change at swallowed
            rwa [isArmed_afterFirst, if_neg unarmed] at swallowed
          have smaller := (coherent.delivery head).2
          rw [change_afterFirst_of_armed armed] at smaller suppressed
          dsimp only at smaller
          have later := inductionHypothesis (coherent.afterSwallowed head) (by omega) suppressed.2
          rw [List.forall_mem_cons]
          refine ⟨armed, ?_⟩
          intro queued member
          rw [← coherent.isArmed_afterSwallowed head member]
          exact later queued member

/-- Settling is quiet exactly if every queued write repeats its dial under an armed flag. -/
theorem Coherent.settlesQuietly_iff {linkage : Linkage} (coherent : Coherent linkage) :
    linkage.SettlesQuietly ↔ Echoing linkage := by
  have enough : linkage.queue.length ≤ linkage.workload := by
    rw [workload_eq]
    omega
  constructor
  · rintro ⟨suppressed, kept⟩
    have armed := coherent.armed_of_deliver (Nat.le_refl _) suppressed
    refine ⟨coherent, armed, ?_⟩
    intro write member
    rw [← kept write.direction write.dial]
    exact (coherent.deliver_of_armed armed enough).2.1 write member
  · intro echoing
    obtain ⟨panels, reports, -⟩ := echoing.settle
    constructor
    · intro report member
      rw [reports] at member
      rw [List.eq_of_mem_replicate member]
    · intro direction dial
      rw [panel, panels, panel]

/-! ## Undisturbed runs -/

/-- An operation disturbs queued writes if it changes a dial whose flag is armed, or
replaces a panel for which a write is queued. -/
def Operation.Disturbs (linkage : Linkage) : Operation → Prop
  | .change direction dial _ => linkage.isArmed direction dial = true
  | .load direction _ => ∃ dial, linkage.isQueued direction dial = true
  | _ => False

/-- No operation of a run disturbs the writes queued before it. -/
def Undisturbed (linkage : Linkage) : List Operation → Prop
  | [] => True
  | operation :: later => ¬ operation.Disturbs linkage ∧ (linkage.apply operation).Undisturbed later

namespace Echoing

variable {linkage : Linkage}

/-- A value put on a dial for which no write is queued. -/
theorem setDial
    (echoing : Echoing linkage)
    {direction : Direction}
    {dial : Dial}
    (unarmed : linkage.isArmed direction dial = false)
    (value : Float) :
    Echoing (linkage.setDial direction dial value) := by
  refine ⟨echoing.coherent.of_eq rfl rfl, echoing.armed, ?_⟩
  intro write member
  have different : (write.direction, write.dial) ≠ (direction, dial) := by
    intro same
    have armed := echoing.armed write member
    cases same
    rw [unarmed] at armed
    exact absurd armed (by decide)
  rw [get_panel_setDial_of_ne linkage different]
  exact echoing.shown write member

theorem change
    (echoing : Echoing linkage)
    {direction : Direction}
    {dial : Dial}
    (unarmed : linkage.isArmed direction dial = false)
    (value : Float) :
    Echoing (linkage.change direction dial value).1 := by
  obtain ⟨-, applied, target, last, origin, result⟩ :=
    linkage.exists_edit_eq_write direction dial value
  unfold Linkage.change
  rw [if_neg (by simp [unarmed]), result]
  rcases origin with rfl | ⟨x, rfl⟩ | ⟨x, rfl⟩
  · exact echoing.write _ _ _
  · exact (echoing.write _ _ _).write _ _ _
  · exact (echoing.setDial unarmed x).write _ _ _

theorem setLock (echoing : Echoing linkage) (direction : Direction) (lock : Lock) :
    Echoing (linkage.setLock direction lock) := by
  refine ⟨echoing.coherent.of_eq rfl rfl, echoing.armed, ?_⟩
  intro write member
  rw [← echoing.shown write member]
  unfold panel Linkage.setLock PerDirection.modify
  by_cases same : write.direction = direction
  · rw [same, PerDirection.get_set_same]
    rfl
  · rw [PerDirection.get_set_of_ne _ same]

theorem load
    (echoing : Echoing linkage)
    {direction : Direction}
    (free : ∀ dial, linkage.isQueued direction dial = false)
    (loaded : Panel) :
    Echoing (linkage.load direction loaded) := by
  refine ⟨echoing.coherent.of_eq rfl rfl, echoing.armed, ?_⟩
  intro write member
  have different : write.direction ≠ direction := by
    intro same
    have queued : linkage.isQueued direction write.dial = true :=
      (isQueued_iff _ _ _).mpr (List.mem_map.mpr ⟨write, member, by rw [← same]; rfl⟩)
    rw [free] at queued
    exact absurd queued (by decide)
  rw [← echoing.shown write member]
  unfold panel Linkage.load
  rw [PerDirection.get_set_of_ne _ different]

theorem apply
    (echoing : Echoing linkage)
    {operation : Operation}
    (undisturbed : ¬ operation.Disturbs linkage) :
    Echoing (linkage.apply operation) := by
  cases operation with
  | change direction dial value => exact echoing.change (Bool.not_eq_true _ ▸ undisturbed) value
  | write direction dial value => exact echoing.write direction dial value
  | settle => exact echoing.settle.2.2.echoing
  | setLock direction lock => exact echoing.setLock direction lock
  | load direction loaded =>
      apply echoing.load _ loaded
      intro dial
      by_contra queued
      exact undisturbed ⟨dial, Bool.not_eq_false _ ▸ queued⟩

theorem run
    {operations : List Operation}
    (echoing : Echoing linkage)
    (undisturbed : linkage.Undisturbed operations) :
    Echoing (linkage.run operations) := by
  induction operations generalizing linkage with
  | nil => exact echoing
  | cons operation later inductionHypothesis =>
      exact inductionHypothesis (echoing.apply undisturbed.1) undisturbed.2

end Echoing

/-- After any operations, settling swallows all queued writes and changes no dial exactly if
every queued write has its flag armed and repeats the value that its dial shows. That is
so after every run in which no dial is changed while its flag is armed and no panel is
loaded over queued writes. -/
theorem settlesQuietly_of_run (operations : List Operation) :
    let linkage := initial.run operations
    (linkage.SettlesQuietly ↔
        ∀ write ∈ linkage.queue,
          linkage.isArmed write.direction write.dial = true ∧
            (linkage.panel write.direction).get write.dial = write.value) ∧
      (initial.Undisturbed operations → linkage.SettlesQuietly) := by
  intro linkage
  have coherent : Coherent linkage := coherent_initial.run operations
  constructor
  · rw [coherent.settlesQuietly_iff]
    constructor
    · intro echoing write member
      exact ⟨echoing.armed write member, echoing.shown write member⟩
    · intro repeated
      exact ⟨coherent, fun write member => (repeated write member).1,
        fun write member => (repeated write member).2⟩
  · intro undisturbed
    exact coherent.settlesQuietly_iff.mpr (idle_initial.echoing.run undisturbed)

/-- A duration is edited, which queues a write of the bandwidth. An edit of the bandwidth is
then swallowed, and the write is taken for an edit that puts its own value back and solves
the packets. A panel that is loaded instead loses its bandwidth to the write. -/
theorem not_settlesQuietly_disturbed :
    let queued : List Operation := [.change .clientToServer .seconds 6]
    let edited := initial.run (queued ++ [.change .clientToServer .bandwidth 5])
    let loaded := initial.run (queued ++ [.load .clientToServer (.ofParameters ⟨3, 1000, 60⟩)])
    edited.settle.2.map (·.outcome) = [.updated .packets, .suppressed] ∧
      (edited.panel .clientToServer).get .bandwidth = 5 ∧
      (edited.settle.1.panel .clientToServer).get .bandwidth = 0.04 ∧
      loaded.settle.2.map (·.outcome) = [.suppressed] ∧
      (loaded.panel .clientToServer).get .bandwidth = 0.16 ∧
      (loaded.settle.1.panel .clientToServer).get .bandwidth = 0.04 ∧
      ¬ edited.SettlesQuietly ∧ ¬ loaded.SettlesQuietly := by
  intro queued edited loaded
  have outcomes : edited.settle.2.map (·.outcome) = [.updated .packets, .suppressed] := by
    decide +kernel
  have before : (loaded.panel .clientToServer).get .bandwidth = 0.16 := by decide +kernel
  have after : (loaded.settle.1.panel .clientToServer).get .bandwidth = 0.04 := by decide +kernel
  refine ⟨outcomes, by decide +kernel, by decide +kernel, by decide +kernel, before, after, ?_, ?_⟩
  · rintro ⟨suppressed, -⟩
    have recomputed : ChangeOutcome.updated .packets ∈ edited.settle.2.map (·.outcome) := by
      rw [outcomes]
      exact List.mem_cons_self
    obtain ⟨report, member, outcome⟩ := List.mem_map.mp recomputed
    rw [suppressed report member] at outcome
    cases outcome
  · rintro ⟨-, kept⟩
    have same := kept .clientToServer .bandwidth
    rw [before, after] at same
    exact absurd same (by decide)

end Linkage
end NetworkConsole
