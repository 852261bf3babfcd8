import Mathlib.Data.List.Basic
import NetworkConsole.Dial.Linkage

/-!
# Queued writes and armed flags

The queue holds at most one write for each dial, and a flag is armed only while a write
for its dial is queued. Writes and edits keep both.
-/

namespace NetworkConsole

namespace DialWrite

/-- The dial that a write is for. -/
def address (write : DialWrite) : Direction × Dial := (write.direction, write.dial)

theorem isFor_iff (write : DialWrite) (direction : Direction) (dial : Dial) :
    write.isFor direction dial = true ↔ write.address = (direction, dial) := by
  simp [isFor, address]

theorem isFor_write_iff (queued write : DialWrite) :
    queued.isFor write.direction write.dial = true ↔ queued.address = write.address :=
  queued.isFor_iff write.direction write.dial

end DialWrite

namespace Linkage

/-! ## The queue -/

/-- A write put into the queue is found there, beside the writes for other dials. -/
theorem mem_addresses_enqueue
    (queue : List DialWrite)
    (write : DialWrite)
    (address : Direction × Dial) :
    address ∈ (enqueue queue write).map DialWrite.address ↔
      address = write.address ∨ address ∈ queue.map DialWrite.address := by
  induction queue with
  | nil => simp [enqueue]
  | cons queued rest inductionHypothesis =>
      unfold enqueue
      split_ifs with same
      · rw [DialWrite.isFor_write_iff] at same
        simp only [List.map_cons, List.mem_cons, same]
        tauto
      · simp only [List.map_cons, List.mem_cons, inductionHypothesis]
        tauto

/-- The queue never holds two writes for one dial. -/
theorem nodup_addresses_enqueue
    {queue : List DialWrite}
    (distinct : (queue.map DialWrite.address).Nodup)
    (write : DialWrite) :
    ((enqueue queue write).map DialWrite.address).Nodup := by
  induction queue with
  | nil => simp [enqueue]
  | cons queued rest inductionHypothesis =>
      rw [List.map_cons, List.nodup_cons] at distinct
      obtain ⟨fresh, distinct⟩ := distinct
      unfold enqueue
      split_ifs with same
      · rw [DialWrite.isFor_write_iff] at same
        rw [same] at fresh
        exact List.nodup_cons.mpr ⟨fresh, distinct⟩
      · rw [DialWrite.isFor_write_iff] at same
        have absent : queued.address ∉
            (enqueue rest write).map DialWrite.address := by
          rw [mem_addresses_enqueue]
          rintro (equal | member)
          · exact same equal
          · exact fresh member
        exact List.nodup_cons.mpr ⟨absent, inductionHypothesis distinct⟩

theorem length_enqueue_le (queue : List DialWrite) (write : DialWrite) :
    (enqueue queue write).length ≤ queue.length + 1 := by
  induction queue with
  | nil => simp [enqueue]
  | cons queued rest inductionHypothesis =>
      unfold enqueue
      split_ifs
      · simp
      · simpa using inductionHypothesis

/-- A queued write after another is put in is that one or was queued before, and then for
another dial. -/
theorem eq_or_mem_of_mem_enqueue
    {queue : List DialWrite}
    (distinct : (queue.map DialWrite.address).Nodup)
    {write queued : DialWrite}
    (member : queued ∈ enqueue queue write) :
    queued = write ∨ queued ∈ queue ∧ queued.address ≠ write.address := by
  induction queue with
  | nil => exact .inl (by simpa [enqueue] using member)
  | cons first rest inductionHypothesis =>
      rw [List.map_cons, List.nodup_cons] at distinct
      obtain ⟨fresh, distinct⟩ := distinct
      unfold enqueue at member
      split_ifs at member with same
      · rw [DialWrite.isFor_write_iff] at same
        rcases List.mem_cons.mp member with equal | later
        · exact .inl equal
        · have different : queued.address ≠ write.address := by
            intro equal
            apply fresh
            rw [same, ← equal]
            exact List.mem_map_of_mem later
          exact .inr ⟨List.mem_cons_of_mem _ later, different⟩
      · rw [DialWrite.isFor_write_iff] at same
        rcases List.mem_cons.mp member with rfl | later
        · exact .inr ⟨List.mem_cons_self, same⟩
        · rcases inductionHypothesis distinct later with equal | ⟨old, different⟩
          · exact .inl equal
          · exact .inr ⟨List.mem_cons_of_mem _ old, different⟩

/-- Putting in a write that does not count leaves no more writes that count. -/
theorem countP_enqueue_le
    (before after : DialWrite → Bool)
    (write : DialWrite)
    (uncounted : after write = false)
    (fewer : ∀ queued, after queued = true → before queued = true)
    (queue : List DialWrite) :
    (enqueue queue write).countP after ≤ queue.countP before := by
  induction queue with
  | nil => simp [enqueue, uncounted]
  | cons queued rest inductionHypothesis =>
      unfold enqueue
      split_ifs
      · have fewerRest : rest.countP after ≤ rest.countP before :=
          List.countP_mono_left fun other _ => fewer other
        rw [List.countP_cons_of_neg (by simp [uncounted]), List.countP_cons]
        omega
      · rw [List.countP_cons, List.countP_cons]
        by_cases counted : after queued = true
        · rw [if_pos counted, if_pos (fewer queued counted)]
          omega
        · rw [if_neg counted]
          omega

/-! ## Flags -/

theorem isArmed_setArmed
    (linkage : Linkage)
    (direction other : Direction)
    (dial otherDial : Dial)
    (armed : Bool) :
    (linkage.setArmed direction dial armed).isArmed other otherDial =
      if (other, otherDial) = (direction, dial) then armed
      else linkage.isArmed other otherDial := by
  unfold isArmed setArmed
  by_cases sameDirection : other = direction
  · subst sameDirection
    by_cases sameDial : otherDial = dial
    · subst sameDial
      simp [PerDirection.modify]
    · simp [PerDirection.modify, sameDial, PerDial.get_set_of_ne _ sameDial]
  · simp [PerDirection.modify, sameDirection, PerDirection.get_set_of_ne _ sameDirection]

/-- A write arms the flag of its dial and no other. -/
theorem isArmed_write
    (linkage : Linkage)
    (direction other : Direction)
    (dial otherDial : Dial)
    (value : Float) :
    (linkage.write direction dial value).isArmed other otherDial =
      if (other, otherDial) = (direction, dial) then true
      else linkage.isArmed other otherDial := by
  exact isArmed_setArmed (linkage.setDial direction dial value) direction other dial otherDial true

theorem isQueued_iff (linkage : Linkage) (direction : Direction) (dial : Dial) :
    linkage.isQueued direction dial = true ↔
      (direction, dial) ∈ linkage.queue.map DialWrite.address := by
  simp [isQueued, DialWrite.isFor_iff]

/-! ## Coherence -/

/-- No dial has two queued writes, and every armed flag belongs to a queued write. -/
structure Coherent (linkage : Linkage) : Prop where
  distinct : (linkage.queue.map DialWrite.address).Nodup
  queued : ∀ direction dial,
    linkage.isArmed direction dial = true → linkage.isQueued direction dial = true

theorem coherent_initial : Coherent initial := by
  constructor
  · exact List.nodup_nil
  · intro direction dial armed
    simp [initial, isArmed] at armed

namespace Coherent

variable {linkage : Linkage}

/-- Only the queue and the flags matter. -/
theorem of_eq
    {other : Linkage}
    (coherent : Coherent linkage)
    (queue : other.queue = linkage.queue)
    (armed : other.armed = linkage.armed) :
    Coherent other := by
  constructor
  · rw [queue]
    exact coherent.distinct
  · intro direction dial flag
    unfold isQueued
    rw [queue]
    unfold isArmed at flag
    rw [armed] at flag
    exact coherent.queued direction dial flag

theorem write
    (coherent : Coherent linkage)
    (direction : Direction)
    (dial : Dial)
    (value : Float) :
    Coherent (linkage.write direction dial value) := by
  constructor
  · exact nodup_addresses_enqueue coherent.distinct _
  · intro other otherDial armed
    rw [isQueued_iff]
    apply (mem_addresses_enqueue _ _ _).mpr
    rw [isArmed_write] at armed
    split_ifs at armed with same
    · exact .inl same
    · exact .inr ((isQueued_iff _ _ _).mp (coherent.queued other otherDial armed))

/-- Swallowing a change leaves the queue as it is. -/
theorem disarm
    (coherent : Coherent linkage)
    (direction : Direction)
    (dial : Dial) :
    Coherent (linkage.setArmed direction dial false) := by
  constructor
  · exact coherent.distinct
  · intro other otherDial armed
    rw [isArmed_setArmed] at armed
    split_ifs at armed
    exact coherent.queued other otherDial armed

end Coherent

/-! ## Edits -/

/-- Resolving an edit solves the dependent dial, or else the edited one, or restores it. -/
theorem resolve_cases
    (linkage : Linkage)
    (direction : Direction)
    (dial : Dial)
    (previous : Float)
    (notices : List RangeNotice) :
    let panel := linkage.panel direction
    let target := recomputed dial panel.lock
    let crossed : RangeNotice := ⟨direction, target, .crossed target (panel.solve target)⟩
    target.accepts (panel.solve target) = true ∧
        linkage.resolve direction dial previous notices =
          (linkage.write direction target (panel.solve target), ⟨.updated target, notices⟩) ∨
      target.accepts (panel.solve target) = false ∧ dial.accepts (panel.solve dial) = true ∧
        linkage.resolve direction dial previous notices =
          (linkage.write direction dial (panel.solve dial),
            ⟨.reverted dial, notices ++ [crossed]⟩) ∨
      target.accepts (panel.solve target) = false ∧ dial.accepts (panel.solve dial) = false ∧
        linkage.resolve direction dial previous notices =
          (linkage.write direction dial previous, ⟨.reverted dial, notices ++ [crossed]⟩) := by
  intro panel target crossed
  unfold resolve
  dsimp only
  by_cases dependent : target.accepts (panel.solve target) = true
  · rw [if_pos dependent]
    exact .inl ⟨dependent, rfl⟩
  · rw [if_neg dependent]
    rw [Bool.not_eq_true] at dependent
    by_cases own : dial.accepts (panel.solve dial) = true
    · rw [if_pos own]
      exact .inr (.inl ⟨dependent, own, rfl⟩)
    · rw [if_neg own]
      exact .inr (.inr ⟨dependent, Bool.not_eq_true _ ▸ own, rfl⟩)

/-- Resolving an edit ends with one write. -/
theorem exists_resolve_eq_write
    (linkage : Linkage)
    (direction : Direction)
    (dial : Dial)
    (previous : Float)
    (notices : List RangeNotice) :
    (linkage.resolve direction dial previous notices).2.outcome ≠ .suppressed ∧
      ∃ target value,
        (linkage.resolve direction dial previous notices).1 =
          linkage.write direction target value := by
  rcases linkage.resolve_cases direction dial previous notices with
    ⟨-, result⟩ | ⟨-, -, result⟩ | ⟨-, -, result⟩
  all_goals
    rw [result]
    exact ⟨by simp, _, _, rfl⟩

/-- An edit that is not a number restores the value before it. Any other edit puts a value
of the dial's range on the dial and is then resolved. -/
theorem edit_cases
    (linkage : Linkage)
    (direction : Direction)
    (dial : Dial)
    (value : Float) :
    (dial.normalize value).isFinite = false ∧
        linkage.edit direction dial value =
          (linkage.write direction dial ((linkage.panel direction).get dial),
            ⟨.rejected, [⟨direction, dial, .crossed dial (dial.normalize value)⟩]⟩) ∨
      (dial.normalize value).isFinite = true ∧
        ∃ applied notices,
          (applied = linkage.write direction dial (dial.clamp (dial.normalize value)) ∨
            applied = linkage.setDial direction dial (dial.clamp (dial.normalize value))) ∧
          linkage.edit direction dial value =
            applied.resolve direction dial ((linkage.panel direction).get dial) notices := by
  unfold edit
  dsimp only
  by_cases finite : (dial.normalize value).isFinite = true
  · rw [if_pos finite]
    by_cases changed : (dial.clamp (dial.normalize value) != value) = true
    · rw [if_pos changed]
      exact .inr ⟨finite, _, _, .inl rfl, rfl⟩
    · rw [if_neg changed]
      exact .inr ⟨finite, _, _, .inr rfl, rfl⟩
  · rw [if_neg finite]
    exact .inl ⟨Bool.not_eq_true _ ▸ finite, rfl⟩

/-- An edit ends with one write, before which at most one value was put on its dial. -/
theorem exists_edit_eq_write
    (linkage : Linkage)
    (direction : Direction)
    (dial : Dial)
    (value : Float) :
    (linkage.edit direction dial value).2.outcome ≠ .suppressed ∧
      ∃ applied target last,
        (applied = linkage ∨
          (∃ x, applied = linkage.write direction dial x) ∨
          ∃ x, applied = linkage.setDial direction dial x) ∧
        (linkage.edit direction dial value).1 = applied.write direction target last := by
  rcases linkage.edit_cases direction dial value with
    ⟨-, rejected⟩ | ⟨-, applied, notices, origin, resolved⟩
  · rw [rejected]
    exact ⟨by simp, linkage, dial, _, .inl rfl, rfl⟩
  · rw [resolved]
    obtain ⟨kept, target, last, result⟩ := exists_resolve_eq_write applied direction dial
      ((linkage.panel direction).get dial) notices
    refine ⟨kept, applied, target, last, .inr ?_, result⟩
    rcases origin with written | put
    · exact .inl ⟨_, written⟩
    · exact .inr ⟨_, put⟩

theorem Coherent.edit
    {linkage : Linkage}
    (coherent : Coherent linkage)
    (direction : Direction)
    (dial : Dial)
    (value : Float) :
    Coherent (linkage.edit direction dial value).1 := by
  obtain ⟨-, applied, target, last, origin, result⟩ :=
    linkage.exists_edit_eq_write direction dial value
  rw [result]
  rcases origin with rfl | ⟨x, rfl⟩ | ⟨x, rfl⟩
  · exact coherent.write _ _ _
  · exact (coherent.write _ _ _).write _ _ _
  · have put : Coherent (linkage.setDial direction dial x) := coherent.of_eq rfl rfl
    exact put.write _ _ _

/-- A change keeps coherence, also one that is swallowed while its write is still queued. -/
theorem Coherent.change
    {linkage : Linkage}
    (coherent : Coherent linkage)
    (direction : Direction)
    (dial : Dial)
    (value : Float) :
    Coherent (linkage.change direction dial value).1 := by
  unfold Linkage.change
  split_ifs
  · exact (coherent.disarm direction dial).of_eq rfl rfl
  · exact coherent.edit direction dial value

end Linkage
end NetworkConsole
