import NetworkConsole.Proofs.Dial.Effect
import NetworkConsole.Proofs.Dial.Scale

/-!
# Panels after an edit

An edit either leaves a panel as it was, or keeps the edited value and solves another
dial, or solves the edited dial. In each case some dial follows from the other three at
its precision, and every dial stays on its scale.
-/

namespace NetworkConsole
namespace Panel

/-- The panels that an edit of a dial can lead to. -/
inductive Edited (panel : Panel) (dial : Dial) : Panel → Prop
  /-- The value before the edit was restored. -/
  | restored : Edited panel dial panel
  /-- The edit was kept within the dial's range, and the dependent dial solved. -/
  | updated
      (value : Float)
      (finite : (dial.normalize value).isFinite = true)
      (accepted : (recomputed dial panel.lock).accepts
        ((panel.set dial (dial.clamp (dial.normalize value))).solve
          (recomputed dial panel.lock)) = true) :
      Edited panel dial
        ((panel.set dial (dial.clamp (dial.normalize value))).set (recomputed dial panel.lock)
          ((panel.set dial (dial.clamp (dial.normalize value))).solve
            (recomputed dial panel.lock)))
  /-- The edited dial was solved. -/
  | solved (accepted : dial.accepts (panel.solve dial) = true) :
      Edited panel dial (panel.set dial (panel.solve dial))

theorem edited_edit (panel : Panel) (dial : Dial) (value : Float) :
    panel.Edited dial (panel.edit dial value) := by
  unfold edit fallback
  split_ifs with finite accepted solved
  · exact .updated value finite accepted
  · exact .solved solved
  · rw [set_get_self]
    exact .restored
  · exact .restored

end Panel

namespace Linkage

/-- An edit leaves the panel of the other direction as it is. -/
theorem panel_edit_of_ne
    (linkage : Linkage)
    {direction other : Direction}
    (different : other ≠ direction)
    (dial : Dial)
    (value : Float) :
    (linkage.edit direction dial value).1.panel other = linkage.panel other := by
  obtain ⟨-, applied, target, last, origin, result⟩ :=
    linkage.exists_edit_eq_write direction dial value
  rw [result, panel_write, panel_setDial_of_ne _ different]
  rcases origin with rfl | ⟨x, rfl⟩ | ⟨x, rfl⟩
  · rfl
  · rw [panel_write, panel_setDial_of_ne _ different]
  · rw [panel_setDial_of_ne _ different]

/-- An edit changes the panel of its direction in one of three ways. -/
theorem edited_panel_edit
    (linkage : Linkage)
    (direction : Direction)
    (dial : Dial)
    (value : Float) :
    (linkage.panel direction).Edited dial
      ((linkage.edit direction dial value).1.panel direction) := by
  rw [(linkage.edit_eq direction dial value).1]
  exact Panel.edited_edit _ dial value

/-! ## Properties of both panels -/

section

variable {linkage : Linkage} {Property : Panel → Prop}

/-- Both panels keep what every edit keeps, also when its writes are settled. -/
theorem Idle.panel_settle_change
    (idle : Idle linkage)
    (kept : ∀ panel dial later, panel.Edited dial later → Property panel → Property later)
    (both : ∀ direction, Property (linkage.panel direction))
    (direction : Direction)
    (dial : Dial)
    (value : Float)
    (other : Direction) :
    Property ((linkage.change direction dial value).1.settle.1.panel other) := by
  obtain ⟨unswallowed, -, settled, -, -⟩ := idle.change direction dial value
  rw [unswallowed, panel, settled, ← panel]
  by_cases same : other = direction
  · subst same
    exact kept _ _ _ (linkage.edited_panel_edit other dial value) (both other)
  · rw [linkage.panel_edit_of_ne same]
    exact both other

theorem panel_setLock
    (kept : ∀ panel lock, Property panel → Property { panel with lock })
    (both : ∀ direction, Property (linkage.panel direction))
    (direction : Direction)
    (lock : Lock)
    (other : Direction) :
    Property ((linkage.setLock direction lock).panel other) := by
  unfold panel setLock PerDirection.modify
  by_cases same : other = direction
  · subst same
    rw [PerDirection.get_set_same]
    exact kept _ _ (both other)
  · rw [PerDirection.get_set_of_ne _ same]
    exact both other

theorem panel_load
    (kept : ∀ panel lock, Property panel → Property { panel with lock })
    (both : ∀ direction, Property (linkage.panel direction))
    (direction : Direction)
    {loaded : Panel}
    (holds : Property loaded)
    (other : Direction) :
    Property ((linkage.load direction loaded).panel other) := by
  unfold panel load
  by_cases same : other = direction
  · subst same
    rw [PerDirection.get_set_same]
    exact kept _ _ holds
  · rw [PerDirection.get_set_of_ne _ same]
    exact both other

end

end Linkage

namespace Panel

/-! ## Consistency -/

/-- Some dial follows from the other three at its precision. -/
def Consistent (panel : Panel) : Prop :=
  ∃ dial : Dial, panel.get dial = dial.normalize (panel.derive dial)

theorem consistent_set_solve (panel : Panel) (dial : Dial) :
    (panel.set dial (panel.solve dial)).Consistent := by
  refine ⟨dial, ?_⟩
  rw [get_set_same]
  exact (panel.solve_set_self dial _).symm

theorem Edited.consistent
    {panel edited : Panel}
    {dial : Dial}
    (edit : panel.Edited dial edited)
    (consistent : panel.Consistent) :
    edited.Consistent := by
  cases edit with
  | restored => exact consistent
  | updated value finite accepted => exact consistent_set_solve _ _
  | solved accepted => exact consistent_set_solve _ _

theorem consistent_ofParameters (parameters : TestParameters) :
    (ofParameters parameters).Consistent :=
  consistent_set_solve _ _

theorem consistent_initial : Panel.initial.Consistent :=
  ⟨.bandwidth, by decide +kernel⟩

/-! ## Properties of every dial -/

/-- What every dial has is kept by a new value that has it. -/
theorem forall_get_set
    (panel : Panel)
    (Property : Dial → Float → Prop)
    (every : ∀ dial, Property dial (panel.get dial))
    {dial : Dial}
    {value : Float}
    (shown : Property dial value)
    (other : Dial) :
    Property other ((panel.set dial value).get other) := by
  by_cases same : other = dial
  · subst same
    rwa [get_set_same]
  · rw [get_set_of_ne _ same]
    exact every other

/-! ## Scales -/

/-- Every dial shows a value of its scale. -/
def OnScale (panel : Panel) : Prop := ∀ dial : Dial, dial.OnScale (panel.get dial)

/-- The value of an edit is on its dial's scale if the dependent dial can be solved. -/
theorem OnScale.clamp
    {panel : Panel}
    (onScale : panel.OnScale)
    {dial : Dial}
    {value : Float}
    (finite : (dial.normalize value).isFinite = true)
    (dependent : recomputed dial panel.lock ≠ dial)
    (accepted : (recomputed dial panel.lock).accepts
      ((panel.set dial (dial.clamp (dial.normalize value))).solve
        (recomputed dial panel.lock)) = true) :
    dial.OnScale (dial.clamp (dial.normalize value)) := by
  rcases dial.clamp_cases finite with least | greatest | ⟨kept, inRange⟩
  · by_cases whole : dial = .bandwidth
    · subst whole
      have solved : recomputed .bandwidth panel.lock = .size ∨
          recomputed .bandwidth panel.lock = .packets := by
        revert dependent
        cases panel.lock <;> simp [recomputed]
      have bandwidth : (panel.set .bandwidth
          (Dial.clamp .bandwidth (Dial.normalize .bandwidth value))).get .bandwidth =
          Dial.min .bandwidth := by
        rw [get_set_same, least]
      have refused := not_accepts_solve_of_least bandwidth (fun other different => by
        rw [get_set_of_ne _ different]
        exact (onScale other).1) solved
      rw [refused] at accepted
      exact absurd accepted (by decide)
    · rw [least]
      exact Dial.onScale_min whole
  · rw [greatest]
    exact dial.onScale_max
  · rw [kept]
    exact Dial.onScale_normalize inRange

theorem OnScale.set
    {panel : Panel}
    (onScale : panel.OnScale)
    {dial : Dial}
    {value : Float}
    (shown : dial.OnScale value) :
    (panel.set dial value).OnScale :=
  panel.forall_get_set Dial.OnScale onScale shown

theorem Edited.onScale
    {panel edited : Panel}
    {dial : Dial}
    (edit : panel.Edited dial edited)
    (onScale : panel.OnScale) :
    edited.OnScale := by
  cases edit with
  | restored => exact onScale
  | updated value finite accepted =>
      have solved := Dial.onScale_normalize accepted
      -- A dial that is solved itself overwrites the edit, whatever it was brought to.
      by_cases dependent : recomputed dial panel.lock = dial
      · rw [dependent, set_set]
        rw [dependent] at solved
        exact onScale.set solved
      · exact (onScale.set (onScale.clamp finite dependent accepted)).set solved
  | solved accepted => exact onScale.set (Dial.onScale_normalize accepted)

theorem onScale_initial : Panel.initial.OnScale := by
  intro dial
  cases dial with
  | seconds => exact ⟨rfl, 3, rfl⟩
  | size => exact ⟨rfl, 1000, rfl⟩
  | packets => exact ⟨rfl, 30, rfl⟩
  | bandwidth => exact ⟨rfl, 8, by norm_num, by norm_num, rfl⟩

/-- A panel that passes the range check has every dial in its range. -/
theorem accepts_of_checkRanges
    {panel : Panel}
    (checked : panel.checkRanges = .ok ())
    (dial : Dial) :
    dial.accepts (panel.get dial) = true := by
  have passed : Dial.all.find? (fun dial => !dial.accepts (panel.get dial)) = none := by
    unfold checkRanges at checked
    split at checked
    · cases checked
    · assumption
  have member : dial ∈ Dial.all := by cases dial <;> simp [Dial.all]
  simpa using List.find?_eq_none.mp passed dial member

/-- Every dial of typed parameters is at its precision. -/
theorem exists_get_ofParameters (parameters : TestParameters) (dial : Dial) :
    ∃ x, (ofParameters parameters).get dial = dial.normalize x := by
  cases dial <;> exact ⟨_, rfl⟩

/-- A panel of typed parameters that passes the range check is on its scales. -/
theorem onScale_ofParameters
    {parameters : TestParameters}
    (checked : (ofParameters parameters).checkRanges = .ok ()) :
    (ofParameters parameters).OnScale := by
  intro dial
  obtain ⟨x, precise⟩ := exists_get_ofParameters parameters dial
  have accepted := accepts_of_checkRanges checked dial
  rw [precise] at accepted ⊢
  exact Dial.onScale_normalize accepted

end Panel
end NetworkConsole
