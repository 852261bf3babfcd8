import NetworkConsole.Proofs.Dial.Feedback

/-!
# Effects of an edit

What an edit makes of its panel, and what it reports, follow from the panel alone. The edit
touches its own dial and the one dial that depends on it, and what these two showed before
has no part in an edit that is kept. So a later edit of the same dial is not aware of the
earlier ones, and the locked dial keeps its value while other dials are edited.
-/

namespace NetworkConsole

/-! ## Dependent dials -/

/-- The locked dial depends on its own edits only. -/
theorem recomputed_eq_lock_iff (dial : Dial) (lock : Lock) :
    recomputed dial lock = lock.dial ↔ dial = lock.dial := by
  cases dial <;> cases lock <;> decide

theorem recomputed_ne_seconds (dial : Dial) (lock : Lock) : recomputed dial lock ≠ .seconds := by
  cases dial <;> cases lock <;> decide

namespace RangeNotice

/-- The notice of a value that is out of a dial's range. -/
def ofValue (direction : Direction) (dial : Dial) (value : Float) : RangeNotice :=
  ⟨direction, dial, .crossed dial value⟩

/-- The notices of an edit that is brought into its dial's range. -/
def ofEdit (direction : Direction) (dial : Dial) (value : Float) : List RangeNotice :=
  if dial.clamp (dial.normalize value) != dial.normalize value then
    [ofValue direction dial (dial.normalize value)]
  else []

end RangeNotice

namespace Panel

theorem set_set (panel : Panel) (dial : Dial) (first second : Float) :
    (panel.set dial first).set dial second = panel.set dial second := by
  cases dial <;> rfl

/-- A dial solved from the others does not depend on its own value. -/
theorem solve_set_self (panel : Panel) (dial : Dial) (value : Float) :
    (panel.set dial value).solve dial = panel.solve dial := by
  cases dial <;> rfl

/-- The panel with a value entered on a dial, at the dial's precision and within its range. -/
def enter (panel : Panel) (dial : Dial) (value : Float) : Panel :=
  panel.set dial (dial.clamp (dial.normalize value))

/-- What the dependent dial would show after an edit. -/
def consequence (panel : Panel) (dial : Dial) (value : Float) : Float :=
  (panel.enter dial value).solve (recomputed dial panel.lock)

/-- What a dial shows after an edit that cannot be kept. -/
def fallback (panel : Panel) (dial : Dial) : Float :=
  if dial.accepts (panel.solve dial) then panel.solve dial else panel.get dial

/-- The panel after an edit. -/
def edit (panel : Panel) (dial : Dial) (value : Float) : Panel :=
  if (dial.normalize value).isFinite then
    if (recomputed dial panel.lock).accepts (panel.consequence dial value) then
      (panel.enter dial value).set (recomputed dial panel.lock) (panel.consequence dial value)
    else panel.set dial (panel.fallback dial)
  else panel

/-- The report of an edit. -/
def answer
    (panel : Panel)
    (direction : Direction)
    (dial : Dial)
    (value : Float) : ChangeReport :=
  if (dial.normalize value).isFinite then
    if (recomputed dial panel.lock).accepts (panel.consequence dial value) then
      ⟨.updated (recomputed dial panel.lock), RangeNotice.ofEdit direction dial value⟩
    else
      ⟨.reverted dial, RangeNotice.ofEdit direction dial value ++
        [.ofValue direction (recomputed dial panel.lock) (panel.consequence dial value)]⟩
  else ⟨.rejected, [.ofValue direction dial (dial.normalize value)]⟩

/-- A number is entered, and the dependent dial is solved from it or the edited dial falls
back. -/
theorem edit_cases
    (panel : Panel)
    {dial : Dial}
    {value : Float}
    (finite : (dial.normalize value).isFinite = true)
    (direction : Direction) :
    ((recomputed dial panel.lock).accepts (panel.consequence dial value) = true ∧
        panel.answer direction dial value =
          ⟨.updated (recomputed dial panel.lock), RangeNotice.ofEdit direction dial value⟩ ∧
        panel.edit dial value =
          (panel.enter dial value).set (recomputed dial panel.lock)
            (panel.consequence dial value)) ∨
      ((recomputed dial panel.lock).accepts (panel.consequence dial value) = false ∧
        panel.answer direction dial value =
          ⟨.reverted dial, RangeNotice.ofEdit direction dial value ++
            [.ofValue direction (recomputed dial panel.lock) (panel.consequence dial value)]⟩ ∧
        panel.edit dial value = panel.set dial (panel.fallback dial)) := by
  unfold answer edit
  rw [if_pos finite, if_pos finite]
  split_ifs with kept
  · exact .inl ⟨kept, rfl, rfl⟩
  · exact .inr ⟨by simpa using kept, rfl, rfl⟩

theorem edit_of_not_isFinite
    (panel : Panel)
    {dial : Dial}
    {value : Float}
    (infinite : (dial.normalize value).isFinite = false)
    (direction : Direction) :
    panel.answer direction dial value =
        ⟨.rejected, [.ofValue direction dial (dial.normalize value)]⟩ ∧
      panel.edit dial value = panel := by
  unfold answer edit
  rw [infinite]
  exact ⟨rfl, rfl⟩

theorem outcome_answer_eq_rejected_iff
    (panel : Panel)
    (direction : Direction)
    (dial : Dial)
    (value : Float) :
    (panel.answer direction dial value).outcome = .rejected ↔
      (dial.normalize value).isFinite = false := by
  cases finite : (dial.normalize value).isFinite with
  | true =>
      rcases panel.edit_cases finite direction with ⟨-, kept, -⟩ | ⟨-, refused, -⟩ <;> simp [*]
  | false => simp [panel.edit_of_not_isFinite finite direction]

end Panel

namespace Linkage

/-- A value entered on a panel is resolved as the panel says. -/
theorem resolve_of_enter
    {linkage : Linkage}
    {panel : Panel}
    {direction : Direction}
    {dial : Dial}
    {value : Float}
    (entered : linkage.panel direction = panel.enter dial value)
    (finite : (dial.normalize value).isFinite = true) :
    let resolved :=
      linkage.resolve direction dial (panel.get dial) (RangeNotice.ofEdit direction dial value)
    resolved.1.panel direction = panel.edit dial value ∧
      resolved.2 = panel.answer direction dial value := by
  intro resolved
  have consequence : (panel.enter dial value).solve (recomputed dial panel.lock) =
    panel.consequence dial value := rfl
  have own : (panel.enter dial value).solve dial = panel.solve dial := panel.solve_set_self dial _
  have lock : (panel.enter dial value).lock = panel.lock := rfl
  have undone (x : Float) : (panel.enter dial value).set dial x = panel.set dial x :=
    panel.set_set dial _ x
  have cases := linkage.resolve_cases direction dial (panel.get dial)
    (RangeNotice.ofEdit direction dial value)
  simp only [entered, lock, consequence, own] at cases
  unfold Panel.edit Panel.answer
  rw [if_pos finite, if_pos finite]
  rcases cases with ⟨kept, result⟩ | ⟨refused, solved, result⟩ | ⟨refused, unsolved, result⟩
  · rw [if_pos kept, if_pos kept]
    simp only [resolved, result, panel_write, panel_setDial, entered, and_self]
  · rw [if_neg (by simp [refused]), if_neg (by simp [refused]), Panel.fallback, if_pos solved]
    simp only [resolved, result, panel_write, panel_setDial, entered, undone, true_and]
    rfl
  · rw [if_neg (by simp [refused]), if_neg (by simp [refused]), Panel.fallback,
      if_neg (by simp [unsolved])]
    simp only [resolved, result, panel_write, panel_setDial, entered, undone, true_and]
    rfl

/-- An edit does to its panel, and reports, what follows from the panel alone. -/
theorem edit_eq
    (linkage : Linkage)
    (direction : Direction)
    (dial : Dial)
    (value : Float) :
    (linkage.edit direction dial value).1.panel direction =
        (linkage.panel direction).edit dial value ∧
      (linkage.edit direction dial value).2 =
        (linkage.panel direction).answer direction dial value := by
  unfold edit
  dsimp only
  by_cases finite : (dial.normalize value).isFinite = true
  · rw [if_pos finite]
    apply resolve_of_enter _ finite
    split_ifs
    · rw [panel_write, panel_setDial, Panel.enter]
    · rw [panel_setDial, Panel.enter]
  · rw [if_neg finite, Panel.edit, if_neg finite, Panel.answer, if_neg finite, panel_write,
      panel_setDial, Panel.set_get_self]
    exact ⟨rfl, rfl⟩

end Linkage

namespace Panel

theorem ext_get
    {first second : Panel}
    (lock : first.lock = second.lock)
    (same : ∀ dial, first.get dial = second.get dial) :
    first = second := by
  obtain ⟨⟨_, _, _, _⟩, _⟩ := first
  obtain ⟨⟨_, _, _, _⟩, _⟩ := second
  cases lock
  cases same .seconds
  cases same .size
  cases same .packets
  cases same .bandwidth
  rfl

/-! ## Frames -/

theorem get_enter_of_ne
    (panel : Panel)
    {dial other : Dial}
    (different : other ≠ dial)
    (value : Float) :
    (panel.enter dial value).get other = panel.get other :=
  panel.get_set_of_ne different _

@[simp] theorem lock_edit (panel : Panel) (dial : Dial) (value : Float) :
    (panel.edit dial value).lock = panel.lock := by
  unfold edit
  split_ifs <;> rfl

/-- An edit changes its own dial and the dependent one at most. -/
theorem get_edit_of_ne
    (panel : Panel)
    {dial other : Dial}
    (different : other ≠ dial)
    (independent : other ≠ recomputed dial panel.lock)
    (value : Float) :
    (panel.edit dial value).get other = panel.get other := by
  unfold edit
  split_ifs
  · rw [get_set_of_ne _ independent, get_enter_of_ne _ different]
  · rw [get_set_of_ne _ different]
  · rfl

/-- Edits of the other dials leave the locked one. -/
theorem get_lock_edit
    (panel : Panel)
    {dial : Dial}
    (unlocked : dial ≠ panel.lock.dial)
    (value : Float) :
    (panel.edit dial value).get panel.lock.dial = panel.get panel.lock.dial := by
  apply panel.get_edit_of_ne unlocked.symm
  intro dependent
  exact unlocked ((recomputed_eq_lock_iff dial panel.lock).mp dependent.symm)

/-- An edit of the locked dial puts the value on it that follows from the other three, if that
is in range. The edited value has no part in it. -/
theorem edit_lock
    (panel : Panel)
    {value : Float}
    (finite : (panel.lock.dial.normalize value).isFinite = true) :
    panel.edit panel.lock.dial value =
      panel.set panel.lock.dial (panel.fallback panel.lock.dial) := by
  have own : recomputed panel.lock.dial panel.lock = panel.lock.dial :=
    (recomputed_eq_lock_iff _ _).mpr rfl
  have consequence : panel.consequence panel.lock.dial value = panel.solve panel.lock.dial := by
    rw [Panel.consequence, own]
    exact panel.solve_set_self _ _
  unfold edit
  rw [if_pos finite, own, consequence, fallback]
  split_ifs
  · exact panel.set_set _ _ _
  · rfl

/-! ## Panels that differ on the edited dials -/

/-- Panels that differ at most on a dial and on the dial that depends on it. -/
structure AgreesBeside (dial : Dial) (first second : Panel) : Prop where
  lock : second.lock = first.lock
  get : ∀ other, other ≠ dial → other ≠ recomputed dial first.lock →
    second.get other = first.get other

namespace AgreesBeside

variable {dial : Dial} {first second third : Panel}

theorem refl (dial : Dial) (panel : Panel) : AgreesBeside dial panel panel :=
  ⟨rfl, fun _ _ _ => rfl⟩

theorem trans
    (left : AgreesBeside dial first second)
    (right : AgreesBeside dial second third) :
    AgreesBeside dial first third := by
  refine ⟨right.lock.trans left.lock, ?_⟩
  intro other different independent
  rw [right.get other different (left.lock ▸ independent), left.get other different independent]

theorem edit (dial : Dial) (panel : Panel) (value : Float) :
    AgreesBeside dial panel (panel.edit dial value) :=
  ⟨panel.lock_edit dial value, fun _ different independent =>
    panel.get_edit_of_ne different independent value⟩

/-- A value on each of the two dials makes the panels the same. -/
theorem set_enter (agrees : AgreesBeside dial first second) (value solved : Float) :
    (second.enter dial value).set (recomputed dial first.lock) solved =
      (first.enter dial value).set (recomputed dial first.lock) solved := by
  refine ext_get agrees.lock ?_
  intro other
  by_cases dependent : other = recomputed dial first.lock
  · rw [dependent, get_set_same, get_set_same]
  · rw [get_set_of_ne _ dependent, get_set_of_ne _ dependent]
    by_cases own : other = dial
    · rw [own, enter, enter, get_set_same, get_set_same]
    · rw [get_enter_of_ne _ own, get_enter_of_ne _ own, agrees.get other own dependent]

/-- The dependent dial is solved from a panel's other dials, which are the same. -/
theorem consequence (agrees : AgreesBeside dial first second) (value : Float) :
    second.consequence dial value = first.consequence dial value := by
  unfold Panel.consequence
  -- Solving does not read the dependent dial, so any value may stand on it.
  rw [agrees.lock, ← solve_set_self (second.enter dial value) _ 0, agrees.set_enter value 0,
    solve_set_self]

/-- An edit is reported in the same way. -/
theorem answer
    (agrees : AgreesBeside dial first second)
    (direction : Direction)
    (value : Float) :
    second.answer direction dial value = first.answer direction dial value := by
  unfold Panel.answer
  rw [agrees.lock, agrees.consequence value]

/-- An edit that is kept makes the panels the same. -/
theorem edit_eq
    (agrees : AgreesBeside dial first second)
    {direction : Direction}
    {value : Float}
    {target : Dial}
    (kept : (first.answer direction dial value).outcome = .updated target) :
    second.edit dial value = first.edit dial value := by
  unfold Panel.answer at kept
  unfold Panel.edit
  rw [agrees.lock, agrees.consequence value]
  split_ifs at kept ⊢
  exact agrees.set_enter value _

end AgreesBeside

end Panel
end NetworkConsole
