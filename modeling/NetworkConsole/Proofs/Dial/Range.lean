import NetworkConsole.Proofs.Dial.Edit
import NetworkConsole.Proofs.Dial.Precision
import NetworkConsole.Proofs.Dial.Rate

/-!
# Ranges and their notices

Every dial of a panel is in its range, whatever was loaded and edited. The value that a
dependent dial is solved to is then a positive number of moderate size, so its precision
can be computed. A notice therefore names the end of the range that a value was beyond:
the value of the edit, or the exact solution for the dependent dial.
-/

namespace NetworkConsole

open Binary64

theorem UpToTwoPow.weaken
    {x : Float}
    {exponent larger : ℤ}
    (bounded : UpToTwoPow exponent x)
    (ordered : exponent ≤ larger) :
    UpToTwoPow larger x :=
  ⟨bounded.finite, bounded.nonneg,
    bounded.bounded.trans (zpow_le_zpow_right₀ (by norm_num) ordered)⟩

/-- The value of an edit is kept at its dial's precision, or brought to the end of the range
that it lies beyond, with a notice. -/
theorem RangeNotice.ofEdit_cases
    {dial : Dial}
    {value : Float}
    (finite : (dial.normalize value).isFinite = true)
    (direction : Direction) :
    (dial.accepts (dial.normalize value) = true ∧
        dial.clamp (dial.normalize value) = dial.normalize value ∧
        ofEdit direction dial value = []) ∨
      ∃ bound, dial.IsBeyond bound value ∧
        dial.clamp (dial.normalize value) = limit ⟨direction, dial, bound⟩ ∧
        ofEdit direction dial value = [⟨direction, dial, bound⟩] := by
  unfold ofEdit
  by_cases accepted : dial.accepts (dial.normalize value) = true
  · have kept := Dial.clamp_of_accepts accepted
    have same : ¬ (dial.clamp (dial.normalize value) != dial.normalize value) = true := by
      rw [kept, bne_iff finite finite]
      exact not_not.mpr rfl
    exact .inl ⟨accepted, kept, if_neg same⟩
  · have refused : dial.accepts (dial.normalize value) = false := by simpa using accepted
    obtain ⟨limited, different⟩ := Dial.clamp_of_refused finite refused direction
    exact .inr ⟨_, Dial.isBeyond_crossed finite refused, limited, if_pos different⟩

/-- The notices of an edit name the end of the range that its value lies beyond. -/
theorem RangeNotice.isBeyond_of_mem_ofEdit
    {direction : Direction}
    {dial : Dial}
    {value : Float}
    (finite : (dial.normalize value).isFinite = true)
    {notice : RangeNotice}
    (member : notice ∈ ofEdit direction dial value) :
    notice.direction = direction ∧ notice.dial = dial ∧ dial.IsBeyond notice.bound value := by
  rcases ofEdit_cases finite direction with ⟨-, -, none⟩ | ⟨bound, beyond, -, single⟩
  · rw [none] at member
    exact absurd member List.not_mem_nil
  · rw [single, List.mem_singleton] at member
    rw [member]
    exact ⟨rfl, rfl, beyond⟩

namespace Panel

/-- Every dial is in its range. -/
def InRange (panel : Panel) : Prop := ∀ dial : Dial, dial.accepts (panel.get dial) = true

theorem inRange_initial : Panel.initial.InRange := fun dial => (onScale_initial dial).1

namespace InRange

variable {panel : Panel}

theorem set
    (inRange : panel.InRange)
    {dial : Dial}
    {value : Float}
    (accepted : dial.accepts value = true) :
    (panel.set dial value).InRange :=
  panel.forall_get_set (fun dial value => dial.accepts value = true) inRange accepted

theorem enter
    (inRange : panel.InRange)
    {dial : Dial}
    {value : Float}
    (finite : (dial.normalize value).isFinite = true) :
    (panel.enter dial value).InRange :=
  inRange.set (Dial.accepts_clamp finite)

theorem edited
    {dial : Dial}
    {later : Panel}
    (edit : panel.Edited dial later)
    (inRange : panel.InRange) :
    later.InRange := by
  cases edit with
  | restored => exact inRange
  | updated value finite accepted => exact (inRange.enter finite).set accepted
  | solved accepted => exact inRange.set accepted

/-! ## Solved dials -/

theorem upToTwoPow
    (inRange : panel.InRange)
    {dial : Dial}
    {exponent : ℤ}
    (bounded : value dial.max ≤ 2 ^ exponent) :
    UpToTwoPow exponent (panel.get dial) := by
  obtain ⟨finite, least, greatest⟩ := (Dial.accepts_iff _ _).mp (inRange dial)
  have positive : 0 ≤ value dial.min := by
    by_cases whole : dial = .bandwidth
    · rw [whole]
      exact Dial.value_min_bandwidth.1.le
    · linarith [Dial.one_le_value_min whole]
  exact ⟨finite, positive.trans least, greatest.trans bounded⟩

/-- The sent bits and the rate, both at most `2 ^ 42`, are divided by at least one. -/
theorem upToTwoPow_derive
    (inRange : panel.InRange)
    {target : Dial}
    (solvable : target ≠ .seconds) :
    UpToTwoPow 42 (panel.derive target) := by
  have million : value Panel.bitsPerMegabit = 1000000 := value_ofNat (n := 1000000) (by norm_num)
  have eight : value (8 : Float) = 8 := value_ofNat (n := 8) (by norm_num)
  have eightSize : UpToTwoPow 3 8 := ⟨rfl, by rw [eight]; norm_num, by rw [eight]; norm_num⟩
  have unit : UpToTwoPow 20 Panel.bitsPerMegabit :=
    ⟨rfl, by rw [million]; norm_num, by rw [million]; norm_num⟩
  have seconds : UpToTwoPow 4 (panel.get .seconds) :=
    inRange.upToTwoPow (by rw [Dial.value_max]; norm_num [Dial.wholeRange])
  have size : UpToTwoPow 11 (panel.get .size) :=
    inRange.upToTwoPow (by rw [Dial.value_max]; norm_num [Dial.wholeRange])
  have packets : UpToTwoPow 28 (panel.get .packets) :=
    inRange.upToTwoPow (by rw [Dial.value_max]; norm_num [Dial.wholeRange])
  have bandwidth : UpToTwoPow 8 (panel.get .bandwidth) :=
    inRange.upToTwoPow (by rw [Dial.value_max]; norm_num [Dial.wholeRange])
  have rate := (bandwidth.mul unit (by norm_num) (by norm_num)).mul seconds (by norm_num)
    (by norm_num)
  cases target with
  | seconds => exact absurd rfl solvable
  | size =>
      obtain ⟨finite, divisor⟩ := Dial.eightfold_of_accepts (by decide) (inRange .packets)
      exact (rate.div finite divisor (by norm_num) (by norm_num)).weaken (by norm_num)
  | packets =>
      obtain ⟨finite, divisor⟩ := Dial.eightfold_of_accepts (by decide) (inRange .size)
      exact (rate.div finite divisor (by norm_num) (by norm_num)).weaken (by norm_num)
  | bandwidth =>
      have least : (2 : ℚ) ^ (0 : ℤ) ≤ value (panel.get .seconds) := by
        rw [zpow_zero]
        exact (Dial.one_le_value_min (by decide)).trans
          ((Dial.accepts_iff _ _).mp (inRange .seconds)).2.1
      have unitLeast : (2 : ℚ) ^ (0 : ℤ) ≤ value Panel.bitsPerMegabit := by
        rw [zpow_zero, million]
        norm_num
      have sent := (packets.mul size (by norm_num) (by norm_num)).mul eightSize (by norm_num)
        (by norm_num)
      have speed := sent.div seconds.finite least (by norm_num) (by norm_num)
      exact (speed.div unit.finite unitLeast (by norm_num) (by norm_num)).weaken (by norm_num)

/-- What the dependent dial is solved to after an edit can be brought to its precision. -/
theorem isFinite_consequence
    (inRange : panel.InRange)
    {dial : Dial}
    {value : Float}
    (finite : (dial.normalize value).isFinite = true) :
    (panel.consequence dial value).isFinite = true := by
  have solved := (inRange.enter finite).upToTwoPow_derive (recomputed_ne_seconds dial panel.lock)
  exact Dial.isFinite_normalize_of_le _ solved.finite solved.nonneg solved.bounded

/-- A dependent dial that cannot be solved is reported at the end of its range that its exact
solution lies beyond. -/
theorem isBeyond_consequence
    (inRange : panel.InRange)
    {dial : Dial}
    {value : Float}
    (finite : (dial.normalize value).isFinite = true)
    (refused : (recomputed dial panel.lock).accepts (panel.consequence dial value) = false) :
    (recomputed dial panel.lock).IsBeyond
      (.crossed (recomputed dial panel.lock) (panel.consequence dial value))
      ((panel.enter dial value).derive (recomputed dial panel.lock)) :=
  Dial.isBeyond_crossed (inRange.isFinite_consequence finite) refused

end InRange
end Panel
end NetworkConsole
