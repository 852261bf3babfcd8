import NetworkConsole.Proofs.Console.Dials
import NetworkConsole.Proofs.Dial.Range
import NetworkConsole.Proofs.Dial.Separation

/-!
# Edits of a session

An edit of a dial does to its panel, and reports, what follows from the panel alone. So its
notices name what was out of range, and a number is rejected only where its precision
overflows. An edit that is kept leaves no trace of earlier edits of the same dial, and the
locked dial keeps its value until its lock is changed or it is edited itself.
-/

namespace NetworkConsole
namespace Session

/-- An edit of an idle session changes the panel of its direction and is reported as the panel
says. The other panel stays as it is, and the writes that follow are swallowed. -/
theorem changeDial_of_idle
    {session : Session}
    (idle : session.linkage.Idle)
    (direction : Direction)
    (dial : Dial)
    (value : Float)
    (now : Int) :
    let edited := session.changeDial direction dial value now
    edited.1.linkage.panel direction = (session.linkage.panel direction).edit dial value ∧
      (∀ other, other ≠ direction →
        edited.1.linkage.panel other = session.linkage.panel other) ∧
      ∃ deliveries, (∀ delivery ∈ deliveries, delivery.notices = []) ∧
        edited.2 = (session.linkage.panel direction).answer direction dial value :: deliveries := by
  intro edited
  obtain ⟨unswallowed, -, panels, -, count, -, swallowed⟩ := idle.change direction dial value
  obtain ⟨notices, interval, changed⟩ := session.changeDial_frame direction dial value now
  obtain ⟨own, report⟩ := session.linkage.edit_eq direction dial value
  have panel (other : Direction) : edited.1.linkage.panel other =
      (session.linkage.edit direction dial value).1.panel other := by
    rw [changed, unswallowed, Linkage.panel, panels, Linkage.panel]
  refine ⟨(panel direction).trans own, ?_, List.replicate count ⟨.suppressed, []⟩, ?_, ?_⟩
  · intro other different
    rw [panel, session.linkage.panel_edit_of_ne different]
  · intro delivery member
    rw [List.eq_of_mem_replicate member]
  · rw [← report, ← swallowed, ← unswallowed]
    rfl

theorem inRange_run
    (additionalOptions : String)
    (now : Int)
    (operations : List Operation)
    (direction : Direction) :
    (((start additionalOptions now).run operations).linkage.panel direction).InRange :=
  panel_run Panel.InRange Panel.inRange_initial (fun _ _ _ edit => Panel.InRange.edited edit)
    (fun _ _ inRange => inRange) (fun _ _ _ checked => Panel.accepts_of_checkRanges checked)
    additionalOptions now direction

/-! ## Notices -/

/-- After any operations, the notices of an edit name what was out of range. Those for the
edited dial name the end of its range that the edited value lies beyond, and the last one of
an edit that was not kept names the end that the exact solution for the dependent dial lies
beyond. Nothing is said of the notice for a value that is not a number, or is negative and
has no precision that can be computed. -/
theorem notices_of_run
    (additionalOptions : String)
    (start : Int)
    (operations : List Operation)
    (direction : Direction)
    (dial : Dial)
    (value : Float)
    (now : Int) :
    let session := (Session.start additionalOptions start).run operations
    let panel := session.linkage.panel direction
    let target := recomputed dial panel.lock
    ∃ report deliveries own,
      (session.changeDial direction dial value now).2 = report :: deliveries ∧
      (∀ delivery ∈ deliveries, delivery.notices = []) ∧
      (∀ notice ∈ own, notice.direction = direction ∧ notice.dial = dial ∧
        dial.IsBeyond notice.bound value) ∧
      (report = ⟨.updated target, own⟩ ∨
        (∃ bound, target.IsBeyond bound ((panel.enter dial value).derive target) ∧
          report = ⟨.reverted dial, own ++ [⟨direction, target, bound⟩]⟩) ∨
        report = ⟨.rejected, own⟩ ∨
        report.outcome = .rejected ∧ (value.isFinite = false ∨ value < 0)) := by
  intro session panel target
  have idle : session.linkage.Idle := idle_run additionalOptions start operations
  have inRange : panel.InRange := inRange_run additionalOptions start operations direction
  obtain ⟨-, -, deliveries, silent, reports⟩ := changeDial_of_idle idle direction dial value now
  by_cases finite : (dial.normalize value).isFinite = true
  · refine ⟨_, deliveries, RangeNotice.ofEdit direction dial value, reports, silent, ?_, ?_⟩
    · exact fun notice member => RangeNotice.isBeyond_of_mem_ofEdit finite member
    · rcases panel.edit_cases finite direction with ⟨-, updated, -⟩ | ⟨refused, reverted, -⟩
      · exact .inl updated
      · exact .inr (.inl ⟨_, inRange.isBeyond_consequence finite refused, reverted⟩)
  · have infinite : (dial.normalize value).isFinite = false := by simpa using finite
    rw [(Panel.edit_of_not_isFinite _ infinite direction).1, RangeNotice.ofValue,
      Dial.crossed_of_not_isFinite infinite] at reports
    -- The notice names the upper end whatever the sign, so it is true of positive numbers only.
    by_cases unsure : value.isFinite = false ∨ value < 0
    · exact ⟨_, deliveries, [], reports, silent, nofun, .inr (.inr (.inr ⟨rfl, unsure⟩))⟩
    · obtain ⟨number, nonneg⟩ := not_or.mp unsure
      refine ⟨_, deliveries, _, reports, silent, ?_, .inr (.inr (.inl rfl))⟩
      intro notice member
      obtain rfl := List.mem_singleton.mp member
      exact ⟨rfl, rfl, Dial.isBeyond_max_of_not_isFinite_normalize (by simpa using number) nonneg
        infinite⟩

/-- A bandwidth below half of its last decimal is reported as too small although it is in range,
and so is a solution for the bandwidth. A negative value whose precision overflows is
reported as too large. -/
theorem notices_within_range :
    let session := start "" 0
    let reports (dial : Dial) (value : Float) :=
      (session.changeDial .clientToServer dial value 0).2
    (⟨.clientToServer, .bandwidth, .min⟩ ∈ (reports .bandwidth 0.004).flatMap (·.notices) ∧
        ¬ (0.004 : Float) < Dial.min .bandwidth) ∧
      ((reports .packets 1).head? =
          some ⟨.reverted .packets, [⟨.clientToServer, .bandwidth, .min⟩]⟩ ∧
        ¬ ((session.linkage.panel .clientToServer).enter .packets 1).derive .bandwidth <
          Dial.min .bandwidth) ∧
      (reports .bandwidth (-1e307)).head? =
          some ⟨.rejected, [⟨.clientToServer, .bandwidth, .max⟩]⟩ ∧
        ¬ Dial.max .bandwidth < (-1e307 : Float) := by
  decide +kernel

/-! ## Rejected values -/

/-- After any operations, an edit is rejected exactly if its value is not a number or its
precision overflows, and then the panel stays as it is. Any other value is brought into its
dial's range first, to the end that it lies beyond and with a notice if it is outside, and
the dependent dial is solved from what was entered. -/
theorem rejected_iff_of_run
    (additionalOptions : String)
    (start : Int)
    (operations : List Operation)
    (direction : Direction)
    (dial : Dial)
    (value : Float)
    (now : Int) :
    let session := (Session.start additionalOptions start).run operations
    let panel := session.linkage.panel direction
    let target := recomputed dial panel.lock
    let edited := session.changeDial direction dial value now
    ∃ report deliveries,
      edited.2 = report :: deliveries ∧
      (report.outcome = .rejected ↔
        value.isFinite = false ∨
          Binary64.overflowFrom ≤ |Binary64.value value| * Binary64.value dial.factor) ∧
      (report.outcome = .rejected ∧ edited.1.linkage.panel direction = panel ∨
        ∃ entered own,
          dial.accepts entered = true ∧
          (entered = dial.normalize value ∧ own = [] ∨
            ∃ bound, dial.IsBeyond bound value ∧
              entered = RangeNotice.limit ⟨direction, dial, bound⟩ ∧
              own = [⟨direction, dial, bound⟩]) ∧
          let solved := (panel.set dial entered).solve target
          (target.accepts solved = true ∧ report = ⟨.updated target, own⟩ ∧
              edited.1.linkage.panel direction = (panel.set dial entered).set target solved ∨
            target.accepts solved = false ∧
              report = ⟨.reverted dial, own ++ [.ofValue direction target solved]⟩)) := by
  intro session panel target edited
  have idle : session.linkage.Idle := idle_run additionalOptions start operations
  obtain ⟨own, -, deliveries, -, reports⟩ := changeDial_of_idle idle direction dial value now
  refine ⟨_, deliveries, reports, ?_, ?_⟩
  · rw [Panel.outcome_answer_eq_rejected_iff, ← Bool.not_eq_true, Dial.isFinite_normalize_iff,
      not_and_or, Bool.not_eq_true, not_lt]
  · by_cases finite : (dial.normalize value).isFinite = true
    · refine .inr ⟨dial.clamp (dial.normalize value), RangeNotice.ofEdit direction dial value,
        Dial.accepts_clamp finite, ?_, ?_⟩
      · rcases RangeNotice.ofEdit_cases finite direction with
          ⟨-, kept, none⟩ | ⟨bound, beyond, limited, single⟩
        · exact .inl ⟨kept, none⟩
        · exact .inr ⟨bound, beyond, limited, single⟩
      · rcases panel.edit_cases finite direction with
          ⟨kept, updated, later⟩ | ⟨refused, reverted, -⟩
        · exact .inl ⟨kept, updated, own.trans later⟩
        · exact .inr ⟨refused, reverted⟩
    · obtain ⟨rejected, restored⟩ :=
        panel.edit_of_not_isFinite (Bool.not_eq_true _ ▸ finite) direction
      exact .inl ⟨congrArg ChangeReport.outcome rejected, own.trans restored⟩

/-- A number is rejected whose hundredfold overflows. -/
theorem rejected_of_large :
    (1e307 : Float).isFinite = true ∧
      ((start "" 0).changeDial .clientToServer .bandwidth 1e307 0).2.head?.map (·.outcome) =
        some .rejected := by
  decide +kernel

/-! ## Repeated edits -/

/-- Edits of one dial, each at its time. -/
def drag (direction : Direction) (dial : Dial) (edits : List (Float × Int)) : List Operation :=
  edits.map fun edit => .changeDial direction dial edit.1 edit.2

/-- A session that differs from another one at most on a dial of a direction and on the dial
that depends on it. -/
structure AgreesBeside
    (direction : Direction)
    (dial : Dial)
    (first second : Session) : Prop where
  idle : second.linkage.Idle
  own : (first.linkage.panel direction).AgreesBeside dial (second.linkage.panel direction)
  other : ∀ other, other ≠ direction → second.linkage.panel other = first.linkage.panel other

namespace AgreesBeside

variable {direction : Direction} {dial : Dial} {first second : Session}

theorem changeDial
    (agrees : AgreesBeside direction dial first second)
    (value : Float)
    (now : Int) :
    AgreesBeside direction dial first (second.changeDial direction dial value now).1 := by
  obtain ⟨own, others, -⟩ := changeDial_of_idle agrees.idle direction dial value now
  constructor
  · exact idle_apply agrees.idle (.changeDial direction dial value now)
  · rw [own]
    exact agrees.own.trans (.edit dial _ value)
  · intro other different
    rw [others other different, agrees.other other different]

/-- Any edits of the dial keep to it and to the dependent one. -/
theorem run
    (agrees : AgreesBeside direction dial first second)
    (edits : List (Float × Int)) :
    AgreesBeside direction dial first (second.run (Session.drag direction dial edits)) := by
  induction edits generalizing second with
  | nil => exact agrees
  | cons edit later inductionHypothesis => exact inductionHypothesis (agrees.changeDial _ _)

end AgreesBeside

/-- After any operations, edits of one dial of a direction have no part in a later edit of the
same dial. It is reported as if it were the first one, and if it is kept, both panels are
those of that edit alone. -/
theorem changeDial_after_drag
    (additionalOptions : String)
    (start : Int)
    (operations : List Operation)
    (direction : Direction)
    (dial : Dial)
    (edits : List (Float × Int))
    (value : Float)
    (now : Int) :
    let session := (Session.start additionalOptions start).run operations
    let dragged := session.run (drag direction dial edits)
    let once := session.changeDial direction dial value now
    let last := dragged.changeDial direction dial value now
    ∃ report deliveries,
      last.2 = report :: deliveries ∧
      once.2.head? = some report ∧
      (∀ delivery ∈ deliveries ++ once.2.tail, delivery.notices = []) ∧
      ((∃ target, report.outcome = .updated target) →
        ∀ other, last.1.linkage.panel other = once.1.linkage.panel other) := by
  intro session dragged once last
  have idle : session.linkage.Idle := idle_run additionalOptions start operations
  have agrees : AgreesBeside direction dial session dragged :=
    AgreesBeside.run ⟨idle, .refl dial _, fun _ _ => rfl⟩ edits
  obtain ⟨onceOwn, onceOther, onceDeliveries, onceSilent, onceReports⟩ :=
    changeDial_of_idle idle direction dial value now
  obtain ⟨own, others, deliveries, silent, reports⟩ :=
    changeDial_of_idle agrees.idle direction dial value now
  -- The answer reads no dial that the earlier edits may have changed.
  rw [agrees.own.answer direction value] at reports
  refine ⟨_, deliveries, reports, ?_, ?_, ?_⟩
  · rw [onceReports, List.head?_cons]
  · intro delivery member
    rw [onceReports, List.tail_cons, List.mem_append] at member
    exact member.elim (silent delivery) (onceSilent delivery)
  · rintro ⟨target, kept⟩ other
    by_cases same : other = direction
    · rw [same, own, onceOwn]
      exact agrees.own.edit_eq kept
    · rw [others other same, onceOther other same, agrees.other other same]

/-- An edit above the range and one that is not a number, and then one that is kept. -/
theorem changeDial_after_drag_seconds :
    let session := (start "" 0).run [.setLock .clientToServer .packets]
    let dragged := session.run (drag .clientToServer .seconds [(20, 0), (0 / 0, 1)])
    let once := session.changeDial .clientToServer .seconds 6 2
    let last := dragged.changeDial .clientToServer .seconds 6 2
    last.2.head?.map (·.outcome) = some (.updated .bandwidth) ∧
      ∀ other, last.1.linkage.panel other = once.1.linkage.panel other := by
  obtain ⟨report, deliveries, reports, -, -, same⟩ :=
    changeDial_after_drag "" 0 [.setLock .clientToServer .packets] .clientToServer .seconds
      [(20, 0), (0 / 0, 1)] 6 2
  dsimp only
  rw [reports]
  have kept : (some report).map (·.outcome) = some (.updated .bandwidth) := by
    rw [← List.head?_cons, ← reports]
    decide +kernel
  exact ⟨kept, same ⟨.bandwidth, Option.some.inj kept⟩⟩

/-! ## Locked dials -/

/-- Operations that leave the lock and the locked dial of a direction alone. -/
def Operation.Spares (direction : Direction) (lock : Lock) : Operation → Prop
  | .changeDial other dial _ _ => other = direction → dial ≠ lock.dial
  | .setLock other _ => other ≠ direction
  | .loadPanel other _ => other ≠ direction
  | .reset => False
  | _ => True

/-- A dial of a direction is locked and has a value. -/
structure LockedAt
    (direction : Direction)
    (lock : Lock)
    (value : Float)
    (session : Session) : Prop where
  idle : session.linkage.Idle
  inPlace : (session.linkage.panel direction).lock = lock
  shown : (session.linkage.panel direction).get lock.dial = value

namespace LockedAt

variable {direction : Direction} {lock : Lock} {value : Float} {session : Session}

/-- Only the panel of the direction matters. -/
theorem of_eq
    {later : Session}
    (locked : LockedAt direction lock value session)
    (idle : later.linkage.Idle)
    (same : later.linkage.panel direction = session.linkage.panel direction) :
    LockedAt direction lock value later :=
  ⟨idle, same ▸ locked.inPlace, same ▸ locked.shown⟩

theorem changeDial
    (locked : LockedAt direction lock value session)
    {other : Direction}
    {dial : Dial}
    (spared : other = direction → dial ≠ lock.dial)
    (entered : Float)
    (now : Int) :
    LockedAt direction lock value (session.changeDial other dial entered now).1 := by
  have idle := idle_apply locked.idle (.changeDial other dial entered now)
  obtain ⟨own, others, -⟩ := changeDial_of_idle locked.idle other dial entered now
  by_cases same : other = direction
  · subst same
    obtain ⟨-, rfl, rfl⟩ := locked
    refine ⟨idle, ?_, ?_⟩
    · rw [own, Panel.lock_edit]
    · rw [own, Panel.get_lock_edit _ (spared rfl)]
  · exact locked.of_eq idle (others direction (Ne.symm same))

theorem apply
    (locked : LockedAt direction lock value session)
    {operation : Operation}
    (spared : operation.Spares direction lock) :
    LockedAt direction lock value (session.apply operation) := by
  have idle := idle_apply locked.idle operation
  cases operation with
  | changeDial other dial entered now => exact locked.changeDial spared entered now
  | setLock other chosen =>
      apply locked.of_eq idle
      rw [linkage_apply]
      exact Linkage.panel_eq_of_side_eq (session.linkage.side_setLock_of_ne spared.symm chosen)
  | loadPanel other panel =>
      apply locked.of_eq idle
      rw [linkage_apply]
      dsimp only
      split
      · exact Linkage.panel_eq_of_side_eq (session.linkage.side_load_of_ne spared.symm panel)
      · rfl
  | reset => exact spared.elim
  | _ => exact locked.of_eq idle (congrArg (Linkage.panel · direction) (linkage_apply _ _))

theorem run
    (locked : LockedAt direction lock value session)
    {operations : List Operation}
    (spared : ∀ operation ∈ operations, operation.Spares direction lock) :
    LockedAt direction lock value (session.run operations) :=
  run_invariant (LockedAt direction lock value) locked
    fun _ operation member locked => locked.apply (spared operation member)

end LockedAt

/-- After any operations, the lock of a direction and the value of its locked dial stay until
the lock is set, a panel is loaded, the session is reset or the locked dial is edited. An edit
changes its own dial and the dependent one at most, and an edit of the locked dial by a number
has the same effect whatever the number. -/
theorem lock_of_run
    (additionalOptions : String)
    (start : Int)
    (operations : List Operation)
    (direction : Direction) :
    let session := (Session.start additionalOptions start).run operations
    let panel := session.linkage.panel direction
    let locked := panel.lock.dial
    (∀ later : List Operation, (∀ operation ∈ later, operation.Spares direction panel.lock) →
      let kept := (session.run later).linkage.panel direction
      kept.lock = panel.lock ∧ kept.get locked = panel.get locked) ∧
      (∀ dial value now other, other ≠ dial → other ≠ recomputed dial panel.lock →
        ((session.changeDial direction dial value now).1.linkage.panel direction).get other =
          panel.get other) ∧
      ∀ first second now later,
        (locked.normalize first).isFinite = true → (locked.normalize second).isFinite = true →
        (session.changeDial direction locked first now).1.linkage.panel direction =
          (session.changeDial direction locked second later).1.linkage.panel direction := by
  intro session panel locked
  have idle : session.linkage.Idle := idle_run additionalOptions start operations
  have edited (dial : Dial) (value : Float) (now : Int) :
      (session.changeDial direction dial value now).1.linkage.panel direction =
        panel.edit dial value := (changeDial_of_idle idle direction dial value now).1
  refine ⟨?_, ?_, ?_⟩
  · intro later spared
    have kept : LockedAt direction panel.lock (panel.get locked) (session.run later) :=
      LockedAt.run ⟨idle, rfl, rfl⟩ spared
    exact ⟨kept.inPlace, kept.shown⟩
  · intro dial value now other different independent
    rw [edited, panel.get_edit_of_ne different independent]
  · intro first second now later firstFinite secondFinite
    rw [edited, edited, panel.edit_lock firstFinite, panel.edit_lock secondFinite]

/-- Operations beside the locked packets of one direction. -/
def besidePackets : List Operation :=
  [.changeDial .clientToServer .bandwidth 0.2 0, .changeDial .serverToClient .packets 200 1,
    .setLock .serverToClient .bandwidth]

theorem spares_besidePackets :
    ∀ operation ∈ besidePackets, operation.Spares .clientToServer .packets := by
  simp [besidePackets, Operation.Spares, Lock.dial]

theorem lock_after_besidePackets :
    let session := (start "" 0).run [.setLock .clientToServer .packets]
    let panel := session.linkage.panel .clientToServer
    let kept := (session.run besidePackets).linkage.panel .clientToServer
    panel.lock = .packets ∧
      (∀ operation ∈ besidePackets, operation.Spares .clientToServer .packets) ∧
      kept.lock = .packets ∧
      kept.get .packets = panel.get .packets ∧
      (session.changeDial .clientToServer .packets 100 0).1.linkage.panel .clientToServer =
        (session.changeDial .clientToServer .packets 1200 1).1.linkage.panel .clientToServer := by
  have locked : (((start "" 0).run [.setLock .clientToServer .packets]).linkage.panel
      .clientToServer).lock = .packets := by decide +kernel
  have kept := lock_of_run "" 0 [.setLock .clientToServer .packets] .clientToServer
  dsimp only at kept ⊢
  rw [locked, Lock.dial] at kept
  obtain ⟨spares, -, independent⟩ := kept
  obtain ⟨lock, shown⟩ := spares besidePackets spares_besidePackets
  exact ⟨locked, spares_besidePackets, lock, shown,
    independent 100 1200 0 1 (by decide +kernel) (by decide +kernel)⟩

end Session
end NetworkConsole
