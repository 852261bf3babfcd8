import NetworkConsole.Proofs.Console.Operation
import NetworkConsole.Proofs.Dial.Edit

/-!
# Dials of a session

Between operations the linkage of a session is idle, so an edit is always taken as one.
The panels of both directions stay consistent and on their scales, whatever is asked of
the session, as long as the panels that are loaded come from typed parameters.
-/

namespace NetworkConsole
namespace Session

/-! ## Idle sessions -/

theorem idle_apply {session : Session} (idle : session.linkage.Idle) (operation : Operation) :
    (session.apply operation).linkage.Idle := by
  rw [linkage_apply]
  cases operation with
  | changeDial direction dial value now =>
      obtain ⟨edited, -, -, settled, -⟩ := idle.change direction dial value
      dsimp only
      rwa [edited]
  | setLock direction lock => exact idle.of_eq rfl rfl
  | loadPanel direction panel =>
      dsimp only
      split
      · exact idle.of_eq rfl rfl
      · exact idle
  | reset => exact idle.of_eq rfl rfl
  | _ => exact idle

theorem idle_run (additionalOptions : String) (now : Int) (operations : List Operation) :
    ((start additionalOptions now).run operations).linkage.Idle := by
  apply run_invariant fun session => session.linkage.Idle
  · rw [linkage_start]
    exact Linkage.idle_initial
  · intro session operation member idle
    exact idle_apply idle operation

theorem history_post_foldl
    (notices : List RangeNotice)
    (session : Session)
    (now : Int) :
    (notices.foldl (fun session notice => session.post notice.text now) session).notices.history =
      session.notices.history ++ notices.map (·.text) := by
  induction notices generalizing session with
  | nil => simp
  | cons notice later inductionHypothesis =>
      rw [List.foldl_cons, inductionHypothesis, List.map_cons]
      simp [post, NoticeBoard.post]

@[simp] theorem notices_refreshInterval (session : Session) :
    session.refreshInterval.notices = session.notices := by
  unfold refreshInterval
  split <;> rfl

/-- An edit of a dial puts up the notices of its reports in their order. -/
theorem history_changeDial
    (session : Session)
    (direction : Direction)
    (dial : Dial)
    (value : Float)
    (now : Int) :
    (session.changeDial direction dial value now).1.notices.history =
      session.notices.history ++
        ((session.changeDial direction dial value now).2.flatMap (·.notices)).map (·.text) := by
  unfold changeDial
  dsimp only
  split
  · rw [notices_refreshInterval, history_post_foldl]
  · rw [history_post_foldl]

/-- After any operations no write is queued and no flag is armed. An edit of a dial is
then never swallowed: it is reported first, followed by one or two swallowed writes
without notices, and the history grows by the texts of the edit's own notices. -/
theorem changeDial_of_run
    (additionalOptions : String)
    (start : Int)
    (operations : List Operation) :
    let session := (Session.start additionalOptions start).run operations
    session.linkage.queue = [] ∧
      (∀ direction dial, session.linkage.isArmed direction dial = false) ∧
      ∀ direction dial value now,
        ∃ first deliveries,
          (session.changeDial direction dial value now).2 = first :: deliveries ∧
          first.outcome ≠ .suppressed ∧
          (deliveries.length = 1 ∨ deliveries.length = 2) ∧
          (∀ delivery ∈ deliveries, delivery.outcome = .suppressed ∧ delivery.notices = []) ∧
          (session.changeDial direction dial value now).1.notices.history =
            session.notices.history ++ first.notices.map (·.text) := by
  intro session
  have idle : session.linkage.Idle := idle_run additionalOptions start operations
  refine ⟨idle.empty, idle.disarmed, ?_⟩
  intro direction dial value now
  obtain ⟨edited, unswallowed, -, -, count, few, swallowed⟩ := idle.change direction dial value
  have reports : (session.changeDial direction dial value now).2 =
      (session.linkage.edit direction dial value).2 :: List.replicate count ⟨.suppressed, []⟩ := by
    rw [← swallowed, ← edited]
    rfl
  refine ⟨_, _, reports, unswallowed, ?_, ?_, ?_⟩
  · rwa [List.length_replicate]
  · intro delivery member
    rw [List.eq_of_mem_replicate member]
    exact ⟨rfl, rfl⟩
  · rw [history_changeDial, reports]
    simp

/-! ## Panels -/

/-- Every panel that is loaded is built from typed parameters. -/
def LoadsParameters (operations : List Operation) : Prop :=
  ∀ direction panel, .loadPanel direction panel ∈ operations →
    ∃ parameters, panel = .ofParameters parameters

/-- A loaded panel and an edit below the least bandwidth. -/
def loadAndEdit : List Operation :=
  [.loadPanel .serverToClient (.ofParameters ⟨3, 1000, 30⟩),
    .changeDial .serverToClient .bandwidth 0 0]

theorem loadsParameters_loadAndEdit : LoadsParameters loadAndEdit := by
  intro direction panel member
  simp only [loadAndEdit, List.mem_cons, Operation.loadPanel.injEq, reduceCtorEq,
    List.not_mem_nil, or_false] at member
  exact ⟨_, member.2⟩

/-- A property of panels that edits and locks keep holds of both panels after any
operations, if it holds of the first panel and of those that are loaded. -/
theorem panel_run
    (Property : Panel → Prop)
    (initially : Property .initial)
    (edited : ∀ panel dial later, panel.Edited dial later → Property panel → Property later)
    (locked : ∀ panel lock, Property panel → Property { panel with lock })
    {operations : List Operation}
    (loaded : ∀ direction panel, .loadPanel direction panel ∈ operations →
      panel.checkRanges = .ok () → Property panel)
    (additionalOptions : String)
    (now : Int)
    (direction : Direction) :
    Property (((start additionalOptions now).run operations).linkage.panel direction) := by
  have invariant : ((start additionalOptions now).run operations).linkage.Idle ∧
      ∀ direction,
        Property (((start additionalOptions now).run operations).linkage.panel direction) := by
    apply run_invariant fun session => session.linkage.Idle ∧
      ∀ direction, Property (session.linkage.panel direction)
    · rw [linkage_start]
      constructor
      · exact Linkage.idle_initial
      · intro direction
        rw [Linkage.panel, Linkage.initial, PerDirection.get_both]
        exact initially
    · rintro session operation member ⟨idle, kept⟩
      refine ⟨idle_apply idle operation, ?_⟩
      intro other
      rw [linkage_apply]
      cases operation with
      | changeDial direction dial value now =>
          exact idle.panel_settle_change edited kept direction dial value other
      | setLock direction lock => exact Linkage.panel_setLock locked kept direction lock other
      | loadPanel direction panel =>
          dsimp only
          split
          · rename_i checked
            exact Linkage.panel_load locked kept direction (loaded direction panel member checked)
              other
          · exact kept other
      | reset =>
          exact Linkage.panel_setLock locked
            (Linkage.panel_setLock locked kept .clientToServer .size) .serverToClient .size other
      | _ => exact kept other
  exact invariant.2 direction

theorem onScale_panel_run
    (additionalOptions : String)
    (now : Int)
    {operations : List Operation}
    (typed : LoadsParameters operations)
    (direction : Direction) :
    (((start additionalOptions now).run operations).linkage.panel direction).OnScale := by
  apply panel_run Panel.OnScale Panel.onScale_initial (fun panel dial later edit => edit.onScale)
    (fun panel lock onScale => onScale)
  intro direction panel member checked
  obtain ⟨parameters, rfl⟩ := typed direction panel member
  exact Panel.onScale_ofParameters checked

/-- After any operations, as long as the panels that are loaded come from typed parameters,
every dial of both directions is in its range, durations, sizes and counts are whole, and
the bandwidth is a whole number of hundredths, which the least bandwidth is not. -/
theorem onScale_of_run
    (additionalOptions : String)
    (now : Int)
    {operations : List Operation}
    (typed : LoadsParameters operations)
    (direction : Direction) :
    let panel := ((start additionalOptions now).run operations).linkage.panel direction
    (∀ dial : Dial, dial.accepts (panel.get dial) = true) ∧
      (∀ dial : Dial, dial ≠ .bandwidth → ∃ n : ℕ, panel.get dial = Float.ofNat n) ∧
      (∃ hundredths : ℕ, 1 ≤ hundredths ∧ hundredths ≤ 15000 ∧
        panel.get .bandwidth = Float.ofNat hundredths / 100) ∧
      panel.get .bandwidth ≠ Dial.min .bandwidth := by
  intro panel
  have onScale : panel.OnScale := onScale_panel_run additionalOptions now typed direction
  refine ⟨?_, ?_, (onScale .bandwidth).2, ?_⟩
  · intro dial
    exact (onScale dial).1
  · intro dial whole
    have shown := (onScale dial).2
    cases dial with
    | bandwidth => exact absurd rfl whole
    | _ => exact shown
  · intro least
    exact Dial.not_onScale_min_bandwidth (least ▸ onScale .bandwidth)

theorem onScale_after_loadAndEdit :
    let panel := ((start "" 0).run loadAndEdit).linkage.panel .serverToClient
    LoadsParameters loadAndEdit ∧
      (∀ dial : Dial, dial.accepts (panel.get dial) = true) ∧
      panel.get .bandwidth ≠ Dial.min .bandwidth :=
  have onScale := onScale_of_run "" 0 loadsParameters_loadAndEdit .serverToClient
  ⟨loadsParameters_loadAndEdit, onScale.1, onScale.2.2.2⟩

/-- After any operations, as long as the panels that are loaded come from typed parameters,
some dial of each direction is at the value that follows from the other three. -/
theorem consistent_of_run
    (additionalOptions : String)
    (now : Int)
    {operations : List Operation}
    (typed : LoadsParameters operations)
    (direction : Direction) :
    let panel := ((start additionalOptions now).run operations).linkage.panel direction
    ∃ dial : Dial, panel.get dial = dial.normalize (panel.derive dial) := by
  apply panel_run Panel.Consistent Panel.consistent_initial
    (fun panel dial later edit => edit.consistent) (fun panel lock consistent => consistent)
  intro direction panel member checked
  obtain ⟨parameters, rfl⟩ := typed direction panel member
  exact Panel.consistent_ofParameters parameters

theorem consistent_after_loadAndEdit :
    let panel := ((start "" 0).run loadAndEdit).linkage.panel .serverToClient
    LoadsParameters loadAndEdit ∧
      ∃ dial : Dial, panel.get dial = dial.normalize (panel.derive dial) :=
  ⟨loadsParameters_loadAndEdit,
    consistent_of_run "" 0 loadsParameters_loadAndEdit .serverToClient⟩

end Session
end NetworkConsole
