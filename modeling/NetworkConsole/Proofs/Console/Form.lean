import NetworkConsole.Proofs.Console.Dials
import NetworkConsole.Proofs.Dial.Rate
import NetworkConsole.Proofs.Node.Selection

/-!
# Forms of commands

A form is made of the chosen nodes, the options and, for the bandwidth test, the dials of
both directions. It stays the same as long as these and the tab do.
-/

namespace NetworkConsole
namespace Session

/-! ## Setups -/

/-- Two sessions show the same nodes and the same tab. -/
structure SameChoices (first second : Session) : Prop where
  selection : first.selection = second.selection
  activeApp : first.activeApp = second.activeApp

/-- Two sessions agree in all that their forms are made of. -/
structure SameSetup (first second : Session) : Prop extends SameChoices first second where
  linkage : first.linkage = second.linkage
  additionalOptions : first.additionalOptions = second.additionalOptions

theorem SameChoices.trans {first second third : Session}
    (left : SameChoices first second)
    (right : SameChoices second third) :
    SameChoices first third :=
  ⟨left.selection.trans right.selection, left.activeApp.trans right.activeApp⟩

namespace SameSetup

theorem refl (session : Session) : SameSetup session session := ⟨⟨rfl, rfl⟩, rfl, rfl⟩

theorem trans {first second third : Session}
    (left : SameSetup first second)
    (right : SameSetup second third) :
    SameSetup first third :=
  ⟨left.toSameChoices.trans right.toSameChoices, left.linkage.trans right.linkage,
    left.additionalOptions.trans right.additionalOptions⟩

theorem form_eq {first second : Session} (same : SameSetup first second) :
    first.form = second.form := by
  simp only [form, same.linkage, same.selection, same.additionalOptions, same.activeApp]

end SameSetup

/-- A form can be made where both roles are offered a node. -/
theorem exists_form_eq
    {session : Session}
    (offers : ∀ role, session.selection.Offers role session.activeApp) :
    ∃ form, session.form = .ok form := by
  obtain ⟨client, clientChosen⟩ := (offers .client).exists_selected
  obtain ⟨server, serverChosen⟩ := (offers .server).exists_selected
  simp only [form, Selection.formFields, clientChosen, serverChosen, bind, Except.bind]
  exact ⟨_, rfl⟩

/-- The form of a bandwidth test holds the test argument of each direction. -/
theorem lookup_form
    {session : Session}
    {form : Form}
    (formed : session.form = .ok form)
    (active : session.activeApp = .bandwidth)
    (direction : Direction) :
    form.lookup ("bw_" ++ direction.tag) =
      some ((session.linkage.panel direction).testArgument direction) := by
  obtain ⟨clientFields, clientFormed, rest⟩ := exists_of_bind_eq_ok formed
  obtain ⟨serverFields, serverFormed, made⟩ := exists_of_bind_eq_ok rest
  obtain ⟨client, -, clientMade⟩ := exists_of_bind_eq_ok clientFormed
  obtain ⟨server, -, serverMade⟩ := exists_of_bind_eq_ok serverFormed
  simp only [active, if_pos] at made
  cases clientMade
  cases serverMade
  cases made
  cases direction <;> rfl

/-! ## Test arguments -/

/-- After any operations, as long as the panels that are loaded come from typed parameters,
the durations, sizes and counts that are sent are the natural numbers that the dials show,
and the rate is the whole quotient of the bits by the duration. -/
theorem testArgument_of_run
    (additionalOptions : String)
    (now : Int)
    {operations : List Operation}
    (typed : LoadsParameters operations)
    (direction : Direction) :
    let panel := ((start additionalOptions now).run operations).linkage.panel direction
    ∃ seconds size packets : ℕ,
      panel.get .seconds = Float.ofNat seconds ∧ panel.get .size = Float.ofNat size ∧
      panel.get .packets = Float.ofNat packets ∧
      panel.testArgument direction =
        direction.flag ++ "=" ++ toString seconds ++ "," ++ toString size ++ "," ++
          toString packets ++ "," ++ toString (packets * size * 8 / seconds) ++ "bps" :=
  Panel.exists_testArgument_eq (onScale_panel_run additionalOptions now typed direction) direction

theorem testArgument_after_loadAndEdit :
    let panel := ((start "" 0).run loadAndEdit).linkage.panel .serverToClient
    LoadsParameters loadAndEdit ∧
      ∃ seconds size packets : ℕ,
        panel.get .seconds = Float.ofNat seconds ∧ panel.get .size = Float.ofNat size ∧
        panel.get .packets = Float.ofNat packets ∧
        panel.testArgument .serverToClient =
          "-sc" ++ "=" ++ toString seconds ++ "," ++ toString size ++ "," ++
            toString packets ++ "," ++ toString (packets * size * 8 / seconds) ++ "bps" :=
  ⟨loadsParameters_loadAndEdit,
    testArgument_of_run "" 0 loadsParameters_loadAndEdit .serverToClient⟩

end Session
end NetworkConsole
