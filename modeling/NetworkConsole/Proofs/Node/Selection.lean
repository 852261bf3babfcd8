import NetworkConsole.Node.Selection

/-!
# Chosen nodes

The client that is chosen does not depend on the application, and choosing a server leaves
the choice of the client as it is. A role that is offered a node has one chosen.
-/

namespace NetworkConsole

/-- Steps that may fail succeed one after the other. -/
theorem exists_of_bind_eq_ok
    {first : Except ε α}
    {next : α → Except ε β}
    {result : β}
    (succeeded : first >>= next = .ok result) :
    ∃ value, first = .ok value ∧ next value = .ok result := by
  cases first with
  | error error => cases succeeded
  | ok value => exact ⟨value, rfl, succeeded⟩

theorem map_eq_ok_iff {first : Except ε α} {function : α → β} {result : β} :
    first.map function = .ok result ↔ ∃ value, first = .ok value ∧ function value = result := by
  cases first <;> simp [Except.map]

namespace Selection

variable {selection : Selection}

/-! ## The chosen node -/

/-- A role is offered at least one node for an application. -/
def Offers (selection : Selection) (role : Role) (app : App) : Prop :=
  ∃ nodes, selection.options role app = .ok nodes ∧ nodes ≠ []

/-- Where no node is at the chosen index, the first one stands for it. -/
theorem Offers.exists_selected
    {role : Role}
    {app : App}
    (offers : selection.Offers role app) :
    ∃ node, selection.selected role app = .ok node := by
  obtain ⟨nodes, listed, nonempty⟩ := offers
  obtain ⟨first, rest, rfl⟩ := List.exists_cons_of_ne_nil nonempty
  simp only [selected, listed, bind, Except.bind, List.head?_cons]
  cases (first :: rest)[(selection.get role).index]? with
  | none => exact ⟨first, rfl⟩
  | some node => exact ⟨node, rfl⟩

/-- The chosen node of a role depends on no more than the role's selection. -/
theorem selected_congr
    {first second : Selection}
    {role : Role}
    (same : first.get role = second.get role)
    (app : App) :
    first.selected role app = second.selected role app := by
  simp only [selected, options, same]

/-- All applications share the chosen client. -/
theorem selected_client_of_selected
    {app : App}
    {client : Node}
    (chosen : selection.selected .client app = .ok client)
    (other : App) :
    selection.selected .client other = .ok client := by
  obtain ⟨nodes, listed, found⟩ := exists_of_bind_eq_ok chosen
  have relisted : selection.options .client other = .ok nodes := listed
  simp only [selected, relisted, bind, Except.bind]
  split at found
  · exact found
  · cases found

/-! ## Choosing a node -/

/-- A node that is chosen by its index is the chosen one, and the other role keeps its own. -/
theorem selected_of_select
    {role : Role}
    {app : App}
    {index : Nat}
    {later : Selection}
    {node : Node}
    (chosen : selection.select role app index = .ok (later, node)) :
    later.selected role app = .ok node ∧
      ∀ other, other ≠ role → later.get other = selection.get other := by
  obtain ⟨nodes, listed, found⟩ := exists_of_bind_eq_ok chosen
  split at found
  · rename_i present
    cases found
    have relisted : (selection.set role { selection.get role with index }).options role app =
        .ok nodes := by
      rw [← listed]
      simp only [options, get_set_same]
    constructor
    · simp [selected, relisted, bind, Except.bind, present]
    · intro other different
      exact get_set_of_ne selection different _
  · cases found

theorem selected_of_selectNamed
    {role : Role}
    {app : App}
    {name : String}
    {later : Selection}
    {node : Node}
    (chosen : selection.selectNamed role app name = .ok (later, node)) :
    later.selected role app = .ok node ∧
      ∀ other, other ≠ role → later.get other = selection.get other := by
  obtain ⟨nodes, -, found⟩ := exists_of_bind_eq_ok chosen
  split at found
  · exact selected_of_select found
  · cases found

end Selection
end NetworkConsole
