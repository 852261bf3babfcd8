import Mathlib.Data.List.Induction
import NetworkConsole.Proofs.Node.Selection

/-!
# Histories of a selection

A selection is reached from the empty one by loading catalogs and choosing nodes. Which node is
chosen for an application follows from that history: the index is that of the newest choice
that was not refused, back to the step that loaded the role's catalog. As all applications
share the index, it may lie past the end of a list, and then the first node is chosen.
-/

namespace NetworkConsole
namespace Selection

/-! ## Choices -/

/-- The nodes on offer, none where there is no list. -/
def listed (selection : Selection) (role : Role) (app : App) : List Node :=
  match selection.options role app with
  | .ok nodes => nodes
  | .error _ => []

/-- The node at an index of a list, or the first node where the list is shorter. -/
def nodeAt? (nodes : List Node) (index : Nat) : Option Node :=
  if index < nodes.length then nodes[index]? else nodes[0]?

theorem listed_of_options
    {selection : Selection}
    {role : Role}
    {app : App}
    {nodes : List Node}
    (offered : selection.options role app = .ok nodes) :
    selection.listed role app = nodes := by
  rw [listed, offered]

theorem offers_iff (selection : Selection) (role : Role) (app : App) :
    selection.Offers role app ↔ selection.listed role app ≠ [] := by
  unfold Offers listed
  cases selection.options role app <;> simp

theorem nodeAt?_eq (nodes : List Node) (index : Nat) :
    nodeAt? nodes index = nodes[index]?.or nodes.head? := by
  unfold nodeAt?
  split_ifs with inside
  · rw [List.getElem?_eq_getElem inside, Option.some_or]
  · rw [List.getElem?_eq_none (Nat.le_of_not_lt inside), Option.none_or, List.head?_eq_getElem?]

theorem selected_eq_ok_iff
    (selection : Selection)
    (role : Role)
    (app : App)
    (node : Node) :
    selection.selected role app = .ok node ↔
      nodeAt? (selection.listed role app) (selection.get role).index = some node := by
  simp only [nodeAt?_eq, selected, listed]
  cases selection.options role app with
  | error error => simp [bind, Except.bind]
  | ok nodes =>
      simp only [bind, Except.bind]
      cases nodes[(selection.get role).index]?.or nodes.head? <;> simp

section

variable (selection later : Selection) (role : Role) (app : App) (node : Node)

/-- An index is refused exactly if no node on offer stands there. -/
theorem select_eq_ok_iff (index : Nat) :
    selection.select role app index = .ok (later, node) ↔
      (selection.listed role app)[index]? = some node ∧
        later = selection.set role { selection.get role with index } := by
  unfold select listed
  cases selection.options role app with
  | error error => simp [bind, Except.bind]
  | ok nodes =>
      simp only [bind, Except.bind]
      cases nodes[index]? with
      | none => simp
      | some other =>
          simp only [Except.ok.injEq, Prod.mk.injEq, Option.some.injEq]
          exact ⟨fun ⟨set, same⟩ => ⟨same, set.symm⟩, fun ⟨same, set⟩ => ⟨set.symm, same⟩⟩

/-- A name is refused exactly if no node on offer has it. Else the first one with it is
chosen. -/
theorem selectNamed_eq_ok_iff (name : String) :
    selection.selectNamed role app name = .ok (later, node) ↔
      ∃ index, (selection.listed role app).findIdx? (·.name = name) = some index ∧
        (selection.listed role app)[index]? = some node ∧
        later = selection.set role { selection.get role with index } := by
  unfold selectNamed
  cases offered : selection.options role app with
  | error error => simp [listed, offered, bind, Except.bind]
  | ok nodes =>
      simp only [bind, Except.bind, listed_of_options offered]
      cases nodes.findIdx? (·.name = name) with
      | none => simp
      | some index => simp [select_eq_ok_iff, listed_of_options offered]

end

/-! ## Operations -/

/-- What can be asked of a selection. -/
inductive Operation
  | load (role : Role) (catalog : Catalog)
  | choose (role : Role) (app : App) (index : Nat)
  | chooseNamed (role : Role) (app : App) (name : String)

namespace Operation

/-- The role that an operation is about. -/
def role : Operation → Role
  | load role _ => role
  | choose role _ _ => role
  | chooseNamed role _ _ => role

/-- Whether an operation loads the catalog of a role. -/
def loads (role : Role) : Operation → Bool
  | load other _ => other = role
  | _ => false

end Operation

/-- Try an operation, which may be refused. -/
def attempt (selection : Selection) : Operation → Except ConsoleError Selection
  | .load role catalog => .ok (selection.setCatalog role catalog)
  | .choose role app index => (selection.select role app index).map Prod.fst
  | .chooseNamed role app name => (selection.selectNamed role app name).map Prod.fst

/-- Carry out an operation. A refused one changes nothing. -/
def apply (selection : Selection) (operation : Operation) : Selection :=
  match selection.attempt operation with
  | .ok later => later
  | .error _ => selection

/-- Carry out operations one after another. -/
def run (selection : Selection) (operations : List Operation) : Selection :=
  operations.foldl apply selection

/-- The index that an operation chooses for a role, unless it is refused. -/
def choice? (role : Role) (selection : Selection) : Operation → Option Nat
  | .load _ _ => none
  | .choose other app index =>
      if other = role ∧ index < (selection.listed role app).length then some index else none
  | .chooseNamed other app name =>
      if other = role then (selection.listed role app).findIdx? (·.name = name) else none

/-- A choice is refused where it chooses no index. -/
theorem attempt_eq_ok_iff
    {selection later : Selection}
    (operation : Operation)
    (noLoad : operation.loads operation.role = false) :
    selection.attempt operation = .ok later ↔
      ∃ index, choice? operation.role selection operation = some index ∧
        later = selection.set operation.role { selection.get operation.role with index } := by
  cases operation with
  | load => simp [Operation.loads, Operation.role] at noLoad
  | choose role app index =>
      simp only [attempt, map_eq_ok_iff, Prod.exists, select_eq_ok_iff, choice?, Operation.role,
        true_and]
      constructor
      · rintro ⟨_, node, ⟨present, rfl⟩, rfl⟩
        exact ⟨index, if_pos (List.getElem?_eq_some_iff.mp present).1, rfl⟩
      · rintro ⟨chosen, isChosen, rfl⟩
        split_ifs at isChosen with inside
        cases isChosen
        exact ⟨_, _, ⟨List.getElem?_eq_getElem inside, rfl⟩, rfl⟩
  | chooseNamed role app name =>
      simp only [attempt, map_eq_ok_iff, Prod.exists, selectNamed_eq_ok_iff, choice?,
        Operation.role, if_true]
      constructor
      · rintro ⟨_, node, ⟨index, found, -, rfl⟩, rfl⟩
        exact ⟨index, found, rfl⟩
      · rintro ⟨index, found, rfl⟩
        have inside := (List.findIdx?_eq_some_iff_getElem.mp found).1
        exact ⟨_, _, ⟨index, found, List.getElem?_eq_getElem inside, rfl⟩, rfl⟩

/-- A choice sets the index of its role and nothing else. -/
theorem apply_of_choice
    (selection : Selection)
    {operation : Operation}
    (noLoad : operation.loads operation.role = false) :
    selection.apply operation =
      match choice? operation.role selection operation with
      | some index =>
          selection.set operation.role { selection.get operation.role with index }
      | none => selection := by
  cases chosen : choice? operation.role selection operation with
  | some index =>
      have accepted := (attempt_eq_ok_iff _ noLoad).mpr ⟨index, chosen, rfl⟩
      rw [apply, accepted]
  | none =>
      cases attempted : selection.attempt operation with
      | error error => rw [apply, attempted]
      | ok later =>
          obtain ⟨index, isChosen, -⟩ := (attempt_eq_ok_iff _ noLoad).mp attempted
          cases chosen.symm.trans isChosen

/-- An operation on one role keeps the other. -/
theorem get_apply_of_ne
    (selection : Selection)
    {operation : Operation}
    {other : Role}
    (different : other ≠ operation.role) :
    (selection.apply operation).get other = selection.get other := by
  cases loads : operation.loads operation.role with
  | true =>
      cases operation with
      | load role catalog => exact get_set_of_ne selection different _
      | _ => cases loads
  | false =>
      rw [apply_of_choice selection loads]
      cases choice? operation.role selection operation with
      | some index => exact get_set_of_ne selection different _
      | none => rfl

/-- A catalog resets the index of its role, and a choice that is not refused sets it. -/
theorem index_apply (selection : Selection) (operation : Operation) (role : Role) :
    ((selection.apply operation).get role).index =
      if operation.loads role = true then 0
      else (choice? role selection operation).getD (selection.get role).index := by
  by_cases own : role = operation.role
  · subst own
    cases loads : operation.loads operation.role with
    | true =>
        cases operation with
        | load role catalog => exact congrArg RoleSelection.index (get_set_same selection role _)
        | _ => cases loads
    | false =>
        rw [apply_of_choice selection loads]
        cases choice? operation.role selection operation with
        | some index => simp
        | none => simp
  · have noLoad : operation.loads role = false := by
      cases operation with
      | load other catalog => exact decide_eq_false (Ne.symm own)
      | _ => rfl
    have noChoice : choice? role selection operation = none := by
      cases operation with
      | load other catalog => rfl
      | choose other app index => exact if_neg fun chosen => own chosen.1.symm
      | chooseNamed other app name => exact if_neg (Ne.symm own)
    rw [get_apply_of_ne selection own, noLoad, noChoice]
    rfl

/-- An operation names a node on offer, if it names one at all. -/
def Accepts (selection : Selection) : Operation → Prop
  | .load _ _ => True
  | .choose role app index =>
      ∃ nodes, selection.options role app = .ok nodes ∧ index < nodes.length
  | .chooseNamed role app name =>
      ∃ nodes, selection.options role app = .ok nodes ∧ ∃ node ∈ nodes, node.name = name

theorem exists_options_iff
    (selection : Selection)
    (role : Role)
    (app : App)
    (property : List Node → Prop)
    (notEmpty : ¬ property []) :
    (∃ nodes, selection.options role app = .ok nodes ∧ property nodes) ↔
      property (selection.listed role app) := by
  unfold listed
  cases selection.options role app <;> simp [notEmpty]

theorem exists_attempt_iff (selection : Selection) (operation : Operation) :
    (∃ later, selection.attempt operation = .ok later) ↔ selection.Accepts operation := by
  cases operation with
  | load role catalog => exact iff_of_true ⟨_, rfl⟩ trivial
  | choose role app index =>
      rw [Accepts, exists_options_iff _ _ _ _ (Nat.not_lt_zero index)]
      simp [attempt_eq_ok_iff (.choose role app index) rfl, choice?, Operation.role]
  | chooseNamed role app name =>
      have noneNamed : ¬ ∃ node ∈ ([] : List Node), node.name = name := by simp
      rw [Accepts, exists_options_iff _ _ _ (∃ node ∈ ·, node.name = name) noneNamed]
      simp [attempt_eq_ok_iff (.chooseNamed role app name) rfl, choice?, Operation.role,
        ← Option.isSome_iff_exists, List.findIdx?_isSome]

/-! ## Histories -/

/-- The operations of a run, each with the selection that it met. -/
def history (selection : Selection) : List Operation → List (Selection × Operation)
  | [] => []
  | operation :: later => (selection, operation) :: (selection.apply operation).history later

/-- The index of the newest choice for a role that was not refused, back to the newest catalog
of the role, and zero if there is none. -/
def lastChoice (role : Role) (steps : List (Selection × Operation)) : Nat :=
  let sinceLoad := steps.reverse.takeWhile fun step => !step.2.loads role
  (sinceLoad.findSome? fun step => choice? role step.1 step.2).getD 0

theorem run_concat (selection : Selection) (operations : List Operation) (last : Operation) :
    selection.run (operations ++ [last]) = (selection.run operations).apply last := by
  rw [run, List.foldl_append]
  rfl

theorem history_concat (selection : Selection) (operations : List Operation) (last : Operation) :
    selection.history (operations ++ [last]) =
      selection.history operations ++ [(selection.run operations, last)] := by
  induction operations generalizing selection with
  | nil => rfl
  | cons operation later inductionHypothesis =>
      rw [List.cons_append, history, inductionHypothesis, history, List.cons_append]
      rfl

theorem lastChoice_concat
    (role : Role)
    (steps : List (Selection × Operation))
    (selection : Selection)
    (operation : Operation) :
    lastChoice role (steps ++ [(selection, operation)]) =
      if operation.loads role = true then 0
      else (choice? role selection operation).getD (lastChoice role steps) := by
  unfold lastChoice
  cases loads : operation.loads role with
  | true => simp [loads]
  | false => cases chosen : choice? role selection operation <;> simp [loads, chosen]

/-- The chosen index of a role is that of the last choice. -/
theorem index_run (operations : List Operation) (role : Role) :
    ((empty.run operations).get role).index = lastChoice role (empty.history operations) := by
  induction operations using List.reverseRecOn with
  | nil => cases role <;> rfl
  | append_singleton operations last inductionHypothesis =>
      rw [run_concat, history_concat, lastChoice_concat, index_apply, inductionHypothesis]

/-- After any operations a role has a node chosen exactly where it is offered one: the node at
the index of its last choice that was not refused since its catalog was loaded, or the first
one if its list is shorter than that. An operation is refused only where it names no node on
offer, and then changes nothing; operations on one role never affect the other role; and a
choice by name gives the first node that has it. -/
theorem selected_of_run (operations : List Operation) :
    let selection := empty.run operations
    (∀ role app,
      let index := lastChoice role (empty.history operations)
      ((∃ node, selection.selected role app = .ok node) ↔
        ∃ nodes, selection.options role app = .ok nodes ∧ nodes ≠ []) ∧
      ∀ nodes node, selection.options role app = .ok nodes →
        (selection.selected role app = .ok node ↔
          (if index < nodes.length then nodes[index]? else nodes[0]?) = some node)) ∧
    (∀ operation,
      ((∃ later, selection.attempt operation = .ok later) ↔ selection.Accepts operation) ∧
      (¬ selection.Accepts operation → selection.apply operation = selection) ∧
      ∀ other, other ≠ operation.role → ∀ app,
        (selection.apply operation).options other app = selection.options other app ∧
          (selection.apply operation).selected other app = selection.selected other app) ∧
    ∀ role app name later node, selection.selectNamed role app name = .ok (later, node) →
      ∃ nodes, selection.options role app = .ok nodes ∧
        nodes.find? (·.name = name) = some node := by
  intro selection
  refine ⟨fun role app => ⟨⟨?_, Offers.exists_selected⟩, ?_⟩, fun operation => ⟨?_, ?_, ?_⟩, ?_⟩
  · rintro ⟨node, chosen⟩
    rw [selected_eq_ok_iff] at chosen
    refine (offers_iff selection role app).mpr fun noNode => ?_
    rw [noNode] at chosen
    cases chosen
  · intro nodes node offered
    rw [selected_eq_ok_iff, listed_of_options offered, index_run]
    rfl
  · exact selection.exists_attempt_iff operation
  · intro refused
    cases attempted : selection.attempt operation with
    | error error => rw [apply, attempted]
    | ok later =>
        exact absurd ((selection.exists_attempt_iff operation).mp ⟨later, attempted⟩) refused
  · intro other different app
    have same := get_apply_of_ne selection different
    exact ⟨by rw [options, same]; rfl, selected_congr same app⟩
  · intro role app name later node chosen
    obtain ⟨nodes, offered, -⟩ := exists_of_bind_eq_ok chosen
    obtain ⟨index, found, present, -⟩ := (selectNamed_eq_ok_iff _ _ _ _ _ _).mp chosen
    rw [listed_of_options offered] at found present
    refine ⟨nodes, offered, ?_⟩
    rw [List.find?_eq_bind_findIdx?_getElem?, found]
    exact present

/-- The second server of one application is the first of another that is offered one only. -/
theorem selected_past_shorterList :
    let near : Node := ⟨"near", "1-ff00:0:112", "127.0.0.2", 30100⟩
    let far : Node := ⟨"far", "1-ff00:0:113", "127.0.0.3", 30100⟩
    let camera : Node := ⟨"camera", "1-ff00:0:112", "127.0.0.2", 42002⟩
    let catalog : Catalog := ⟨[("bwtester", [near, far]), ("camerapp", [camera])]⟩
    let operations := [.load .server catalog, .chooseNamed .server .bandwidth "far"]
    let selection := empty.run operations
    lastChoice .server (empty.history operations) = 1 ∧
      selection.options .server .bandwidth = .ok [near, far] ∧
      selection.selected .server .bandwidth = .ok far ∧
      selection.options .server .camera = .ok [camera] ∧
      selection.selected .server .camera = .ok camera := by
  intro near far camera catalog operations selection
  have index : lastChoice .server (empty.history operations) = 1 := by decide +kernel
  have bandwidth : selection.options .server .bandwidth = .ok [near, far] := rfl
  have onlyCamera : selection.options .server .camera = .ok [camera] := rfl
  obtain ⟨chosen, -⟩ := selected_of_run operations
  refine ⟨index, bandwidth, ?_, onlyCamera, ?_⟩
  · rw [(chosen .server .bandwidth).2 _ far bandwidth, index]
    rfl
  · rw [(chosen .server .camera).2 _ camera onlyCamera, index]
    rfl

end Selection
end NetworkConsole
