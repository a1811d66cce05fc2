/-
`backend/app/runtime/boundary_engine.py`: every active boundary is evaluated, and
the effect of the most severe triggered one is applied.

`sort(key=..., reverse=True)` is stable, so among boundaries of equal severity
the one declared first stays in front. `List.insertionSort` is stable as well,
and there is only one stable sorting of a list. The wall-clock field of a
boundary record is left out: no function reads it.
-/
import DecisionRuntime.ConditionEvaluator
import DecisionRuntime.Exec
import Mathlib.Data.List.Sort

set_option autoImplicit false

namespace DecisionRuntime.BoundaryEngine

open DecisionRuntime.ConditionEvaluator

/-- `SEVERITY_ORDER.get(severity, 0)`. -/
def severity_order (severity : String) : ℕ :=
  if severity = "critical" then 4
  else if severity = "high" then 3
  else if severity = "medium" then 2
  else if severity = "low" then 1
  else 0

/-- `value or default`: the default for a missing or an empty string. -/
def or_default (value : Option String) (default : String) : String :=
  match value with
  | some s => if s = "" then default else s
  | none => default

/-- The record of one boundary whose condition evaluated to `triggered`. -/
def boundary_result (node : DecisionNode) (triggered : Bool) : BoundaryResult :=
  let effect := or_default node.effect "allow"
  { boundary_id := node.id
    triggered := triggered
    severity := or_default node.severity "low"
    effect := effect
    action := node.action
    reason :=
      if triggered then "Boundary '" ++ node.id ++ "' triggered with effect '" ++ effect ++ "'"
      else "Boundary '" ++ node.id ++ "' condition not met" }

/-- `_apply_effect`. -/
def apply_effect (result : DecisionResult) (boundary : BoundaryResult) : DecisionResult :=
  if boundary.effect = "allow" then result
  -- the only effect that drops the action
  else if boundary.effect = "block" then { result with status := .blocked, action := none }
  else if boundary.effect = "override" then
    { result with action := boundary.action, selected_node_id := boundary.boundary_id }
  -- the action is kept for the human to approve
  else if boundary.effect = "escalate" then
    { result with status := .pending_human, selected_node_id := boundary.boundary_id }
  else if boundary.effect = "redirect" then
    { result with action := boundary.action, selected_node_id := boundary.boundary_id }
  else result

/-- The active boundary nodes, in declaration order. -/
def boundary_nodes (flow : DecisionFlow) : List DecisionNode :=
  flow.nodes.filter (fun n => n.node_type = .boundary ∧ n.is_active)

theorem mem_boundary_nodes {flow : DecisionFlow} {n : DecisionNode} :
    n ∈ boundary_nodes flow ↔ n ∈ flow.nodes ∧ n.node_type = .boundary ∧ n.is_active := by
  simp only [boundary_nodes, List.mem_filter, decide_eq_true_eq]

/-- Step 1 of `apply`: every active boundary is evaluated. -/
def evaluate_boundaries (P : Platform) (ctx : PyDict) :
    List DecisionNode → Except PyError (List BoundaryResult)
  | [] => .ok []
  | node :: nodes => do
    let triggered ← evaluate P node.condition ctx
    let rest ← evaluate_boundaries P ctx nodes
    return boundary_result node triggered :: rest

/-- Steps 2 and 3 of `apply`: the first of the triggered boundaries, most severe first. -/
def dominant (all_results : List BoundaryResult) : Option BoundaryResult :=
  ((all_results.filter (·.triggered)).insertionSort
    (fun a b => severity_order b.severity ≤ severity_order a.severity)).head?

/-- Step 4 of `apply`: the effect of the dominant boundary, if any triggered. -/
def apply_dominant (result : DecisionResult) (all_results : List BoundaryResult) :
    DecisionResult :=
  match dominant all_results with
  -- nothing triggered: the records are attached all the same
  | none => { result with boundary_results := all_results }
  | some boundary => { apply_effect result boundary with boundary_results := all_results }

/-- `BoundaryEngine.apply`. -/
def apply (P : Platform) (signal : Signal) (flow : DecisionFlow) (result : DecisionResult) :
    Except PyError (DecisionResult × List BoundaryResult) := do
  let all_results ← evaluate_boundaries P (build_context signal) (boundary_nodes flow)
  return (apply_dominant result all_results, all_results)

/-- The action after the boundary took effect. -/
def action_after (boundary : BoundaryResult) (action : Option PyDict) : Option PyDict :=
  if boundary.effect = "block" then none
  else if boundary.effect = "override" ∨ boundary.effect = "redirect" then boundary.action
  else action

/-! ## What a boundary can change -/

section Frame

variable (result : DecisionResult) (boundary : BoundaryResult) (all_results : List BoundaryResult)

/-- An effect touches the status, the action and the selected node. -/
theorem apply_effect_eq : ∃ status action selected,
    apply_effect result boundary = { result with
      status := status, action := action, selected_node_id := selected } := by
  unfold apply_effect
  split_ifs <;> exact ⟨_, _, _, rfl⟩

/-- The dominant boundary touches those three fields, and the records are stored. -/
theorem apply_dominant_eq : ∃ status action selected,
    apply_dominant result all_results = { result with
      status := status, action := action, selected_node_id := selected,
      boundary_results := all_results } := by
  rw [apply_dominant]
  rcases dominant all_results with _ | boundary
  · exact ⟨_, _, _, rfl⟩
  · obtain ⟨status, action, selected, h⟩ := apply_effect_eq result boundary
    refine ⟨status, action, selected, ?_⟩
    simp only [h]

theorem apply_dominant_none {all_results : List BoundaryResult}
    (h : dominant all_results = none) :
    apply_dominant result all_results = { result with boundary_results := all_results } := by
  rw [apply_dominant, h]

theorem apply_dominant_some {all_results : List BoundaryResult} {boundary : BoundaryResult}
    (h : dominant all_results = some boundary) : apply_dominant result all_results
      = { apply_effect result boundary with boundary_results := all_results } := by
  rw [apply_dominant, h]

/-- Two of the five effects touch the status. -/
theorem apply_effect_status_eq : (apply_effect result boundary).status =
    if boundary.effect = "block" then .blocked
    else if boundary.effect = "escalate" then .pending_human
    else result.status := by
  unfold apply_effect
  by_cases hallow : boundary.effect = "allow"
  · simp [hallow]
  by_cases hblock : boundary.effect = "block"
  · simp [hblock]
  by_cases hoverride : boundary.effect = "override"
  · simp [hoverride]
  by_cases hescalate : boundary.effect = "escalate"
  · simp [hescalate]
  split_ifs <;> rfl

/-- Three of them touch the action. -/
theorem apply_effect_action :
    (apply_effect result boundary).action = action_after boundary result.action := by
  unfold apply_effect action_after
  by_cases hallow : boundary.effect = "allow"
  · simp [hallow]
  by_cases hblock : boundary.effect = "block"
  · simp [hblock]
  by_cases hoverride : boundary.effect = "override"
  · simp [hoverride]
  by_cases hescalate : boundary.effect = "escalate"
  · simp [hescalate]
  by_cases hredirect : boundary.effect = "redirect"
  · simp [hredirect]
  simp [hallow, hblock, hoverride, hescalate, hredirect]

/-- Boundaries set no other status than `blocked` and `pending_human`. -/
theorem apply_effect_status :
    (apply_effect result boundary).status = result.status
      ∨ (apply_effect result boundary).status = .blocked
      ∨ (apply_effect result boundary).status = .pending_human := by
  unfold apply_effect
  split_ifs <;> simp

theorem apply_dominant_status :
    (apply_dominant result all_results).status = result.status
      ∨ (apply_dominant result all_results).status = .blocked
      ∨ (apply_dominant result all_results).status = .pending_human := by
  rw [apply_dominant]
  rcases dominant all_results with _ | boundary
  · exact Or.inl rfl
  · exact apply_effect_status result boundary

/-- The records of the boundary nodes name them, in order. -/
theorem evaluate_boundaries_ids {P : Platform} {ctx : PyDict} {nodes : List DecisionNode}
    {rs : List BoundaryResult} (h : evaluate_boundaries P ctx nodes = .ok rs) :
    rs.map (·.boundary_id) = nodes.map (·.id) := by
  induction nodes generalizing rs with
  | nil =>
      simp only [evaluate_boundaries, Except.ok.injEq] at h
      rw [← h]
      rfl
  | cons node nodes ih =>
      rw [evaluate_boundaries, except_bind_eq_ok] at h
      obtain ⟨triggered, -, h⟩ := h
      rw [except_bind_eq_ok] at h
      obtain ⟨rest, hrest, h⟩ := h
      have hrs : boundary_result node triggered :: rest = rs := Except.ok.inj h
      rw [← hrs, List.map_cons, List.map_cons, ih hrest]
      rfl

end Frame

end DecisionRuntime.BoundaryEngine
