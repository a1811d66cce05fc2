/-
`DecisionRuntimeEngine._pure_evaluate`: from a signal and a flow to a decision and
the records of the nodes that were looked at.

Nothing here has an effect. What the code draws from outside (two ids and the
time) is `Draws`; everything else is a function of the signal and the flow.

The records come in a fixed order: every active decision node in declaration
order, then the fallback if no decision node matched, then every active boundary
(`node_ids`). Their ids are distinct when those of the flow are
(`nodup_node_ids`).
-/
import DecisionRuntime.BoundaryEngine
import DecisionRuntime.Exec
import DecisionRuntime.FlowValidator

set_option autoImplicit false

namespace DecisionRuntime

/-- What one evaluation draws: `uuid4()` twice and `datetime.now()`. -/
structure Draws where
  trace_id : UUID
  decision_id : UUID
  now : Datetime

namespace PureEvaluate

open ConditionEvaluator BoundaryEngine

/-! ## Decision nodes -/

/-- The active decision nodes, in declaration order. -/
def decision_nodes (flow : DecisionFlow) : List DecisionNode :=
  flow.nodes.filter (fun n => n.node_type = .decision ∧ n.is_active)

theorem mem_decision_nodes {flow : DecisionFlow} {n : DecisionNode} :
    n ∈ decision_nodes flow ↔ n ∈ flow.nodes ∧ n.node_type = .decision ∧ n.is_active := by
  simp only [decision_nodes, List.mem_filter, decide_eq_true_eq]

/-- The loop over the decision nodes: each with whether its condition held. -/
def evaluate_nodes (P : Platform) (context : PyDict) :
    List DecisionNode → Except PyError (List (DecisionNode × Bool))
  | [] => .ok []
  | node :: nodes => do
    let node_matched ← evaluate P node.condition context
    let rest ← evaluate_nodes P context nodes
    return (node, node_matched) :: rest

/-- The nodes whose condition held. -/
def matched (outcomes : List (DecisionNode × Bool)) : List DecisionNode :=
  (outcomes.filter (·.2)).map (·.1)

/-- The record of one decision node. -/
def decision_record (outcome : DecisionNode × Bool) : NodeRecord :=
  { node_id := outcome.1.id
    node_type := "decision"
    matched := outcome.2
    condition := some (outcome.1.condition.getD "")
    reason := if outcome.2 then "condition matched" else "condition not matched" }

/-! ## Resolution -/

/-- `flow.metadata.get("resolution_policy", {}).get("strategy", "first_match")`. -/
def strategy (flow : DecisionFlow) : Except PyError Value :=
  match (PyDict.get flow.metadata "resolution_policy").getD (.dict []) with
  | .dict policy => .ok ((PyDict.get policy "strategy").getD (.str "first_match"))
  | policy => .error (.attributeError
      ("'" ++ ContractRegistry.type_name policy ++ "' object has no attribute 'get'"))

/-- `node_index.get(id, len(flow.nodes))`: of two nodes with one id, the later one counts. -/
def node_index (flow : DecisionFlow) (id : String) : ℕ :=
  match flow.nodes.reverse.findIdx? (fun n => n.id = id) with
  | some i => flow.nodes.length - 1 - i
  | none => flow.nodes.length

/-- The key of `n` is greater than that of `best`: a higher priority, or the same one and an
earlier place in the flow. -/
def beats (flow : DecisionFlow) (n best : DecisionNode) : Bool :=
  best.priority < n.priority
    || (best.priority = n.priority && node_index flow n.id < node_index flow best.id)

/-- `max(candidates, key=...)`: the first of the greatest. -/
def max_by (flow : DecisionFlow) (best : DecisionNode) : List DecisionNode → DecisionNode
  | [] => best
  | n :: ns => max_by flow (if beats flow n best then n else best) ns

/-- `_resolve`, on the candidates `first :: rest`. -/
def resolve (flow : DecisionFlow) (first : DecisionNode) (rest : List DecisionNode) :
    Except PyError DecisionNode := do
  let strategy ← strategy flow
  if strategy.pyEq (.str "priority") then return max_by flow first rest
  else return first

/-- `_get_fallback`. -/
def get_fallback (flow : DecisionFlow) : Except PyError DecisionNode :=
  match flow.nodes.find? (fun n => n.node_type = .fallback ∧ n.is_active) with
  | some node => .ok node
  | none => .error (.runtimeError ("Flow '" ++ flow.flow_id ++ "' has no active fallback node; "
      ++ "every flow must contain exactly one fallback node"))

/-- The record of the fallback node. -/
def fallback_record (node : DecisionNode) : NodeRecord :=
  { node_id := node.id
    node_type := "fallback"
    matched := true
    condition := some ""
    reason := "no decision node matched; fallback selected" }

/-- What the resolution selected, and the record it adds. -/
structure Selection where
  selected : DecisionNode
  status : DecisionStatus
  outcome : DecisionOutcome
  records : List NodeRecord

/-- The `if matched: ... else: ...` of `_pure_evaluate`. -/
def select (flow : DecisionFlow) : List DecisionNode → Except PyError Selection
  | first :: rest => do
    let selected ← resolve flow first rest
    return { selected := selected, status := .confirmed, outcome := .pass, records := [] }
  | [] => do
    -- no node matched: the flow has to have an active fallback
    let selected ← get_fallback flow
    return { selected := selected, status := .fallback, outcome := .fail,
             records := [fallback_record selected] }

/-! ## The result -/

/-- `selected.config.get("contract_version")`, which the model takes only as a string. -/
def contract_version (config : PyDict) : Except PyError (Option String) :=
  match PyDict.get config "contract_version" with
  | none => .ok none
  | some .none => .ok none
  | some (.str s) => .ok (some s)
  | some _ => .error (.validationError "DecisionResult")

/-- The `DecisionResult(...)` of `_pure_evaluate`, validator included. -/
def initial (draws : Draws) (signal : Signal) (flow : DecisionFlow)
    (outcomes : List (DecisionNode × Bool)) (sel : Selection) (contract_version : Option String) :
    DecisionResult :=
  { id := draws.decision_id
    trace_id := draws.trace_id
    flow_id := flow.id
    flow_version := flow.version
    selected_node_id := sel.selected.id
    source_signal_id := signal.id
    state := .confirmed
    status := sel.status
    outcome := sel.outcome
    confidence := signal.confidence
    action := sel.selected.action
    contract_id := sel.selected.contract_id
    contract_version := contract_version
    signals_used := [signal.name]
    conditions_evaluated := outcomes.length
    conditions_passed := (matched outcomes).length
    evaluated_at := draws.now
    created_at := draws.now
    updated_at := draws.now : DecisionResult }.populate_canonical_fields

/-- `boundary_node_map.get(id)`: of two boundary nodes with one id, the later one is found. -/
def boundary_node (flow : DecisionFlow) (id : String) : Option DecisionNode :=
  (flow.nodes.filter (fun n => n.node_type = .boundary)).reverse.find? (fun n => n.id = id)

/-- The record of one boundary. -/
def boundary_record (flow : DecisionFlow) (br : BoundaryResult) : NodeRecord :=
  { node_id := br.boundary_id
    node_type := "boundary"
    matched := br.triggered
    condition := (boundary_node flow br.boundary_id).bind (·.condition)
    reason := br.reason }

/-- The records of one evaluation, in the order they are appended. -/
def node_records (flow : DecisionFlow) (outcomes : List (DecisionNode × Bool)) (sel : Selection)
    (all_boundary_results : List BoundaryResult) : List NodeRecord :=
  outcomes.map decision_record ++ sel.records ++ all_boundary_results.map (boundary_record flow)

/-- `_pure_evaluate`: the decision and the records of the evaluated nodes. -/
def pure_evaluate (P : Platform) (draws : Draws) (signal : Signal) (flow : DecisionFlow) :
    Except PyError (DecisionResult × List PyDict) := do
  let outcomes ← evaluate_nodes P (build_context signal) (decision_nodes flow)
  let sel ← select flow (matched outcomes)
  let contract_version ← contract_version sel.selected.config
  let (final, all_boundary_results) ←
    BoundaryEngine.apply P signal flow (initial draws signal flow outcomes sel contract_version)
  return (final, (node_records flow outcomes sel all_boundary_results).map NodeRecord.toDict)

/-! ## What an evaluation is made of -/

section Inversion

variable {P : Platform} {draws : Draws} {signal : Signal} {flow : DecisionFlow}

/-- The loop looks at every active decision node once, in order. -/
theorem evaluate_nodes_nodes {context : PyDict} {nodes : List DecisionNode}
    {outcomes : List (DecisionNode × Bool)}
    (h : evaluate_nodes P context nodes = .ok outcomes) : outcomes.map (·.1) = nodes := by
  induction nodes generalizing outcomes with
  | nil =>
      have hnil : [] = outcomes := Except.ok.inj h
      rw [← hnil]
      rfl
  | cons node nodes ih =>
      -- the head was evaluated, and the tail is a run of the same loop
      rw [evaluate_nodes, except_bind_eq_ok] at h
      obtain ⟨node_matched, -, h⟩ := h
      obtain ⟨rest, hrest, h⟩ := except_bind_eq_ok.mp h
      have hcons : (node, node_matched) :: rest = outcomes := Except.ok.inj h
      rw [← hcons, List.map_cons, ih hrest]

/-- Some active decision node has a condition that holds of the signal. -/
def Matches (P : Platform) (signal : Signal) (flow : DecisionFlow) : Prop :=
  ∃ n ∈ decision_nodes flow, evaluate P n.condition (build_context signal) = .ok true

theorem evaluate_nodes_outcome {context : PyDict} {nodes : List DecisionNode}
    {outcomes : List (DecisionNode × Bool)}
    (h : evaluate_nodes P context nodes = .ok outcomes) {o : DecisionNode × Bool}
    (ho : o ∈ outcomes) : evaluate P o.1.condition context = .ok o.2 := by
  induction nodes generalizing outcomes with
  | nil =>
      have hnil : [] = outcomes := Except.ok.inj h
      rw [← hnil] at ho
      simp at ho
  | cons node nodes ih =>
      rw [evaluate_nodes, except_bind_eq_ok] at h
      obtain ⟨node_matched, hnode, h⟩ := h
      obtain ⟨rest, hrest, h⟩ := except_bind_eq_ok.mp h
      have hcons : (node, node_matched) :: rest = outcomes := Except.ok.inj h
      rw [← hcons, List.mem_cons] at ho
      rcases ho with rfl | ho
      · exact hnode
      · exact ih hrest ho

/-- The loop finds a match exactly when there is one. -/
theorem matched_ne_nil_iff {outcomes : List (DecisionNode × Bool)}
    (h : evaluate_nodes P (build_context signal) (decision_nodes flow) = .ok outcomes) :
    matched outcomes ≠ [] ↔ Matches P signal flow := by
  have hnodes := evaluate_nodes_nodes h
  constructor
  · intro hne
    obtain ⟨n, hn⟩ := List.exists_mem_of_ne_nil _ hne
    -- a matched node comes from an outcome of the loop
    obtain ⟨o, ho, rfl⟩ := List.mem_map.mp hn
    rw [List.mem_filter] at ho
    refine ⟨o.1, ?_, ?_⟩
    · rw [← hnodes]
      exact List.mem_map_of_mem ho.1
    · rw [evaluate_nodes_outcome h ho.1, ho.2]
  · rintro ⟨n, hn, hcond⟩ hnil
    rw [← hnodes] at hn
    -- every active node has an outcome, and that of this one is `true`
    obtain ⟨o, ho, rfl⟩ := List.mem_map.mp hn
    have htrue : o.2 = true := by
      have heq := (evaluate_nodes_outcome h ho).symm.trans hcond
      exact Except.ok.inj heq
    have hmem : o.1 ∈ matched outcomes :=
      List.mem_map_of_mem (List.mem_filter.mpr ⟨ho, htrue⟩)
    rw [hnil] at hmem
    simp at hmem

/-- A decision node was selected, or none matched and the fallback was. -/
theorem select_eq_ok {outcomes : List (DecisionNode × Bool)} {sel : Selection}
    (h : select flow (matched outcomes) = .ok sel) :
    (matched outcomes ≠ [] ∧ sel.status = .confirmed ∧ sel.outcome = .pass ∧ sel.records = []) ∨
    (matched outcomes = [] ∧ sel.status = .fallback ∧ sel.outcome = .fail
      ∧ sel.records = [fallback_record sel.selected] ∧ sel.selected ∈ flow.nodes
      ∧ sel.selected.node_type = .fallback) := by
  rcases hm : matched outcomes with _ | ⟨first, rest⟩
  · right
    rw [hm, select, except_bind_eq_ok] at h
    obtain ⟨node, hnode, h⟩ := h
    have hsel := Except.ok.inj h
    subst hsel
    rw [get_fallback] at hnode
    rcases hf : flow.nodes.find? (fun n => n.node_type = .fallback ∧ n.is_active) with _ | found
    · rw [hf] at hnode
      cases hnode
    · rw [hf] at hnode
      obtain rfl : found = node := Except.ok.inj hnode
      have htype := List.find?_some hf
      simp only [decide_eq_true_eq] at htype
      exact ⟨rfl, rfl, rfl, rfl, List.mem_of_find?_eq_some hf, htype.1⟩
  · left
    rw [hm, select, except_bind_eq_ok] at h
    obtain ⟨node, -, h⟩ := h
    have hsel := Except.ok.inj h
    subst hsel
    exact ⟨by simp, rfl, rfl, rfl⟩

/-- **The pieces of an evaluation that returned.** -/
theorem pure_evaluate_eq_ok {final : DecisionResult} {evaluated_nodes : List PyDict} :
    pure_evaluate P draws signal flow = .ok (final, evaluated_nodes) ↔
    ∃ outcomes sel version all_boundary_results,
      evaluate_nodes P (build_context signal) (decision_nodes flow) = .ok outcomes
      ∧ select flow (matched outcomes) = .ok sel
      ∧ contract_version sel.selected.config = .ok version
      ∧ evaluate_boundaries P (build_context signal) (boundary_nodes flow)
        = .ok all_boundary_results
      ∧ final = apply_dominant (initial draws signal flow outcomes sel version)
          all_boundary_results
      ∧ evaluated_nodes
        = (node_records flow outcomes sel all_boundary_results).map NodeRecord.toDict := by
  rw [pure_evaluate]
  simp only [except_bind_eq_ok, BoundaryEngine.apply, Prod.exists]
  constructor
  · rintro ⟨outcomes, h₁, sel, h₂, version, h₃, result, brs, ⟨brs', h₄, h₅⟩, h₆⟩
    obtain ⟨rfl, rfl⟩ := Prod.mk.inj (Except.ok.inj h₅)
    obtain ⟨rfl, rfl⟩ := Prod.mk.inj (Except.ok.inj h₆)
    exact ⟨outcomes, sel, version, brs', h₁, h₂, h₃, h₄, rfl, rfl⟩
  · rintro ⟨outcomes, sel, version, brs, h₁, h₂, h₃, h₄, rfl, rfl⟩
    exact ⟨outcomes, h₁, sel, h₂, version, h₃, _, brs, ⟨brs, h₄, rfl⟩, rfl⟩

/-! ### The result -/

/-- What the result of an evaluation takes from the draws, the signal and the flow. -/
structure Stamped (draws : Draws) (signal : Signal) (flow : DecisionFlow) (r : DecisionResult) :
    Prop where
  id : r.id = draws.decision_id
  trace_id : r.trace_id = draws.trace_id
  flow_id : r.flow_id = flow.id
  flow_version : r.flow_version = flow.version
  source_signal_id : r.source_signal_id = signal.id
  confidence : r.confidence = signal.confidence
  evaluated_at : r.evaluated_at = draws.now
  created_at : r.created_at = draws.now
  execution_id : r.execution_id = none
  human_gate : r.human_gate = none

theorem stamped {final : DecisionResult} {evaluated_nodes : List PyDict}
    (h : pure_evaluate P draws signal flow = .ok (final, evaluated_nodes)) :
    Stamped draws signal flow final := by
  obtain ⟨outcomes, sel, version, brs, -, -, -, -, hfinal, -⟩ := pure_evaluate_eq_ok.mp h
  obtain ⟨status, action, selected, hdom⟩ :=
    apply_dominant_eq (initial draws signal flow outcomes sel version) brs
  rw [hdom] at hfinal
  subst hfinal
  exact ⟨rfl, rfl, rfl, rfl, rfl, rfl, rfl, rfl, rfl, rfl⟩

/-- The selection sets one of two statuses. -/
theorem initial_status (draws : Draws) (signal : Signal) {outcomes : List (DecisionNode × Bool)}
    {sel : Selection} (version : Option String)
    (hsel : select flow (matched outcomes) = .ok sel) :
    (initial draws signal flow outcomes sel version).status = .confirmed
      ∨ (initial draws signal flow outcomes sel version).status = .fallback := by
  rcases select_eq_ok hsel with ⟨-, hstatus, -⟩ | ⟨-, hstatus, -⟩
  · exact Or.inl hstatus
  · exact Or.inr hstatus

/-- An evaluation ends in one of four statuses; `error` and `rejected` are set elsewhere. -/
theorem status_cases {final : DecisionResult} {evaluated_nodes : List PyDict}
    (h : pure_evaluate P draws signal flow = .ok (final, evaluated_nodes)) :
    final.status = .confirmed ∨ final.status = .fallback ∨ final.status = .blocked
      ∨ final.status = .pending_human := by
  obtain ⟨outcomes, sel, version, brs, -, hsel, -, -, rfl, -⟩ := pure_evaluate_eq_ok.mp h
  -- the selection sets one of two statuses, and a boundary may replace it
  have hinit := initial_status draws signal version hsel
  rcases apply_dominant_status (initial draws signal flow outcomes sel version) brs with
    hdom | hdom | hdom
  · rw [hdom]
    exact hinit.imp id Or.inl
  · exact Or.inr (Or.inr (Or.inl hdom))
  · exact Or.inr (Or.inr (Or.inr hdom))

/-! ### The records -/

/-- The ids of the records: decision nodes, the fallback if it was used, boundaries. -/
theorem node_ids {outcomes : List (DecisionNode × Bool)} {sel : Selection}
    {brs : List BoundaryResult} {context : PyDict}
    (houtcomes : evaluate_nodes P context (decision_nodes flow) = .ok outcomes)
    (hbrs : evaluate_boundaries P context (boundary_nodes flow) = .ok brs) :
    (node_records flow outcomes sel brs).map (·.node_id)
      = (decision_nodes flow).map (·.id) ++ sel.records.map (·.node_id)
        ++ (boundary_nodes flow).map (·.id) := by
  have hdec : (outcomes.map decision_record).map (·.node_id)
      = (decision_nodes flow).map (·.id) := by
    rw [← evaluate_nodes_nodes houtcomes, List.map_map, List.map_map]
    rfl
  have hbnd : (brs.map (boundary_record flow)).map (·.node_id)
      = (boundary_nodes flow).map (·.id) := by
    rw [← evaluate_boundaries_ids hbrs, List.map_map]
    rfl
  rw [node_records, List.map_append, List.map_append, hdec, hbnd]

/-- Of a flow with distinct node ids, nodes of different types have different ids. -/
theorem id_ne_of_node_type_ne (hflow : (flow.nodes.map (·.id)).Nodup) {m n : DecisionNode}
    (hm : m ∈ flow.nodes) (hn : n ∈ flow.nodes) (h : m.node_type ≠ n.node_type) : m.id ≠ n.id := by
  intro hid
  have hmn : m = n := List.inj_on_of_nodup_map hflow hm hn hid
  exact h (congrArg DecisionNode.node_type hmn)

/-- A selection records a fallback node of the flow, or nothing. -/
theorem select_record_ids {outcomes : List (DecisionNode × Bool)} {sel : Selection}
    (h : select flow (matched outcomes) = .ok sel) :
    sel.records.map (·.node_id) = [] ∨
      ∃ n ∈ flow.nodes, n.node_type = .fallback ∧ sel.records.map (·.node_id) = [n.id] := by
  rcases select_eq_ok h with ⟨-, -, -, hrec⟩ | ⟨-, -, -, hrec, hmem, htype⟩
  · left
    rw [hrec, List.map_nil]
  · right
    exact ⟨sel.selected, hmem, htype, by rw [hrec]; rfl⟩

/-- Of a flow with distinct node ids, no two records have one id. -/
theorem nodup_node_ids (hflow : (flow.nodes.map (·.id)).Nodup)
    {outcomes : List (DecisionNode × Bool)} {sel : Selection} {brs : List BoundaryResult}
    {context : PyDict}
    (houtcomes : evaluate_nodes P context (decision_nodes flow) = .ok outcomes)
    (hsel : select flow (matched outcomes) = .ok sel)
    (hbrs : evaluate_boundaries P context (boundary_nodes flow) = .ok brs) :
    ((node_records flow outcomes sel brs).map (·.node_id)).Nodup := by
  have hsub : ∀ p : DecisionNode → Bool, ((flow.nodes.filter p).map (·.id)).Nodup := fun p =>
    hflow.sublist (List.filter_sublist.map _)
  have hne : ∀ m ∈ decision_nodes flow, ∀ n ∈ boundary_nodes flow, m.id ≠ n.id := by
    intro m hm n hn
    obtain ⟨hmem, htype, -⟩ := mem_decision_nodes.mp hm
    obtain ⟨hmem', htype', -⟩ := mem_boundary_nodes.mp hn
    exact id_ne_of_node_type_ne hflow hmem hmem' (by simp [htype, htype'])
  rw [node_ids houtcomes hbrs]
  rcases select_record_ids hsel with hrec | ⟨fallback, hmem, htype, hrec⟩
  · rw [hrec, List.append_nil]
    refine List.nodup_append.mpr ⟨hsub _, hsub _, ?_⟩
    intro i hi j hj
    obtain ⟨m, hm, rfl⟩ := List.mem_map.mp hi
    obtain ⟨n, hn, rfl⟩ := List.mem_map.mp hj
    exact hne m hm n hn
  · have hdec : ∀ m ∈ decision_nodes flow, m.id ≠ fallback.id := by
      intro m hm
      obtain ⟨hmem', htype', -⟩ := mem_decision_nodes.mp hm
      exact id_ne_of_node_type_ne hflow hmem' hmem (by simp [htype, htype'])
    have hbnd : ∀ n ∈ boundary_nodes flow, fallback.id ≠ n.id := by
      intro n hn
      obtain ⟨hmem', htype', -⟩ := mem_boundary_nodes.mp hn
      exact id_ne_of_node_type_ne hflow hmem hmem' (by simp [htype, htype'])
    rw [hrec, List.nodup_append, List.nodup_append]
    refine ⟨⟨hsub _, List.nodup_singleton _, ?_⟩, hsub _, ?_⟩
    · intro i hi j hj
      obtain ⟨m, hm, rfl⟩ := List.mem_map.mp hi
      rw [List.mem_singleton.mp hj]
      exact hdec m hm
    · intro i hi j hj
      obtain ⟨n, hn, rfl⟩ := List.mem_map.mp hj
      rcases List.mem_append.mp hi with hi | hi
      · obtain ⟨m, hm, rfl⟩ := List.mem_map.mp hi
        exact hne m hm n hn
      · rw [List.mem_singleton.mp hi]
        exact hbnd n hn

end Inversion

end PureEvaluate

end DecisionRuntime
