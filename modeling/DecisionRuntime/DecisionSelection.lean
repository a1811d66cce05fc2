/-
Which node `_pure_evaluate` selects, and what its answer depends on.

The evaluation filters the active decision nodes, finds the best match through a map
from ids to positions, looks for a fallback if there is no match, and accumulates
counts and records on the way. Said at once (`ExactlySelected`): under the strategy
"priority" the first of the matches with the highest priority, under any other the
first match, and without a match the first active fallback.

Positions in the list of nodes break ties, and ids lead from a boundary record back
to its node. Both are read off a list that also holds nodes nobody evaluates, and
neither depends on them (`structure_irrelevant`): the ids of a validated flow are
distinct, so the map keeps the order of the nodes that matter.
-/
import DecisionRuntime.BoundaryDominance

set_option autoImplicit false

namespace DecisionRuntime.PureEvaluate

open ConditionEvaluator BoundaryEngine

/-! ## The evaluation up to the boundaries -/

/-- The outcomes of the decision nodes, what is selected, and the result the boundary engine is
given. -/
def before_boundaries (P : Platform) (draws : Draws) (signal : Signal) (flow : DecisionFlow) :
    Except PyError (List (DecisionNode × Bool) × Selection × DecisionResult) := do
  let outcomes ← evaluate_nodes P (build_context signal) (decision_nodes flow)
  let sel ← select flow (matched outcomes)
  let contract_version ← contract_version sel.selected.config
  return (outcomes, sel, initial draws signal flow outcomes sel contract_version)

section Stages

variable {P : Platform} {draws : Draws} {signal : Signal} {flow : DecisionFlow}

/-- The boundary engine comes next, and then the records are made. -/
theorem pure_evaluate_eq : pure_evaluate P draws signal flow = (do
    let (outcomes, sel, pre) ← before_boundaries P draws signal flow
    let (final, all_boundary_results) ← BoundaryEngine.apply P signal flow pre
    return (final,
      (node_records flow outcomes sel all_boundary_results).map NodeRecord.toDict)) := by
  unfold pure_evaluate before_boundaries
  rcases evaluate_nodes P (build_context signal) (decision_nodes flow) with e | outcomes
  · rfl
  dsimp only [bind, Except.bind]
  rcases select flow (matched outcomes) with e | sel
  · rfl
  dsimp only
  rcases contract_version sel.selected.config with e | version
  · rfl
  rfl

end Stages

/-! ## Candidates -/

/-- The active decision nodes whose condition holds, in declaration order. -/
def candidates (P : Platform) (signal : Signal) (flow : DecisionFlow) : List DecisionNode :=
  (decision_nodes flow).filter (fun n => Fires P signal n)

/-- The active fallback nodes, in declaration order. -/
def fallback_nodes (flow : DecisionFlow) : List DecisionNode :=
  flow.nodes.filter (fun n => n.node_type = .fallback ∧ n.is_active)

/-- The conditions of all active decision nodes evaluate. -/
def DecisionsEvaluate (P : Platform) (signal : Signal) (flow : DecisionFlow) : Prop :=
  ∀ n ∈ decision_nodes flow, ∃ b, evaluate P n.condition (build_context signal) = .ok b

section Candidates

variable {P : Platform} {signal : Signal} {flow : DecisionFlow}

/-- The loop pairs every active decision node with whether it fires. -/
theorem evaluate_nodes_eq (h : DecisionsEvaluate P signal flow) :
    evaluate_nodes P (build_context signal) (decision_nodes flow)
      = .ok ((decision_nodes flow).map (fun n => (n, decide (Fires P signal n)))) := by
  rw [evaluate_nodes_eq_mapM]
  apply except_mapM_eq_map
  intro n hn
  obtain ⟨b, hb⟩ := h n hn
  rw [evaluate_node, hb, fires_of_evaluates hb]
  rfl

/-- The matched nodes are the candidates. -/
theorem matched_eq : matched ((decision_nodes flow).map (fun n => (n, decide (Fires P signal n))))
    = candidates P signal flow := by
  rw [matched, candidates]
  induction decision_nodes flow with
  | nil => rfl
  | cons n nodes ih =>
      by_cases hfires : Fires P signal n
      · simpa [List.filter_cons, hfires] using ih
      · simpa [List.filter_cons, hfires] using ih

theorem candidates_sublist : (candidates P signal flow).Sublist flow.nodes :=
  List.filter_sublist.trans List.filter_sublist

/-- The fallback that is found is the first active one. -/
theorem get_fallback_eq_ok {n : DecisionNode} :
    get_fallback flow = .ok n ↔ (fallback_nodes flow).head? = some n := by
  rw [get_fallback, fallback_nodes, List.head?_filter]
  split
  · next found hfound =>
    rw [hfound]
    simp
  · next hnone =>
    rw [hnone]
    simp

end Candidates

/-! ## The tie-break -/

section Positions

variable {flow : DecisionFlow}

/-- With distinct ids, the map from ids to positions says where a node is. -/
theorem node_index_getElem (hnodup : (flow.nodes.map (·.id)).Nodup) {i : ℕ}
    (hi : i < flow.nodes.length) : node_index flow flow.nodes[i].id = i := by
  have hfind : flow.nodes.reverse.findIdx? (fun n => n.id = flow.nodes[i].id)
      = some (flow.nodes.length - 1 - i) := by
    rw [List.findIdx?_eq_some_iff_getElem]
    refine ⟨by simp; omega, ?_, ?_⟩
    · have hback : flow.nodes.length - 1 - (flow.nodes.length - 1 - i) = i := by omega
      simp [List.getElem_reverse, hback]
    · -- a node further back has another position, and so another id
      intro j hj
      have hlt : flow.nodes.length - 1 - j < (flow.nodes.map (·.id)).length := by
        rw [List.length_map]
        omega
      have hne : flow.nodes.length - 1 - j ≠ i := by omega
      have hi' : i < (flow.nodes.map (·.id)).length := by rwa [List.length_map]
      have hid : (flow.nodes.map (·.id))[flow.nodes.length - 1 - j]
          ≠ (flow.nodes.map (·.id))[i] := fun heq => hne (hnodup.getElem_inj_iff.mp heq)
      simpa [List.getElem_reverse] using hid
  rw [node_index, hfind]
  dsimp only
  omega

/-- Positions grow along the list of nodes. -/
theorem nodes_pairwise (hnodup : (flow.nodes.map (·.id)).Nodup) :
    flow.nodes.Pairwise (fun m n => node_index flow m.id < node_index flow n.id) := by
  rw [List.pairwise_iff_getElem]
  intro i j hi hj hij
  rw [node_index_getElem hnodup hi, node_index_getElem hnodup hj]
  exact hij

/-- **The tie-break.** Among nodes in their order, the greatest key belongs to the first of those
with the highest priority: the loop replaces the best node only by one of a higher priority. -/
theorem max_by_eq_foldl {first : DecisionNode} {rest : List DecisionNode}
    (h : (first :: rest).Pairwise (fun m n => node_index flow m.id < node_index flow n.id)) :
    max_by flow first rest
      = rest.foldl (fun best n => if best.priority < n.priority then n else best) first := by
  induction rest generalizing first with
  | nil => rfl
  | cons n ns ih =>
      rw [List.pairwise_cons] at h
      have hlater : node_index flow first.id < node_index flow n.id := h.1 n List.mem_cons_self
      have hbeats : beats flow n first = decide (first.priority < n.priority) := by
        unfold beats
        have hnot : ¬ node_index flow n.id < node_index flow first.id := by omega
        simp [hnot]
      rw [max_by, List.foldl_cons, hbeats]
      by_cases hlt : first.priority < n.priority
      · simp only [hlt, decide_true, if_true]
        exact ih h.2
      · simp only [hlt, decide_false, if_false]
        apply ih
        rw [List.pairwise_cons] at h ⊢
        exact ⟨fun m hm => h.1 m (List.mem_cons_of_mem n hm), h.2.2⟩

end Positions

/-! ## The selection -/

/-- The node that is selected, with the status and the outcome of the result. -/
inductive Selects (P : Platform) (signal : Signal) (flow : DecisionFlow) :
    DecisionNode → DecisionStatus → DecisionOutcome → Prop
  | by_priority {n : DecisionNode} (policy : strategy flow = .ok (.str "priority"))
      (first : FirstGreatest DecisionNode.priority (candidates P signal flow) n) :
      Selects P signal flow n .confirmed .pass
  | first_match {n : DecisionNode} {other : Value} (policy : strategy flow = .ok other)
      (differs : other ≠ .str "priority")
      (first : (candidates P signal flow).head? = some n) :
      Selects P signal flow n .confirmed .pass
  | fallback {n : DecisionNode} (unmatched : candidates P signal flow = [])
      (first : (fallback_nodes flow).head? = some n) :
      Selects P signal flow n .fallback .fail

/-- The record of a boundary node. -/
def boundary_verdict (n : DecisionNode) (fires : Bool) : NodeRecord :=
  { node_id := n.id
    node_type := "boundary"
    matched := fires
    condition := n.condition
    reason := (boundary_result n fires).reason }

/-- The records of an evaluation that selected `n`: the active decision nodes in order, the fallback
if it is selected, and the active boundary nodes in order. -/
def evaluated_records (P : Platform) (signal : Signal) (flow : DecisionFlow) (n : DecisionNode) :
    List NodeRecord :=
  (decision_nodes flow).map (fun m => decision_record (m, Fires P signal m))
    ++ (if candidates P signal flow = [] then [fallback_record n] else [])
    ++ (boundary_nodes flow).map (fun m => boundary_verdict m (Fires P signal m))

/-- The evaluation has selected `n`, with `pre` for the result before the boundaries; and if the
boundaries evaluate, their effect is all that is left to do. -/
structure ExactlySelected (P : Platform) (draws : Draws) (signal : Signal) (flow : DecisionFlow)
    (n : DecisionNode) (pre : DecisionResult) : Prop where
  selects : Selects P signal flow n pre.status pre.outcome
  selected_node_id : pre.selected_node_id = n.id
  action : pre.action = n.action
  conditions_evaluated : pre.conditions_evaluated = (decision_nodes flow).length
  conditions_passed : pre.conditions_passed = (candidates P signal flow).length
  answer : BoundariesEvaluate P signal flow →
    pure_evaluate P draws signal flow
      = .ok (apply_dominant pre (boundary_records P signal flow),
        (evaluated_records P signal flow n).map NodeRecord.toDict)

/-- `_pure_evaluate` comes to the boundaries, and has selected exactly what it should. -/
def SelectsExactly (P : Platform) (draws : Draws) (signal : Signal) (flow : DecisionFlow) : Prop :=
  ∃ outcomes sel pre, before_boundaries P draws signal flow = .ok (outcomes, sel, pre)
    ∧ ExactlySelected P draws signal flow sel.selected pre

section Selection

variable {P : Platform} {draws : Draws} {signal : Signal} {flow : DecisionFlow}

/-- The record of a boundary node leads back to the node. -/
theorem boundary_record_eq (hnodup : (flow.nodes.map (·.id)).Nodup) {n : DecisionNode}
    (hn : n ∈ boundary_nodes flow) (fires : Bool) :
    boundary_record flow (boundary_result n fires) = boundary_verdict n fires := by
  rw [mem_boundary_nodes] at hn
  have hmem : n ∈ (flow.nodes.filter (fun n => n.node_type = .boundary)).reverse := by
    simp [hn]
  have hsome : ((flow.nodes.filter (fun n => n.node_type = .boundary)).reverse.find?
      (fun m => m.id = n.id)).isSome :=
    List.find?_isSome.mpr ⟨n, hmem, by simp⟩
  obtain ⟨found, hfound⟩ := Option.isSome_iff_exists.mp hsome
  -- a node with this id is this node
  have hfound_mem : found ∈ flow.nodes := by
    have h := List.mem_of_find?_eq_some hfound
    rw [List.mem_reverse] at h
    exact (List.mem_filter.mp h).1
  have hid : found.id = n.id := by
    have h := List.find?_some hfound
    exact of_decide_eq_true h
  obtain rfl : found = n := List.inj_on_of_nodup_map hnodup hfound_mem hn.1 hid
  have hnode : boundary_node flow (boundary_result found fires).boundary_id = some found := hfound
  rw [boundary_record, hnode]
  rfl

/-- What `select` selects among the candidates. -/
theorem selects_of_select (hnodup : (flow.nodes.map (·.id)).Nodup) {sel : Selection}
    (h : select flow (candidates P signal flow) = .ok sel) :
    Selects P signal flow sel.selected sel.status sel.outcome
      ∧ sel.records
        = if candidates P signal flow = [] then [fallback_record sel.selected] else [] := by
  have hsub : (candidates P signal flow).Sublist flow.nodes := candidates_sublist
  rcases hcand : candidates P signal flow with _ | ⟨first, rest⟩
  · rw [hcand, select, except_bind_eq_ok] at h
    obtain ⟨n, hn, h⟩ := h
    obtain rfl := Except.ok.inj h
    exact ⟨.fallback hcand (get_fallback_eq_ok.mp hn), rfl⟩
  · rw [hcand, select, except_bind_eq_ok] at h
    obtain ⟨n, hn, h⟩ := h
    obtain rfl := Except.ok.inj h
    rw [resolve, except_bind_eq_ok] at hn
    obtain ⟨policy, hpolicy, hn⟩ := hn
    refine ⟨?_, rfl⟩
    by_cases hpriority : policy.pyEq (.str "priority") = true
    · rw [if_pos hpriority] at hn
      -- with unique ids the maximum by key is the first of the greatest
      have hfold := max_by_eq_foldl ((nodes_pairwise hnodup).sublist (hcand ▸ hsub))
      rw [hfold] at hn
      rw [← Except.ok.inj hn]
      refine .by_priority ?_ ?_
      · rw [hpolicy, Value.pyEq_str_iff.mp hpriority]
      · rw [hcand]
        exact firstGreatest_keep_best DecisionNode.priority first rest
    · rw [if_neg hpriority] at hn
      rw [← Except.ok.inj hn]
      refine .first_match hpolicy (fun heq => hpriority (Value.pyEq_str_iff.mpr heq)) ?_
      rw [hcand, List.head?_cons]

/-- The records of an evaluation whose boundaries evaluate. -/
theorem node_records_eq (hnodup : (flow.nodes.map (·.id)).Nodup) {sel : Selection}
    (hrecords : sel.records
      = if candidates P signal flow = [] then [fallback_record sel.selected] else []) :
    node_records flow ((decision_nodes flow).map (fun n => (n, decide (Fires P signal n)))) sel
        (boundary_records P signal flow)
      = evaluated_records P signal flow sel.selected := by
  have hboundaries : (boundary_records P signal flow).map (boundary_record flow)
      = (boundary_nodes flow).map (fun m => boundary_verdict m (Fires P signal m)) := by
    rw [boundary_records, List.map_map]
    apply List.map_congr_left
    intro m hm
    exact boundary_record_eq hnodup hm _
  rw [node_records, evaluated_records, hrecords, hboundaries, List.map_map]
  rfl

/-- The selection returns when the policy, or the fallback, is as it should be. -/
theorem select_candidates_iff : (∃ sel, select flow (candidates P signal flow) = .ok sel) ↔
    ((∃ n ∈ decision_nodes flow, Fires P signal n) → PolicyReadable flow) ∧
    ((∀ n ∈ decision_nodes flow, ¬ Fires P signal n) → ActiveFallback flow) := by
  have hnil : candidates P signal flow = [] ↔
      ∀ n ∈ decision_nodes flow, ¬ Fires P signal n := by
    simp [candidates, List.filter_eq_nil_iff]
  have hnonempty : candidates P signal flow ≠ [] ↔
      ∃ n ∈ decision_nodes flow, Fires P signal n := by
    rw [Ne, hnil]
    simp
  rw [← hnil, ← hnonempty]
  exact select_returns_iff _

/-- What the stages before the boundaries come to. -/
theorem before_boundaries_eq (heval : DecisionsEvaluate P signal flow) {sel : Selection}
    (hsel : select flow (candidates P signal flow) = .ok sel) {version : Option String}
    (hversion : contract_version sel.selected.config = .ok version) :
    before_boundaries P draws signal flow
      = .ok ((decision_nodes flow).map (fun n => (n, decide (Fires P signal n))), sel,
        initial draws signal flow
          ((decision_nodes flow).map (fun n => (n, decide (Fires P signal n)))) sel version) := by
  rw [before_boundaries, evaluate_nodes_eq heval]
  dsimp only [bind, Except.bind]
  rw [matched_eq, hsel]
  dsimp only
  rw [hversion]
  rfl

/-- **One evaluation.** What is selected before the boundaries is exactly what should be. -/
theorem exactlySelected (hnodup : (flow.nodes.map (·.id)).Nodup)
    {outcomes : List (DecisionNode × Bool)} {sel : Selection} {pre : DecisionResult}
    (h : before_boundaries P draws signal flow = .ok (outcomes, sel, pre)) :
    ExactlySelected P draws signal flow sel.selected pre := by
  have hbefore := h
  rw [before_boundaries, except_bind_eq_ok] at h
  obtain ⟨outcomes', houtcomes, h⟩ := h
  obtain ⟨sel', hsel, h⟩ := except_bind_eq_ok.mp h
  obtain ⟨version, hversion, h⟩ := except_bind_eq_ok.mp h
  obtain ⟨rfl, rfl, rfl⟩ : outcomes' = outcomes ∧ sel' = sel ∧ _ = pre := by
    simpa [pure, Except.pure] using h
  -- the outcomes are those of the nodes that fire
  have heval : DecisionsEvaluate P signal flow :=
    evaluate_nodes_returns_iff.mp ⟨outcomes', houtcomes⟩
  rw [evaluate_nodes_eq heval] at houtcomes
  obtain rfl := Except.ok.inj houtcomes
  rw [matched_eq] at hsel
  obtain ⟨hselects, hrecords⟩ := selects_of_select hnodup hsel
  constructor
  · exact hselects
  · rfl
  · rfl
  · exact List.length_map _
  · show (matched _).length = _
    rw [matched_eq]
  · intro hboundaries
    rw [pure_evaluate_eq, hbefore]
    dsimp only [bind, Except.bind]
    rw [apply_eq_ok.mpr ⟨hboundaries, rfl, rfl⟩]
    dsimp only
    rw [node_records_eq hnodup hrecords]
    rfl

end Selection

/-- **Decision selection.** For a signal for which the active decision conditions of a validated
flow evaluate, the selection is exact when the policy is readable, if some node matches, and the
fallback is active, if none does; otherwise it raises. -/
theorem selection_exact_iff {P : Platform} {flow : DecisionFlow} {validate_conditions : Bool}
    (h : FlowValidator.validate P flow validate_conditions = .ok ()) {signal : Signal}
    (heval : DecisionsEvaluate P signal flow) (draws : Draws) :
    SelectsExactly P draws signal flow ↔
      ((∃ n ∈ decision_nodes flow, Fires P signal n) → PolicyReadable flow) ∧
      ((∀ n ∈ decision_nodes flow, ¬ Fires P signal n) → ActiveFallback flow) := by
  rw [← select_candidates_iff]
  constructor
  · rintro ⟨outcomes, sel, pre, hbefore, -⟩
    rw [before_boundaries, except_bind_eq_ok] at hbefore
    obtain ⟨outcomes', houtcomes, hbefore⟩ := hbefore
    obtain ⟨sel', hsel, -⟩ := except_bind_eq_ok.mp hbefore
    rw [evaluate_nodes_eq heval] at houtcomes
    rw [← Except.ok.inj houtcomes, matched_eq] at hsel
    exact ⟨sel', hsel⟩
  · rintro ⟨sel, hsel⟩
    have hmatched := hsel
    rw [← matched_eq] at hmatched
    obtain ⟨version, hversion⟩ :=
      contract_version_returns (validated h) (evaluate_nodes_eq heval) hmatched
    have hbefore : before_boundaries P draws signal flow = .ok (_, sel, _) :=
      before_boundaries_eq heval hsel hversion
    exact ⟨_, sel, _, hbefore, exactlySelected (nodup_of_validate h) hbefore⟩

end DecisionRuntime.PureEvaluate

namespace DecisionRuntime.Recorded

/-- Three decision nodes without a condition, two of them of one priority, and a policy. -/
def ranked (policy : Value) : DecisionFlow where
  id := UUID.repeated 2
  flow_id := "payment"
  version := "1.0.0"
  entry_node_id := "note"
  nodes :=
    [{ id := "note", node_type := .decision, priority := 1, config := terms },
      { id := "pay", node_type := .decision, priority := 5, config := terms },
      { id := "ask", node_type := .decision, priority := 5, config := terms },
      { id := "manual", node_type := .fallback, config := terms }]
  edges := [{ id := "e1", source_node_id := "note", target_node_id := "pay" },
    { id := "e2", source_node_id := "pay", target_node_id := "ask" }]
  metadata := [("resolution_policy", policy)]

theorem ranked_evaluates (P : Platform) (policy : Value) :
    PureEvaluate.DecisionsEvaluate P reading (ranked policy) := by
  have hnone : ∀ n ∈ PureEvaluate.decision_nodes (ranked policy), n.condition = none := by
    simp [PureEvaluate.decision_nodes, ranked]
  intro n hn
  rw [hnone n hn]
  exact ⟨true, rfl⟩

end DecisionRuntime.Recorded

namespace DecisionRuntime.PureEvaluate

open ConditionEvaluator BoundaryEngine

/-- By priority, the selection of the flow above is exact. -/
theorem selection_exact_ranked :
    SelectsExactly (Recorded.parser (.constant .none))
      ⟨UUID.repeated 4, UUID.repeated 5, ⟨10, some 0⟩⟩ Recorded.reading
      (Recorded.ranked (.dict [("strategy", .str "priority")])) := by
  have hvalid : FlowValidator.validate (Recorded.parser (.constant .none))
      (Recorded.ranked (.dict [("strategy", .str "priority")])) true = .ok () := by decide +kernel
  refine (selection_exact_iff hvalid (Recorded.ranked_evaluates _ _) _).mpr ⟨?_, ?_⟩
  · intro _
    exact Or.inr ⟨_, rfl⟩
  · intro _
    exact ⟨{ id := "manual", node_type := .fallback, config := Recorded.terms },
      by simp [Recorded.ranked], rfl, rfl⟩

/-- A policy that is no mapping passes validation, and then nothing can be selected. -/
theorem selection_exact_unreadable :
    ¬ ∀ (P : Platform) (draws : Draws) (signal : Signal) (flow : DecisionFlow),
      FlowValidator.validate P flow true = .ok () → DecisionsEvaluate P signal flow →
      SelectsExactly P draws signal flow := by
  intro h
  obtain ⟨outcomes, sel, pre, hbefore, -⟩ := h (Recorded.parser (.constant .none))
    ⟨UUID.repeated 4, UUID.repeated 5, ⟨10, some 0⟩⟩ Recorded.reading
    (Recorded.ranked (.str "priority")) (by decide +kernel) (Recorded.ranked_evaluates _ _)
  have hraises : (before_boundaries (Recorded.parser (.constant .none))
      ⟨UUID.repeated 4, UUID.repeated 5, ⟨10, some 0⟩⟩ Recorded.reading
      (Recorded.ranked (.str "priority"))).isOk = false := by decide +kernel
  rw [hbefore] at hraises
  cases hraises

/-! ## What the answer does not depend on -/

/-- The flows have the same id, version and strategy, and the same active nodes of the three types
that are looked at, in the same order. -/
structure SameActive (flow flow' : DecisionFlow) : Prop where
  id : flow'.id = flow.id
  version : flow'.version = flow.version
  strategy : strategy flow' = strategy flow
  decision : decision_nodes flow' = decision_nodes flow
  fallback : fallback_nodes flow' = fallback_nodes flow
  boundary : boundary_nodes flow' = boundary_nodes flow

end DecisionRuntime.PureEvaluate

namespace DecisionRuntime

/-- The result with other generated ids and timestamps. -/
def DecisionResult.redrawn (draws : Draws) (r : DecisionResult) : DecisionResult :=
  { r with
    id := draws.decision_id
    trace_id := draws.trace_id
    evaluated_at := draws.now
    created_at := draws.now
    updated_at := draws.now
    decision_id := draws.decision_id.str
    timestamp := some draws.now.isoformat }

end DecisionRuntime

namespace DecisionRuntime.PureEvaluate

open ConditionEvaluator BoundaryEngine

section Irrelevant

variable {P : Platform} {draws draws' : Draws} {signal : Signal} {flow flow' : DecisionFlow}

/-- The strategies agree, and the greatest of the candidates is the same: the positions differ, but
their order does not. -/
theorem resolve_congr (h : SameActive flow flow') {first : DecisionNode} {rest : List DecisionNode}
    (hnodup : (flow.nodes.map (·.id)).Nodup) (hnodup' : (flow'.nodes.map (·.id)).Nodup)
    (hsub : (first :: rest).Sublist (decision_nodes flow)) :
    resolve flow' first rest = resolve flow first rest := by
  have hmax : max_by flow first rest = max_by flow' first rest := by
    have hsub' : (first :: rest).Sublist (decision_nodes flow') := h.decision ▸ hsub
    rw [max_by_eq_foldl ((nodes_pairwise hnodup).sublist (hsub.trans List.filter_sublist)),
      max_by_eq_foldl ((nodes_pairwise hnodup').sublist (hsub'.trans List.filter_sublist))]
  rw [resolve, resolve, h.strategy, hmax]

/-- Both select the same, or neither selects anything. -/
theorem select_congr (h : SameActive flow flow')
    (hnodup : (flow.nodes.map (·.id)).Nodup) (hnodup' : (flow'.nodes.map (·.id)).Nodup)
    {nodes : List DecisionNode} (hsub : nodes.Sublist (decision_nodes flow)) (sel : Selection) :
    select flow' nodes = .ok sel ↔ select flow nodes = .ok sel := by
  rcases nodes with _ | ⟨first, rest⟩
  · have hfallback : ∀ n, get_fallback flow' = .ok n ↔ get_fallback flow = .ok n := by
      intro n
      rw [get_fallback_eq_ok, get_fallback_eq_ok, h.fallback]
    rw [select, select, except_bind_eq_ok, except_bind_eq_ok]
    simp only [hfallback]
  · rw [select, select, resolve_congr h hnodup hnodup' hsub]

theorem matched_sublist {outcomes : List (DecisionNode × Bool)} {context : PyDict}
    (h : evaluate_nodes P context (decision_nodes flow) = .ok outcomes) :
    (matched outcomes).Sublist (decision_nodes flow) := by
  rw [← evaluate_nodes_nodes h, matched]
  exact List.filter_sublist.map _

/-- The generated ids and timestamps stay where they are put. -/
theorem initial_redrawn (h : SameActive flow flow') (outcomes : List (DecisionNode × Bool))
    (sel : Selection) (version : Option String) :
    initial draws' signal flow' outcomes sel version
      = (initial draws signal flow outcomes sel version).redrawn draws' := by
  unfold initial
  rw [h.id, h.version]
  rfl

theorem apply_dominant_redrawn (r : DecisionResult) (all_results : List BoundaryResult) :
    apply_dominant (r.redrawn draws') all_results
      = (apply_dominant r all_results).redrawn draws' := by
  rcases hdominant : dominant all_results with _ | boundary
  · rw [apply_dominant_none _ hdominant, apply_dominant_none _ hdominant]
    rfl
  · rw [apply_dominant_some _ hdominant, apply_dominant_some _ hdominant]
    unfold apply_effect
    split_ifs <;> rfl

/-- The records of boundary nodes lead back to the same nodes. -/
theorem node_records_congr (h : SameActive flow flow')
    (hnodup : (flow.nodes.map (·.id)).Nodup) (hnodup' : (flow'.nodes.map (·.id)).Nodup)
    {outcomes : List (DecisionNode × Bool)} {sel : Selection} {brs : List BoundaryResult}
    (hbrs : evaluate_boundaries P (build_context signal) (boundary_nodes flow) = .ok brs) :
    node_records flow' outcomes sel brs = node_records flow outcomes sel brs := by
  have heval : BoundariesEvaluate P signal flow := evaluate_boundaries_returns_iff.mp ⟨brs, hbrs⟩
  rw [evaluate_boundaries_eq heval] at hbrs
  have hrecords : brs.map (boundary_record flow') = brs.map (boundary_record flow) := by
    rw [← Except.ok.inj hbrs, boundary_records, List.map_map, List.map_map]
    apply List.map_congr_left
    intro n hn
    have hn' : n ∈ boundary_nodes flow' := h.boundary ▸ hn
    exact (boundary_record_eq hnodup' hn' _).trans (boundary_record_eq hnodup hn _).symm
  rw [node_records, node_records, hrecords]

/-- An evaluation of the one flow is one of the other, with other ids and times drawn. -/
theorem pure_evaluate_transfer (h : SameActive flow flow')
    (hnodup : (flow.nodes.map (·.id)).Nodup) (hnodup' : (flow'.nodes.map (·.id)).Nodup)
    {final : DecisionResult} {evaluated_nodes : List PyDict}
    (hreturns : pure_evaluate P draws signal flow = .ok (final, evaluated_nodes)) :
    pure_evaluate P draws' signal flow' = .ok (final.redrawn draws', evaluated_nodes) := by
  obtain ⟨outcomes, sel, version, brs, houtcomes, hsel, hversion, hbrs, rfl, rfl⟩ :=
    pure_evaluate_eq_ok.mp hreturns
  refine pure_evaluate_eq_ok.mpr ⟨outcomes, sel, version, brs, ?_, ?_, hversion, ?_, ?_, ?_⟩
  · rw [h.decision]
    exact houtcomes
  · exact (select_congr h hnodup hnodup' (matched_sublist houtcomes) sel).mpr hsel
  · rw [h.boundary]
    exact hbrs
  · rw [← apply_dominant_redrawn, initial_redrawn h]
  · rw [node_records_congr h hnodup hnodup' hbrs]

theorem SameActive.symm (h : SameActive flow flow') : SameActive flow' flow :=
  ⟨h.id.symm, h.version.symm, h.strategy.symm, h.decision.symm, h.fallback.symm, h.boundary.symm⟩

end Irrelevant

/-- **Structure that does not matter.** Validated flows with the same active nodes both raise, or
return the same up to generated ids and timestamps. -/
theorem structure_irrelevant {P : Platform} {flow flow' : DecisionFlow}
    {validate_conditions validate_conditions' : Bool}
    (hvalid : FlowValidator.validate P flow validate_conditions = .ok ())
    (hvalid' : FlowValidator.validate P flow' validate_conditions' = .ok ())
    (hsame : SameActive flow flow') (signal : Signal) (draws draws' : Draws) :
    (∃ e e', pure_evaluate P draws signal flow = .error e
        ∧ pure_evaluate P draws' signal flow' = .error e') ∨
      ∃ final evaluated_nodes, pure_evaluate P draws signal flow = .ok (final, evaluated_nodes)
        ∧ pure_evaluate P draws' signal flow' = .ok (final.redrawn draws', evaluated_nodes) := by
  have hnodup := nodup_of_validate hvalid
  have hnodup' := nodup_of_validate hvalid'
  rcases hreturns : pure_evaluate P draws signal flow with e | ⟨final, evaluated_nodes⟩
  · left
    rcases hreturns' : pure_evaluate P draws' signal flow' with e' | ⟨final', evaluated_nodes'⟩
    · exact ⟨e, e', rfl, rfl⟩
    · -- the other flow would make this one return as well
      have hback : pure_evaluate P draws signal flow = .ok (_, _) :=
        pure_evaluate_transfer hsame.symm hnodup' hnodup hreturns'
      cases hreturns.symm.trans hback
  · right
    exact ⟨final, evaluated_nodes, rfl, pure_evaluate_transfer hsame hnodup hnodup' hreturns⟩

end DecisionRuntime.PureEvaluate

namespace DecisionRuntime.Recorded

/-- The flow above with a switched-off node in front, other edges and another entry. -/
def annotated (policy : Value) : DecisionFlow where
  id := UUID.repeated 2
  flow_id := "payment"
  version := "1.0.0"
  entry_node_id := "draft"
  nodes := { id := "draft", node_type := .decision, config := terms, is_active := false }
    :: (ranked policy).nodes
  edges := [{ id := "e1", source_node_id := "draft", target_node_id := "ask" },
    { id := "e2", source_node_id := "ask", target_node_id := "pay" },
    { id := "e3", source_node_id := "pay", target_node_id := "note" }]
  metadata := [("layout", .str "left to right"), ("resolution_policy", policy)]

end DecisionRuntime.Recorded

namespace DecisionRuntime.PureEvaluate

/-- The flow and its annotated copy: both select the same node. -/
theorem structure_irrelevant_annotated :
    ∃ final evaluated_nodes,
      pure_evaluate (Recorded.parser (.constant .none))
          ⟨UUID.repeated 4, UUID.repeated 5, ⟨10, some 0⟩⟩ Recorded.reading
          (Recorded.ranked (.dict [("strategy", .str "priority")]))
        = .ok (final, evaluated_nodes)
      ∧ pure_evaluate (Recorded.parser (.constant .none))
          ⟨UUID.repeated 6, UUID.repeated 7, ⟨20, some 0⟩⟩ Recorded.reading
          (Recorded.annotated (.dict [("strategy", .str "priority")]))
        = .ok (final.redrawn ⟨UUID.repeated 6, UUID.repeated 7, ⟨20, some 0⟩⟩,
          evaluated_nodes) := by
  have hsame : SameActive (Recorded.ranked (.dict [("strategy", .str "priority")]))
      (Recorded.annotated (.dict [("strategy", .str "priority")])) :=
    ⟨rfl, rfl, rfl, rfl, rfl, rfl⟩
  have hvalid : FlowValidator.validate (Recorded.parser (.constant .none))
      (Recorded.ranked (.dict [("strategy", .str "priority")])) true = .ok () := by decide +kernel
  have hvalid' : FlowValidator.validate (Recorded.parser (.constant .none))
      (Recorded.annotated (.dict [("strategy", .str "priority")])) true = .ok () := by
    decide +kernel
  refine (structure_irrelevant hvalid hvalid' hsame Recorded.reading _ _).resolve_left ?_
  rintro ⟨e, -, hraised, -⟩
  have hreturns : (pure_evaluate (Recorded.parser (.constant .none))
      ⟨UUID.repeated 4, UUID.repeated 5, ⟨10, some 0⟩⟩ Recorded.reading
      (Recorded.ranked (.dict [("strategy", .str "priority")]))).isOk = true := by decide +kernel
  rw [hraised] at hreturns
  cases hreturns

end DecisionRuntime.PureEvaluate
