/-
What a boundary does to the decision, against what its declaration says.

The effect of a boundary is a text that neither the model nor the validator looks
at. The boundary engine knows five texts; any other one, and a missing one, leaves
the decision as it was. So of a validated flow a boundary that is alone in firing
changes the decision exactly when its effect is one of the four that change anything
(`effect_shows_iff`).

A severity is a text like any other, too. One outside the vocabulary passes the
validator (`severities_not_validated`) and ranks below all that are documented, so
that the boundary yields to every other one that fires with a documented severity
(`unknown_severity_dominates_iff`).
-/
import DecisionRuntime.DecisionSelection

set_option autoImplicit false

namespace DecisionRuntime.BoundaryEngine

open ConditionEvaluator PureEvaluate

/-- The documented effects that change a decision. -/
def EFFECTS : List String := ["block", "override", "escalate", "redirect"]

/-- What the documented effects make of a decision. -/
inductive Prescribed (pre : DecisionResult) (n : DecisionNode) : String → DecisionResult → Prop
  | block : Prescribed pre n "block" { pre with status := .blocked, action := none }
  | override :
      Prescribed pre n "override" { pre with action := n.action, selected_node_id := n.id }
  | escalate :
      Prescribed pre n "escalate" { pre with status := .pending_human, selected_node_id := n.id }
  | redirect :
      Prescribed pre n "redirect" { pre with action := n.action, selected_node_id := n.id }

/-- The decision is another one, and it is what one of the four effects makes of `pre`. -/
def DiffersAsPrescribed (pre : DecisionResult) (n : DecisionNode) (final : DecisionResult) : Prop :=
  (final.status, final.action, final.selected_node_id)
      ≠ (pre.status, pre.action, pre.selected_node_id)
    ∧ ∃ effect ∈ EFFECTS, ∃ changed, Prescribed pre n effect changed
      ∧ final = { changed with boundary_results := final.boundary_results }

/-- `_pure_evaluate` returns, and what it returns shows that the boundary has fired. -/
def EffectShows (P : Platform) (draws : Draws) (signal : Signal) (flow : DecisionFlow)
    (n : DecisionNode) (pre : DecisionResult) : Prop :=
  ∃ final evaluated_nodes, pure_evaluate P draws signal flow = .ok (final, evaluated_nodes)
    ∧ DiffersAsPrescribed pre n final

section Effects

variable {P : Platform} {draws : Draws} {signal : Signal} {flow : DecisionFlow}
  {n : DecisionNode} {pre : DecisionResult}

/-- An effect that is not documented, or `allow`, changes nothing. -/
theorem apply_effect_unknown {boundary : BoundaryResult} (h : boundary.effect ∉ EFFECTS) :
    apply_effect pre boundary = pre := by
  simp only [EFFECTS, List.mem_cons, List.not_mem_nil, or_false, not_or] at h
  obtain ⟨hblock, hoverride, hescalate, hredirect⟩ := h
  unfold apply_effect
  by_cases hallow : boundary.effect = "allow"
  · rw [if_pos hallow]
  · rw [if_neg hallow, if_neg hblock, if_neg hoverride, if_neg hescalate, if_neg hredirect]

/-- A documented effect does what is prescribed. -/
theorem prescribed_apply_effect {effect : String} (h : effect ∈ EFFECTS)
    (hn : node_effect n = effect) :
    Prescribed pre n effect (apply_effect pre (boundary_result n true)) := by
  have heffect : (boundary_result n true).effect = effect := hn
  simp only [EFFECTS, List.mem_cons, List.not_mem_nil, or_false] at h
  unfold apply_effect
  rcases h with rfl | rfl | rfl | rfl
  all_goals simp only [heffect, String.reduceEq, if_true, if_false]
  · exact .block
  · exact .override
  · exact .escalate
  · exact .redirect

/-- What is prescribed is a change, of a decision that no boundary has made. -/
theorem prescribed_differs {effect : String} {changed : DecisionResult}
    (hstatus : pre.status = .confirmed ∨ pre.status = .fallback)
    (hselected : pre.selected_node_id ≠ n.id) (h : Prescribed pre n effect changed) :
    (changed.status, changed.action, changed.selected_node_id)
      ≠ (pre.status, pre.action, pre.selected_node_id) := by
  intro heq
  simp only [Prod.mk.injEq] at heq
  obtain ⟨hsame, -, hid⟩ := heq
  cases h with
  | block => rcases hstatus with h | h <;> simp [h] at hsame
  | override => exact hselected hid.symm
  | escalate => exact hselected hid.symm
  | redirect => exact hselected hid.symm

/-- The effect of a node is a documented one exactly when it is declared. -/
theorem node_effect_mem_iff :
    node_effect n ∈ EFFECTS ↔ ∃ effect ∈ EFFECTS, n.effect = some effect := by
  unfold node_effect or_default
  rcases n.effect with _ | text
  · simp [EFFECTS]
  · by_cases hempty : text = ""
    · simp [hempty, EFFECTS]
    · simp [hempty]

/-- The node that is selected is no boundary. -/
theorem selects_no_boundary {status : DecisionStatus} {outcome : DecisionOutcome}
    {selected : DecisionNode} (h : Selects P signal flow selected status outcome) :
    selected ∈ flow.nodes ∧ selected.node_type ≠ .boundary
      ∧ (status = .confirmed ∨ status = .fallback) := by
  have hcandidate : ∀ m ∈ candidates P signal flow,
      m ∈ flow.nodes ∧ m.node_type ≠ .boundary := by
    intro m hm
    have hnode := (List.mem_filter.mp hm).1
    rw [mem_decision_nodes] at hnode
    rw [hnode.2.1]
    exact ⟨hnode.1, by simp⟩
  cases h with
  | by_priority policy first =>
      obtain ⟨hmem, htype⟩ := hcandidate selected first.mem
      exact ⟨hmem, htype, Or.inl rfl⟩
  | first_match policy differs first =>
      obtain ⟨hmem, htype⟩ := hcandidate selected (List.mem_of_head? first)
      exact ⟨hmem, htype, Or.inl rfl⟩
  | fallback unmatched first =>
      have hnode := List.mem_of_head? first
      simp only [fallback_nodes, List.mem_filter, decide_eq_true_eq] at hnode
      rw [hnode.2.1]
      exact ⟨hnode.1, by simp, Or.inr rfl⟩

/-- Alone in firing, a boundary dominates. -/
theorem firstGreatest_alone (hn : n ∈ boundary_nodes flow) (hfires : Fires P signal n)
    (halone : ∀ m ∈ boundary_nodes flow, m ≠ n →
      evaluate P m.condition (build_context signal) = .ok false) :
    FirstGreatest node_severity (firing P signal flow) n := by
  have hmem : n ∈ firing P signal flow := List.mem_filter.mpr ⟨hn, decide_eq_true hfires⟩
  obtain ⟨w, hw⟩ := exists_firstGreatest node_severity (List.ne_nil_of_mem hmem)
  obtain ⟨hwn, hwfires⟩ := List.mem_filter.mp hw.mem
  by_cases heq : w = n
  · rwa [heq] at hw
  · -- any other boundary is known not to fire
    have hfalse := halone w hwn heq
    cases hfalse.symm.trans (of_decide_eq_true hwfires)

end Effects

/-- **An effect that shows.** When a boundary of a validated flow is alone in firing, the decision
differs as one of the four effects prescribes exactly when the declared effect is one of them. -/
theorem effect_shows_iff {P : Platform} {flow : DecisionFlow} {validate_conditions : Bool}
    (h : FlowValidator.validate P flow validate_conditions = .ok ()) {draws : Draws}
    {signal : Signal} {outcomes : List (DecisionNode × Bool)} {sel : Selection}
    {pre : DecisionResult}
    (hbefore : before_boundaries P draws signal flow = .ok (outcomes, sel, pre))
    {n : DecisionNode} (hn : n ∈ boundary_nodes flow) (hfires : Fires P signal n)
    (halone : ∀ m ∈ boundary_nodes flow, m ≠ n →
      evaluate P m.condition (build_context signal) = .ok false) :
    EffectShows P draws signal flow n pre ↔ ∃ effect ∈ EFFECTS, n.effect = some effect := by
  have hnodup := nodup_of_validate h
  have hexact := exactlySelected hnodup hbefore
  have heval : BoundariesEvaluate P signal flow := by
    intro m hm
    by_cases heq : m = n
    · rw [heq]
      exact ⟨true, hfires⟩
    · exact ⟨false, halone m hm heq⟩
  -- the only boundary that fires has its effect applied
  have hfinal : apply_dominant pre (boundary_records P signal flow)
      = { apply_effect pre (boundary_result n true) with
          boundary_results := boundary_records P signal flow } :=
    apply_dominant_eq_apply_effect (firstGreatest_alone hn hfires halone)
  have hanswer := hexact.answer heval
  rw [hfinal] at hanswer
  rw [← node_effect_mem_iff]
  constructor
  · rintro ⟨final, evaluated_nodes, hreturns, hdiffers, -⟩
    by_contra hunknown
    obtain ⟨rfl, -⟩ := except_pair_unique hreturns hanswer
    apply hdiffers
    rw [apply_effect_unknown hunknown]
  · intro heffect
    obtain ⟨hmem, htype, hstatus⟩ := selects_no_boundary hexact.selects
    have hprescribed : Prescribed pre n (node_effect n)
        (apply_effect pre (boundary_result n true)) := prescribed_apply_effect heffect rfl
    have hselected : pre.selected_node_id ≠ n.id := by
      obtain ⟨hmem', htype', -⟩ := mem_boundary_nodes.mp hn
      rw [hexact.selected_node_id]
      exact id_ne_of_node_type_ne hnodup hmem hmem' (by rw [htype']; exact htype)
    have hdiffers := prescribed_differs hstatus hselected hprescribed
    exact ⟨_, _, hanswer, hdiffers, node_effect n, heffect, _, hprescribed, rfl⟩

/-! ## Severities -/

/-- The documented severities. -/
def SEVERITIES : List String := ["critical", "high", "medium", "low"]

/-- A node has no rank exactly when its severity is declared and not documented. -/
theorem node_severity_eq_zero_iff {n : DecisionNode} :
    node_severity n = 0 ↔ ∃ severity, n.severity = some severity ∧ severity ≠ ""
      ∧ severity ∉ SEVERITIES := by
  unfold node_severity or_default
  rcases n.severity with _ | text
  · simp [severity_order]
  · by_cases hempty : text = ""
    · simp [hempty, severity_order]
    · simp only [hempty, if_false, Option.some.injEq, exists_eq_left', ne_eq, not_false_eq_true,
        true_and, SEVERITIES, List.mem_cons, List.not_mem_nil, or_false, not_or]
      unfold severity_order
      split_ifs <;> simp_all

/-- **A severity that is not documented** puts its boundary below all others: it takes effect only
when no boundary that fires has a documented one, and it is the first of them. -/
theorem unknown_severity_dominates_iff {P : Platform} {signal : Signal} {flow : DecisionFlow}
    {n : DecisionNode} (hunknown : node_severity n = 0) :
    FirstGreatest node_severity (firing P signal flow) n ↔
      (∀ m ∈ firing P signal flow, node_severity m = 0)
        ∧ (firing P signal flow).head? = some n := by
  rw [firstGreatest_iff_head, hunknown]
  simp only [Nat.le_zero]
  apply and_congr_right
  intro hall
  rw [List.filter_eq_self.mpr fun m hm => decide_eq_true (hall m hm)]

end DecisionRuntime.BoundaryEngine

namespace DecisionRuntime.FlowValidator

/-- The flow with other severities. -/
def with_severities (severity : DecisionNode → Option String) (flow : DecisionFlow) :
    DecisionFlow :=
  { flow with nodes := flow.nodes.map (fun n => { n with severity := severity n }) }

section Severities

variable (severity : DecisionNode → Option String) (flow : DecisionFlow)

theorem ids_with_severities :
    (with_severities severity flow).nodes.map (·.id) = flow.nodes.map (·.id) := by
  simp [with_severities, Function.comp_def]

/-- The graph is the same one. -/
theorem adj_with_severities : adj (with_severities severity flow) = adj flow := by
  funext x
  unfold adj
  rw [ids_with_severities]
  rfl

theorem find_reachable_with_severities :
    find_reachable (with_severities severity flow) = find_reachable flow := by
  unfold find_reachable
  rw [adj_with_severities]
  rfl

theorem has_cycle_with_severities :
    has_cycle (with_severities severity flow) = has_cycle flow := by
  unfold has_cycle
  rw [adj_with_severities, ids_with_severities]
  simp [with_severities]

theorem check_unique_with_severities (seen : List String) (nodes : List DecisionNode) :
    check_unique (with_severities severity flow) seen
      (nodes.map (fun n => { n with severity := severity n })) = check_unique flow seen nodes := by
  induction nodes generalizing seen with
  | nil => rfl
  | cons n nodes ih =>
      rw [List.map_cons, check_unique, check_unique, ih]
      rfl

end Severities

/-- **The validator does not look at severities.** -/
theorem severities_not_validated (P : Platform) (flow : DecisionFlow)
    (severity : DecisionNode → Option String) (validate_conditions : Bool) :
    validate P (with_severities severity flow) validate_conditions
      = validate P flow validate_conditions := by
  -- the checks, in the order of the source
  have hhas : check_has_nodes (with_severities severity flow) = check_has_nodes flow := by
    simp [check_has_nodes, with_severities, invalid]
  have hunique : check_unique_node_ids (with_severities severity flow)
      = check_unique_node_ids flow := check_unique_with_severities severity flow [] flow.nodes
  have hentry : check_entry_node_exists (with_severities severity flow)
      = check_entry_node_exists flow := by
    unfold check_entry_node_exists
    rw [ids_with_severities]
    rfl
  have hedges : check_edge_references (with_severities severity flow)
      = check_edge_references flow := by
    unfold check_edge_references
    rw [ids_with_severities]
    rfl
  have hfallback : check_exactly_one_fallback (with_severities severity flow)
      = check_exactly_one_fallback flow := by
    simp [check_exactly_one_fallback, with_severities, invalid, List.filter_map,
      Function.comp_def]
  have horphan : check_no_orphan_nodes (with_severities severity flow)
      = check_no_orphan_nodes flow := by
    unfold check_no_orphan_nodes
    rw [find_reachable_with_severities]
    simp [with_severities, invalid, List.filter_map, Function.comp_def, List.forM_map]
  have hcycles : check_cycles (with_severities severity flow) = check_cycles flow := by
    unfold check_cycles
    rw [has_cycle_with_severities]
    rfl
  have hcontracts : check_contract_nodes P (with_severities severity flow)
      = check_contract_nodes P flow := by
    simp [check_contract_nodes, with_severities, invalid, List.forM_map]
  have hconditions : ∀ syntax_check,
      check_node_conditions (with_severities severity flow) syntax_check
        = check_node_conditions flow syntax_check := by
    intro syntax_check
    simp [check_node_conditions, with_severities, check_condition, invalid, List.forM_map]
  unfold validate validate_with
  rw [hhas, hunique, hentry, hedges, hfallback, horphan, hcycles, hcontracts, hconditions]
  rfl

end DecisionRuntime.FlowValidator

namespace DecisionRuntime.Recorded

/-- The boundary node of the flow below. -/
def limit (effect : Option String) : DecisionNode where
  id := "limit"
  node_type := .boundary
  severity := some "critical"
  effect := effect
  config := terms

/-- A decision node and a boundary, neither with a condition. -/
def limited (effect : Option String) : DecisionFlow where
  id := UUID.repeated 3
  flow_id := "payment"
  version := "1.0.0"
  entry_node_id := "always"
  nodes :=
    [{ id := "always", node_type := .decision, config := terms },
      limit effect,
      { id := "manual", node_type := .fallback, config := terms }]
  edges := [{ id := "e1", source_node_id := "always", target_node_id := "limit" }]

/-- There is one boundary. -/
theorem limited_alone (P : Platform) (effect : Option String) :
    ∀ m ∈ BoundaryEngine.boundary_nodes (limited effect), m ≠ limit effect →
      ConditionEvaluator.evaluate P m.condition (ConditionEvaluator.build_context reading)
        = .ok false := by
  intro m hm hne
  refine absurd ?_ hne
  simpa [BoundaryEngine.boundary_nodes, limited, limit] using hm

theorem limit_mem (effect : Option String) :
    limit effect ∈ BoundaryEngine.boundary_nodes (limited effect) := by
  simp [BoundaryEngine.boundary_nodes, limited, limit]

/-- The evaluation of the flow comes to the boundary. -/
theorem limited_before (P : Platform) (effect : Option String) : ∃ outcomes sel pre,
    PureEvaluate.before_boundaries P ⟨UUID.repeated 4, UUID.repeated 5, ⟨10, some 0⟩⟩ reading
      (limited effect) = .ok (outcomes, sel, pre) :=
  ⟨_, _, _, rfl⟩

end DecisionRuntime.Recorded

namespace DecisionRuntime.BoundaryEngine

open ConditionEvaluator PureEvaluate

/-- A boundary that is declared with `block` shows. -/
theorem effect_shows_block : ∃ pre,
    EffectShows (Recorded.parser (.constant .none)) ⟨UUID.repeated 4, UUID.repeated 5, ⟨10, some 0⟩⟩
      Recorded.reading (Recorded.limited (some "block")) (Recorded.limit (some "block")) pre := by
  have hvalid : FlowValidator.validate (Recorded.parser (.constant .none))
      (Recorded.limited (some "block")) true = .ok () := by decide +kernel
  obtain ⟨outcomes, sel, pre, hbefore⟩ :=
    Recorded.limited_before (Recorded.parser (.constant .none)) (some "block")
  refine ⟨pre, (effect_shows_iff hvalid hbefore (Recorded.limit_mem _) rfl
    (Recorded.limited_alone _ _)).mpr ⟨"block", by decide, rfl⟩⟩

/-- One that is declared with `blok` passes validation, and is ignored. -/
theorem effect_shows_misspelt :
    ¬ ∀ (P : Platform) (draws : Draws) (signal : Signal) (flow : DecisionFlow) (n : DecisionNode)
        (outcomes : List (DecisionNode × Bool)) (sel : Selection) (pre : DecisionResult),
      FlowValidator.validate P flow true = .ok () →
      before_boundaries P draws signal flow = .ok (outcomes, sel, pre) →
      n ∈ boundary_nodes flow → n.effect ≠ some "allow" → Fires P signal n →
      (∀ m ∈ boundary_nodes flow, m ≠ n →
        evaluate P m.condition (build_context signal) = .ok false) →
      EffectShows P draws signal flow n pre := by
  intro h
  have hvalid : FlowValidator.validate (Recorded.parser (.constant .none))
      (Recorded.limited (some "blok")) true = .ok () := by decide +kernel
  obtain ⟨outcomes, sel, pre, hbefore⟩ :=
    Recorded.limited_before (Recorded.parser (.constant .none)) (some "blok")
  obtain ⟨final, evaluated_nodes, hreturns, hdiffers, -⟩ :=
    h _ _ _ _ _ _ _ _ hvalid hbefore (Recorded.limit_mem _) (by decide) rfl
      (Recorded.limited_alone _ _)
  have hexact := exactlySelected (nodup_of_validate hvalid) hbefore
  have heval : BoundariesEvaluate (Recorded.parser (.constant .none)) Recorded.reading
      (Recorded.limited (some "blok")) := by
    intro m hm
    by_cases heq : m = Recorded.limit (some "blok")
    · rw [heq]
      exact ⟨true, rfl⟩
    · exact ⟨false, Recorded.limited_alone _ _ m hm heq⟩
  have hanswer := hexact.answer heval
  have hfirst : FirstGreatest node_severity (firing (Recorded.parser (.constant .none))
      Recorded.reading (Recorded.limited (some "blok"))) (Recorded.limit (some "blok")) :=
    firstGreatest_alone (Recorded.limit_mem _) rfl (Recorded.limited_alone _ _)
  rw [apply_dominant_eq_apply_effect hfirst, apply_effect_unknown (by decide)] at hanswer
  obtain ⟨rfl, -⟩ := except_pair_unique hreturns hanswer
  exact hdiffers rfl

end DecisionRuntime.BoundaryEngine
