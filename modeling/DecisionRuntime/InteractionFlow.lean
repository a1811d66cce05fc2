/-
The flow that is shipped for the signals of the interaction core,
`backend/flows/interaction_default_flow.yaml`.

Its documentation is a cascade: high-risk keywords go to a human, then come
suggested actions, content that needs structuring, low confidence, and the log
(`policy`). The flow is no cascade. Four decision nodes are evaluated side by side and
the priorities choose among those that match, and a boundary with the condition of the
first node overrules the choice. That this comes to the cascade is
`implements_policy`.

The literals `0.5`, `0.7` and `0.8` are the numbers the parser reads them as.
-/
import DecisionRuntime.DecisionSelection
import DecisionRuntime.FlowRegistry
import DecisionRuntime.LiteralNormalisation
import DecisionRuntime.Replay

set_option autoImplicit false

namespace DecisionRuntime.InteractionFlow

open ConditionEvaluator PureEvaluate BoundaryEngine

/-! ## The file -/

/-- The condition of the first node and of the boundary: the folded lines, joined by spaces. -/
def high_risk_condition : String :=
  "(\"legal\" in payload.keywords or \"contract\" in payload.keywords or "
    ++ "\"security\" in payload.keywords or \"incident\" in payload.keywords or "
    ++ "\"refund\" in payload.keywords or \"compliance\" in payload.keywords) "
    ++ "and confidence >= 0.7"

def suggested_condition : String := "payload.suggested_actions and confidence >= 0.8"

def structuring_condition : String :=
  "(payload.insights or payload.keywords or payload.suggested_actions) "
    ++ "and confidence >= 0.5 and confidence < 0.8"

def low_condition : String := "confidence < 0.5"

/-- An action with the reason it is taken for. -/
def action (type target reason : String) : PyDict :=
  [("type", .str type), ("target", .str target),
    ("parameters", .dict [("reason", .str reason)])]

/-- The inline contract of a node. -/
def contract (contract_type : String) : PyDict :=
  [("contract_type", .str contract_type), ("contract_version", .str "1.0.0")]

def required_signals (names : List String) : PyDict :=
  [("required_signals", .list (names.map .str))]

def high_risk_escalation : DecisionNode where
  id := "high_risk_escalation"
  node_type := .decision
  condition := some high_risk_condition
  priority := 40
  action := some (action "escalate" "human_review" "high_risk_interaction_signal")
  config := contract "interaction_high_risk" ++ required_signals ["confidence", "keywords"]

def high_confidence_action : DecisionNode where
  id := "high_confidence_action"
  node_type := .decision
  condition := some suggested_condition
  priority := 30
  action := some (action "create_decision_candidate" "decision_trace_studio"
    "high_confidence_suggested_action")
  config := contract "interaction_decision_candidate"
    ++ required_signals ["confidence", "suggested_actions"]

def needs_structuring : DecisionNode where
  id := "needs_structuring"
  node_type := .decision
  condition := some structuring_condition
  priority := 20
  action := some (action "route_to_studio" "decision_trace_studio" "needs_structuring")
  config := contract "interaction_studio_routing" ++ required_signals ["confidence"]

def low_confidence : DecisionNode where
  id := "low_confidence"
  node_type := .decision
  condition := some low_condition
  priority := 10
  action := some (action "notify_only" "channel" "low_confidence_signal")
  config := contract "interaction_notify_only" ++ required_signals ["confidence"]

def high_risk_escalation_boundary : DecisionNode where
  id := "high_risk_escalation_boundary"
  node_type := .boundary
  condition := some high_risk_condition
  severity := some "high"
  effect := some "escalate"
  config := contract "high_risk_escalation_gate" ++ [("boundary_type", .str "escalation_guard")]

def interaction_review_gate : DecisionNode where
  id := "interaction_review_gate"
  node_type := .human_gate
  config :=
    [("timeout_seconds", .int 3600), ("assignee_role", .str "human_review"),
      ("title", .str "High-Risk Interaction Signal Requires Human Review"),
      ("question", .str ("A high-risk signal from Interaction Core has been flagged. "
        ++ "Please review the interaction analysis and approve or reject the proposed "
        ++ "escalation.\n"))]

def interaction_complete : DecisionNode where
  id := "interaction_complete"
  node_type := .end

def fallback_log_only : DecisionNode where
  id := "fallback_log_only"
  node_type := .fallback
  action := some (action "log_only" "ledger" "no_actionable_signal")
  config := contract "interaction_fallback_logging"

/-- An edge, with the outcome it is taken on. -/
def edge (id source target : String) (outcome : Option String) (priority : ℕ) : FlowEdge where
  id := id
  source_node_id := source
  target_node_id := target
  condition_expression := outcome.map (fun o => "outcome == '" ++ o ++ "'")
  priority := priority

def edges : List FlowEdge :=
  [edge "high_risk_to_boundary" "high_risk_escalation" "high_risk_escalation_boundary"
      (some "pass") 0,
    edge "boundary_to_gate" "high_risk_escalation_boundary" "interaction_review_gate" none 0,
    edge "gate_to_complete" "interaction_review_gate" "interaction_complete" none 0,
    edge "high_risk_to_high_confidence" "high_risk_escalation" "high_confidence_action"
      (some "fail") 1,
    edge "high_confidence_to_complete" "high_confidence_action" "interaction_complete"
      (some "pass") 0,
    edge "high_confidence_to_needs_structuring" "high_confidence_action" "needs_structuring"
      (some "fail") 1,
    edge "needs_structuring_to_complete" "needs_structuring" "interaction_complete"
      (some "pass") 0,
    edge "needs_structuring_to_low_confidence" "needs_structuring" "low_confidence"
      (some "fail") 1,
    edge "low_confidence_to_complete" "low_confidence" "interaction_complete" (some "pass") 0,
    edge "low_confidence_to_fallback" "low_confidence" "fallback_log_only" (some "fail") 1]

/-- `interaction_default_flow.yaml`. -/
def interaction_default_flow : FlowFile where
  flow_id := "interaction_default_flow"
  version := "1.0.0"
  entry_node_id := "high_risk_escalation"
  is_active := true
  metadata :=
    [("resolution_policy", .dict [("strategy", .str "priority"), ("tiebreaker", .str "fifo")]),
      ("execution_policy", .dict [("mode", .str "sequential"), ("retry", .bool false),
        ("timeout_seconds", .int 60)]),
      ("error_policy", .dict [("on_error", .str "fallback"),
        ("fallback_node_id", .str "fallback_log_only")])]
  nodes := [high_risk_escalation, high_confidence_action, needs_structuring, low_confidence,
    high_risk_escalation_boundary, interaction_review_gate, interaction_complete,
    fallback_log_only]
  edges := edges

/-! ## How its conditions are read -/

/-- The keywords that make a signal high-risk. -/
def HIGH_RISK : List String :=
  ["legal", "contract", "security", "incident", "refund", "compliance"]

/-- `payload.key`. -/
def payload_key (key : String) : Expr := .attribute (.name "payload" .load) key .load

/-- `"keyword" in payload.keywords`. -/
def has_keyword (keyword : String) : Expr :=
  .compare (.constant (.str keyword)) [.in] [payload_key "keywords"]

/-- `confidence >= q`. -/
def at_least (q : ℚ) : Expr :=
  .compare (.name "confidence" .load) [.gt_e] [.constant (.float (.finite q))]

/-- `confidence < q`. -/
def below (q : ℚ) : Expr :=
  .compare (.name "confidence" .load) [.lt] [.constant (.float (.finite q))]

def high_risk_tree (c7 : ℚ) : Expr :=
  .boolOp .and [.boolOp .or (HIGH_RISK.map has_keyword), at_least c7]

def suggested_tree (c8 : ℚ) : Expr := .boolOp .and [payload_key "suggested_actions", at_least c8]

def structuring_tree (c5 c8 : ℚ) : Expr :=
  .boolOp .and
    [.boolOp .or [payload_key "insights", payload_key "keywords", payload_key "suggested_actions"],
      at_least c5, below c8]

def low_tree (c5 : ℚ) : Expr := below c5

/-- `ast.parse` reads the conditions as what they say, and the literals `0.5`, `0.7` and `0.8` as
`c5`, `c7` and `c8`. -/
structure ReadsConditions (P : Platform) (c5 c7 c8 : ℚ) : Prop where
  high_risk : P.ast_parse high_risk_condition = .ok (high_risk_tree c7)
  suggested : P.ast_parse suggested_condition = .ok (suggested_tree c8)
  structuring : P.ast_parse structuring_condition = .ok (structuring_tree c5 c8)
  low : P.ast_parse low_condition = .ok (low_tree c5)

/-! ## What its conditions say -/

/-- Under the key there is a list of strings, or nothing, which counts as an empty list. -/
def Strings (payload : PyDict) (key : String) (texts : List String) : Prop :=
  PyDict.get payload key = some (.list (texts.map .str))
    ∨ PyDict.get payload key = none ∧ texts = []

section Conditions

variable {P : Platform} {signal : Signal} {ctx : PyDict}

/-- The text of a condition that is neither stripped nor normalised. -/
def Untouched (text : List Char) : Prop :=
  text.all (fun c => c.val.toNat < 128) = true
    ∧ (∀ word ∈ runs ascii_word [] text, ¬is_literal word)
    ∧ strip text = text ∧ text.isEmpty = false

instance : DecidablePred Untouched := fun _ => inferInstanceAs (Decidable (_ ∧ _ ∧ _ ∧ _))

/-- It is evaluated as its tree. -/
theorem evaluate_text {text : String} {tree : Expr} {v : Option Value}
    (htext : Untouched text.toList) (hparse : P.ast_parse text = .ok tree)
    (hcheck : check tree = .ok ()) (heval : eval ctx tree = .ok v) :
    evaluate P (some text) ctx = .ok (coerce_bool v) := by
  obtain ⟨hascii, hnone, hstrip, hne⟩ := htext
  have htree : parse_condition P text = .ok tree := by
    rw [parse_condition, hstrip, normalize_of_ascii hascii hnone, String.ofList_toList, hparse]
  unfold evaluate
  simp only [hstrip, hne, Bool.false_eq_true, if_false]
  rw [htree, except_ok_bind, hcheck, except_ok_bind, heval]
  rfl

theorem eval_and_cons {e : Expr} {es : List Expr} {v : Option Value} {b : Bool}
    (he : eval ctx e = .ok v) (hes : eval_and ctx es = .ok b) :
    eval_and ctx (e :: es) = .ok (coerce_bool v && b) := by
  rw [eval_and, he, except_ok_bind, hes]
  cases coerce_bool v <;> rfl

theorem eval_or_cons {e : Expr} {es : List Expr} {v : Option Value} {b : Bool}
    (he : eval ctx e = .ok v) (hes : eval_or ctx es = .ok b) :
    eval_or ctx (e :: es) = .ok (coerce_bool v || b) := by
  rw [eval_or, he, except_ok_bind, hes]
  cases coerce_bool v <;> rfl

theorem eval_payload_key (key : String) :
    eval (build_context signal) (payload_key key) = .ok (PyDict.get signal.payload key) := by
  rw [payload_key, eval, eval, except_ok_bind]
  rfl

theorem coerce_strings {key : String} {texts : List String}
    (h : Strings signal.payload key texts) :
    coerce_bool (PyDict.get signal.payload key) = decide (texts ≠ []) := by
  rcases h with h | ⟨h, rfl⟩
  · rw [h]
    cases texts <;> rfl
  · rw [h]
    rfl

theorem eval_has_keyword {keywords : List String}
    (h : Strings signal.payload "keywords" keywords) (keyword : String) :
    eval (build_context signal) (has_keyword keyword)
      = .ok (some (.bool (decide (keyword ∈ keywords)))) := by
  rw [has_keyword, eval, eval, except_ok_bind, eval_chain, eval_payload_key, except_ok_bind]
  rcases h with h | ⟨h, rfl⟩
  · have hany : ((keywords.map Value.str).any (fun x => (Value.str keyword).pyEq x))
        = decide (keyword ∈ keywords) := by
      rw [List.any_map, Bool.eq_iff_iff, List.any_eq_true, decide_eq_true_eq]
      constructor
      · rintro ⟨text, htext, heq⟩
        have hsame : keyword = text := by simpa [Value.pyEq] using heq
        rw [hsame]
        exact htext
      · intro hmem
        exact ⟨keyword, hmem, by simp [Value.pyEq]⟩
    rw [h, apply_cmp, compare_values, contains, hany]
    cases decide (keyword ∈ keywords) <;> rfl
  · rw [h, apply_cmp]
    · rfl
    · simp

theorem eval_any_keyword {keywords : List String}
    (h : Strings signal.payload "keywords" keywords) (texts : List String) :
    eval_or (build_context signal) (texts.map has_keyword)
      = .ok (decide (∃ keyword ∈ texts, keyword ∈ keywords)) := by
  induction texts with
  | nil => simp [eval_or]
  | cons text texts ih =>
      rw [List.map_cons, eval_or_cons (eval_has_keyword h text) ih]
      simp [coerce_bool, Value.truthy]

theorem pyCmp_floats (p q : ℚ) : (Value.float (.finite p)).pyCmp (.float (.finite q))
    = some (if p < q then .lt else if p = q then .eq else .gt) := by
  simp [Value.pyCmp, Value.real, PyFloat.cmp]

/-- A comparison of the confidence that does not raise. -/
theorem eval_confidence {op : CmpOp} {q : ℚ} {b : Bool}
    (h : compare_values signal.confidence.toValue op (.float (.finite q)) = .ok b) :
    eval (build_context signal)
        (.compare (.name "confidence" .load) [op] [.constant (.float (.finite q))])
      = .ok (some (.bool b)) := by
  have hget : PyDict.get (build_context signal) "confidence" = some signal.confidence.toValue := rfl
  have happly : apply_cmp (some signal.confidence.toValue) op (some (.float (.finite q)))
      = .ok b := by
    rw [apply_cmp, h]
  rw [eval, eval, except_ok_bind, eval_chain, eval, except_ok_bind, hget, happly]
  cases b <;> rfl

theorem eval_at_least (q : ℚ) : eval (build_context signal) (at_least q)
    = .ok (some (.bool (decide (q ≤ signal.confidence.val)))) := by
  apply eval_confidence
  unfold compare_values
  rw [Confidence.toValue, pyCmp_floats]
  by_cases hlt : signal.confidence.val < q
  · simp [hlt, not_le.mpr hlt]
  by_cases heq : signal.confidence.val = q
  · simp [heq]
  · simp [hlt, heq, not_lt.mp hlt]

theorem eval_below (q : ℚ) : eval (build_context signal) (below q)
    = .ok (some (.bool (decide (signal.confidence.val < q)))) := by
  apply eval_confidence
  unfold compare_values
  rw [Confidence.toValue, pyCmp_floats]
  by_cases hlt : signal.confidence.val < q
  · simp [hlt]
  by_cases heq : signal.confidence.val = q
  · simp [heq]
  · simp [hlt, heq]

/-! ### The four conditions -/

variable {c5 c7 c8 : ℚ} {keywords insights suggested_actions : List String}

theorem evaluate_high_risk (hreads : ReadsConditions P c5 c7 c8)
    (hkeywords : Strings signal.payload "keywords" keywords) :
    evaluate P (some high_risk_condition) (build_context signal)
      = .ok (decide ((∃ keyword ∈ HIGH_RISK, keyword ∈ keywords)
          ∧ c7 ≤ signal.confidence.val)) := by
  have hor : eval (build_context signal) (.boolOp .or (HIGH_RISK.map has_keyword))
      = .ok (some (.bool (decide (∃ keyword ∈ HIGH_RISK, keyword ∈ keywords)))) := by
    rw [eval, eval_any_keyword hkeywords]
    rfl
  have htree : eval (build_context signal) (high_risk_tree c7) = .ok (some (.bool (decide
      ((∃ keyword ∈ HIGH_RISK, keyword ∈ keywords) ∧ c7 ≤ signal.confidence.val)))) := by
    rw [high_risk_tree, eval,
      eval_and_cons hor (eval_and_cons (eval_at_least c7) (by rw [eval_and])), except_ok_bind]
    simp [coerce_bool, Value.truthy]
    rfl
  have htext : Untouched high_risk_condition.toList := by decide +kernel
  exact evaluate_text htext hreads.high_risk rfl htree

theorem evaluate_suggested (hreads : ReadsConditions P c5 c7 c8)
    (hsuggested : Strings signal.payload "suggested_actions" suggested_actions) :
    evaluate P (some suggested_condition) (build_context signal)
      = .ok (decide (suggested_actions ≠ [] ∧ c8 ≤ signal.confidence.val)) := by
  have htree : eval (build_context signal) (suggested_tree c8) = .ok (some (.bool (decide
      (suggested_actions ≠ [] ∧ c8 ≤ signal.confidence.val)))) := by
    rw [suggested_tree, eval, eval_and_cons (eval_payload_key "suggested_actions")
      (eval_and_cons (eval_at_least c8) (by rw [eval_and])), except_ok_bind,
      coerce_strings hsuggested]
    simp [coerce_bool, Value.truthy]
    rfl
  have htext : Untouched suggested_condition.toList := by decide +kernel
  exact evaluate_text htext hreads.suggested rfl htree

theorem evaluate_structuring (hreads : ReadsConditions P c5 c7 c8)
    (hkeywords : Strings signal.payload "keywords" keywords)
    (hinsights : Strings signal.payload "insights" insights)
    (hsuggested : Strings signal.payload "suggested_actions" suggested_actions) :
    evaluate P (some structuring_condition) (build_context signal)
      = .ok (decide ((insights ≠ [] ∨ keywords ≠ [] ∨ suggested_actions ≠ [])
          ∧ c5 ≤ signal.confidence.val ∧ signal.confidence.val < c8)) := by
  have hor : eval (build_context signal) (.boolOp .or
      [payload_key "insights", payload_key "keywords", payload_key "suggested_actions"])
      = .ok (some (.bool (decide (insights ≠ [] ∨ keywords ≠ [] ∨ suggested_actions ≠ [])))) := by
    rw [eval, eval_or_cons (eval_payload_key "insights") (eval_or_cons (eval_payload_key "keywords")
      (eval_or_cons (eval_payload_key "suggested_actions") (by rw [eval_or]))), except_ok_bind,
      coerce_strings hinsights, coerce_strings hkeywords, coerce_strings hsuggested]
    simp
    rfl
  have htree : eval (build_context signal) (structuring_tree c5 c8) = .ok (some (.bool (decide
      ((insights ≠ [] ∨ keywords ≠ [] ∨ suggested_actions ≠ [])
        ∧ c5 ≤ signal.confidence.val ∧ signal.confidence.val < c8)))) := by
    rw [structuring_tree, eval, eval_and_cons hor (eval_and_cons (eval_at_least c5)
      (eval_and_cons (eval_below c8) (by rw [eval_and]))), except_ok_bind]
    simp [coerce_bool, Value.truthy]
    rfl
  have htext : Untouched structuring_condition.toList := by decide +kernel
  exact evaluate_text htext hreads.structuring rfl htree

theorem evaluate_low (hreads : ReadsConditions P c5 c7 c8) :
    evaluate P (some low_condition) (build_context signal)
      = .ok (decide (signal.confidence.val < c5)) := by
  have htext : Untouched low_condition.toList := by decide +kernel
  exact evaluate_text htext hreads.low rfl (eval_below c5)

end Conditions

/-! ## The flow -/

/-- The documented policy: a status and the type of an action. -/
def policy (c5 c7 c8 confidence : ℚ) (keywords insights suggested_actions : List String) :
    DecisionStatus × String :=
  if (∃ keyword ∈ HIGH_RISK, keyword ∈ keywords) ∧ c7 ≤ confidence then
    (.pending_human, "escalate")
  else if suggested_actions ≠ [] ∧ c8 ≤ confidence then (.confirmed, "create_decision_candidate")
  else if (insights ≠ [] ∨ keywords ≠ [] ∨ suggested_actions ≠ [])
      ∧ c5 ≤ confidence ∧ confidence < c8 then (.confirmed, "route_to_studio")
  else if confidence < c5 then (.confirmed, "notify_only")
  else (.fallback, "log_only")

/-- The type of an action. -/
def action_type (action : Option PyDict) : Option Value := action.bind (PyDict.get · "type")

/-- Of nodes that are in the order of their priorities the first one is the best. -/
theorem max_by_first {flow : DecisionFlow} {first : DecisionNode} {rest : List DecisionNode}
    (h : ∀ n ∈ rest, n.priority < first.priority) : max_by flow first rest = first := by
  induction rest with
  | nil => rfl
  | cons n rest ih =>
      rw [List.forall_mem_cons] at h
      have hbeats : beats flow n first = false := by
        simp [beats]
        omega
      rw [max_by, hbeats]
      exact ih h.2

section Flow

variable {P : Platform} {signal : Signal} {draws : Draws}

/-- The flow that the file is parsed to. -/
def shipped (P : Platform) : DecisionFlow where
  id := P.uuid5 FlowRegistry.NAMESPACE_DNS
    (FlowRegistry.flow_name interaction_default_flow.flow_id interaction_default_flow.version)
  flow_id := interaction_default_flow.flow_id
  version := interaction_default_flow.version
  entry_node_id := interaction_default_flow.entry_node_id
  nodes := interaction_default_flow.nodes
  edges := interaction_default_flow.edges
  is_active := interaction_default_flow.is_active
  metadata := interaction_default_flow.metadata

theorem parse_shipped (P : Platform) :
    FlowRegistry.parse P interaction_default_flow = .ok (shipped P) := by
  unfold FlowRegistry.parse
  rw [if_pos]
  · rfl
  · refine ⟨by decide, by decide, rfl, by decide⟩

/-- The file is loaded. -/
theorem load_shipped (P : Platform) (R : FlowRegistry) :
    FlowRegistry.load_file P interaction_default_flow R = .ok (R.cache (shipped P)) := by
  have hvalid : FlowValidator.validate P (shipped P) false = .ok () := rfl
  rw [FlowRegistry.load_file, parse_shipped, except_ok_bind, FlowRegistry.load, hvalid]
  rfl

/-- The first of the nodes that match is selected. -/
theorem select_first {first : DecisionNode} {rest : List DecisionNode}
    (h : ∀ n ∈ rest, n.priority < first.priority) : select (shipped P) (first :: rest)
      = .ok { selected := first, status := .confirmed, outcome := .pass, records := [] } := by
  have hstrategy : strategy (shipped P) = .ok (.str "priority") := rfl
  rw [select, resolve, hstrategy, except_ok_bind, if_pos (Value.pyEq_str_iff.mpr rfl),
    max_by_first h]
  rfl

/-- Without a match it is the fallback. -/
theorem select_none : select (shipped P) []
    = .ok { selected := fallback_log_only, status := .fallback, outcome := .fail,
            records := [fallback_record fallback_log_only] } := by
  rfl

/-- What the four decision nodes come to. -/
def verdicts (a b c d : Bool) : List (DecisionNode × Bool) :=
  [(high_risk_escalation, a), (high_confidence_action, b), (needs_structuring, c),
    (low_confidence, d)]

/-- Nodes with lower priorities, of which some match. -/
theorem matched_lower {outcomes : List (DecisionNode × Bool)} {priority : ℕ}
    (h : ∀ o ∈ outcomes, o.1.priority < priority) :
    ∀ n ∈ matched outcomes, n.priority < priority := by
  intro n hn
  obtain ⟨o, ho, rfl⟩ := List.mem_map.mp hn
  exact h o (List.mem_filter.mp ho).1

section Evaluated

variable {a b c d : Bool}

theorem evaluate_nodes_shipped
    (ha : ConditionEvaluator.evaluate P (some high_risk_condition) (build_context signal) = .ok a)
    (hb : ConditionEvaluator.evaluate P (some suggested_condition) (build_context signal) = .ok b)
    (hc : ConditionEvaluator.evaluate P (some structuring_condition) (build_context signal)
      = .ok c)
    (hd : ConditionEvaluator.evaluate P (some low_condition) (build_context signal) = .ok d) :
    evaluate_nodes P (build_context signal) (decision_nodes (shipped P))
      = .ok (verdicts a b c d) := by
  have hdecisions : decision_nodes (shipped P)
      = [high_risk_escalation, high_confidence_action, needs_structuring, low_confidence] := rfl
  rw [hdecisions]
  simp only [evaluate_nodes, high_risk_escalation, high_confidence_action, needs_structuring,
    low_confidence, ha, hb, hc, hd, except_ok_bind]
  rfl

theorem evaluate_boundaries_shipped
    (ha : ConditionEvaluator.evaluate P (some high_risk_condition) (build_context signal) = .ok a) :
    evaluate_boundaries P (build_context signal) (boundary_nodes (shipped P))
      = .ok [boundary_result high_risk_escalation_boundary a] := by
  have hone : boundary_nodes (shipped P) = [high_risk_escalation_boundary] := rfl
  rw [hone]
  simp only [evaluate_boundaries, high_risk_escalation_boundary, ha, except_ok_bind]
  rfl

/-- **The choice.** Of the four nodes the first that matches is selected, and a signal that the
first node matches is escalated by the boundary. -/
theorem pure_evaluate_shipped
    (ha : ConditionEvaluator.evaluate P (some high_risk_condition) (build_context signal) = .ok a)
    (hb : ConditionEvaluator.evaluate P (some suggested_condition) (build_context signal) = .ok b)
    (hc : ConditionEvaluator.evaluate P (some structuring_condition) (build_context signal)
      = .ok c)
    (hd : ConditionEvaluator.evaluate P (some low_condition) (build_context signal) = .ok d) :
    ∃ core evaluated_nodes, pure_evaluate P draws signal (shipped P) = .ok (core, evaluated_nodes)
      ∧ (core.status, action_type core.action)
        = if a = true then (.pending_human, some (.str "escalate"))
          else if b = true then (.confirmed, some (.str "create_decision_candidate"))
          else if c = true then (.confirmed, some (.str "route_to_studio"))
          else if d = true then (.confirmed, some (.str "notify_only"))
          else (.fallback, some (.str "log_only")) := by
  have hpure : ∀ {sel : Selection} {version : Option String},
      select (shipped P) (matched (verdicts a b c d)) = .ok sel →
      contract_version sel.selected.config = .ok version →
      ∃ evaluated_nodes, pure_evaluate P draws signal (shipped P)
        = .ok (apply_dominant (initial draws signal (shipped P) (verdicts a b c d) sel version)
            [boundary_result high_risk_escalation_boundary a], evaluated_nodes) :=
    fun hsel hversion => ⟨_, pure_evaluate_eq_ok.mpr
      ⟨_, _, _, _, evaluate_nodes_shipped ha hb hc hd, hsel, hversion,
        evaluate_boundaries_shipped ha, rfl, rfl⟩⟩
  -- what is left of the nodes after the first match has lower priorities
  by_cases hfirst : a = true
  · subst hfirst
    obtain ⟨evaluated_nodes, hok⟩ := hpure
      (select_first (matched_lower (by simp [high_risk_escalation, high_confidence_action,
        needs_structuring, low_confidence]))) rfl
    exact ⟨_, evaluated_nodes, hok, rfl⟩
  rw [Bool.not_eq_true] at hfirst
  subst hfirst
  by_cases hsecond : b = true
  · subst hsecond
    obtain ⟨evaluated_nodes, hok⟩ := hpure
      (select_first (matched_lower (by simp [high_confidence_action, needs_structuring,
        low_confidence]))) rfl
    exact ⟨_, evaluated_nodes, hok, rfl⟩
  rw [Bool.not_eq_true] at hsecond
  subst hsecond
  by_cases hthird : c = true
  · subst hthird
    obtain ⟨evaluated_nodes, hok⟩ := hpure
      (select_first (matched_lower (by simp [needs_structuring, low_confidence]))) rfl
    exact ⟨_, evaluated_nodes, hok, rfl⟩
  rw [Bool.not_eq_true] at hthird
  subst hthird
  by_cases hfourth : d = true
  · subst hfourth
    obtain ⟨evaluated_nodes, hok⟩ := hpure (select_first (matched_lower (by simp))) rfl
    exact ⟨_, evaluated_nodes, hok, rfl⟩
  rw [Bool.not_eq_true] at hfourth
  subst hfourth
  obtain ⟨evaluated_nodes, hok⟩ := hpure select_none rfl
  exact ⟨_, evaluated_nodes, hok, rfl⟩

end Evaluated

end Flow

/-! ## The engine -/

section Engine

open DecisionRuntimeEngine

variable {σ : Type} {P : Platform} {C : LedgerBackend σ} {cfg : EngineConfig} {env : Env}
  {signal : Signal} {flow : DecisionFlow} {w : World σ}

/-- The events that have been handed to the event bus or to the publisher. -/
def published (w : World σ) : List RuntimeEvent := w.calls.filterMap ExternalCall.published

theorem published_ledgerOnly {w w' : World σ} (h : LedgerOnly w w') :
    published w' = published w := by
  obtain ⟨appends, hcalls, hnone⟩ := h.calls
  rw [published, hcalls, List.filterMap_append, List.filterMap_eq_nil_iff.mpr hnone,
    List.append_nil]
  rfl

/-- A decision that is not confirmed publishes nothing, whatever fails. -/
theorem published_unconfirmed {core : DecisionResult} {evaluated_nodes : List PyDict}
    (hcomputed : pure_evaluate P env.draws signal flow = .ok (core, evaluated_nodes))
    (hstatus : core.status ≠ .confirmed) :
    published (DecisionRuntimeEngine.evaluate P C cfg env signal flow w).2 = published w := by
  have hskipped : ∀ {w₁ w₂ : World σ} {answer},
      Dispatch cfg env (ready cfg env core) w₁ answer w₂ → w₂ = w₁ := by
    intro w₁ w₂ answer hd
    have hready : (ready cfg env core).status ≠ .confirmed := by rwa [ready_status]
    cases hd with
    | skipped _ => rfl
    | done status _ _ => exact absurd status hready
    | raised status _ _ => exact absurd status hready
  have hrun := evaluate_run P C cfg env signal flow w
  generalize (DecisionRuntimeEngine.evaluate P C cfg env signal flow w).1 = answer at hrun
  generalize (DecisionRuntimeEngine.evaluate P C cfg env signal flow w).2 = w' at hrun ⊢
  rcases hrun with ⟨invalid⟩ | ⟨computed, _, hframe⟩ | ⟨computed, passed, _, hd⟩
    | ⟨computed, passed, _, hd⟩ | ⟨computed, passed, _, hd⟩
  case invalid => cases hcomputed.symm.trans invalid
  all_goals obtain ⟨rfl, rfl⟩ := except_pair_unique hcomputed computed
  case stopped =>
    rw [published_ledgerOnly hframe]
    rfl
  all_goals
    have hsame := published_ledgerOnly passed.ledger_only
    rw [← hskipped hd] at hsame
  case undispatched => exact hsame
  case unsaved => exact hsame
  case done => exact (published_ledgerOnly (ledgerOnly_committed_after P C cfg _ _)).trans hsame

/-- **The documented policy.** For every signal whose keywords, insights and suggested actions are
lists of strings or not there, what the engine returns is what the policy says, and a signal that
goes to a human has no execution requested. -/
theorem implements_policy {c5 c7 c8 : ℚ} (hreads : ReadsConditions P c5 c7 c8)
    (hflow : FlowRegistry.parse P interaction_default_flow = .ok flow) (hclean : env.Clean)
    (hpasses : CommitPasses P C cfg env signal flow w)
    {keywords insights suggested_actions : List String}
    (hkeywords : Strings signal.payload "keywords" keywords)
    (hinsights : Strings signal.payload "insights" insights)
    (hsuggested : Strings signal.payload "suggested_actions" suggested_actions) :
    ∃ result, (DecisionRuntimeEngine.evaluate P C cfg env signal flow w).1 = .ok result
      ∧ (result.status, action_type result.action)
        = (policy c5 c7 c8 signal.confidence.val keywords insights suggested_actions).map id
            (fun type => some (.str type))
      ∧ (result.status = .pending_human →
        published (DecisionRuntimeEngine.evaluate P C cfg env signal flow w).2 = published w) := by
  obtain rfl : shipped P = flow := Except.ok.inj ((parse_shipped P).symm.trans hflow)
  obtain ⟨core, evaluated_nodes, hcomputed, hcore⟩ : ∃ core evaluated_nodes,
      pure_evaluate P env.draws signal (shipped P) = .ok (core, evaluated_nodes) ∧ _ :=
    pure_evaluate_shipped (evaluate_high_risk hreads hkeywords)
      (evaluate_suggested hreads hsuggested)
      (evaluate_structuring hreads hkeywords hinsights hsuggested) (evaluate_low hreads)
  simp only [decide_eq_true_eq] at hcore
  rcases hanswer : (DecisionRuntimeEngine.evaluate P C cfg env signal (shipped P) w).1 with
    e | result
  · cases hcomputed.symm.trans (evaluate_raised hclean hpasses hanswer)
  obtain ⟨core', nodes', hcomputed', hfacts, -⟩ := evaluate_returned hpasses hanswer
  obtain ⟨rfl, rfl⟩ := except_pair_unique hcomputed hcomputed'
  have hstatus : result.status = core.status := congrArg DecisionFacts.status hfacts
  have haction : result.action = core.action := congrArg DecisionFacts.action hfacts
  refine ⟨result, rfl, ?_, ?_⟩
  · rw [hstatus, haction, hcore, policy]
    split_ifs <;> rfl
  · intro hpending
    apply published_unconfirmed hcomputed
    rw [← hstatus, hpending]
    simp

end Engine

end DecisionRuntime.InteractionFlow

namespace DecisionRuntime.Recorded

open InteractionFlow

/-- The doubles `0.7` and `0.8`. -/
def double_7 : ℚ := 3152519739159347 / 4503599627370496

def double_8 : ℚ := 3602879701896397 / 4503599627370496

theorem double_7_nonneg : 0 ≤ double_7 := by decide +kernel

theorem double_7_le_one : double_7 ≤ 1 := by decide +kernel

/-- A platform that reads the conditions of the flow. -/
def interaction_platform : Platform where
  ast_parse text :=
    if text = high_risk_condition then .ok (high_risk_tree double_7)
    else if text = suggested_condition then .ok (suggested_tree double_8)
    else if text = structuring_condition then .ok (structuring_tree (1 / 2) double_8)
    else if text = low_condition then .ok (low_tree (1 / 2))
    else .error "invalid syntax"
  uuid5 u _ := u
  sha256_hexdigest text := text
  float _ := none
  repr text := text
  isalnum _ := false
  decimal _ := none

theorem interaction_platform_reads :
    ReadsConditions interaction_platform (1 / 2) double_7 double_8 where
  high_risk := by
    dsimp only [interaction_platform]
    rw [if_pos (Eq.refl _)]
  suggested := by
    have hfirst : suggested_condition ≠ high_risk_condition := by decide +kernel
    dsimp only [interaction_platform]
    rw [if_neg hfirst, if_pos (Eq.refl _)]
  structuring := by
    have hfirst : structuring_condition ≠ high_risk_condition := by decide +kernel
    have hsecond : structuring_condition ≠ suggested_condition := by decide +kernel
    dsimp only [interaction_platform]
    rw [if_neg hfirst, if_neg hsecond, if_pos (Eq.refl _)]
  low := by
    have hfirst : low_condition ≠ high_risk_condition := by decide +kernel
    have hsecond : low_condition ≠ suggested_condition := by decide +kernel
    have hthird : low_condition ≠ structuring_condition := by decide +kernel
    dsimp only [interaction_platform]
    rw [if_neg hfirst, if_neg hsecond, if_neg hthird, if_pos (Eq.refl _)]

/-- A refund, at the very confidence from which it is escalated, without insights. -/
def refund_signal : Signal where
  id := UUID.repeated 0xb
  name := "interaction_analysis"
  type := "interaction_analysis"
  confidence := ⟨double_7, double_7_nonneg, double_7_le_one⟩
  payload := [("keywords", .list [.str "refund"]), ("suggested_actions", .list [])]
  source := "interaction-core"
  timestamp := ⟨0, some 0⟩
  idempotency_key := none

end DecisionRuntime.Recorded

namespace DecisionRuntime.InteractionFlow

/-- It is escalated, and no execution is requested. -/
theorem implements_policy_refund :
    ∃ result, (DecisionRuntimeEngine.evaluate Recorded.interaction_platform LedgerClient.backend
        (Recorded.config "parallel") (Recorded.env (UUID.repeated 4) (UUID.repeated 5))
        Recorded.refund_signal (shipped Recorded.interaction_platform)
        (World.init LedgerClient.init)).1 = .ok result
      ∧ (result.status, action_type result.action)
        = (policy (1 / 2) Recorded.double_7 Recorded.double_8 Recorded.double_7 ["refund"] []
            []).map id (fun type => some (.str type))
      ∧ (result.status = .pending_human →
        published (DecisionRuntimeEngine.evaluate Recorded.interaction_platform
          LedgerClient.backend (Recorded.config "parallel")
          (Recorded.env (UUID.repeated 4) (UUID.repeated 5)) Recorded.refund_signal
          (shipped Recorded.interaction_platform) (World.init LedgerClient.init)).2
          = published (World.init LedgerClient.init)) :=
  implements_policy Recorded.interaction_platform_reads (parse_shipped _) ⟨rfl, rfl, rfl⟩
    (fun hstrict => absurd hstrict.2 (by decide)) (Or.inl rfl) (Or.inr ⟨rfl, rfl⟩) (Or.inl rfl)

end DecisionRuntime.InteractionFlow
