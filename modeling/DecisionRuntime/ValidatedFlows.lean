/-
What the checks at load time promise the engine at run time.

`FlowValidator.validate` looks at a flow once, and `_pure_evaluate` and
`BoundaryEngine.apply` rely on what it found for every signal. Three of its rules
matter here: there is one fallback node, the contracts are declared inline, and
the conditions of decision nodes pass `validate_syntax`. What none of the rules
looks at is left to the run time: whether the fallback is active, the conditions
of boundary nodes, and the form of `metadata.resolution_policy`.
-/
import DecisionRuntime.ConditionProgress
import DecisionRuntime.FlowValidator
import DecisionRuntime.PureEvaluate

set_option autoImplicit false

namespace DecisionRuntime

open ConditionEvaluator BoundaryEngine PureEvaluate

variable {P : Platform} {flow : DecisionFlow}

/-! ## The conditions of nodes -/

/-- `validate_syntax` accepts the condition, or there is none. -/
def Valid (P : Platform) : Option String → Prop
  | none => True
  | some text => validate_syntax P text = .ok ()

instance (condition : Option String) : Decidable (Valid P condition) :=
  match condition with
  | none => .isTrue trivial
  | some text => inferInstanceAs <| Decidable <| validate_syntax P text = .ok ()

section Condition

variable {condition : Option String} {ctx : PyDict}

theorem outcome_of_valid (h : Valid P condition) (ctx : PyDict) :
    ∃ b, Outcome (evaluate P condition ctx) (ConditionOverflows P ctx condition) b := by
  rcases condition with _ | text
  · exact ⟨true, outcome_ok true⟩
  · exact evaluate_accepted h ctx

/-- **Condition errors** come from conditions that `validate_syntax` rejects, and from no other. -/
theorem condition_error_iff (condition : Option String) (ctx : PyDict) :
    (∃ msg, evaluate P condition ctx = .error (.conditionEvaluationError msg))
      ↔ ¬ Valid P condition := by
  constructor
  · rintro ⟨msg, hmsg⟩ hvalid
    obtain ⟨b, hb⟩ := outcome_of_valid hvalid ctx
    by_cases ho : ConditionOverflows P ctx condition
    · obtain ⟨msg', hmsg'⟩ := hb.raises ho
      cases hmsg.symm.trans hmsg'
    · cases hmsg.symm.trans (hb.returns ho)
  · intro hinvalid
    rcases condition with _ | text
    · exact absurd trivial hinvalid
    rcases hvalid : validate_syntax P text with e | _
    · obtain ⟨msg, rfl⟩ := rejects_validate_syntax P text e hvalid
      exact ⟨msg, evaluate_rejected hvalid ctx⟩
    · exact absurd hvalid hinvalid

/-- A condition that raises no condition error returns where it does not overflow. -/
theorem returns_iff_not_overflows
    (h : ∀ msg, evaluate P condition ctx ≠ .error (.conditionEvaluationError msg)) :
    (∃ b, evaluate P condition ctx = .ok b) ↔ ¬ ConditionOverflows P ctx condition := by
  have hvalid : Valid P condition := by
    by_contra hinvalid
    obtain ⟨msg, hmsg⟩ := (condition_error_iff condition ctx).mpr hinvalid
    exact h msg hmsg
  obtain ⟨b, hb⟩ := outcome_of_valid hvalid ctx
  exact hb.returns_iff

end Condition

/-! ## The loops over nodes

Both engines evaluate the conditions of a list of nodes in order, and differ in what they make of
the answers. -/

section Loops

variable {ctx : PyDict} {nodes : List DecisionNode}

/-- The condition of a node, with what a loop makes of the answer. -/
def evaluate_node {β : Type} (P : Platform) (ctx : PyDict) (g : DecisionNode → Bool → β)
    (node : DecisionNode) : Except PyError β :=
  (evaluate P node.condition ctx).map (g node)

theorem evaluate_node_returns_iff {β : Type} (g : DecisionNode → Bool → β) (node : DecisionNode) :
    (∃ b, evaluate_node P ctx g node = .ok b) ↔ ∃ b, evaluate P node.condition ctx = .ok b := by
  rw [evaluate_node]
  rcases evaluate P node.condition ctx with e | b
  · exact ⟨nofun, nofun⟩
  · exact ⟨fun _ => ⟨b, rfl⟩, fun _ => ⟨g node b, rfl⟩⟩

theorem evaluate_node_eq_error {β : Type} (g : DecisionNode → Bool → β) (node : DecisionNode)
    {e : PyError} :
    evaluate_node P ctx g node = .error e ↔ evaluate P node.condition ctx = .error e := by
  rw [evaluate_node]
  rcases evaluate P node.condition ctx with e' | b
  · constructor
    · intro h
      rw [Except.error.inj h]
    · intro h
      rw [Except.error.inj h]
      rfl
  · exact ⟨nofun, nofun⟩

theorem evaluate_nodes_eq_mapM :
    evaluate_nodes P ctx nodes = nodes.mapM (evaluate_node P ctx (fun n b => (n, b))) := by
  induction nodes with
  | nil => rfl
  | cons node nodes ih =>
      rw [evaluate_nodes, List.mapM_cons, ← ih, evaluate_node]
      rcases evaluate P node.condition ctx with e | b
      · rfl
      · rfl

theorem evaluate_boundaries_eq_mapM :
    evaluate_boundaries P ctx nodes = nodes.mapM (evaluate_node P ctx boundary_result) := by
  induction nodes with
  | nil => rfl
  | cons node nodes ih =>
      rw [evaluate_boundaries, List.mapM_cons, ← ih, evaluate_node]
      rcases evaluate P node.condition ctx with e | b
      · rfl
      · rfl

/-- The loop over the decision nodes returns when every condition does. -/
theorem evaluate_nodes_returns_iff :
    (∃ outcomes, evaluate_nodes P ctx nodes = .ok outcomes)
      ↔ ∀ n ∈ nodes, ∃ b, evaluate P n.condition ctx = .ok b := by
  simp only [evaluate_nodes_eq_mapM, except_mapM_returns_iff, evaluate_node_returns_iff]

/-- So does the loop over the boundary nodes. -/
theorem evaluate_boundaries_returns_iff :
    (∃ results, evaluate_boundaries P ctx nodes = .ok results)
      ↔ ∀ n ∈ nodes, ∃ b, evaluate P n.condition ctx = .ok b := by
  simp only [evaluate_boundaries_eq_mapM, except_mapM_returns_iff, evaluate_node_returns_iff]

/-- When the loop over the decision nodes raises, a condition has raised it. -/
theorem evaluate_nodes_raised {e : PyError} (h : evaluate_nodes P ctx nodes = .error e) :
    ∃ n ∈ nodes, evaluate P n.condition ctx = .error e := by
  rw [evaluate_nodes_eq_mapM, except_mapM_eq_error] at h
  obtain ⟨pre, node, post, rfl, -, hraised⟩ := h
  exact ⟨node, by simp, (evaluate_node_eq_error _ node).mp hraised⟩

/-- When the loop over the boundary nodes raises, a condition has raised it, and those before it
returned. -/
theorem evaluate_boundaries_raised_iff {e : PyError} :
    evaluate_boundaries P ctx nodes = .error e ↔
      ∃ pre node post, nodes = pre ++ node :: post
        ∧ (∀ n ∈ pre, ∃ b, evaluate P n.condition ctx = .ok b)
        ∧ evaluate P node.condition ctx = .error e := by
  simp only [evaluate_boundaries_eq_mapM, except_mapM_eq_error, evaluate_node_returns_iff,
    evaluate_node_eq_error]

end Loops

/-! ## What a flow that was validated satisfies -/

/-- What the engines rely on, of a flow that was validated. -/
structure Validated (P : Platform) (validate_conditions : Bool) (flow : DecisionFlow) : Prop where
  one_fallback : (flow.nodes.filter (fun n => n.node_type = .fallback)).length = 1
  contract : ∀ n ∈ flow.nodes, FlowValidator.contract_required n.node_type = true →
    ∃ version, PyDict.get n.config "contract_version" = some (.str version)
  conditions : validate_conditions = true → ∀ n ∈ flow.nodes, n.node_type = .decision →
    Valid P n.condition

/-- An inline contract that is accepted has a version, and it is a string. -/
theorem version_of_validate_inline {contract_type : Value} {version : Option Value}
    (h : ContractRegistry.validate_inline P contract_type (version.getD (.str "")) = .ok ()) :
    ∃ text, version = some (.str text) := by
  have hmatch : ContractRegistry.match_version P (version.getD (.str "")) = .ok true := by
    unfold ContractRegistry.validate_inline at h
    generalize ContractRegistry.missing_type contract_type = missing at h
    rcases missing with e | _ | _
    · cases h
    · rcases hmatch : ContractRegistry.match_version P (version.getD (.str "")) with e | _ | _
      · rw [hmatch] at h
        cases h
      · rw [hmatch] at h
        cases h
      · rfl
    · cases h
  rcases version with _ | version
  · -- the default is the empty string, which is no version
    have hempty : ContractRegistry.match_version P (.str "") = .ok false := by
      simp [ContractRegistry.match_version, ContractRegistry.semver, ContractRegistry.semver_text,
        split]
    cases hempty.symm.trans hmatch
  · cases version with
    | str text => exact ⟨text, rfl⟩
    | _ => exact nomatch hmatch

/-- A condition that is accepted, or not looked at because it is empty, is valid. -/
theorem valid_of_check_condition {condition : Option String} {what : String}
    (h : FlowValidator.check_condition flow (fun text => validate_syntax P text) condition what
      = .ok ()) : Valid P condition := by
  rw [FlowValidator.check_condition] at h
  rcases condition with _ | text
  · exact trivial
  by_cases hempty : text = ""
  · rw [hempty]
    rfl
  · have hnonempty : nonempty (some text) = true := decide_eq_true hempty
    rw [if_pos hnonempty] at h
    split at h
    · cases h
    · exact h

theorem validated {validate_conditions : Bool}
    (h : FlowValidator.validate P flow validate_conditions = .ok ()) :
    Validated P validate_conditions flow := by
  rw [FlowValidator.validate, FlowValidator.validate_with] at h
  simp only [except_bind_eq_ok] at h
  obtain ⟨_, -, _, -, _, -, _, -, _, hfallback, _, -, _, -, _, hcontract, h⟩ := h
  refine ⟨?_, ?_, ?_⟩
  · rw [FlowValidator.check_exactly_one_fallback] at hfallback
    split_ifs at hfallback with hone
    exact not_not.mp hone
  · intro n hn hrequired
    rw [FlowValidator.check_contract_nodes, except_forM_eq_ok] at hcontract
    have hnode := hcontract n hn
    rw [if_pos hrequired] at hnode
    split at hnode
    · cases hnode
    · exact version_of_validate_inline hnode
  · rintro rfl n hn htype
    rw [if_pos rfl, except_bind_eq_ok] at h
    obtain ⟨_, -, h⟩ := h
    rw [FlowValidator.check_node_conditions, except_forM_eq_ok] at h
    have hnode := h n hn
    rw [if_pos htype] at hnode
    exact valid_of_check_condition hnode

/-- No two nodes of a list that passed have one id, and none has an id that was seen. -/
theorem nodup_of_check_unique {seen : List String} {nodes : List DecisionNode}
    (h : FlowValidator.check_unique flow seen nodes = .ok ()) :
    (nodes.map (·.id)).Nodup ∧ ∀ n ∈ nodes, n.id ∉ seen := by
  induction nodes generalizing seen with
  | nil => simp
  | cons node nodes ih =>
      rw [FlowValidator.check_unique] at h
      split_ifs at h with hseen
      obtain ⟨hnodup, hfresh⟩ := ih h
      rw [List.map_cons, List.nodup_cons, List.forall_mem_cons]
      refine ⟨⟨?_, hnodup⟩, hseen, ?_⟩
      · intro hmem
        obtain ⟨n, hn, hid⟩ := List.mem_map.mp hmem
        apply hfresh n hn
        rw [hid]
        exact List.mem_cons_self
      · intro n hn hmem
        exact hfresh n hn (List.mem_cons_of_mem node.id hmem)

/-- The ids of the nodes are distinct. -/
theorem nodup_of_validate {validate_conditions : Bool}
    (h : FlowValidator.validate P flow validate_conditions = .ok ()) :
    (flow.nodes.map (·.id)).Nodup := by
  rw [FlowValidator.validate, FlowValidator.validate_with] at h
  simp only [except_bind_eq_ok] at h
  obtain ⟨_, -, _, hunique, -⟩ := h
  exact (nodup_of_check_unique hunique).1

/-! ## Condition errors -/

/-- No condition error is raised. -/
def NoConditionError {α : Type} (x : Except PyError α) : Prop :=
  ∀ msg, x ≠ .error (.conditionEvaluationError msg)

section NoConditionError

variable {α β : Type} {x : Except PyError α} {f : α → Except PyError β} {signal : Signal}

theorem noConditionError_ok (a : α) : NoConditionError (.ok a : Except PyError α) :=
  fun _ => nofun

theorem noConditionError_bind (hx : NoConditionError x) (hf : ∀ a, NoConditionError (f a)) :
    NoConditionError (x >>= f) := by
  rcases x with e | a
  · intro msg h
    exact hx msg (congrArg _ (Except.error.inj h))
  · exact hf a

/-- The selection raises an `AttributeError` or a `RuntimeError`, if anything. -/
theorem noConditionError_select (nodes : List DecisionNode) :
    NoConditionError (select flow nodes) := by
  rcases nodes with _ | ⟨first, rest⟩
  · refine noConditionError_bind ?_ (fun _ => noConditionError_ok _)
    rw [get_fallback]
    split
    · exact noConditionError_ok _
    · exact fun msg h => by cases h
  · refine noConditionError_bind ?_ (fun _ => noConditionError_ok _)
    refine noConditionError_bind ?_ (fun _ => ?_)
    · rw [strategy]
      split
      · exact noConditionError_ok _
      · exact fun msg h => by cases h
    · split
      · exact noConditionError_ok _
      · exact noConditionError_ok _

theorem noConditionError_contract_version (config : PyDict) :
    NoConditionError (contract_version config) := by
  rw [contract_version]
  split
  · exact noConditionError_ok _
  · exact noConditionError_ok _
  · exact noConditionError_ok _
  · exact fun msg h => by cases h

/-- The boundary engine raises what its loop does. -/
theorem noConditionError_apply_iff (result : DecisionResult) :
    NoConditionError (BoundaryEngine.apply P signal flow result)
      ↔ NoConditionError (evaluate_boundaries P (build_context signal) (boundary_nodes flow)) := by
  rw [BoundaryEngine.apply]
  constructor
  · intro h msg hraised
    rw [hraised] at h
    exact h msg rfl
  · intro h
    exact noConditionError_bind h (fun _ => noConditionError_ok _)

end NoConditionError

/-- For this signal neither engine raises a condition error. -/
def ConditionsLoad (P : Platform) (signal : Signal) (flow : DecisionFlow) : Prop :=
  (∀ draws, NoConditionError (pure_evaluate P draws signal flow)) ∧
    ∀ result, NoConditionError (BoundaryEngine.apply P signal flow result)

/-- Every active boundary node whose condition comes to be evaluated, because those of the boundary
nodes before it return, has a condition that `validate_syntax` accepts. -/
def BoundariesValid (P : Platform) (signal : Signal) (flow : DecisionFlow) : Prop :=
  ∀ pre node post, boundary_nodes flow = pre ++ node :: post →
    (∀ n ∈ pre, ∃ b, evaluate P n.condition (build_context signal) = .ok b) →
    Valid P node.condition

/-- The loop over the boundary nodes raises a condition error at the first invalid condition. -/
theorem noConditionError_boundaries_iff {signal : Signal} :
    NoConditionError (evaluate_boundaries P (build_context signal) (boundary_nodes flow))
      ↔ BoundariesValid P signal flow := by
  constructor
  · intro h pre node post hsplit hpre
    by_contra hinvalid
    obtain ⟨msg, hmsg⟩ :=
      (condition_error_iff node.condition (build_context signal)).mpr hinvalid
    exact h msg (evaluate_boundaries_raised_iff.mpr ⟨pre, node, post, hsplit, hpre, hmsg⟩)
  · intro h msg hraised
    obtain ⟨pre, node, post, hsplit, hpre, hmsg⟩ := evaluate_boundaries_raised_iff.mp hraised
    exact (condition_error_iff node.condition (build_context signal)).mp ⟨msg, hmsg⟩
      (h pre node post hsplit hpre)

/-- **Load-time conditions.** Of a flow that was validated with its conditions, the engines raise
no condition error for a signal exactly when the boundary conditions they come to are valid. -/
theorem load_time_conditions_iff
    (h : FlowValidator.validate P flow true = .ok ()) (signal : Signal) :
    ConditionsLoad P signal flow ↔ BoundariesValid P signal flow := by
  rw [← noConditionError_boundaries_iff]
  constructor
  · rintro ⟨-, happly⟩
    -- what the boundary engine is given does not matter
    exact (noConditionError_apply_iff (initial ⟨signal.id, signal.id, signal.timestamp⟩ signal
      flow [] ⟨{ id := "", node_type := .fallback }, .fallback, .fail, []⟩ none)).mp (happly _)
  · intro hboundaries
    have happly : ∀ result, NoConditionError (BoundaryEngine.apply P signal flow result) :=
      fun result => (noConditionError_apply_iff result).mpr hboundaries
    have hnodes : NoConditionError
        (evaluate_nodes P (build_context signal) (decision_nodes flow)) := by
      intro msg hraised
      obtain ⟨n, hn, hmsg⟩ := evaluate_nodes_raised hraised
      rw [mem_decision_nodes] at hn
      -- every decision node was looked at
      have hvalid := (validated h).conditions rfl n hn.1 hn.2.1
      exact (condition_error_iff n.condition (build_context signal)).mp ⟨msg, hmsg⟩ hvalid
    refine ⟨fun draws => ?_, happly⟩
    rw [pure_evaluate]
    refine noConditionError_bind hnodes (fun outcomes => ?_)
    refine noConditionError_bind (noConditionError_select _) (fun sel => ?_)
    refine noConditionError_bind (noConditionError_contract_version _) (fun version => ?_)
    exact noConditionError_bind (happly _) (fun _ => noConditionError_ok _)

/-! ## The fallback -/

/-- `metadata.resolution_policy` is missing or a mapping. -/
def PolicyReadable (flow : DecisionFlow) : Prop :=
  PyDict.get flow.metadata "resolution_policy" = none ∨
    ∃ policy, PyDict.get flow.metadata "resolution_policy" = some (.dict policy)

/-- The flow has an active fallback node. -/
def ActiveFallback (flow : DecisionFlow) : Prop :=
  ∃ n ∈ flow.nodes, n.node_type = .fallback ∧ n.is_active

section Fallback

variable {signal : Signal}

theorem strategy_returns_iff : (∃ v, strategy flow = .ok v) ↔ PolicyReadable flow := by
  rw [strategy, PolicyReadable]
  rcases PyDict.get flow.metadata "resolution_policy" with _ | v
  · exact ⟨fun _ => Or.inl rfl, fun _ => ⟨_, rfl⟩⟩
  · cases v with
    | dict policy => exact ⟨fun _ => Or.inr ⟨policy, rfl⟩, fun _ => ⟨_, rfl⟩⟩
    | _ => simp

theorem get_fallback_returns_iff : (∃ n, get_fallback flow = .ok n) ↔ ActiveFallback flow := by
  rw [get_fallback]
  constructor
  · rintro ⟨n, hn⟩
    split at hn
    · next found hfound =>
      have hprop := List.find?_some hfound
      exact ⟨found, List.mem_of_find?_eq_some hfound, of_decide_eq_true hprop⟩
    · cases hn
  · rintro ⟨n, hn, hfallback⟩
    have hsome : (flow.nodes.find? (fun n => n.node_type = .fallback ∧ n.is_active)).isSome :=
      List.find?_isSome.mpr ⟨n, hn, decide_eq_true hfallback⟩
    obtain ⟨found, hfound⟩ := Option.isSome_iff_exists.mp hsome
    rw [hfound]
    exact ⟨found, rfl⟩

/-- The greatest of the candidates is a candidate. -/
theorem max_by_mem (first : DecisionNode) (rest : List DecisionNode) :
    max_by flow first rest ∈ first :: rest := by
  induction rest generalizing first with
  | nil => exact List.mem_singleton_self first
  | cons n ns ih =>
      rw [max_by]
      by_cases hbeats : beats flow n first = true
      · rw [if_pos hbeats]
        exact List.mem_cons_of_mem first (ih n)
      · rw [if_neg hbeats]
        rcases List.mem_cons.mp (ih first) with heq | hmem
        · rw [heq]
          exact List.mem_cons_self
        · exact List.mem_cons_of_mem first (List.mem_cons_of_mem n hmem)

/-- The selected node is one of the candidates, or an active fallback. -/
theorem select_mem {nodes : List DecisionNode} {sel : Selection}
    (h : select flow nodes = .ok sel) :
    sel.selected ∈ nodes ∨
      nodes = [] ∧ sel.selected ∈ flow.nodes ∧ sel.selected.node_type = .fallback := by
  rcases nodes with _ | ⟨first, rest⟩
  · right
    have hnone : select flow (matched []) = .ok sel := h
    have hsel := (select_eq_ok hnone).resolve_left (fun h => h.1 rfl)
    exact ⟨rfl, hsel.2.2.2.2⟩
  · left
    rw [select, except_bind_eq_ok] at h
    obtain ⟨node, hnode, h⟩ := h
    obtain rfl := Except.ok.inj h
    rw [resolve, except_bind_eq_ok] at hnode
    obtain ⟨value, -, hnode⟩ := hnode
    split_ifs at hnode
    · rw [← Except.ok.inj hnode]
      exact max_by_mem first rest
    · rw [← Except.ok.inj hnode]
      exact List.mem_cons_self

/-- The selection returns when the policy, or the fallback, is as it should be. -/
theorem select_returns_iff (nodes : List DecisionNode) :
    (∃ sel, select flow nodes = .ok sel) ↔
      (nodes ≠ [] → PolicyReadable flow) ∧ (nodes = [] → ActiveFallback flow) := by
  rcases nodes with _ | ⟨first, rest⟩
  · rw [select, ← get_fallback_returns_iff]
    simp only [except_bind_eq_ok]
    constructor
    · rintro ⟨sel, n, hn, -⟩
      exact ⟨fun h => absurd rfl h, fun _ => ⟨n, hn⟩⟩
    · rintro ⟨-, h⟩
      obtain ⟨n, hn⟩ := h trivial
      exact ⟨_, n, hn, rfl⟩
  · rw [select, ← strategy_returns_iff]
    simp only [resolve, except_bind_eq_ok]
    constructor
    · rintro ⟨sel, n, ⟨v, hv, -⟩, -⟩
      exact ⟨fun _ => ⟨v, hv⟩, fun hnil => absurd hnil (List.cons_ne_nil first rest)⟩
    · rintro ⟨h, -⟩
      obtain ⟨v, hv⟩ := h (List.cons_ne_nil first rest)
      by_cases hpriority : v.pyEq (.str "priority") = true
      · exact ⟨_, _, ⟨v, hv, if_pos hpriority⟩, rfl⟩
      · exact ⟨_, _, ⟨v, hv, if_neg hpriority⟩, rfl⟩

/-- The version of a selected node is a string. -/
theorem contract_version_returns {b : Bool} (h : Validated P b flow) {context : PyDict}
    {outcomes : List (DecisionNode × Bool)}
    (houtcomes : evaluate_nodes P context (decision_nodes flow) = .ok outcomes) {sel : Selection}
    (hsel : select flow (matched outcomes) = .ok sel) :
    ∃ version, contract_version sel.selected.config = .ok version := by
  have hrequired : sel.selected ∈ flow.nodes
      ∧ FlowValidator.contract_required sel.selected.node_type = true := by
    rcases select_mem hsel with hmem | ⟨-, hmem, htype⟩
    · -- a matched node is an active decision node
      obtain ⟨o, ho, heq⟩ := List.mem_map.mp hmem
      have hnode : o.1 ∈ decision_nodes flow := by
        rw [← evaluate_nodes_nodes houtcomes]
        exact List.mem_map_of_mem (List.mem_filter.mp ho).1
      rw [mem_decision_nodes] at hnode
      rw [← heq, hnode.2.1]
      exact ⟨hnode.1, rfl⟩
    · rw [htype]
      exact ⟨hmem, rfl⟩
  obtain ⟨version, hversion⟩ := h.contract sel.selected hrequired.1 hrequired.2
  refine ⟨some version, ?_⟩
  rw [contract_version, hversion]

end Fallback

/-- `_pure_evaluate` returns a result for the signal, whatever it draws. -/
def Decides (P : Platform) (signal : Signal) (flow : DecisionFlow) : Prop :=
  ∀ draws, ∃ r, pure_evaluate P draws signal flow = .ok r

/-- **A usable fallback.** For a signal for which no active condition raises a condition error, a
validated flow decides exactly when no condition overflows, the policy is readable if some decision
node matches, and the fallback is active if none does. -/
theorem usable_fallback_iff {validate_conditions : Bool}
    (h : FlowValidator.validate P flow validate_conditions = .ok ()) {signal : Signal}
    (hcond : ∀ n ∈ decision_nodes flow ++ boundary_nodes flow,
      NoConditionError (evaluate P n.condition (build_context signal))) :
    Decides P signal flow ↔
      (∀ n ∈ decision_nodes flow ++ boundary_nodes flow,
        ¬ ConditionOverflows P (build_context signal) n.condition) ∧
      (Matches P signal flow → PolicyReadable flow) ∧
      (¬ Matches P signal flow → ActiveFallback flow) := by
  have hreturns : (∀ n ∈ decision_nodes flow ++ boundary_nodes flow,
        ¬ ConditionOverflows P (build_context signal) n.condition) ↔
      (∃ outcomes, evaluate_nodes P (build_context signal) (decision_nodes flow) = .ok outcomes) ∧
      ∃ results, evaluate_boundaries P (build_context signal) (boundary_nodes flow)
        = .ok results := by
    rw [evaluate_nodes_returns_iff, evaluate_boundaries_returns_iff, ← List.forall_mem_append]
    refine forall₂_congr (fun n hn => ?_)
    exact (returns_iff_not_overflows (hcond n hn)).symm
  rw [hreturns]
  constructor
  · intro hdecides
    obtain ⟨⟨final, evaluated_nodes⟩, hr⟩ :=
      hdecides ⟨signal.id, signal.id, signal.timestamp⟩
    obtain ⟨outcomes, sel, version, brs, houtcomes, hsel, -, hbrs, -⟩ :=
      pure_evaluate_eq_ok.mp hr
    have hselect := (select_returns_iff (matched outcomes)).mp ⟨sel, hsel⟩
    rw [matched_ne_nil_iff houtcomes] at hselect
    refine ⟨⟨⟨outcomes, houtcomes⟩, brs, hbrs⟩, hselect.1, fun hnot => hselect.2 ?_⟩
    by_contra hne
    exact hnot ((matched_ne_nil_iff houtcomes).mp hne)
  · rintro ⟨⟨⟨outcomes, houtcomes⟩, brs, hbrs⟩, hpolicy, hfallback⟩ draws
    have hmatched := matched_ne_nil_iff houtcomes
    obtain ⟨sel, hsel⟩ : ∃ sel, select flow (matched outcomes) = .ok sel := by
      rw [select_returns_iff, hmatched]
      exact ⟨hpolicy, fun hnil => hfallback (fun hm => hmatched.mpr hm hnil)⟩
    -- the one step left, reading the version, does not fail on a validated flow
    obtain ⟨version, hversion⟩ := contract_version_returns (validated h) houtcomes hsel
    exact ⟨_, pure_evaluate_eq_ok.mpr
      ⟨outcomes, sel, version, brs, houtcomes, hsel, hversion, hbrs, rfl, rfl⟩⟩

namespace Recorded

/-- The contract of the nodes below. -/
def terms : PyDict := [("contract_type", .str "payment"), ("contract_version", .str "1.0.0")]

def reading : Signal where
  id := UUID.repeated 1
  name := "payment"
  type := "payment_request"
  confidence := Confidence.certain
  payload := []
  source := "shop"
  timestamp := ⟨0, some 0⟩
  idempotency_key := none

/-- A decision node with a condition, and a fallback that may be switched off. -/
def standby (is_active : Bool) : DecisionFlow where
  id := UUID.repeated 2
  flow_id := "payment"
  version := "1.0.0"
  entry_node_id := "never"
  nodes :=
    [{ id := "never", node_type := .decision, condition := some "False", config := terms },
      { id := "manual", node_type := .fallback, config := terms, is_active := is_active }]

/-- A boundary node behind a decision node without a condition. -/
def guarded : DecisionFlow where
  id := UUID.repeated 3
  flow_id := "payment"
  version := "1.0.0"
  entry_node_id := "always"
  nodes :=
    [{ id := "always", node_type := .decision, config := terms },
      { id := "limit", node_type := .boundary, condition := some "type is None", config := terms },
      { id := "manual", node_type := .fallback, config := terms }]
  edges := [{ id := "e1", source_node_id := "always", target_node_id := "limit" }]

end Recorded

/-- A validated flow whose fallback is switched off does not decide. -/
theorem usable_fallback_dormant :
    let P := Recorded.parser (.constant (.bool false))
    FlowValidator.validate P (Recorded.standby false) true = .ok () ∧
      (∀ n ∈ decision_nodes (Recorded.standby false) ++ boundary_nodes (Recorded.standby false),
        NoConditionError (evaluate P n.condition (build_context Recorded.reading))) ∧
      ¬ Decides P Recorded.reading (Recorded.standby false) := by
  intro P
  have hcond : ∀ n ∈ decision_nodes (Recorded.standby false)
      ++ boundary_nodes (Recorded.standby false),
      evaluate P n.condition (build_context Recorded.reading) = .ok false := by decide +kernel
  refine ⟨by decide +kernel, ?_, ?_⟩
  · intro n hn
    rw [hcond n hn]
    exact noConditionError_ok false
  · intro hdecides
    obtain ⟨r, hr⟩ := hdecides ⟨UUID.repeated 4, UUID.repeated 5, ⟨10, some 0⟩⟩
    have hraises : (pure_evaluate P ⟨UUID.repeated 4, UUID.repeated 5, ⟨10, some 0⟩⟩
        Recorded.reading (Recorded.standby false)).isOk = false := by decide +kernel
    rw [hr] at hraises
    cases hraises

/-- With the fallback switched on, the same flow decides. -/
theorem usable_fallback_standby :
    Decides (Recorded.parser (.constant (.bool false))) Recorded.reading
      (Recorded.standby true) := by
  have hcond : ∀ n ∈ decision_nodes (Recorded.standby true)
      ++ boundary_nodes (Recorded.standby true),
      evaluate (Recorded.parser (.constant (.bool false))) n.condition
        (build_context Recorded.reading) = .ok false := by decide +kernel
  have hvalid : FlowValidator.validate (Recorded.parser (.constant (.bool false)))
      (Recorded.standby true) true = .ok () := by decide +kernel
  refine (usable_fallback_iff hvalid ?_).mpr ⟨?_, fun _ => Or.inl rfl, ?_⟩
  · intro n hn
    rw [hcond n hn]
    exact noConditionError_ok false
  · intro n hn
    refine (returns_iff_not_overflows (fun msg => ?_)).mp ⟨false, hcond n hn⟩
    rw [hcond n hn]
    exact nofun
  · intro _
    exact ⟨_, List.mem_cons_of_mem _ List.mem_cons_self, rfl, rfl⟩

/-- A boundary whose condition is rejected is loaded, and raises when it is evaluated. -/
theorem load_time_conditions_guarded :
    let P := Recorded.parser (.compare (.name "type" .load) [.is] [.constant .none])
    FlowValidator.validate P Recorded.guarded true = .ok () ∧
      ¬ ConditionsLoad P Recorded.reading Recorded.guarded := by
  intro P
  refine ⟨by decide +kernel, ?_⟩
  rintro ⟨hpure, -⟩
  have hraises : (pure_evaluate P ⟨UUID.repeated 4, UUID.repeated 5, ⟨10, some 0⟩⟩
      Recorded.reading Recorded.guarded).map (fun _ => ()) = .error (not_permitted "Is") := by
    decide +kernel
  rcases hr : pure_evaluate P ⟨UUID.repeated 4, UUID.repeated 5, ⟨10, some 0⟩⟩
      Recorded.reading Recorded.guarded with e | r
  · rw [hr] at hraises
    obtain rfl : e = not_permitted "Is" := Except.error.inj hraises
    exact hpure _ _ hr
  · rw [hr] at hraises
    cases hraises

/-- When it is not rejected, nothing is raised. -/
theorem load_time_conditions_checked :
    ConditionsLoad (Recorded.parser (.constant (.bool true))) Recorded.reading
      Recorded.guarded := by
  refine (load_time_conditions_iff (by decide +kernel) Recorded.reading).mpr ?_
  have hall : ∀ n ∈ boundary_nodes Recorded.guarded,
      Valid (Recorded.parser (.constant (.bool true))) n.condition := by decide +kernel
  intro pre node post hsplit _
  apply hall
  rw [hsplit]
  exact List.mem_append_right pre List.mem_cons_self

end DecisionRuntime
