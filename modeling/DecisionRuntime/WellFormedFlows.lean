/-
What `FlowValidator.validate` accepts, all rules together.

A check passes or raises a `FlowValidationError`, and two of them may also crash:
that of the contracts, on values that are no strings, and that of the conditions,
where the evaluator raises what is no `ConditionEvaluationError`. `Verdict` says which
of the three a check does when. Verdicts compose along the `do` block of `validate`
and along its loops, so that each check is looked at once.

Nothing is assumed of the evaluator but that it raises no `FlowValidationError`, so
that the results also hold where `ast.parse` raises more than a `SyntaxError`.

* `WellFormed`, `ValidConditions` -- the rules, as a reader of a flow file would put
  them;
* `validation_exact` -- what is accepted, what is rejected, and on what the validator
  crashes;
* `validation_order_free` -- the order of nodes and edges in the file does not matter.
-/
import DecisionRuntime.ContractChecks
import DecisionRuntime.FlowGraph
import DecisionRuntime.ValidatedFlows

set_option autoImplicit false

namespace DecisionRuntime

open Relation

namespace FlowValidator

open ContractRegistry

/-! ## Verdicts -/

/-- The check passes when the rule holds, crashes where it is not written for what it is given, and
raises a `FlowValidationError` about the flow otherwise. -/
structure Verdict (flow : DecisionFlow) (check : Except PyError Unit) (rule crash : Prop) :
    Prop where
  accepts : rule → check = .ok ()
  rejects : ¬rule → ¬crash → ∃ text, check = .error (invalid flow text)
  crashes : crash → ∃ e, check = .error e ∧ ∀ text, e ≠ .flowValidationError text

namespace Verdict

variable {flow : DecisionFlow} {check next : Except PyError Unit} {rule rule' crash crash' : Prop}

theorem congr (h : Verdict flow check rule crash) (hrule : rule ↔ rule')
    (hcrash : crash ↔ crash') : Verdict flow check rule' crash' := by
  rwa [hrule, hcrash] at h

/-- What passes satisfies the rule. -/
theorem rule_of_ok (h : Verdict flow check rule crash) (hok : check = .ok ()) : rule := by
  by_contra hrule
  by_cases hcrash : crash
  · obtain ⟨e, hraised, -⟩ := h.crashes hcrash
    rw [hok] at hraised
    cases hraised
  · obtain ⟨text, hraised⟩ := h.rejects hrule hcrash
    rw [hok] at hraised
    cases hraised

/-- The check returns exactly when the rule holds. -/
theorem eq_ok_iff (h : Verdict flow check rule crash) : check = .ok () ↔ rule :=
  ⟨h.rule_of_ok, h.accepts⟩

/-- It raises a `FlowValidationError` exactly when the rule is broken and it does not crash. -/
theorem invalid_iff (h : Verdict flow check rule crash) :
    (∃ text, check = .error (.flowValidationError text)) ↔ ¬rule ∧ ¬crash := by
  constructor
  · rintro ⟨text, hraised⟩
    refine ⟨?_, ?_⟩
    · intro hrule
      rw [h.accepts hrule] at hraised
      cases hraised
    · intro hcrash
      obtain ⟨e, hraised', hother⟩ := h.crashes hcrash
      rw [hraised] at hraised'
      exact hother text (Except.error.inj hraised').symm
  · rintro ⟨hrule, hcrash⟩
    obtain ⟨text, hraised⟩ := h.rejects hrule hcrash
    exact ⟨_, hraised⟩

/-- A check made after another one. -/
theorem bind (h : Verdict flow check rule crash) (h' : rule → Verdict flow next rule' crash') :
    Verdict flow (check >>= fun _ => next) (rule ∧ rule') (crash ∨ rule ∧ crash') := by
  have hraise : ∀ {e : PyError}, check = .error e → (check >>= fun _ => next) = .error e := by
    intro e hraised
    rw [hraised]
    rfl
  refine ⟨?_, ?_, ?_⟩
  · rintro ⟨hrule, hrule'⟩
    rw [h.accepts hrule, except_ok_bind]
    exact (h' hrule).accepts hrule'
  · intro hnot hcrash
    rw [not_or, not_and] at hcrash
    by_cases hrule : rule
    · rw [h.accepts hrule, except_ok_bind]
      exact (h' hrule).rejects (fun hrule' => hnot ⟨hrule, hrule'⟩) (hcrash.2 hrule)
    · obtain ⟨text, hraised⟩ := h.rejects hrule hcrash.1
      exact ⟨text, hraise hraised⟩
  · rintro (hcrash | ⟨hrule, hcrash⟩)
    · obtain ⟨e, hraised, hother⟩ := h.crashes hcrash
      exact ⟨e, hraise hraised, hother⟩
    · rw [h.accepts hrule, except_ok_bind]
      exact (h' hrule).crashes hcrash

/-- A check that is made in a loop: it crashes on the first element that it does not pass. -/
theorem forM {α : Type} {f : α → Except PyError Unit} {r c : α → Prop} {as : List α}
    (h : ∀ a, Verdict flow (f a) (r a) (c a)) :
    Verdict flow (as.forM f) (∀ a ∈ as, r a)
      (∃ pre a post, as = pre ++ a :: post ∧ (∀ b ∈ pre, r b) ∧ c a) := by
  refine ⟨?_, ?_, ?_⟩
  · intro hall
    rw [except_forM_eq_ok]
    exact fun a ha => (h a).accepts (hall a ha)
  · intro hnot hcrash
    cases hloop : as.forM f with
    | ok u =>
        rw [except_forM_eq_ok] at hloop
        exact absurd (fun a ha => (h a).rule_of_ok (hloop a ha)) hnot
    | error e =>
        -- the loop stops where the rule is broken first
        obtain ⟨pre, a, post, hsplit, hpre, hraised⟩ := except_forM_eq_error.mp hloop
        have hrules : ∀ b ∈ pre, r b := fun b hb => (h b).rule_of_ok (hpre b hb)
        have hc : ¬c a := fun hc => hcrash ⟨pre, a, post, hsplit, hrules, hc⟩
        have hrule : ¬r a := by
          intro hrule
          rw [(h a).accepts hrule] at hraised
          cases hraised
        obtain ⟨text, hraised'⟩ := (h a).rejects hrule hc
        rw [hraised'] at hraised
        exact ⟨text, by rw [Except.error.inj hraised]⟩
  · rintro ⟨pre, a, post, hsplit, hpre, hc⟩
    obtain ⟨e, hraised, hother⟩ := (h a).crashes hc
    exact ⟨e, except_forM_eq_error.mpr ⟨pre, a, post, hsplit,
      fun b hb => (h b).accepts (hpre b hb), hraised⟩, hother⟩

end Verdict

/-! ## The rules -/

/-- The rules about the graph of a flow. -/
structure Structured (flow : DecisionFlow) : Prop where
  has_nodes : flow.nodes ≠ []
  unique_node_ids : (flow.nodes.map (·.id)).Nodup
  entry_node : flow.entry_node_id ∈ flow.nodes.map (·.id)
  edges_known : EdgesKnown flow
  one_fallback : (flow.nodes.filter (fun n => n.node_type = .fallback)).length = 1
  connected : ∀ node ∈ flow.nodes, node.node_type ≠ .fallback →
    ReflTransGen (Edge flow) flow.entry_node_id node.id
  acyclic : PyDict.get flow.metadata "allow_cycles" = some (.bool true)
    ∨ ¬∃ x, TransGen (Edge flow) x x

/-- All rules about its graph and its contracts. That of the contracts is the one the code has,
which takes bytes and a newline. -/
structure WellFormed (P : Platform) (flow : DecisionFlow) : Prop extends Structured flow where
  contracts : ∀ node ∈ flow.nodes, Contract (Passes P) node

section Evaluator

variable (syntax_check : String → Except PyError Unit)

/-- The condition is empty, or the evaluator accepts it. -/
def Accepted (condition : Option String) : Prop :=
  nonempty condition = true → syntax_check (condition.getD "") = .ok ()

/-- The evaluator raises something else than a `ConditionEvaluationError`. -/
def Escapes (condition : Option String) : Prop :=
  nonempty condition = true ∧ ∃ e, syntax_check (condition.getD "") = .error e
    ∧ ∀ text, e ≠ .conditionEvaluationError text

/-- The rules about the conditions of a flow, which are those of its edges and of its decision
nodes. -/
def ValidConditions (flow : DecisionFlow) : Prop :=
  (∀ edge ∈ flow.edges, Accepted syntax_check edge.condition_expression) ∧
    ∀ node ∈ flow.nodes, node.node_type = .decision → Accepted syntax_check node.condition

/-- The first contract that does not pass has a type that is no text or a version that is no
string. -/
def ContractCrashes (P : Platform) (flow : DecisionFlow) : Prop :=
  ∃ pre node post, flow.nodes = pre ++ node :: post ∧ (∀ n ∈ pre, Contract (Passes P) n)
    ∧ contract_required node.node_type = true
    ∧ Crashes (contract_type node) (contract_version node)

/-- The first condition that is not accepted is one on which the evaluator raises something else
than a `ConditionEvaluationError`. Those of the edges come first. -/
def ConditionEscapes (flow : DecisionFlow) : Prop :=
  (∃ pre edge post, flow.edges = pre ++ edge :: post
    ∧ (∀ e ∈ pre, Accepted syntax_check e.condition_expression)
    ∧ Escapes syntax_check edge.condition_expression) ∨
  (∀ edge ∈ flow.edges, Accepted syntax_check edge.condition_expression)
    ∧ ∃ pre node post, flow.nodes = pre ++ node :: post
      ∧ (∀ n ∈ pre, n.node_type = .decision → Accepted syntax_check n.condition)
      ∧ node.node_type = .decision ∧ Escapes syntax_check node.condition

/-- The graph satisfies its rules, and either the contracts crash, or they pass and the conditions,
when they are looked at, do. -/
def Crashing (P : Platform) (validate_conditions : Bool) (flow : DecisionFlow) : Prop :=
  Structured flow ∧ (ContractCrashes P flow ∨
    WellFormed P flow ∧ validate_conditions = true ∧ ConditionEscapes syntax_check flow)

end Evaluator

/-! ## The checks, one by one -/

section Checks

variable (P : Platform) (flow : DecisionFlow)

/-- A check that is a test. -/
theorem verdict_ite (rule : Prop) [Decidable rule] (text : String) :
    Verdict flow (if rule then .ok () else .error (invalid flow text)) rule False := by
  refine ⟨?_, ?_, False.elim⟩
  · intro hrule
    rw [if_pos hrule]
  · intro hrule _
    rw [if_neg hrule]
    exact ⟨text, rfl⟩

theorem verdict_has_nodes : Verdict flow (check_has_nodes flow) (flow.nodes ≠ []) False := by
  have h := verdict_ite flow (flow.nodes ≠ []) "has no nodes; at least one node is required"
  have hcheck : check_has_nodes flow = if flow.nodes ≠ [] then .ok () else
      .error (invalid flow "has no nodes; at least one node is required") := by
    unfold check_has_nodes
    cases flow.nodes <;> rfl
  rwa [hcheck]

theorem verdict_unique (seen : List String) (nodes : List DecisionNode) :
    Verdict flow (check_unique flow seen nodes)
      ((nodes.map (·.id)).Nodup ∧ ∀ n ∈ nodes, n.id ∉ seen) False := by
  refine ⟨?_, ?_, False.elim⟩
  · induction nodes generalizing seen with
    | nil => exact fun _ => rfl
    | cons node nodes ih =>
        rw [List.map_cons, List.nodup_cons, List.forall_mem_cons]
        rintro ⟨⟨hnode, hnodup⟩, hseen, hfresh⟩
        rw [check_unique, if_neg hseen]
        apply ih
        refine ⟨hnodup, ?_⟩
        intro n hn hmem
        rw [List.mem_cons] at hmem
        cases hmem with
        | inl hsame => exact hnode (List.mem_map.mpr ⟨n, hn, hsame⟩)
        | inr hmem => exact hfresh n hn hmem
  · intro hnot _
    cases hcheck : check_unique flow seen nodes with
    | ok u => exact absurd (nodup_of_check_unique hcheck) hnot
    | error e =>
        -- the one error the loop raises is about the flow
        clear hnot
        induction nodes generalizing seen with
        | nil => cases hcheck
        | cons node nodes ih =>
            unfold check_unique at hcheck
            by_cases hseen : node.id ∈ seen
            · rw [if_pos hseen] at hcheck
              exact ⟨_, hcheck.symm⟩
            · rw [if_neg hseen] at hcheck
              exact ih _ hcheck

theorem verdict_unique_node_ids :
    Verdict flow (check_unique_node_ids flow) (flow.nodes.map (·.id)).Nodup False :=
  (verdict_unique flow [] flow.nodes).congr (and_iff_left (fun _ _ => List.not_mem_nil)) Iff.rfl

theorem verdict_entry_node : Verdict flow (check_entry_node_exists flow)
    (flow.entry_node_id ∈ flow.nodes.map (·.id)) False := by
  unfold check_entry_node_exists
  rw [ite_not]
  exact verdict_ite flow _ _

/-- The loop of a check that never crashes. -/
theorem verdict_loop {α : Type} {f : α → Except PyError Unit} {r : α → Prop} {as : List α}
    (h : ∀ a, Verdict flow (f a) (r a) False) : Verdict flow (as.forM f) (∀ a ∈ as, r a) False :=
  (Verdict.forM h).congr Iff.rfl (by simp)

theorem verdict_edge_references :
    Verdict flow (check_edge_references flow) (EdgesKnown flow) False := by
  apply verdict_loop
  intro edge
  rw [ite_not, ite_not]
  by_cases hsource : edge.source_node_id ∈ flow.nodes.map (·.id)
  · rw [if_pos hsource]
    exact (verdict_ite flow _ _).congr (by rw [and_iff_right hsource]) Iff.rfl
  · rw [if_neg hsource]
    refine ⟨?_, ?_, False.elim⟩
    · exact fun h => absurd h.1 hsource
    · exact fun _ _ => ⟨_, rfl⟩

theorem verdict_one_fallback : Verdict flow (check_exactly_one_fallback flow)
    ((flow.nodes.filter (fun n => n.node_type = .fallback)).length = 1) False := by
  unfold check_exactly_one_fallback
  rw [ite_not]
  exact verdict_ite flow _ _

variable {flow}

theorem verdict_no_orphan_nodes (hunique : (flow.nodes.map (·.id)).Nodup)
    (hedges : EdgesKnown flow) : Verdict flow (check_no_orphan_nodes flow)
      (∀ node ∈ flow.nodes, node.node_type ≠ .fallback →
        ReflTransGen (Edge flow) flow.entry_node_id node.id) False := by
  have hok := check_no_orphan_nodes_eq_ok_iff hunique hedges
  refine ⟨hok.mpr, ?_, False.elim⟩
  intro hnot _
  obtain ⟨reachable, hreachable, -⟩ := find_reachable_exact hedges
  cases hcheck : check_no_orphan_nodes flow with
  | ok u => exact absurd (hok.mp hcheck) hnot
  | error e =>
      rw [check_no_orphan_nodes, hreachable] at hcheck
      obtain ⟨pre, node, post, -, -, hraised⟩ := except_forM_eq_error.mp hcheck
      split at hraised
      · exact ⟨_, hraised.symm⟩
      · cases hraised

theorem verdict_cycles (hedges : EdgesKnown flow) : Verdict flow (check_cycles flow)
    (PyDict.get flow.metadata "allow_cycles" = some (.bool true)
      ∨ ¬∃ x, TransGen (Edge flow) x x) False := by
  have hok := check_cycles_eq_ok_iff hedges
  refine ⟨hok.mpr, ?_, False.elim⟩
  intro hnot _
  obtain ⟨found, hfound⟩ := has_cycle_returns flow
  by_cases hallow : allow_cycles flow = true
  · exact absurd (Or.inl ((allow_cycles_iff flow).mp hallow)) hnot
  · have hcheck : check_cycles flow = if found = true then .error (invalid flow
        "contains a directed cycle; set metadata.allow_cycles=true to permit cycles")
        else .ok () := by
      rw [check_cycles, if_neg hallow, hfound]
      cases found <;> rfl
    by_cases hcycle : found = true
    · rw [hcheck, if_pos hcycle]
      exact ⟨_, rfl⟩
    · rw [if_neg hcycle] at hcheck
      exact absurd (hok.mp hcheck) hnot

variable (flow)

theorem verdict_contract_node (node : DecisionNode) :
    Verdict flow (check_contract_node P flow node) (Contract (Passes P) node)
      (contract_required node.node_type = true
        ∧ Crashes (contract_type node) (contract_version node)) := by
  refine ⟨check_contract_node_passes, ?_, ?_⟩
  · intro hnot hcrash
    unfold Contract at hnot
    rw [Classical.not_imp] at hnot
    obtain ⟨hrequired, hnot⟩ := hnot
    obtain hpasses | hrefused | hcrashes :=
      contract_cases P (contract_type node) (contract_version node)
    · exact absurd hpasses hnot
    · obtain ⟨exc, hraised⟩ := validate_inline_refused hrefused
      unfold check_contract_node
      rw [if_pos hrequired, hraised]
      exact ⟨_, rfl⟩
    · exact absurd ⟨hrequired, hcrashes⟩ hcrash
  · rintro ⟨hrequired, hcrashes⟩
    exact check_contract_node_crashes P flow hrequired hcrashes

variable {syntax_check : String → Except PyError Unit}

/-- A condition that is empty is not looked at, and is accepted. -/
theorem verdict_condition (hown : ∀ text msg, syntax_check text ≠ .error (.flowValidationError msg))
    (condition : Option String) (what : String) :
    Verdict flow (check_condition flow syntax_check condition what)
      (Accepted syntax_check condition) (Escapes syntax_check condition) := by
  unfold Accepted Escapes check_condition
  by_cases hnonempty : nonempty condition = true
  swap
  · rw [if_neg hnonempty]
    exact ⟨fun _ => rfl, fun hnot => absurd (fun h => absurd h hnonempty) hnot,
      fun h => absurd h.1 hnonempty⟩
  rw [if_pos hnonempty]
  cases hparsed : syntax_check (condition.getD "") with
  | ok u =>
      refine ⟨fun _ => rfl, fun hnot => absurd (fun _ => rfl) hnot, ?_⟩
      rintro ⟨-, e, hraised, -⟩
      cases hraised
  | error e =>
      refine ⟨?_, ?_, ?_⟩
      · intro hrule
        cases hrule hnonempty
      · -- what does not escape is caught
        intro _ hcaught
        obtain ⟨exc, rfl⟩ : ∃ exc, e = .conditionEvaluationError exc := by
          by_contra hother
          exact hcaught ⟨hnonempty, e, rfl, fun text he => hother ⟨text, he⟩⟩
        exact ⟨_, rfl⟩
      · rintro ⟨-, e', he, hother⟩
        obtain rfl := Except.error.inj he
        refine ⟨e, ?_, ?_⟩
        · cases e
          case conditionEvaluationError exc => exact absurd rfl (hother exc)
          all_goals rfl
        · rintro msg rfl
          exact hown _ msg hparsed

theorem verdict_edge_conditions
    (hown : ∀ text msg, syntax_check text ≠ .error (.flowValidationError msg)) :
    Verdict flow (check_edge_conditions flow syntax_check)
      (∀ edge ∈ flow.edges, Accepted syntax_check edge.condition_expression)
      (∃ pre edge post, flow.edges = pre ++ edge :: post
        ∧ (∀ e ∈ pre, Accepted syntax_check e.condition_expression)
        ∧ Escapes syntax_check edge.condition_expression) :=
  Verdict.forM fun _ => verdict_condition flow hown _ _

theorem verdict_node_conditions
    (hown : ∀ text msg, syntax_check text ≠ .error (.flowValidationError msg)) :
    Verdict flow (check_node_conditions flow syntax_check)
      (∀ node ∈ flow.nodes, node.node_type = .decision → Accepted syntax_check node.condition)
      (∃ pre node post, flow.nodes = pre ++ node :: post
        ∧ (∀ n ∈ pre, n.node_type = .decision → Accepted syntax_check n.condition)
        ∧ node.node_type = .decision ∧ Escapes syntax_check node.condition) := by
  apply Verdict.forM
  intro node
  by_cases htype : node.node_type = .decision
  · rw [if_pos htype]
    exact (verdict_condition flow hown _ _).congr (by simp [htype]) (by simp [htype])
  · rw [if_neg htype]
    exact ⟨fun _ => rfl, fun hnot => absurd (fun h => absurd h htype) hnot,
      fun h => absurd h.1 htype⟩

end Checks

/-! ## The validator -/

/-- **What `validate` does.** -/
theorem verdict_validate (P : Platform) {syntax_check : String → Except PyError Unit}
    (hown : ∀ text msg, syntax_check text ≠ .error (.flowValidationError msg))
    (flow : DecisionFlow) (validate_conditions : Bool) :
    Verdict flow (validate_with P flow syntax_check validate_conditions)
      (WellFormed P flow ∧ (validate_conditions = true → ValidConditions syntax_check flow))
      (Crashing syntax_check P validate_conditions flow) := by
  have hconditions : Verdict flow
      (if validate_conditions then do
        check_edge_conditions flow syntax_check
        check_node_conditions flow syntax_check
      else .ok ()) (validate_conditions = true → ValidConditions syntax_check flow)
      (validate_conditions = true ∧ ConditionEscapes syntax_check flow) := by
    cases validate_conditions with
    | true =>
        exact ((verdict_edge_conditions flow hown).bind fun _ =>
          verdict_node_conditions flow hown).congr (by simp [ValidConditions])
          (by simp [ConditionEscapes])
    | false => exact ⟨fun _ => rfl, fun hnot => absurd (by simp) hnot, by simp⟩
  have hcontracts : Verdict flow (check_contract_nodes P flow) _ _ :=
    Verdict.forM (verdict_contract_node P flow)
  -- in the order of the source: a check may rely on what those before it let through
  have hall := (verdict_has_nodes flow).bind fun _ =>
    (verdict_unique_node_ids flow).bind fun hunique =>
    (verdict_entry_node flow).bind fun _ =>
    (verdict_edge_references flow).bind fun hedges =>
    (verdict_one_fallback flow).bind fun _ =>
    (verdict_no_orphan_nodes hunique hedges).bind fun _ =>
    (verdict_cycles hedges).bind fun _ => hcontracts.bind fun _ => hconditions
  apply hall.congr
  · constructor
    · rintro ⟨h₁, h₂, h₃, h₄, h₅, h₆, h₇, h₈, h₉⟩
      exact ⟨⟨⟨h₁, h₂, h₃, h₄, h₅, h₆, h₇⟩, h₈⟩, h₉⟩
    · rintro ⟨⟨⟨h₁, h₂, h₃, h₄, h₅, h₆, h₇⟩, h₈⟩, h₉⟩
      exact ⟨h₁, h₂, h₃, h₄, h₅, h₆, h₇, h₈, h₉⟩
  · simp only [false_or]
    constructor
    · rintro ⟨h₁, h₂, h₃, h₄, h₅, h₆, h₇, hcrash | ⟨h₈, hescapes⟩⟩
      · exact ⟨⟨h₁, h₂, h₃, h₄, h₅, h₆, h₇⟩, Or.inl hcrash⟩
      · exact ⟨⟨h₁, h₂, h₃, h₄, h₅, h₆, h₇⟩,
          Or.inr ⟨⟨⟨h₁, h₂, h₃, h₄, h₅, h₆, h₇⟩, h₈⟩, hescapes⟩⟩
    · rintro ⟨⟨h₁, h₂, h₃, h₄, h₅, h₆, h₇⟩, hcrash | ⟨hwell, hescapes⟩⟩
      · exact ⟨h₁, h₂, h₃, h₄, h₅, h₆, h₇, Or.inl hcrash⟩
      · exact ⟨h₁, h₂, h₃, h₄, h₅, h₆, h₇, Or.inr ⟨hwell.contracts, hescapes⟩⟩

/-- **Validation.** Whatever the evaluator raises, a `FlowValidationError` apart, the validator
returns exactly on well-formed flows, raises a `FlowValidationError` on the others, and lets another
exception through exactly when a graph that is in order comes with a contract that the check is not
written for, or with good contracts and a condition on which the evaluator raises something else
than a `ConditionEvaluationError`. -/
theorem validation_exact (P : Platform) {syntax_check : String → Except PyError Unit}
    (hown : ∀ text msg, syntax_check text ≠ .error (.flowValidationError msg))
    (flow : DecisionFlow) (validate_conditions : Bool) :
    (validate_with P flow syntax_check validate_conditions = .ok () ↔
      WellFormed P flow ∧ (validate_conditions = true → ValidConditions syntax_check flow)) ∧
    ((∃ text, validate_with P flow syntax_check validate_conditions
        = .error (.flowValidationError text)) ↔
      ¬(WellFormed P flow ∧ (validate_conditions = true → ValidConditions syntax_check flow))
        ∧ ¬Crashing syntax_check P validate_conditions flow) ∧
    ((∃ e, validate_with P flow syntax_check validate_conditions = .error e
      ∧ ∀ text, e ≠ .flowValidationError text) ↔
        Crashing syntax_check P validate_conditions flow) := by
  have hverdict := verdict_validate P hown flow validate_conditions
  refine ⟨hverdict.eq_ok_iff, hverdict.invalid_iff, ?_, hverdict.crashes⟩
  rintro ⟨e, hraised, hother⟩
  by_contra hcrash
  by_cases hrule : WellFormed P flow ∧
      (validate_conditions = true → ValidConditions syntax_check flow)
  · rw [hverdict.accepts hrule] at hraised
    cases hraised
  · obtain ⟨text, hinvalid⟩ := hverdict.rejects hrule hcrash
    rw [hraised] at hinvalid
    exact hother _ (Except.error.inj hinvalid)

/-! ## The order of nodes and edges -/

section Order

variable {P : Platform} {flow flow' : DecisionFlow}

/-- The flow with its nodes and its edges in another order. -/
structure Reordered (flow flow' : DecisionFlow) : Prop where
  nodes : flow.nodes.Perm flow'.nodes
  edges : flow.edges.Perm flow'.edges
  entry_node_id : flow.entry_node_id = flow'.entry_node_id
  metadata : flow.metadata = flow'.metadata

theorem Reordered.symm (h : Reordered flow flow') : Reordered flow' flow :=
  ⟨h.nodes.symm, h.edges.symm, h.entry_node_id.symm, h.metadata.symm⟩

theorem Reordered.edge (h : Reordered flow flow') : Edge flow = Edge flow' := by
  funext x y
  unfold Edge
  simp only [h.edges.mem_iff]

theorem Reordered.structured (h : Reordered flow flow') (hs : Structured flow) :
    Structured flow' := by
  have hids := h.nodes.map (fun n => n.id)
  refine ⟨?_, ?_, ?_, ?_, ?_, ?_, ?_⟩
  · intro hnil
    have hnodes := h.nodes
    rw [hnil] at hnodes
    exact hs.has_nodes hnodes.eq_nil
  · exact hids.nodup_iff.mp hs.unique_node_ids
  · rw [← h.entry_node_id]
    exact hids.mem_iff.mp hs.entry_node
  · intro e he
    obtain ⟨hsource, htarget⟩ := hs.edges_known e (h.edges.mem_iff.mpr he)
    exact ⟨hids.mem_iff.mp hsource, hids.mem_iff.mp htarget⟩
  · rw [← hs.one_fallback]
    exact (h.nodes.filter _).length_eq.symm
  · intro node hnode htype
    rw [← h.edge, ← h.entry_node_id]
    exact hs.connected node (h.nodes.mem_iff.mpr hnode) htype
  · rw [← h.edge, ← h.metadata]
    exact hs.acyclic

theorem Reordered.wellFormed (h : Reordered flow flow') (hw : WellFormed P flow) :
    WellFormed P flow' :=
  ⟨h.structured hw.toStructured, fun node hnode => hw.contracts node (h.nodes.mem_iff.mpr hnode)⟩

theorem Reordered.validConditions {syntax_check : String → Except PyError Unit}
    (h : Reordered flow flow') (hv : ValidConditions syntax_check flow) :
    ValidConditions syntax_check flow' :=
  ⟨fun edge hedge => hv.1 edge (h.edges.mem_iff.mpr hedge),
    fun node hnode => hv.2 node (h.nodes.mem_iff.mpr hnode)⟩

/-- The evaluator of this development raises nothing but a `ConditionEvaluationError`. -/
theorem evaluator_raises (P : Platform) (text msg : String) :
    ConditionEvaluator.validate_syntax P text ≠ .error (.flowValidationError msg) := by
  intro hraised
  obtain ⟨exc, hexc⟩ := ConditionEvaluator.rejects_validate_syntax P text _ hraised
  cases hexc

/-- **The order in the file.** A flow is accepted in one order of its nodes and edges exactly when
it is in any other. -/
theorem validation_order_free (P : Platform) (validate_conditions : Bool)
    (h : Reordered flow flow') :
    validate P flow validate_conditions = .ok ()
      ↔ validate P flow' validate_conditions = .ok () := by
  unfold validate
  rw [(verdict_validate P (evaluator_raises P) flow validate_conditions).eq_ok_iff,
    (verdict_validate P (evaluator_raises P) flow' validate_conditions).eq_ok_iff]
  exact ⟨fun hw => ⟨h.wellFormed hw.1, fun hon => h.validConditions (hw.2 hon)⟩,
    fun hw => ⟨h.symm.wellFormed hw.1, fun hon => h.symm.validConditions (hw.2 hon)⟩⟩

end Order

end FlowValidator

namespace Recorded

/-- The contract that the nodes of a flow declare. -/
def declared : PyDict := [("contract_type", .str "review"), ("contract_version", .str "1.0.0")]

/-- A flow in the order a reader would write it. -/
def forward : DecisionFlow where
  id := UUID.ofInt 1
  flow_id := "ordered"
  version := "1.0.0"
  entry_node_id := "a"
  nodes := [node "a" .start, { node "b" .decision with config := declared },
    { node "c" .fallback with config := declared }]
  edges := [⟨"e", "a", "b", none, 0⟩, ⟨"f", "b", "c", none, 0⟩]

/-- An evaluator whose `ast.parse` raises a `ValueError` for a NUL. -/
def nul_evaluator (text : String) : Except PyError Unit :=
  if Char.ofNat 0 ∈ text.toList then
    .error (.valueError "source code string cannot contain null bytes")
  else ConditionEvaluator.validate_syntax ascii text

/-- The flow with a NUL in the condition of its decision node. -/
def nul_condition : DecisionFlow :=
  { forward with nodes := forward.nodes.map fun n =>
      { n with condition := some (String.ofList [Char.ofNat 0]) } }

/-- The same flow, written from its end. -/
def backward : DecisionFlow :=
  { forward with nodes := forward.nodes.reverse, edges := forward.edges.reverse }

end Recorded

namespace FlowValidator

/-- What the evaluator raises for the NUL goes through. -/
theorem validation_exact_nul : Crashing Recorded.nul_evaluator Recorded.ascii true
    Recorded.nul_condition := by
  refine (validation_exact Recorded.ascii ?_ Recorded.nul_condition true).2.2.mp
    ⟨.valueError "source code string cannot contain null bytes", by decide +kernel, by simp⟩
  intro text msg
  unfold Recorded.nul_evaluator
  split_ifs
  · simp
  · exact evaluator_raises Recorded.ascii text msg

/-- A flow that is accepted is accepted from its end. -/
theorem validation_order_free_reversed :
    validate Recorded.ascii Recorded.backward true = .ok () := by
  have hreordered : Reordered Recorded.forward Recorded.backward :=
    ⟨(List.reverse_perm _).symm, (List.reverse_perm _).symm, rfl, rfl⟩
  exact (validation_order_free Recorded.ascii true hreordered).mp (by decide +kernel)

end FlowValidator

end DecisionRuntime
