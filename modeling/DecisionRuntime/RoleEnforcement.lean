/-
Who may resolve the gate that an evaluation opens.

The manager checks the role of a gate, and a flow names a role in the configuration
of its human gate node, but nothing carries it from there to here: `evaluate` opens
the gate of an escalated decision with the decision as its only argument. Such a
gate has no role, and whoever asks may resolve it.
-/
import DecisionRuntime.EngineRuns
import DecisionRuntime.LedgerClient
import DecisionRuntime.ValidatedFlows

set_option autoImplicit false

namespace DecisionRuntime

namespace HumanGateManager

/-! ## Gates without a role -/

/-- A gate that was just created without a role is resolved by whoever asks first. -/
theorem resolve_created (res : Resolution) (now : Datetime) (comment : Option String)
    (actor_roles : Option (List String)) (uuid : UUID) (created_at : Datetime)
    (result : DecisionResult) (m : HumanGateManager) :
    resolve res now uuid.str comment actor_roles (created uuid created_at result none none m)
      = (.ok (res.update now result), resolved res now uuid.str comment
          (gate_request uuid created_at result none none) result
          (created uuid created_at result none none m)) := by
  have hgate : (created uuid created_at result none none m).store.get uuid.str
      = some (gate_request uuid created_at result none none) := Dict.get_set_same _ _ _
  have hresult : (created uuid created_at result none none m).results.get uuid.str
      = some result := Dict.get_set_same _ _ _
  exact resolve_success res now comment hgate hresult rfl rfl

/-! ## Letting an actor through, or not -/

/-- The call raises `HumanGateInsufficientRoleError`, and the gate is pending afterwards. -/
def Denies (call : Exec PyError HumanGateManager DecisionResult) (request_id : String)
    (m : HumanGateManager) : Prop :=
  (∃ msg, (call m).1 = .error (.humanGateInsufficientRoleError msg)) ∧
    ∃ request, (call m).2.store.get request_id = some request ∧ request.status = .pending

/-- The call returns, and the gate is no longer pending afterwards. -/
def Admits (call : Exec PyError HumanGateManager DecisionResult) (request_id : String)
    (m : HumanGateManager) : Prop :=
  (∃ result, (call m).1 = .ok result) ∧
    ∃ request, (call m).2.store.get request_id = some request ∧ request.status ≠ .pending

theorem Admits.not_denies {call : Exec PyError HumanGateManager DecisionResult}
    {request_id : String} {m : HumanGateManager} (h : Admits call request_id m) :
    ¬ Denies call request_id m := by
  rintro ⟨⟨msg, hraised⟩, -⟩
  obtain ⟨⟨result, hok⟩, -⟩ := h
  exact nomatch hok.symm.trans hraised

/-- A resolution that is no return to `PENDING` goes through on such a gate. -/
theorem admits_created {res : Resolution} (hres : res.status ≠ .pending) (now : Datetime)
    (comment : Option String) (actor_roles : Option (List String)) (uuid : UUID)
    (created_at : Datetime) (result : DecisionResult) (m : HumanGateManager) :
    Admits (resolve res now uuid.str comment actor_roles) uuid.str
      (created uuid created_at result none none m) := by
  have hrun := resolve_created res now comment actor_roles uuid created_at result m
  refine ⟨⟨_, congrArg Prod.fst hrun⟩, ?_⟩
  rw [hrun]
  exact ⟨_, Dict.get_set_same _ _ _, hres⟩

end HumanGateManager

namespace DecisionRuntimeEngine

open HumanGateManager

variable {σ : Type}

/-- An active human gate node of the flow names the role in its configuration. -/
def NamesRole (flow : DecisionFlow) (role : String) : Prop :=
  ∃ n ∈ flow.nodes, n.node_type = .human_gate ∧ n.is_active
    ∧ PyDict.get n.config "assignee_role" = some (.str role)

/-- The evaluation escalates the decision to a human. -/
def Escalates (P : Platform) (draws : Draws) (signal : Signal) (flow : DecisionFlow) : Prop :=
  ∃ core evaluated_nodes,
    PureEvaluate.pure_evaluate P draws signal flow = .ok (core, evaluated_nodes)
      ∧ core.status = .pending_human

/-- **No role is enforced.** Of a validated flow that names a role, whenever an evaluation
escalates, an actor without the role resolves the gate that it opens, either way. -/
theorem role_not_enforced (P : Platform) (C : LedgerBackend σ) {cfg : EngineConfig} {env : Env}
    {signal : Signal} {flow : DecisionFlow} (w : World σ) {validate_conditions : Bool}
    (_hvalid : FlowValidator.validate P flow validate_conditions = .ok ()) {role : String}
    (_hrole : NamesRole flow role) (hwired : cfg.human_gate_manager = true)
    (hescalates : Escalates P env.draws signal flow) {actor_roles : List String}
    (_hlacks : role ∉ actor_roles) (now : Datetime) (comment : Option String) :
    let m := (evaluate P C cfg env signal flow w).2.human_gate_manager
    (Admits (approve now env.gate_id.str comment (some actor_roles)) env.gate_id.str m ∧
        ¬ Denies (approve now env.gate_id.str comment (some actor_roles)) env.gate_id.str m) ∧
      Admits (reject now env.gate_id.str comment (some actor_roles)) env.gate_id.str m ∧
        ¬ Denies (reject now env.gate_id.str comment (some actor_roles)) env.gate_id.str m := by
  intro m
  obtain ⟨core, evaluated_nodes, computed, hstatus⟩ := hescalates
  -- whatever the ledger answers, the gate is there
  have hm : m = created env.gate_id env.gate_created_at core none none w.human_gate_manager := by
    have hgates : m = gates_opened cfg env core w.human_gate_manager := evaluate_gates computed w
    rw [hgates, gates_opened, if_pos ⟨hstatus, hwired⟩]
  rw [hm]
  have happroved : approval.status ≠ .pending := by decide
  have hrejected : rejection.status ≠ .pending := by decide
  have happrove := admits_created happroved now comment (some actor_roles) env.gate_id
    env.gate_created_at core w.human_gate_manager
  have hreject := admits_created hrejected now comment (some actor_roles) env.gate_id
    env.gate_created_at core w.human_gate_manager
  exact ⟨⟨happrove, happrove.not_denies⟩, hreject, hreject.not_denies⟩

end DecisionRuntimeEngine

namespace Recorded

/-- A decision that a boundary escalates, and a human gate node for supervisors. -/
def supervised : DecisionFlow where
  id := UUID.repeated 2
  flow_id := "payment"
  version := "1.0.0"
  entry_node_id := "always"
  nodes :=
    [{ id := "always", node_type := .decision, config := terms },
      { id := "review", node_type := .boundary, effect := some "escalate", config := terms },
      { id := "supervisor", node_type := .human_gate,
        config := [("assignee_role", .str "supervisor")] },
      { id := "manual", node_type := .fallback, config := terms }]
  edges :=
    [{ id := "e1", source_node_id := "always", target_node_id := "review" },
      { id := "e2", source_node_id := "review", target_node_id := "supervisor" }]

end Recorded

namespace DecisionRuntimeEngine

open HumanGateManager

theorem supervised_escalates :
    Escalates (Recorded.parser (.constant (.bool true))) (Recorded.env (UUID.repeated 4)
      (UUID.repeated 5)).draws Recorded.reading Recorded.supervised :=
  ⟨_, _, rfl, rfl⟩

theorem supervised_names_role : NamesRole Recorded.supervised "supervisor" :=
  ⟨Recorded.supervised.nodes[2], List.getElem_mem _, rfl, rfl, rfl⟩

/-- A guest approves the gate of a flow that names supervisors. -/
theorem role_not_enforced_supervised :
    let P := Recorded.parser (.constant (.bool true))
    let env := Recorded.env (UUID.repeated 4) (UUID.repeated 5)
    let m := (evaluate P LedgerClient.backend (Recorded.config "strict") env Recorded.reading
      Recorded.supervised (World.init LedgerClient.init)).2.human_gate_manager
    FlowValidator.validate P Recorded.supervised true = .ok () ∧
      NamesRole Recorded.supervised "supervisor" ∧
      ¬ Denies (approve ⟨20, some 0⟩ env.gate_id.str none (some ["guest"])) env.gate_id.str m := by
  intro P env m
  refine ⟨by decide +kernel, supervised_names_role, ?_⟩
  rintro ⟨⟨msg, hraised⟩, -⟩
  have hok : (approve ⟨20, some 0⟩ env.gate_id.str none (some ["guest"]) m).1.isOk = true := by
    decide +kernel
  rw [hraised] at hok
  cases hok

/-- What the theorem says of that flow. -/
theorem role_not_enforced_guest :
    let P := Recorded.parser (.constant (.bool true))
    let env := Recorded.env (UUID.repeated 4) (UUID.repeated 5)
    let m := (evaluate P LedgerClient.backend (Recorded.config "strict") env Recorded.reading
      Recorded.supervised (World.init LedgerClient.init)).2.human_gate_manager
    (Admits (approve ⟨20, some 0⟩ env.gate_id.str none (some ["guest"])) env.gate_id.str m ∧
        ¬ Denies (approve ⟨20, some 0⟩ env.gate_id.str none (some ["guest"])) env.gate_id.str m) ∧
      Admits (reject ⟨20, some 0⟩ env.gate_id.str none (some ["guest"])) env.gate_id.str m ∧
        ¬ Denies (reject ⟨20, some 0⟩ env.gate_id.str none (some ["guest"]))
          env.gate_id.str m := by
  have hvalid : FlowValidator.validate (Recorded.parser (.constant (.bool true)))
      Recorded.supervised true = .ok () := by decide +kernel
  exact role_not_enforced _ LedgerClient.backend (World.init LedgerClient.init) hvalid
    supervised_names_role rfl supervised_escalates (by decide) ⟨20, some 0⟩ none

end DecisionRuntimeEngine

end DecisionRuntime
