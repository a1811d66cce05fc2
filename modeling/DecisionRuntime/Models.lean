/-
The records of `backend/app/models`: signals, flows, decisions, gates, traces
and events, with the fields some function of the runtime reads or writes.

Three things about them are behaviour rather than data and are kept with the
type they belong to:

* `Confidence` -- the `ge=0, le=1` bound is part of the value, so a confidence out
  of range cannot be built;
* `DecisionResult.populate_canonical_fields` -- the model validator. It runs when a
  result is constructed **and again** when an existing result is put into a
  `DecisionTrace`, while `model_copy` runs no validator at all;
* the `.value` texts of the enumerations, which the ledger stores.
-/
import DecisionRuntime.Platform

set_option autoImplicit false

namespace DecisionRuntime

/-! ## Signals -/

/-- A float in `[0, 1]`. -/
structure Confidence where
  val : ℚ
  nonneg : 0 ≤ val
  le_one : val ≤ 1
  deriving DecidableEq

/-- The greatest confidence. -/
def Confidence.certain : Confidence := ⟨1, zero_le_one, le_refl 1⟩

/-- The confidence as a value of the evaluation context. -/
def Confidence.toValue (c : Confidence) : Value := .float (.finite c.val)

/-- `Signal`. -/
structure Signal where
  id : UUID
  name : String
  type : String
  confidence : Confidence
  payload : PyDict
  source : String
  timestamp : Datetime
  idempotency_key : Option String

/-! ## Flows -/

/-- `NodeType`. -/
inductive NodeType
  | start
  | end
  | decision
  | boundary
  | human_gate
  | fallback
  | fork
  | merge
  | action
  deriving DecidableEq

def NodeType.value : NodeType → String
  | .start => "start"
  | .end => "end"
  | .decision => "decision"
  | .boundary => "boundary"
  | .human_gate => "human_gate"
  | .fallback => "fallback"
  | .fork => "fork"
  | .merge => "merge"
  | .action => "action"

/-- `DecisionNode`. -/
structure DecisionNode where
  id : String
  node_type : NodeType
  condition : Option String := none
  priority : ℕ := 0
  severity : Option String := none
  effect : Option String := none
  action : Option PyDict := none
  contract_id : Option UUID := none
  config : PyDict := []
  is_active : Bool := true

/-- `FlowEdge`. -/
structure FlowEdge where
  id : String
  source_node_id : String
  target_node_id : String
  condition_expression : Option String := none
  priority : ℕ := 0

/-- `DecisionFlow`. -/
structure DecisionFlow where
  id : UUID
  flow_id : String
  version : String
  entry_node_id : String
  nodes : List DecisionNode
  edges : List FlowEdge := []
  is_active : Bool := true
  metadata : PyDict := []

/-! ## Boundaries and gates -/

/-- `BoundaryResult`. -/
structure BoundaryResult where
  boundary_id : String
  triggered : Bool
  severity : String
  effect : String
  action : Option PyDict
  reason : String

/-- `HumanGateStatus`. -/
inductive HumanGateStatus
  | pending
  | assigned
  | in_review
  | approved
  | rejected
  | timed_out
  | cancelled
  deriving DecidableEq

def HumanGateStatus.value : HumanGateStatus → String
  | .pending => "pending"
  | .assigned => "assigned"
  | .in_review => "in_review"
  | .approved => "approved"
  | .rejected => "rejected"
  | .timed_out => "timed_out"
  | .cancelled => "cancelled"

/-- `HumanGateOption`. -/
structure HumanGateOption where
  value : String
  label : String
  description : Option String := none
  is_default : Bool := false
  deriving DecidableEq

/-- `HumanGateRequest`. -/
structure HumanGateRequest where
  id : UUID
  flow_id : UUID
  decision_id : Option UUID
  trace_id : Option UUID
  node_id : String
  required_role : Option String
  title : String
  question : String
  options : List HumanGateOption
  status : HumanGateStatus := .pending
  response_value : Option String := none
  response_note : Option String := none
  responded_at : Option Datetime := none
  created_at : Datetime

/-! ## Decisions -/

/-- `RuntimeState`. -/
inductive RuntimeState
  | received
  | evaluating
  | pending_human
  | confirmed
  | rejected
  | timeout
  | executing
  | completed
  | failed
  deriving DecidableEq

def RuntimeState.value : RuntimeState → String
  | .received => "received"
  | .evaluating => "evaluating"
  | .pending_human => "pending_human"
  | .confirmed => "confirmed"
  | .rejected => "rejected"
  | .timeout => "timeout"
  | .executing => "executing"
  | .completed => "completed"
  | .failed => "failed"

/-- `DecisionOutcome`. -/
inductive DecisionOutcome
  | pass
  | fail
  | abstain
  | error
  deriving DecidableEq

def DecisionOutcome.value : DecisionOutcome → String
  | .pass => "pass"
  | .fail => "fail"
  | .abstain => "abstain"
  | .error => "error"

/-- `DecisionOutcome(text)`; `none` is the `ValueError`. -/
def DecisionOutcome.ofValue (text : String) : Option DecisionOutcome :=
  [.pass, .fail, .abstain, .error].find? (fun o : DecisionOutcome => o.value = text)

theorem DecisionOutcome.ofValue_value (o : DecisionOutcome) : ofValue o.value = some o := by
  cases o <;> decide

/-- `DecisionStatus`. -/
inductive DecisionStatus
  | confirmed
  | fallback
  | blocked
  | pending_human
  | rejected
  | error
  deriving DecidableEq

def DecisionStatus.value : DecisionStatus → String
  | .confirmed => "confirmed"
  | .fallback => "fallback"
  | .blocked => "blocked"
  | .pending_human => "pending_human"
  | .rejected => "rejected"
  | .error => "error"

/-- `DecisionStatus(text)`; `none` is the `ValueError`. -/
def DecisionStatus.ofValue (text : String) : Option DecisionStatus :=
  [.confirmed, .fallback, .blocked, .pending_human, .rejected, .error].find?
    (fun s : DecisionStatus => s.value = text)

theorem DecisionStatus.ofValue_value (s : DecisionStatus) : ofValue s.value = some s := by
  cases s <;> decide

/-- `DecisionResult`. The fields from `decision_id` on are the canonical ones the model
validator fills in. -/
structure DecisionResult where
  id : UUID
  trace_id : UUID
  flow_id : UUID
  flow_version : String
  selected_node_id : String
  source_signal_id : UUID
  state : RuntimeState
  status : DecisionStatus
  outcome : DecisionOutcome
  confidence : Confidence
  action : Option PyDict := none
  contract_id : Option UUID := none
  contract_version : Option String := none
  signals_used : List String := []
  conditions_evaluated : ℕ := 0
  conditions_passed : ℕ := 0
  execution_id : Option String := none
  boundary_results : List BoundaryResult := []
  human_gate : Option HumanGateRequest := none
  error_message : Option String := none
  evaluated_at : Datetime
  created_at : Datetime
  updated_at : Datetime
  metadata : PyDict := []
  decision_id : String := ""
  signal_id : Option String := none
  decision_type : String := ""
  selected_flow_id : Option String := none
  reason : Option String := none
  human_gate_required : Bool := false
  payload : PyDict := []
  timestamp : Option String := none
  schema_version : String := "decision-result/v1"

/-- The truth of an optional string: present and not empty. -/
def nonempty (s : Option String) : Bool := s.getD "" ≠ ""

/-- `DecisionResult._populate_canonical_fields`. -/
def DecisionResult.populate_canonical_fields (r : DecisionResult) : DecisionResult :=
  { r with
    decision_id := if r.decision_id = "" then r.id.str else r.decision_id
    signal_id := some (r.signal_id.getD r.source_signal_id.str)
    decision_type := if r.decision_type = "" then r.status.value else r.decision_type
    selected_flow_id := some (r.selected_flow_id.getD r.flow_id.str)
    reason := if r.reason = none ∧ nonempty r.error_message then r.error_message else r.reason
    human_gate_required := r.human_gate.isSome
    payload := if r.payload.isEmpty then r.action.getD [] else r.payload
    timestamp := some (r.timestamp.getD r.evaluated_at.isoformat) }

section Canonical

variable (r : DecisionResult)

/-! The validator writes the canonical fields and no other. -/

@[simp] theorem DecisionResult.canonical_id : r.populate_canonical_fields.id = r.id := rfl

@[simp] theorem DecisionResult.canonical_trace_id :
    r.populate_canonical_fields.trace_id = r.trace_id := rfl

@[simp] theorem DecisionResult.canonical_flow_id :
    r.populate_canonical_fields.flow_id = r.flow_id := rfl

@[simp] theorem DecisionResult.canonical_status :
    r.populate_canonical_fields.status = r.status := rfl

@[simp] theorem DecisionResult.canonical_outcome :
    r.populate_canonical_fields.outcome = r.outcome := rfl

@[simp] theorem DecisionResult.canonical_selected_node_id :
    r.populate_canonical_fields.selected_node_id = r.selected_node_id := rfl

@[simp] theorem DecisionResult.canonical_confidence :
    r.populate_canonical_fields.confidence = r.confidence := rfl

@[simp] theorem DecisionResult.canonical_action :
    r.populate_canonical_fields.action = r.action := rfl

@[simp] theorem DecisionResult.canonical_execution_id :
    r.populate_canonical_fields.execution_id = r.execution_id := rfl

@[simp] theorem DecisionResult.canonical_human_gate :
    r.populate_canonical_fields.human_gate = r.human_gate := rfl

@[simp] theorem DecisionResult.canonical_evaluated_at :
    r.populate_canonical_fields.evaluated_at = r.evaluated_at := rfl

end Canonical

/-! ## Traces -/

/-- A record of `evaluated_nodes`. -/
structure NodeRecord where
  node_id : String
  node_type : String
  matched : Bool
  condition : Option String
  reason : String

/-- The dictionary the engine appends. -/
def NodeRecord.toDict (r : NodeRecord) : PyDict :=
  [("node_id", .str r.node_id), ("node_type", .str r.node_type), ("matched", .bool r.matched),
    ("condition", Value.optStr r.condition), ("reason", .str r.reason)]

/-- `DecisionTrace`. Each entry of `evaluated_nodes` is the dictionary the engine appended. -/
structure DecisionTrace where
  id : UUID
  flow_id : UUID
  flow_version : String
  state : RuntimeState
  decision_id : Option UUID
  signal_id : Option UUID
  started_at : Datetime
  completed_at : Option Datetime
  signals : List Signal := []
  evaluated_nodes : List PyDict := []
  decision_results : List DecisionResult := []
  boundary_results : List BoundaryResult := []
  human_gate_requests : List HumanGateRequest := []
  metadata : PyDict := []

/-! ## Events -/

/-- `EventType`. -/
inductive EventType
  | flow_started
  | flow_completed
  | flow_failed
  | flow_paused
  | flow_resumed
  | flow_cancelled
  | node_entered
  | node_exited
  | node_failed
  | decision_made
  | boundary_checked
  | boundary_violated
  | human_gate_opened
  | human_gate_responded
  | human_gate_timed_out
  | signal_received
  | execution_requested
  | execution_completed
  deriving DecidableEq

/-- `RuntimeEvent`. -/
structure RuntimeEvent where
  id : UUID
  event_type : EventType
  flow_id : UUID
  trace_id : UUID
  decision_id : Option UUID
  timestamp : Datetime
  payload : PyDict
  metadata : PyDict := []

/-- `LedgerEvent`. -/
structure LedgerEvent where
  event_id : UUID
  schema_version : String
  trace_id : UUID
  decision_id : UUID
  flow_id : UUID
  flow_version : String
  step_type : String
  step_id : String
  payload : PyDict
  occurred_at : Datetime

/-- `LedgerAppendStatus`. -/
inductive LedgerAppendStatus
  | accepted
  | duplicate
  | invalid
  deriving DecidableEq

/-- `LedgerAppendResult`. -/
structure LedgerAppendResult where
  status : LedgerAppendStatus
  event_id : UUID
  error_message : Option String := none
  deriving DecidableEq

end DecisionRuntime
