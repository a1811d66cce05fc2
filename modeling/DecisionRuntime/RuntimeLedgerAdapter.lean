/-
`backend/app/integrations/runtime_ledger_adapter.py`: from a trace and its result
to ledger events, and the append loop.

The event ids are `uuid5` of `"{trace_id}:{step_key}"`. The step keys are five
families of texts (`signal:`, `node:`, `human:`, `outcome:`, `human_action:`)
with free-form node ids in one of them; `StepKey` is what such a text names, and
`StepKey.text_injective` is that a text names one thing only.

`commit` keeps four accumulators. `commit_run` says that they are functions of
the list of answers, so that everything later is about that list.
-/
import DecisionRuntime.LedgerClient

set_option autoImplicit false

namespace DecisionRuntime

/-- `StepType`. -/
inductive StepType
  | signal
  | decision
  | boundary
  | human
  | action
  | outcome
  deriving DecidableEq

def StepType.value : StepType → String
  | .signal => "signal"
  | .decision => "decision"
  | .boundary => "boundary"
  | .human => "human"
  | .action => "action"
  | .outcome => "outcome"

/-- `LedgerCommitStatus`. -/
inductive LedgerCommitStatus
  | accepted
  | partial_
  | duplicate
  | failed
  deriving DecidableEq

def LedgerCommitStatus.value : LedgerCommitStatus → String
  | .accepted => "accepted"
  | .partial_ => "partial"
  | .duplicate => "duplicate"
  | .failed => "failed"

/-- `LedgerCommitResult`. -/
structure LedgerCommitResult where
  status : LedgerCommitStatus
  appended : ℕ
  duplicates : ℕ
  event_ids : List UUID
  errors : List String
  deriving DecidableEq

namespace RuntimeLedgerAdapter

/-! ## Event ids -/

/-- `uuid.NAMESPACE_URL`, `6ba7b811-9dad-11d1-80b4-00c04fd430c8`. -/
def NAMESPACE_URL : UUID :=
  ⟨[6, 11, 10, 7, 11, 8, 1, 1, 9, 13, 10, 13, 1, 1, 13, 1, 8, 0, 11, 4, 0, 0, 12, 0, 4, 15, 13, 4,
    3, 0, 12, 8], rfl⟩

/-- `_LEDGER_NS`. -/
def LEDGER_NS (P : Platform) : UUID := P.uuid5 NAMESPACE_URL "decision-runtime-core:ledger:v1"

/-- The name an event id is the hash of. -/
def event_name (trace_id : UUID) (step_key : String) : String := trace_id.str ++ ":" ++ step_key

/-- `_event_id`. -/
def event_id (P : Platform) (trace_id : UUID) (step_key : String) : UUID :=
  P.uuid5 (LEDGER_NS P) (event_name trace_id step_key)

/-- What a step key names. -/
inductive StepKey
  | signal (signal_id : UUID)
  | node (node_id : String)
  | human (gate_id : UUID)
  | outcome (decision_id : UUID)
  | human_action (gate_id : UUID) (action : String)
  deriving DecidableEq

/-- The text of a step key. -/
def StepKey.text : StepKey → String
  | .signal signal_id => "signal:" ++ signal_id.str
  | .node node_id => "node:" ++ node_id
  | .human gate_id => "human:" ++ gate_id.str
  | .outcome decision_id => "outcome:" ++ decision_id.str
  | .human_action gate_id action => "human_action:" ++ (gate_id.str ++ ":" ++ action)

/-- The five families are told apart by their texts up to the first colon, and within a family
the text after it is read back. -/
theorem StepKey.text_injective : Function.Injective StepKey.text := by
  intro a b h
  have hl := congrArg String.toList h
  cases a <;> cases b <;> simp only [StepKey.text, String.toList_append] at hl
  case signal.signal u v =>
    have hu : u.str.toList = v.str.toList := List.append_cancel_left hl
    rw [UUID.str_inj.mp (String.toList_inj.mp hu)]
  case node.node m n =>
    have hm : m.toList = n.toList := List.append_cancel_left hl
    rw [String.toList_inj.mp hm]
  case human.human u v =>
    have hu : u.str.toList = v.str.toList := List.append_cancel_left hl
    rw [UUID.str_inj.mp (String.toList_inj.mp hu)]
  case outcome.outcome u v =>
    have hu : u.str.toList = v.str.toList := List.append_cancel_left hl
    rw [UUID.str_inj.mp (String.toList_inj.mp hu)]
  case human_action.human_action u x v y =>
    have hu : (u.str ++ (":" ++ x)).toList = (v.str ++ (":" ++ y)).toList := by
      have := List.append_cancel_left hl
      simpa only [String.toList_append, List.append_assoc] using this
    -- the text of an id has a fixed length, so what follows it is read back
    obtain ⟨rfl, hxy⟩ := UUID.str_append_inj (String.toList_inj.mp hu)
    have hx : (":".toList ++ x.toList) = (":".toList ++ y.toList) := by
      rw [← String.toList_append, ← String.toList_append, hxy]
    rw [String.toList_inj.mp (List.append_cancel_left hx)]
  -- two different families differ in one of their first six characters
  all_goals
    exfalso
    have h6 := congrArg (List.take 6) hl
    simp at h6

/-- An event name is read back as a trace and a step. -/
theorem event_name_inj {t u : UUID} {k l : String} (h : event_name t k = event_name u l) :
    t = u ∧ k = l := by
  have ht : t.str ++ (":" ++ k) = u.str ++ (":" ++ l) := by
    rw [event_name, event_name, String.append_assoc, String.append_assoc] at h
    exact h
  obtain ⟨rfl, hkl⟩ := UUID.str_append_inj ht
  have hk : (":".toList ++ k.toList) = (":".toList ++ l.toList) := by
    rw [← String.toList_append, ← String.toList_append, hkl]
  exact ⟨rfl, String.toList_inj.mp (List.append_cancel_left hk)⟩

/-! ## Building the events -/

/-- `_NODE_TYPE_TO_STEP.get(node_type)`. -/
def NODE_TYPE_TO_STEP (node_type : String) : Option StepType :=
  if node_type = "signal" then some .signal
  else if node_type = "decision" then some .decision
  else if node_type = "boundary" then some .boundary
  else if node_type = "human_gate" then some .human
  else if node_type = "action" then some .action
  -- the record of a fallback node gets the step type of the summary
  else if node_type = "fallback" then some .outcome
  else none

section Events

variable (P : Platform) (schema_version : String)

/-- The event of the triggering signal. -/
def signal_event (trace : DecisionTrace) (result : DecisionResult) (signal_id : UUID) :
    LedgerEvent :=
  { event_id := event_id P trace.id ("signal:" ++ signal_id.str)
    schema_version := schema_version
    trace_id := trace.id
    decision_id := result.id
    flow_id := trace.flow_id
    flow_version := trace.flow_version
    step_type := StepType.signal.value
    step_id := signal_id.str
    payload := [("signal_id", .str signal_id.str)]
    occurred_at := trace.started_at }

/-- `_NODE_TYPE_TO_STEP.get(node_type, StepType.DECISION)` for any value; a list or a dictionary
cannot be looked up. -/
def step_type_of (node_type : Value) : Except PyError StepType :=
  match node_type with
  | .str s => .ok ((NODE_TYPE_TO_STEP s).getD .decision)
  | .list _ => .error (.typeError "unhashable type: 'list'")
  | .dict _ => .error (.typeError "unhashable type: 'dict'")
  | _ => .ok .decision

/-- The event of one evaluated node. A node id that is not a string does not validate. -/
def node_event (trace : DecisionTrace) (result : DecisionResult) (node_record : PyDict) :
    Except PyError LedgerEvent := do
  let node_type := (PyDict.get node_record "node_type").getD (.str "decision")
  let step_type ← step_type_of node_type
  match (PyDict.get node_record "node_id").getD (.str "") with
  | .str node_id =>
    return { event_id := event_id P trace.id ("node:" ++ node_id)
             schema_version := schema_version
             trace_id := trace.id
             decision_id := result.id
             flow_id := trace.flow_id
             flow_version := trace.flow_version
             step_type := step_type.value
             step_id := node_id
             payload :=
               [("node_id", .str node_id), ("node_type", node_type),
                 ("matched", (PyDict.get node_record "matched").getD .none),
                 ("condition", (PyDict.get node_record "condition").getD .none),
                 ("reason", (PyDict.get node_record "reason").getD .none)]
             occurred_at := trace.completed_at.getD trace.started_at }
  | _ => .error (.validationError "LedgerEvent")

/-- The event of one gate embedded in the trace. -/
def gate_event (trace : DecisionTrace) (result : DecisionResult) (gate_req : HumanGateRequest) :
    LedgerEvent :=
  { event_id := event_id P trace.id ("human:" ++ gate_req.id.str)
    schema_version := schema_version
    trace_id := trace.id
    decision_id := result.id
    flow_id := trace.flow_id
    flow_version := trace.flow_version
    step_type := StepType.human.value
    step_id := gate_req.id.str
    payload :=
      [("gate_id", .str gate_req.id.str), ("node_id", .str gate_req.node_id),
        ("status", .str gate_req.status.value),
        ("required_role", Value.optStr gate_req.required_role)]
    occurred_at := gate_req.created_at }

/-- The resolution summary of the whole evaluation. -/
def outcome_event (trace : DecisionTrace) (result : DecisionResult) : LedgerEvent :=
  { event_id := event_id P trace.id ("outcome:" ++ result.id.str)
    schema_version := schema_version
    trace_id := trace.id
    decision_id := result.id
    flow_id := trace.flow_id
    flow_version := trace.flow_version
    step_type := StepType.outcome.value
    step_id := result.id.str
    payload :=
      [("decision_id", .str result.id.str), ("status", .str result.status.value),
        ("outcome", .str result.outcome.value),
        ("selected_node_id", .str result.selected_node_id),
        ("confidence", result.confidence.toValue)]
    occurred_at := result.evaluated_at }

/-- `_build_events`: signal, one event for each evaluated node, one for each gate, outcome. -/
def build_events (trace : DecisionTrace) (result : DecisionResult) :
    Except PyError (List LedgerEvent) := do
  let signal_events := trace.signal_id.toList.map (signal_event P schema_version trace result)
  let node_events ← trace.evaluated_nodes.mapM (node_event P schema_version trace result)
  let gate_events := trace.human_gate_requests.map (gate_event P schema_version trace result)
  -- the summary is built and appended last
  return signal_events ++ node_events ++ gate_events
    ++ [outcome_event P schema_version trace result]

/-- The step key of an evaluated node. -/
def node_key (node_record : PyDict) : Option StepKey :=
  match (PyDict.get node_record "node_id").getD (.str "") with
  | .str node_id => some (.node node_id)
  | _ => none

/-- The step keys `_build_events` hashes, in order. -/
def step_keys (trace : DecisionTrace) (result : DecisionResult) : List StepKey :=
  trace.signal_id.toList.map StepKey.signal ++ trace.evaluated_nodes.filterMap node_key
    ++ trace.human_gate_requests.map (fun gate_req => .human gate_req.id)
    ++ [.outcome result.id]

/-- The event `append_human_gate_event` appends. A result always has a trace id, so the branch of
the source for a missing one is not reached. -/
def human_action_event (gate_request : HumanGateRequest) (result : DecisionResult)
    (actor_id action : String) (occurred_at : Datetime) (actor_roles : Option (List String))
    (comment : Option String) : LedgerEvent :=
  let trace_id := gate_request.trace_id.getD result.trace_id
  let decision_id := gate_request.decision_id.getD result.id
  let gate_id_str := gate_request.id.str
  { event_id := event_id P trace_id ("human_action:" ++ (gate_id_str ++ ":" ++ action))
    schema_version := schema_version
    trace_id := trace_id
    decision_id := decision_id
    flow_id := gate_request.flow_id
    flow_version := result.flow_version
    step_type := StepType.human.value
    step_id := gate_id_str
    payload :=
      [("event_type", .str ("runtime.human_gate." ++ action ++ "d")),
        ("gate_id", .str gate_id_str), ("decision_id", .str decision_id.str),
        ("action", .str action), ("actor_id", .str actor_id),
        ("actor_roles", (actor_roles.map (fun rs => Value.list (rs.map .str))).getD .none),
        ("required_role", Value.optStr gate_request.required_role),
        ("comment", Value.optStr comment),
        (action ++ "d_at", .str occurred_at.isoformat)]
    occurred_at := occurred_at }

/-- The summary of one boundary in an exported decision. -/
def boundary_summary (br : BoundaryResult) : PyDict :=
  [("boundary_id", .str br.boundary_id), ("triggered", .bool br.triggered),
    ("effect", .str br.effect), ("severity", .str br.severity), ("reason", .str br.reason)]

/-- `decision_result_to_ledger_event`: a decision as one flat dictionary, without its trace. -/
def decision_result_to_ledger_event (decision_result : DecisionResult) : PyDict :=
  let boundary_summaries := decision_result.boundary_results.map boundary_summary
  [("event_type", .str "runtime.decision.produced"),
    ("schema_version", .str decision_result.schema_version),
    ("decision_id", .str decision_result.decision_id),
    ("signal_id", Value.optStr decision_result.signal_id),
    ("decision_type", .str decision_result.decision_type),
    ("selected_flow_id", Value.optStr decision_result.selected_flow_id),
    ("outcome", .str decision_result.outcome.value),
    ("status", .str decision_result.status.value),
    ("confidence", decision_result.confidence.toValue),
    ("reason", Value.optStr decision_result.reason),
    ("human_gate_required", .bool decision_result.human_gate_required),
    ("payload", .dict decision_result.payload),
    ("timestamp", Value.optStr decision_result.timestamp),
    ("boundary_results", .list (boundary_summaries.map .dict))]

/-! ### What the events of a trace are -/

variable {P schema_version}

/-- The event of a node the engine recorded: the record itself is the payload. -/
def record_event (P : Platform) (schema_version : String) (trace : DecisionTrace)
    (result : DecisionResult) (r : NodeRecord) : LedgerEvent :=
  { event_id := event_id P trace.id (StepKey.node r.node_id).text
    schema_version := schema_version
    trace_id := trace.id
    decision_id := result.id
    flow_id := trace.flow_id
    flow_version := trace.flow_version
    step_type := ((NODE_TYPE_TO_STEP r.node_type).getD .decision).value
    step_id := r.node_id
    payload := r.toDict
    occurred_at := trace.completed_at.getD trace.started_at }

theorem node_event_toDict (trace : DecisionTrace) (result : DecisionResult) (r : NodeRecord) :
    node_event P schema_version trace result r.toDict
      = .ok (record_event P schema_version trace result r) := by
  rfl

/-- The summary of a trace is one of its events. -/
theorem outcome_event_mem {trace : DecisionTrace} {result : DecisionResult}
    {events : List LedgerEvent} (h : build_events P schema_version trace result = .ok events) :
    outcome_event P schema_version trace result ∈ events := by
  rw [build_events, except_bind_eq_ok] at h
  obtain ⟨node_events, -, h⟩ := h
  rw [← Except.ok.inj h]
  exact List.mem_append_right _ (by simp)

/-- The event of the signal comes first. -/
theorem build_events_signal {trace : DecisionTrace} {result : DecisionResult}
    {events : List LedgerEvent} (h : build_events P schema_version trace result = .ok events)
    {signal_id : UUID} (hsignal : trace.signal_id = some signal_id) :
    ∃ rest, events = signal_event P schema_version trace result signal_id :: rest := by
  rw [build_events, except_bind_eq_ok] at h
  obtain ⟨node_events, -, h⟩ := h
  rw [← Except.ok.inj h, hsignal]
  exact ⟨_, rfl⟩

/-- The events of a trace whose nodes are records of the engine. -/
theorem build_events_records {trace : DecisionTrace} {result : DecisionResult}
    {records : List NodeRecord} (h : trace.evaluated_nodes = records.map NodeRecord.toDict) :
    build_events P schema_version trace result =
      .ok (trace.signal_id.toList.map (signal_event P schema_version trace result)
        ++ records.map (record_event P schema_version trace result)
        ++ trace.human_gate_requests.map (gate_event P schema_version trace result)
        ++ [outcome_event P schema_version trace result]) := by
  have hnodes : (records.map NodeRecord.toDict).mapM (node_event P schema_version trace result)
      = .ok (records.map (record_event P schema_version trace result)) := by
    rw [List.mapM_map]
    exact except_mapM_eq_map (fun r _ => node_event_toDict trace result r)
  rw [build_events, h, hnodes]
  rfl

/-- An event belongs to the trace, and its id is the hash of one of the step keys. -/
def Hashes (P : Platform) (trace_id : UUID) (e : LedgerEvent) (key : StepKey) : Prop :=
  e.trace_id = trace_id ∧ e.event_id = event_id P trace_id key.text

theorem node_event_hashes {trace : DecisionTrace} {result : DecisionResult} {d : PyDict}
    {e : LedgerEvent} (h : node_event P schema_version trace result d = .ok e) :
    ∃ key, node_key d = some key ∧ Hashes P trace.id e key := by
  rw [node_event, except_bind_eq_ok] at h
  obtain ⟨step_type, -, h⟩ := h
  split at h
  · next node_id hid =>
    have he := Except.ok.inj h
    subst he
    refine ⟨.node node_id, ?_, rfl, rfl⟩
    rw [node_key, hid]
  · simp at h

theorem node_events_hashes {trace : DecisionTrace} {result : DecisionResult} {ds : List PyDict}
    {es : List LedgerEvent}
    (h : List.Forall₂ (fun d e => node_event P schema_version trace result d = .ok e) ds es) :
    List.Forall₂ (Hashes P trace.id) es (ds.filterMap node_key) := by
  induction h with
  | nil => exact .nil
  | cons hnode _ ih =>
      obtain ⟨key, hkey, hhash⟩ := node_event_hashes hnode
      rw [List.filterMap_cons, hkey]
      exact .cons hhash ih

/-- The ids of the events are the hashes of the step keys, in order. -/
theorem build_events_hashes {trace : DecisionTrace} {result : DecisionResult}
    {events : List LedgerEvent} (h : build_events P schema_version trace result = .ok events) :
    List.Forall₂ (Hashes P trace.id) events (step_keys trace result) := by
  rw [build_events, except_bind_eq_ok] at h
  obtain ⟨node_events, hmap, h⟩ := h
  have hnodes := node_events_hashes (except_mapM_eq_ok.mp hmap)
  -- the signal, the nodes, the gates, and the decision at the end
  rw [← Except.ok.inj h, step_keys]
  refine List.rel_append (List.rel_append (List.rel_append ?_ hnodes) ?_) ?_
  · rw [List.forall₂_map_left_iff, List.forall₂_map_right_iff, List.forall₂_same]
    exact fun signal_id _ => ⟨rfl, rfl⟩
  · rw [List.forall₂_map_left_iff, List.forall₂_map_right_iff, List.forall₂_same]
    exact fun gate_req _ => ⟨rfl, rfl⟩
  · exact .cons ⟨rfl, rfl⟩ .nil

theorem build_events_ids {trace : DecisionTrace} {result : DecisionResult}
    {events : List LedgerEvent} (h : build_events P schema_version trace result = .ok events) :
    events.map (·.event_id)
      = (step_keys trace result).map (fun key => event_id P trace.id key.text) := by
  have hhashes := build_events_hashes h
  clear h
  generalize step_keys trace result = keys at hhashes ⊢
  induction hhashes with
  | nil => rfl
  | cons hhash _ ih => rw [List.map_cons, List.map_cons, ih, hhash.2]

/-- No event of a trace has the key of a human action. -/
theorem step_keys_not_human_action {trace : DecisionTrace} {result : DecisionResult}
    {key : StepKey} (h : key ∈ step_keys trace result) (gate_id : UUID) (action : String) :
    key ≠ .human_action gate_id action := by
  rintro rfl
  simp only [step_keys, List.mem_append, List.mem_map, List.mem_filterMap, List.mem_singleton] at h
  rcases h with ((⟨u, -, hu⟩ | ⟨d, -, hd⟩) | ⟨g, -, hg⟩) | h
  · simp at hu
  · rw [node_key] at hd
    split at hd <;> simp at hd
  · simp at hg
  · simp at h

end Events

/-! ## Appending them -/

/-- The accumulators of `commit`. -/
structure Totals where
  appended : ℕ := 0
  duplicates : ℕ := 0
  event_ids : List UUID := []
  errors : List String := []

/-- The body of the loop of `commit`, once the append has answered. -/
def Totals.add (t : Totals) (event : LedgerEvent) (result : LedgerAppendResult) : Totals :=
  let t := { t with event_ids := t.event_ids ++ [result.event_id] }
  match result.status with
  | .accepted => { t with appended := t.appended + 1 }
  | .duplicate => { t with duplicates := t.duplicates + 1 }
  | .invalid =>
    let msg := if nonempty result.error_message then result.error_message.getD ""
      else "invalid event: " ++ event.event_id.str
    { t with errors := t.errors ++ [msg] }

/-- What `commit` returns after the loop. -/
def Totals.result (t : Totals) : LedgerCommitResult :=
  { status :=
      if ¬t.errors.isEmpty then .failed
      else if t.appended = 0 ∧ t.duplicates > 0 then .duplicate
      else if t.duplicates > 0 then .partial_
      else .accepted
    appended := t.appended
    duplicates := t.duplicates
    event_ids := t.event_ids
    errors := t.errors }

section Commit

variable {σ : Type} (C : LedgerBackend σ)

/-- The loop of `commit`. -/
def commit_loop : List LedgerEvent → Totals → Exec PyError σ Totals
  | [], t => return t
  | event :: events, t => do
    let result ← C.append event
    commit_loop events (t.add event result)

/-- `commit`. -/
def commit (P : Platform) (schema_version : String) (trace : DecisionTrace)
    (result : DecisionResult) : Exec PyError σ LedgerCommitResult := do
  let events ← Exec.lift (build_events P schema_version trace result)
  let t ← commit_loop C events {}
  return t.result

/-- `append_human_gate_event`. -/
def append_human_gate_event (P : Platform) (schema_version : String)
    (gate_request : HumanGateRequest) (result : DecisionResult) (actor_id action : String)
    (occurred_at : Datetime) (actor_roles : Option (List String)) (comment : Option String) :
    Exec PyError σ LedgerAppendResult :=
  C.append (human_action_event P schema_version gate_request result actor_id action occurred_at
    actor_roles comment)

/-! ### The commit, from the list of answers -/

/-- Append the events one after the other, and collect the answers. -/
def append_all : List LedgerEvent → Exec PyError σ (List LedgerAppendResult)
  | [] => return []
  | event :: events => do
    let answer ← C.append event
    let answers ← append_all events
    return answer :: answers

theorem append_all_cons {event : LedgerEvent} {events : List LedgerEvent}
    {answer : LedgerAppendResult} {answers : List LedgerAppendResult} {s s' s'' : σ}
    (h : C.append event s = (.ok answer, s')) (hs : append_all C events s' = (.ok answers, s'')) :
    append_all C (event :: events) s = (.ok (answer :: answers), s'') := by
  rw [append_all, Exec.run_bind_ok _ h, Exec.run_bind_ok _ hs]
  rfl

/-- The accumulators after these answers. -/
def totals (t : Totals) (events : List LedgerEvent) (answers : List LedgerAppendResult) : Totals :=
  (events.zip answers).foldl (fun t p => t.add p.1 p.2) t

/-- The loop is the appends, and the accumulators are a function of the answers. -/
theorem commit_loop_eq (events : List LedgerEvent) (t : Totals) :
    commit_loop C events t = totals t events <$> append_all C events := by
  funext s
  induction events generalizing t s with
  | nil => rfl
  | cons event events ih =>
      rw [Exec.run_map, commit_loop, append_all]
      rcases ha : C.append event s with ⟨e | answer, s'⟩
      · rw [Exec.run_bind_error _ ha, Exec.run_bind_error _ ha]
        rfl
      · rw [Exec.run_bind_ok _ ha, Exec.run_bind_ok _ ha, ih, Exec.run_map]
        rcases hr : append_all C events s' with ⟨e | answers, s''⟩
        · rw [Exec.run_bind_error _ hr]
          rfl
        · rw [Exec.run_bind_ok _ hr]
          rfl

/-- **`commit` in closed form**: append every event, and report what the answers add up to. -/
theorem commit_run {P : Platform} {schema_version : String} {trace : DecisionTrace}
    {result : DecisionResult} {events : List LedgerEvent}
    (h : build_events P schema_version trace result = .ok events) (s : σ) :
    commit C P schema_version trace result s
      = ((append_all C events s).1.map (fun answers => (totals {} events answers).result),
          (append_all C events s).2) := by
  rw [commit, h, Exec.run_lift_bind_ok, commit_loop_eq]
  rcases hr : append_all C events s with ⟨e | answers, s'⟩
  · have hmap : (totals {} events <$> append_all C events) s = (.error e, s') := by
      rw [Exec.run_map, hr]
      rfl
    rw [Exec.run_bind_error _ hmap]
    rfl
  · have hmap : (totals {} events <$> append_all C events) s
        = (.ok (totals {} events answers), s') := by
      rw [Exec.run_map, hr]
      rfl
    rw [Exec.run_bind_ok _ hmap]
    rfl

/-- Every event gets an answer. -/
theorem length_append_all {events : List LedgerEvent} {answers : List LedgerAppendResult} {s s' : σ}
    (h : append_all C events s = (.ok answers, s')) : answers.length = events.length := by
  induction events generalizing s s' answers with
  | nil =>
      have hnil : [] = answers := Except.ok.inj (congrArg Prod.fst h)
      rw [← hnil]
      rfl
  | cons event events ih =>
      rw [append_all, Exec.run_bind_eq_ok] at h
      obtain ⟨answer, s₁, -, h⟩ := h
      obtain ⟨rest, s₂, hrest, h⟩ := Exec.run_bind_eq_ok.mp h
      have hcons : answer :: rest = answers := Except.ok.inj (congrArg Prod.fst h)
      rw [← hcons, List.length_cons, List.length_cons, ih hrest]

end Commit

/-! ### On a deduplicating ledger -/

section Deduplicating

variable {σ : Type} (L : DeduplicatingLedger σ)

/-- The answers depend on which of the ids are recorded, and on nothing else of the ledger. -/
theorem append_all_answers (events : List LedgerEvent) {s s' : σ}
    (h : ∀ e ∈ events, L.recorded s e.event_id ↔ L.recorded s' e.event_id) :
    (append_all L.toLedgerBackend events s).1 = (append_all L.toLedgerBackend events s').1 := by
  induction events generalizing s s' with
  | nil => rfl
  | cons event events ih =>
      have hanswer : (L.append event s).1 = (L.append event s').1 := by
        by_cases hrec : L.recorded s event.event_id
        · rw [L.append_known event s hrec, L.append_known event s' ((h event (by simp)).mp hrec)]
        · have hrec' : ¬ L.recorded s' event.event_id :=
            fun hc => hrec ((h event (by simp)).mpr hc)
          rw [L.append_new event s hrec, L.append_new event s' hrec']
      have hnext : ∀ e ∈ events, L.recorded (L.append event s).2 e.event_id ↔
          L.recorded (L.append event s').2 e.event_id := by
        intro e he
        rw [L.recorded_append, L.recorded_append, h e (List.mem_cons_of_mem _ he)]
      have hrest := ih hnext
      rw [append_all]
      rcases ha : L.append event s with ⟨e | answer, t⟩
      · rcases ha' : L.append event s' with ⟨e' | answer', t'⟩
        · rw [ha, ha'] at hanswer
          obtain rfl : e = e' := Except.error.inj hanswer
          rw [Exec.run_bind_error _ ha, Exec.run_bind_error _ ha']
        · rw [ha, ha'] at hanswer
          exact nomatch hanswer
      · rcases ha' : L.append event s' with ⟨e' | answer', t'⟩
        · rw [ha, ha'] at hanswer
          exact nomatch hanswer
        · rw [ha, ha'] at hanswer hrest
          obtain rfl : answer = answer' := Except.ok.inj hanswer
          rw [Exec.run_bind_ok _ ha, Exec.run_bind_ok _ ha', Exec.run_bind_pure,
            Exec.run_bind_pure, hrest]

/-- What is recorded after the appends was before, or is the id of one of the events. -/
theorem recorded_append_all (events : List LedgerEvent) {s : σ} {u : UUID}
    (h : L.recorded (append_all L.toLedgerBackend events s).2 u) :
    L.recorded s u ∨ ∃ e ∈ events, u = e.event_id := by
  induction events generalizing s with
  | nil => exact Or.inl h
  | cons event events ih =>
      have hone : ∀ t, (L.append event s).2 = t → L.recorded t u →
          L.recorded s u ∨ ∃ e ∈ event :: events, u = e.event_id := by
        rintro t rfl ht
        rcases (L.recorded_append event s u).mp ht with hrec | ⟨-, rfl⟩
        · exact Or.inl hrec
        · exact Or.inr ⟨event, by simp, rfl⟩
      rw [append_all] at h
      rcases ha : L.append event s with ⟨e | answer, t⟩
      · rw [Exec.run_bind_error _ ha] at h
        exact hone t (congrArg Prod.snd ha) h
      · rw [Exec.run_bind_ok _ ha, Exec.run_bind_pure] at h
        rcases ih h with hrec | ⟨e, he, hu⟩
        · exact hone t (congrArg Prod.snd ha) hrec
        · exact Or.inr ⟨e, List.mem_cons_of_mem event he, hu⟩

end Deduplicating

/-! ### What the answers add up to -/

section Answers

/-- The accumulators, one by one. -/
theorem foldl_add (ps : List (LedgerEvent × LedgerAppendResult)) (t : Totals) :
    (ps.foldl (fun t p => t.add p.1 p.2) t).appended
      = t.appended + ps.countP (fun p => p.2.status = .accepted)
    ∧ (ps.foldl (fun t p => t.add p.1 p.2) t).duplicates
      = t.duplicates + ps.countP (fun p => p.2.status = .duplicate)
    ∧ (ps.foldl (fun t p => t.add p.1 p.2) t).event_ids
      = t.event_ids ++ ps.map (fun p => p.2.event_id)
    ∧ (ps.foldl (fun t p => t.add p.1 p.2) t).errors.length
      = t.errors.length + ps.countP (fun p => p.2.status = .invalid) := by
  induction ps generalizing t with
  | nil => simp
  | cons p ps ih =>
      obtain ⟨h₁, h₂, h₃, h₄⟩ := ih (t.add p.1 p.2)
      rw [List.foldl_cons, h₁, h₂, h₃, h₄, Totals.add]
      rcases hs : p.2.status with _ | _ | _
      · simp [hs]
        omega
      · simp [hs]
        omega
      · simp [hs]
        omega

variable {events : List LedgerEvent} {answers : List LedgerAppendResult}

theorem totals_spec (h : answers.length = events.length) :
    (totals {} events answers).appended = answers.countP (fun a => a.status = .accepted)
    ∧ (totals {} events answers).duplicates = answers.countP (fun a => a.status = .duplicate)
    ∧ (totals {} events answers).event_ids = answers.map (·.event_id)
    ∧ (totals {} events answers).errors.length = answers.countP (fun a => a.status = .invalid) := by
  have hsnd : (events.zip answers).map Prod.snd = answers := List.map_snd_zip (le_of_eq h)
  have hcount : ∀ st : LedgerAppendStatus,
      (events.zip answers).countP (fun p => p.2.status = st)
        = answers.countP (fun a => a.status = st) := by
    intro st
    conv_rhs => rw [← hsnd]
    rw [List.countP_map]
    rfl
  obtain ⟨h₁, h₂, h₃, h₄⟩ := foldl_add (events.zip answers) {}
  rw [hcount, Nat.zero_add] at h₁ h₂
  rw [hcount, List.length_nil, Nat.zero_add] at h₄
  refine ⟨h₁, h₂, ?_, h₄⟩
  rw [totals, h₃, List.nil_append]
  conv_rhs => rw [← hsnd]
  rw [List.map_map]
  rfl

/-- The four ways a commit ends. -/
theorem Totals.status_cases (t : Totals) :
    (t.result.status = .failed ∧ 0 < t.errors.length)
    ∨ (t.result.status = .duplicate ∧ t.errors.length = 0 ∧ 0 < t.duplicates ∧ t.appended = 0)
    ∨ (t.result.status = .partial_ ∧ t.errors.length = 0 ∧ 0 < t.duplicates ∧ 0 < t.appended)
    ∨ (t.result.status = .accepted ∧ t.errors.length = 0 ∧ t.duplicates = 0) := by
  have hempty : t.errors.isEmpty ↔ t.errors.length = 0 := by
    rw [List.isEmpty_iff, List.length_eq_zero_iff]
  unfold Totals.result
  dsimp only
  split_ifs with herr hdup hpart
  · right; left
    exact ⟨rfl, hempty.mp herr, hdup.2, hdup.1⟩
  · right; right; left
    exact ⟨rfl, hempty.mp herr, hpart, by omega⟩
  · right; right; right
    exact ⟨rfl, hempty.mp herr, by omega⟩
  · left
    rw [hempty] at herr
    exact ⟨rfl, by omega⟩

/-- The status, from the accumulators. -/
theorem Totals.status_iff (t : Totals) :
    (t.result.status = .failed ↔ 0 < t.errors.length)
    ∧ (t.result.status = .accepted ↔ t.errors.length = 0 ∧ t.duplicates = 0)
    ∧ (t.result.status = .duplicate ↔ t.errors.length = 0 ∧ 0 < t.duplicates ∧ t.appended = 0)
    ∧ (t.result.status = .partial_ ↔
        t.errors.length = 0 ∧ 0 < t.duplicates ∧ 0 < t.appended) := by
  rcases t.status_cases with ⟨hst, h⟩ | ⟨hst, h⟩ | ⟨hst, h⟩ | ⟨hst, h⟩
  -- the four conditions exclude one another
  all_goals
    simp only [hst, reduceCtorEq, true_iff, false_iff]
    omega

/-- Every answer is one of the three. -/
theorem countP_statuses (answers : List LedgerAppendResult) :
    answers.countP (fun a => a.status = .accepted)
      + answers.countP (fun a => a.status = .duplicate)
      + answers.countP (fun a => a.status = .invalid) = answers.length := by
  induction answers with
  | nil => rfl
  | cons a answers ih =>
      rw [List.countP_cons, List.countP_cons, List.countP_cons, List.length_cons, ← ih]
      rcases ha : a.status with _ | _ | _
      · simp
        omega
      · simp
        omega
      · simp
        omega

theorem forall_status_iff {st : LedgerAppendStatus} :
    (∀ a ∈ answers, a.status = st) ↔ answers.countP (fun a => a.status = st) = answers.length := by
  rw [List.countP_eq_length]
  simp only [decide_eq_true_eq]

theorem exists_status_iff {st : LedgerAppendStatus} :
    (∃ a ∈ answers, a.status = st) ↔ 0 < answers.countP (fun a => a.status = st) := by
  rw [List.countP_pos_iff]
  simp only [decide_eq_true_eq]

/-- A commit failed exactly when an append was refused. -/
theorem failed_iff (h : answers.length = events.length) :
    (totals {} events answers).result.status = .failed ↔ ∃ a ∈ answers, a.status = .invalid := by
  obtain ⟨-, -, -, herr⟩ := totals_spec h
  rw [(Totals.status_iff _).1, herr, exists_status_iff]

/-- A commit is accepted exactly when every append was. -/
theorem accepted_iff (h : answers.length = events.length) :
    (totals {} events answers).result.status = .accepted ↔ ∀ a ∈ answers, a.status = .accepted := by
  obtain ⟨-, hdup, -, herr⟩ := totals_spec h
  have hsum := countP_statuses answers
  rw [(Totals.status_iff _).2.1, herr, hdup, forall_status_iff]
  omega

/-- A commit is a duplicate exactly when every append was, and there was one. -/
theorem duplicate_iff (h : answers.length = events.length) :
    (totals {} events answers).result.status = .duplicate ↔
      answers ≠ [] ∧ ∀ a ∈ answers, a.status = .duplicate := by
  obtain ⟨happ, hdup, -, herr⟩ := totals_spec h
  have hsum := countP_statuses answers
  rw [(Totals.status_iff _).2.2.1, herr, hdup, happ, forall_status_iff, ← List.length_pos_iff]
  omega

/-- A commit is partial exactly when no append was refused, one was new and one was not. -/
theorem partial_iff (h : answers.length = events.length) :
    (totals {} events answers).result.status = .partial_ ↔
      (¬ ∃ a ∈ answers, a.status = .invalid) ∧ (∃ a ∈ answers, a.status = .duplicate)
        ∧ ∃ a ∈ answers, a.status = .accepted := by
  obtain ⟨happ, hdup, -, herr⟩ := totals_spec h
  rw [(Totals.status_iff _).2.2.2, herr, hdup, happ, exists_status_iff, exists_status_iff,
    exists_status_iff]
  omega

/-- Every append is counted once. -/
theorem totals_sum (h : answers.length = events.length) :
    (totals {} events answers).appended + (totals {} events answers).duplicates
      + (totals {} events answers).errors.length = events.length := by
  obtain ⟨happ, hdup, -, herr⟩ := totals_spec h
  rw [happ, hdup, herr, countP_statuses, h]

/-- A commit none of whose events is recorded is not a duplicate. -/
theorem not_duplicate_of_new {σ : Type} (L : DeduplicatingLedger σ) (hne : events ≠ []) {s s' : σ}
    (hnew : ∀ e ∈ events, ¬ L.recorded s e.event_id)
    (h : append_all L.toLedgerBackend events s = (.ok answers, s')) :
    (totals {} events answers).result.status ≠ .duplicate := by
  intro hdup
  have hall := ((duplicate_iff (length_append_all L.toLedgerBackend h)).mp hdup).2
  rcases events with _ | ⟨event, events⟩
  · exact hne rfl
  · -- the first append was answered as a new one
    rw [append_all, Exec.run_bind_eq_ok] at h
    obtain ⟨answer, s₁, hfirst, h⟩ := h
    obtain ⟨rest, s₂, -, h⟩ := Exec.run_bind_eq_ok.mp h
    have hanswers : answer :: rest = answers := Except.ok.inj (Prod.mk.inj h).1
    have hanswer := L.append_new event s (hnew event (by simp))
    rw [hfirst] at hanswer
    apply L.new_not_duplicate event answer hanswer.symm
    apply hall
    rw [← hanswers]
    exact List.mem_cons_self

end Answers

end RuntimeLedgerAdapter

end DecisionRuntime
