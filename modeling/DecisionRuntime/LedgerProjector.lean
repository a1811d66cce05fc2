/-
`backend/app/integrations/ledger_projector.py`: reading a trace back from its
ledger events.

The projector classifies events by step type with a table of its own
(`_NODE_STEPS`), and the adapter that wrote them has another one
(`NODE_TYPE_TO_STEP`). The two disagree on one node type: a `fallback` node is
written as an `outcome` step, and an `outcome` step is read as the resolution
summary. Both laws of this module therefore hold exactly when that node does not
come up:

* `partial_projection_iff` -- a prefix of the events of an evaluation is read as an
  evaluation still going on;
* `projection_iff` -- a committed evaluation is read back as it was.
-/
import DecisionRuntime.FlowValidator
import DecisionRuntime.LedgerCommit

set_option autoImplicit false

namespace DecisionRuntime.LedgerProjector

open RuntimeLedgerAdapter

/-! ## The projector -/

/-- `_NODE_STEPS`. -/
def NODE_STEPS : List String := ["decision", "boundary", "fallback", "action"]

/-- `str(step_type).split(".")[-1].lower()`. The step types of a ledger are ASCII. -/
def step_name (step_type : String) : String :=
  String.ofList ((((split '.' step_type.toList).getLast?).getD []).map Char.toLower)

/-- The step types of the adapter read back as they are. -/
theorem step_name_value (t : StepType) : step_name t.value = t.value := by
  cases t <;> decide

/-- The variables of the loop of `project`. -/
structure Projection where
  signal_id : Option UUID := none
  started_at : Datetime
  completed_at : Option Datetime := none
  decision_id : Option UUID := none
  evaluated_nodes : List PyDict := []
  outcome_event : Option LedgerEvent := none

/-- The entry appended for a node event. -/
def node_entry (event : LedgerEvent) (step_type : String) : PyDict :=
  [("node_id", (PyDict.get event.payload "node_id").getD (.str event.step_id)),
    ("node_type", (PyDict.get event.payload "node_type").getD (.str step_type)),
    ("matched", (PyDict.get event.payload "matched").getD .none),
    ("condition", (PyDict.get event.payload "condition").getD .none),
    ("reason", (PyDict.get event.payload "reason").getD .none)]

/-- The body of the loop of `project`. A step id that is no UUID leaves `signal_id` alone. -/
def Projection.add (p : Projection) (event : LedgerEvent) : Projection :=
  let step_type := step_name event.step_type
  if step_type = "signal" then
    { p with
      signal_id := (UUID.parse event.step_id).orElse (fun _ => p.signal_id)
      started_at := event.occurred_at }
  else if step_type ∈ NODE_STEPS then
    { p with evaluated_nodes := p.evaluated_nodes ++ [node_entry event step_type] }
  else if step_type = "outcome" then
    { p with
      outcome_event := some event
      decision_id := some event.decision_id
      completed_at := some event.occurred_at }
  else p

/-- `DecisionStatus(p.get("status", CONFIRMED))`, and `CONFIRMED` for any other value. -/
def status_of (payload : PyDict) : DecisionStatus :=
  match PyDict.get payload "status" with
  | some (.str text) => (DecisionStatus.ofValue text).getD .confirmed
  | _ => .confirmed

/-- `DecisionOutcome(p.get("outcome", PASS))`, and `PASS` for any other value. -/
def outcome_of (payload : PyDict) : DecisionOutcome :=
  match PyDict.get payload "outcome" with
  | some (.str text) => (DecisionOutcome.ofValue text).getD .pass
  | _ => .pass

/-- `float(v)`. -/
def float_of (P : Platform) : Value → Except PyError PyFloat
  | .float f => .ok f
  | .int i => .ok (.finite i)
  | .bool b => .ok (.finite (if b then 1 else 0))
  | .str text =>
    match P.float text with
    | some f => .ok f
    | none => .error (.valueError ("could not convert string to float: " ++ P.repr text))
  | _ => .error (.typeError "float() argument must be a string or a real number")

/-- The bounds of the `confidence` field. -/
def confidence_of (P : Platform) (payload : PyDict) : Except PyError Confidence := do
  match ← float_of P ((PyDict.get payload "confidence").getD (.float (.finite 1))) with
  | .finite q =>
    if h : 0 ≤ q ∧ q ≤ 1 then return ⟨q, h.1, h.2⟩
    else .error (.validationError "DecisionResult")
  | _ => .error (.validationError "DecisionResult")

/-- The `selected_node_id` field, which takes a string only. -/
def selected_of (payload : PyDict) : Except PyError String :=
  match (PyDict.get payload "selected_node_id").getD (.str "") with
  | .str node_id => .ok node_id
  | _ => .error (.validationError "DecisionResult")

/-- `{"projected_from_ledger": True}`. -/
def PROJECTED : PyDict := [("projected_from_ledger", .bool true)]

/-- `_build_result`. -/
def build_result (P : Platform) (outcome_event : LedgerEvent) (signal_id : Option UUID)
    (created_at : Datetime) : Except PyError DecisionResult := do
  let confidence ← confidence_of P outcome_event.payload
  let selected_node_id ← selected_of outcome_event.payload
  let result : DecisionResult :=
    { id := outcome_event.decision_id
      trace_id := outcome_event.trace_id
      flow_id := outcome_event.flow_id
      flow_version := outcome_event.flow_version
      selected_node_id := selected_node_id
      source_signal_id := signal_id.getD outcome_event.trace_id
      state := .confirmed
      status := status_of outcome_event.payload
      outcome := outcome_of outcome_event.payload
      confidence := confidence
      evaluated_at := outcome_event.occurred_at
      created_at := created_at
      updated_at := outcome_event.occurred_at
      metadata := PROJECTED }
  return result.populate_canonical_fields

/-- The results of the projection: one if an outcome was seen. -/
def results_of (P : Platform) (p : Projection) : Except PyError (List DecisionResult) :=
  match p.outcome_event with
  | none => .ok []
  | some event => do
    let result ← build_result P event p.signal_id p.started_at
    return [result.populate_canonical_fields]

/-- The `DecisionTrace(...)` at the end of `project`. -/
def Projection.trace (p : Projection) (trace_uuid : UUID) (first : LedgerEvent)
    (decision_results : List DecisionResult) : DecisionTrace :=
  { id := trace_uuid
    flow_id := first.flow_id
    flow_version := first.flow_version
    state := if p.outcome_event.isSome then .completed else .evaluating
    decision_id := p.decision_id
    signal_id := p.signal_id
    started_at := p.started_at
    completed_at := p.completed_at
    evaluated_nodes := p.evaluated_nodes
    decision_results := decision_results
    metadata := PROJECTED }

/-- The variables of `project` after the loop over `first :: rest`. -/
def read (first : LedgerEvent) (rest : List LedgerEvent) : Projection :=
  (first :: rest).foldl Projection.add { started_at := first.occurred_at }

/-- `project`, on the events of the trace. -/
def project_events (P : Platform) (trace_id : String) :
    List LedgerEvent → Except PyError (Option DecisionTrace)
  | [] => .ok none
  | first :: rest => do
    let decision_results ← results_of P (read first rest)
    match UUID.parse trace_id with
    | none => return none
    | some trace_uuid => return some ((read first rest).trace trace_uuid first decision_results)

/-- `project`. -/
def project {σ : Type} (C : LedgerBackend σ) (P : Platform) (trace_id : String) :
    Exec PyError σ (Option DecisionTrace) := do
  let events ← C.get_events_by_trace_id trace_id
  Exec.lift (project_events P trace_id events)

/-! ## How the events of an evaluation are read -/

section Reading

variable {P : Platform} {schema_version : String} {trace : DecisionTrace} {result : DecisionResult}

/-- The records of an evaluation: the decision nodes, the fallback when nothing matched, the
boundaries. -/
theorem records_shape (ev : Evaluation P) : ∃ decisions fallbacks boundaries : List NodeRecord,
    ev.evaluated_nodes = (decisions ++ fallbacks ++ boundaries).map NodeRecord.toDict
    ∧ decisions.length = (PureEvaluate.decision_nodes ev.flow).length
    ∧ (∀ r ∈ decisions, r.node_type = "decision")
    ∧ (∀ r ∈ boundaries, r.node_type = "boundary")
    ∧ ((PureEvaluate.Matches P ev.signal ev.flow ∧ fallbacks = []) ∨
      (¬PureEvaluate.Matches P ev.signal ev.flow
        ∧ ∃ r, fallbacks = [r] ∧ r.node_type = "fallback")) := by
  obtain ⟨outcomes, sel, version, brs, houtcomes, hsel, -, -, -, hnodes⟩ :=
    PureEvaluate.pure_evaluate_eq_ok.mp ev.computed
  have hmatch := PureEvaluate.matched_ne_nil_iff houtcomes
  refine ⟨_, _, _, hnodes, ?_, ?_, ?_, ?_⟩
  · rw [List.length_map, ← PureEvaluate.evaluate_nodes_nodes houtcomes, List.length_map]
  · intro r hr
    obtain ⟨o, -, rfl⟩ := List.mem_map.mp hr
    rfl
  · intro r hr
    obtain ⟨br, -, rfl⟩ := List.mem_map.mp hr
    rfl
  · rcases PureEvaluate.select_eq_ok hsel with ⟨hne, -, -, hrec⟩ | ⟨hnil, -, -, hrec, -⟩
    · exact Or.inl ⟨hmatch.mp hne, hrec⟩
    · exact Or.inr ⟨fun hm => hmatch.mpr hm hnil, _, hrec, rfl⟩

/-! ### One event -/

theorem step_signal (signal_id : UUID) :
    step_name (signal_event P schema_version trace result signal_id).step_type = "signal" :=
  step_name_value .signal

theorem step_gate (gate : HumanGateRequest) :
    step_name (gate_event P schema_version trace result gate).step_type = "human" :=
  step_name_value .human

theorem step_outcome :
    step_name (outcome_event P schema_version trace result).step_type = "outcome" :=
  step_name_value .outcome

theorem step_record {r : NodeRecord} (h : r.node_type = "decision" ∨ r.node_type = "boundary") :
    step_name (record_event P schema_version trace result r).step_type = r.node_type := by
  rcases h with h | h
  · rw [record_event, h]
    exact step_name_value .decision
  · rw [record_event, h]
    exact step_name_value .boundary

/-- The node type the two tables disagree on. -/
theorem step_fallback {r : NodeRecord} (h : r.node_type = "fallback") :
    step_name (record_event P schema_version trace result r).step_type = "outcome" := by
  rw [record_event, h]
  exact step_name_value .outcome

/-- A decision node or a boundary is read back as the record it was. -/
theorem add_record {r : NodeRecord} (h : r.node_type = "decision" ∨ r.node_type = "boundary")
    (p : Projection) : p.add (record_event P schema_version trace result r)
      = { p with evaluated_nodes := p.evaluated_nodes ++ [r.toDict] } := by
  have hnode : r.node_type ≠ "signal" ∧ r.node_type ∈ NODE_STEPS := by
    rcases h with h | h
    · rw [h]
      decide
    · rw [h]
      decide
  have hentry : node_entry (record_event P schema_version trace result r) r.node_type = r.toDict :=
    rfl
  rw [Projection.add, step_record h]
  simp only [if_neg hnode.1, if_pos hnode.2, hentry]

/-- A fallback is read as the resolution summary. -/
theorem add_fallback {r : NodeRecord} (h : r.node_type = "fallback") (p : Projection) :
    p.add (record_event P schema_version trace result r) = { p with
      outcome_event := some (record_event P schema_version trace result r)
      decision_id := some result.id
      completed_at := some (trace.completed_at.getD trace.started_at) } := by
  rw [Projection.add, step_fallback h]
  rfl

theorem add_gate (gate : HumanGateRequest) (p : Projection) :
    p.add (gate_event P schema_version trace result gate) = p := by
  rw [Projection.add, step_gate]
  rfl

theorem add_signal (signal_id : UUID) (p : Projection) :
    p.add (signal_event P schema_version trace result signal_id) = { p with
      signal_id := some signal_id, started_at := trace.started_at } := by
  have hid : UUID.parse (signal_event P schema_version trace result signal_id).step_id
      = some signal_id := UUID.parse_str signal_id
  rw [Projection.add, step_signal, hid]
  rfl

theorem add_outcome (p : Projection) :
    p.add (outcome_event P schema_version trace result) = { p with
      outcome_event := some (outcome_event P schema_version trace result)
      decision_id := some result.id
      completed_at := some result.evaluated_at } := by
  rw [Projection.add, step_outcome]
  rfl

/-! ### Several events -/

theorem fold_records {rs : List NodeRecord}
    (h : ∀ r ∈ rs, r.node_type = "decision" ∨ r.node_type = "boundary") (p : Projection) :
    (rs.map (record_event P schema_version trace result)).foldl Projection.add p
      = { p with evaluated_nodes := p.evaluated_nodes ++ rs.map NodeRecord.toDict } := by
  induction rs generalizing p with
  | nil => simp
  | cons r rs ih =>
      rw [List.map_cons, List.foldl_cons, add_record (h r (by simp)),
        ih (fun r' hr' => h r' (List.mem_cons_of_mem _ hr'))]
      simp

theorem fold_gates (gates : List HumanGateRequest) (p : Projection) :
    (gates.map (gate_event P schema_version trace result)).foldl Projection.add p = p := by
  induction gates with
  | nil => rfl
  | cons gate gates ih => rw [List.map_cons, List.foldl_cons, add_gate, ih]

/-! ### Outcome steps -/

/-- The event is read as a resolution summary. -/
def IsOutcome (e : LedgerEvent) : Prop := step_name e.step_type = "outcome"

/-- Other steps leave the outcome and the end of the trace alone. -/
theorem fold_open {es : List LedgerEvent} (h : ∀ e ∈ es, ¬IsOutcome e) (p : Projection) :
    (es.foldl Projection.add p).outcome_event = p.outcome_event
    ∧ (es.foldl Projection.add p).completed_at = p.completed_at := by
  induction es generalizing p with
  | nil => exact ⟨rfl, rfl⟩
  | cons e es ih =>
      have he : step_name e.step_type ≠ "outcome" := h e (by simp)
      have hadd : (p.add e).outcome_event = p.outcome_event
          ∧ (p.add e).completed_at = p.completed_at := by
        rw [Projection.add]
        simp only [if_neg he]
        split_ifs <;> exact ⟨rfl, rfl⟩
      obtain ⟨h₁, h₂⟩ := ih (fun e' he' => h e' (List.mem_cons_of_mem _ he')) (p.add e)
      exact ⟨h₁.trans hadd.1, h₂.trans hadd.2⟩

/-- Once an outcome was seen, there is one. -/
theorem fold_isSome {es : List LedgerEvent} {p : Projection} (h : p.outcome_event.isSome) :
    (es.foldl Projection.add p).outcome_event.isSome := by
  induction es generalizing p with
  | nil => exact h
  | cons e es ih =>
      refine ih ?_
      rw [Projection.add]
      split_ifs
      · exact h
      · exact h
      · rfl
      · exact h

theorem fold_closed {es : List LedgerEvent} {e : LedgerEvent} (he : e ∈ es) (h : IsOutcome e)
    (p : Projection) : (es.foldl Projection.add p).outcome_event.isSome := by
  obtain ⟨before, after, rfl⟩ := List.append_of_mem he
  rw [List.foldl_append, List.foldl_cons]
  refine fold_isSome ?_
  have hstep : step_name e.step_type = "outcome" := h
  rw [Projection.add, hstep]
  rfl

/-- A readable trace id leads to a trace. -/
theorem project_events_eq {trace_id : UUID} {first : LedgerEvent} {rest : List LedgerEvent}
    {results : List DecisionResult} (h : results_of P (read first rest) = .ok results) :
    project_events P trace_id.str (first :: rest)
      = .ok (some ((read first rest).trace trace_id first results)) := by
  rw [project_events, h, UUID.parse_str]
  rfl

theorem evaluated_nodes_of_project {trace_id : UUID} {first : LedgerEvent}
    {rest : List LedgerEvent} {t : DecisionTrace}
    (h : project_events P trace_id.str (first :: rest) = .ok (some t)) :
    t.evaluated_nodes = (read first rest).evaluated_nodes := by
  rcases hres : results_of P (read first rest) with err | results
  · rw [project_events, hres] at h
    cases h
  · rw [project_events_eq hres] at h
    rw [← Option.some.inj (Except.ok.inj h)]
    rfl

/-- Events without an outcome are read as an evaluation still going on. -/
theorem project_open {trace_id : UUID} {es : List LedgerEvent} (hne : es ≠ [])
    (h : ∀ e ∈ es, ¬IsOutcome e) : ∃ t, project_events P trace_id.str es = .ok (some t)
      ∧ t.state = .evaluating ∧ t.completed_at = none ∧ t.decision_results = [] := by
  obtain ⟨first, rest, rfl⟩ := List.exists_cons_of_ne_nil hne
  obtain ⟨hout, hcomp⟩ := fold_open h { started_at := first.occurred_at }
  have hout' : (read first rest).outcome_event = none := hout
  have hres : results_of P (read first rest) = .ok [] := by
    rw [results_of, hout']
  refine ⟨_, project_events_eq hres, ?_, hcomp, rfl⟩
  rw [Projection.trace, hout']
  rfl

/-- Events with an outcome are never read so. -/
theorem project_closed {trace_id : UUID} {es : List LedgerEvent} {e : LedgerEvent} (he : e ∈ es)
    (h : IsOutcome e) {t : DecisionTrace} (ht : project_events P trace_id.str es = .ok (some t)) :
    t.state = .completed := by
  obtain ⟨first, rest, rfl⟩ := List.exists_cons_of_ne_nil (List.ne_nil_of_mem he)
  have hsome : (read first rest).outcome_event.isSome :=
    fold_closed he h { started_at := first.occurred_at }
  rcases hres : results_of P (read first rest) with err | results
  · rw [project_events, hres] at ht
    cases ht
  · rw [project_events_eq hres] at ht
    rw [← Option.some.inj (Except.ok.inj ht), Projection.trace]
    exact if_pos hsome

end Reading

/-! ## Partial commits -/

section Partial

variable {P : Platform} {schema_version : String}

/-- What the first `k` events of a trace are to be read as: nothing, or an evaluation that is
still going on. -/
def ReadAsOpen (k : ℕ) (answer : Except PyError (Option DecisionTrace)) : Prop :=
  if k = 0 then answer = .ok none
  else ∃ t, answer = .ok (some t) ∧ t.state = .evaluating ∧ t.completed_at = none
    ∧ t.decision_results = []

/-- The projector sees the events of the trace the ledger holds. -/
theorem project_run {L : LedgerClient} {trace_id : UUID} {es : List LedgerEvent}
    (h : L.events.filter (fun e => e.trace_id = trace_id) = es) :
    project LedgerClient.backend P trace_id.str L = (project_events P trace_id.str es, L) := by
  have hget : LedgerClient.backend.get_events_by_trace_id trace_id.str L = (.ok es, L) := by
    rw [← h]
    exact events_by_trace_id L trace_id
  rw [project, Exec.run_bind_ok _ hget, Exec.run_lift]

/-- The signal, decision nodes, boundaries and gates are no outcomes. -/
theorem not_isOutcome {trace : DecisionTrace} {result : DecisionResult} (signal_id : UUID)
    {rs : List NodeRecord} (h : ∀ r ∈ rs, r.node_type = "decision" ∨ r.node_type = "boundary")
    (gates : List HumanGateRequest) {e : LedgerEvent}
    (he : e ∈ [signal_event P schema_version trace result signal_id]
      ++ rs.map (record_event P schema_version trace result)
      ++ gates.map (gate_event P schema_version trace result)) : ¬IsOutcome e := by
  rw [List.mem_append, List.mem_append, List.mem_singleton, List.mem_map, List.mem_map] at he
  rw [IsOutcome]
  rcases he with (rfl | ⟨r, hr, rfl⟩) | ⟨gate, -, rfl⟩
  · rw [step_signal]
    decide
  · rw [step_record (h r hr)]
    rcases h r hr with h | h
    · rw [h]
      decide
    · rw [h]
      decide
  · rw [step_gate]
    decide

/-- A proper prefix of the events has an outcome step exactly when the fallback is in it. -/
theorem outcome_in_prefix_iff (ev : Evaluation P) {events : List LedgerEvent}
    (hbuilt : build_events P schema_version ev.trace ev.result = .ok events) {k : ℕ}
    (hk : k < events.length) :
    (∃ e ∈ events.take k, IsOutcome e) ↔
      ¬PureEvaluate.Matches P ev.signal ev.flow
        ∧ 1 + (PureEvaluate.decision_nodes ev.flow).length < k := by
  obtain ⟨decisions, fallbacks, boundaries, hnodes, hlen, hdec, hbnd, hshape⟩ := records_shape ev
  have heq : ev.events schema_version (decisions ++ fallbacks ++ boundaries) = events :=
    Except.ok.inj ((ev.build_events_eq schema_version hnodes).symm.trans hbuilt)
  have hrecords : ∀ r ∈ decisions ++ boundaries,
      r.node_type = "decision" ∨ r.node_type = "boundary" := by
    intro r hr
    exact (List.mem_append.mp hr).imp (hdec r) (hbnd r)
  rw [← heq, Evaluation.events] at hk ⊢
  rw [← hlen]
  rcases hshape with ⟨hmatch, rfl⟩ | ⟨hno, r, rfl, hr⟩
  · -- no fallback: the summary is the only outcome, and a proper prefix leaves it out
    rw [List.append_nil] at hk ⊢
    refine iff_of_false ?_ (fun h => h.1 hmatch)
    rintro ⟨e, he, hout⟩
    -- the prefix lies in front of the summary
    rw [List.length_append, List.length_singleton] at hk
    rw [List.take_append_of_le_length (by omega)] at he
    exact not_isOutcome ev.signal.id hrecords _ (List.mem_of_mem_take he) hout
  · -- the fallback comes right after the decision nodes
    have hsplit : [signal_event P schema_version ev.trace ev.result ev.signal.id]
          ++ (decisions ++ [r] ++ boundaries).map
            (record_event P schema_version ev.trace ev.result)
          ++ ev.human_gate.toList.map (gate_event P schema_version ev.trace ev.result)
          ++ [outcome_event P schema_version ev.trace ev.result]
        = ([signal_event P schema_version ev.trace ev.result ev.signal.id]
            ++ decisions.map (record_event P schema_version ev.trace ev.result))
          ++ record_event P schema_version ev.trace ev.result r
            :: (boundaries.map (record_event P schema_version ev.trace ev.result)
              ++ (ev.human_gate.toList.map (gate_event P schema_version ev.trace ev.result)
              ++ [outcome_event P schema_version ev.trace ev.result])) := by
      simp
    have hfirst : ([signal_event P schema_version ev.trace ev.result ev.signal.id]
        ++ decisions.map (record_event P schema_version ev.trace ev.result)).length
          = 1 + decisions.length := by
      rw [List.length_append, List.length_singleton, List.length_map]
    rw [hsplit, and_iff_right hno]
    constructor
    · rintro ⟨e, he, hout⟩
      by_contra hle
      -- a prefix that does not reach the fallback holds the signal and decision nodes only
      rw [List.take_append_of_le_length (by omega)] at he
      have hmem : e ∈ [signal_event P schema_version ev.trace ev.result ev.signal.id]
          ++ decisions.map (record_event P schema_version ev.trace ev.result)
          ++ [].map (gate_event P schema_version ev.trace ev.result) := by
        rw [List.map_nil, List.append_nil]
        exact List.mem_of_mem_take he
      exact not_isOutcome ev.signal.id (fun r hr => Or.inl (hdec r hr)) [] hmem hout
    · intro hlt
      refine ⟨record_event P schema_version ev.trace ev.result r, ?_, step_fallback hr⟩
      obtain ⟨m, hm⟩ : ∃ m, k - (1 + decisions.length) = m + 1 := ⟨k - (1 + decisions.length) - 1,
        by omega⟩
      rw [List.take_append, hfirst, hm, List.take_succ_cons]
      exact List.mem_append_right _ (by simp)

/-- **A partial commit is read as an evaluation still going on** exactly when it stops before the
event of a fallback: some decision node matched, or the prefix ends with the decision nodes. -/
theorem partial_projection_iff (schema_version : String) (ev : Evaluation P)
    {events : List LedgerEvent}
    (hbuilt : build_events P schema_version ev.trace ev.result = .ok events) {k : ℕ}
    (hk : k < events.length) {L : LedgerClient} (hL : L.events = events.take k) :
    ReadAsOpen k (project LedgerClient.backend P ev.trace.id.str L).1 ↔
      PureEvaluate.Matches P ev.signal ev.flow
        ∨ k ≤ 1 + (PureEvaluate.decision_nodes ev.flow).length := by
  have hfilter : L.events.filter (fun e => e.trace_id = ev.trace.id) = events.take k := by
    rw [hL, List.filter_eq_self]
    intro e he
    obtain ⟨key, -, htrace, -⟩ :=
      exists_of_forall₂ (build_events_hashes hbuilt) (List.mem_of_mem_take he)
    simp [htrace]
  -- the condition says that the prefix holds no outcome step
  have hcond : PureEvaluate.Matches P ev.signal ev.flow
      ∨ k ≤ 1 + (PureEvaluate.decision_nodes ev.flow).length ↔
      ∀ e ∈ events.take k, ¬IsOutcome e := by
    have hiff := not_congr (outcome_in_prefix_iff ev hbuilt hk)
    rw [not_and_or, not_not, not_lt] at hiff
    rw [← hiff]
    push Not
    rfl
  have hrun : (project LedgerClient.backend P ev.trace.id.str L).1
      = project_events P ev.trace.id.str (events.take k) := by
    rw [project_run hfilter]
  rw [hrun, hcond, ReadAsOpen]
  by_cases hzero : k = 0
  · subst hzero
    simp [project_events]
  · have hne : events.take k ≠ [] := by
      intro h
      rw [List.take_eq_nil_iff] at h
      rcases h with h | h
      · exact hzero h
      · simp [h] at hk
    rw [if_neg hzero]
    constructor
    · rintro ⟨t, ht, hstate, -, -⟩ e he hout
      have hclosed := project_closed he hout ht
      rw [hstate] at hclosed
      simp at hclosed
    · intro hopen
      exact project_open hne hopen

/-- Two events of an evaluation, those of the signal and of its one decision node, are read as an
evaluation still going on. -/
theorem partial_projection_iff_recorded :
    ReadAsOpen 2 (project LedgerClient.backend Recorded.platform Recorded.first.trace.id.str
      (Recorded.ledger Recorded.first 2)).1 :=
  (partial_projection_iff "1.0" Recorded.first rfl (by decide) rfl).mpr (Or.inr (by decide))

/-- An evaluation of the recorded flow that fell back. -/
def unmatched : Evaluation Recorded.platform :=
  Recorded.falling_back (UUID.repeated 0xa) (UUID.repeated 0xc)

/-- Its first three events, without the resolution summary, are read as a decision that was
completed and confirmed. -/
theorem fallback_read_as_confirmed : ∃ t r,
    (project LedgerClient.backend Recorded.platform unmatched.trace.id.str
      (Recorded.ledger unmatched 3)).1 = .ok (some t)
    ∧ t.state = .completed ∧ t.decision_results = [r] ∧ r.status = .confirmed :=
  ⟨_, _, rfl, rfl, rfl, rfl⟩

/-- Partial commits of validated flows are not always read as open. -/
theorem partial_projection_counterexample :
    ¬∀ (ev : Evaluation Recorded.platform) (events : List LedgerEvent) (k : ℕ) (L : LedgerClient),
      FlowValidator.validate Recorded.platform ev.flow false = .ok () →
      build_events Recorded.platform "1.0" ev.trace ev.result = .ok events →
      k < events.length → L.events = events.take k →
      ReadAsOpen k (project LedgerClient.backend Recorded.platform ev.trace.id.str L).1 := by
  intro h
  obtain ⟨t, r, hread, hstate, -⟩ := fallback_read_as_confirmed
  obtain ⟨t', ht', hopen, -⟩ :=
    h unmatched _ 3 (Recorded.ledger unmatched 3) rfl rfl (by decide) rfl
  rw [hread] at ht'
  rw [← Option.some.inj (Except.ok.inj ht'), hstate] at hopen
  exact absurd hopen (by decide)

end Partial

/-! ## Full commits -/

section Full

variable {P : Platform} {schema_version : String}

/-- `t` is the trace of the evaluation, in the fields the projection is to reconstruct. -/
structure Reconstructs (ev : Evaluation P) (t : DecisionTrace) : Prop where
  id : t.id = ev.trace.id
  flow_id : t.flow_id = ev.trace.flow_id
  flow_version : t.flow_version = ev.trace.flow_version
  signal_id : t.signal_id = ev.trace.signal_id
  decision_id : t.decision_id = ev.trace.decision_id
  evaluated_nodes : t.evaluated_nodes = ev.trace.evaluated_nodes
  decision_results : ∃ r, t.decision_results = [r] ∧ r.status = ev.result.status
    ∧ r.outcome = ev.result.outcome ∧ r.selected_node_id = ev.result.selected_node_id
    ∧ r.confidence = ev.result.confidence

/-- An accepted commit to a ledger that holds nothing of the trace leaves exactly its events. -/
theorem events_of_accepted (ev : Evaluation P) {events : List LedgerEvent}
    (hbuilt : build_events P schema_version ev.trace ev.result = .ok events)
    {L L₁ : LedgerClient} {r : LedgerCommitResult} (hnew : ∀ e ∈ L.events, e.trace_id ≠ ev.trace.id)
    (hcommit : commit LedgerClient.backend P schema_version ev.trace ev.result L = (.ok r, L₁))
    (haccepted : r.status = .accepted) :
    L₁.events.filter (fun e => e.trace_id = ev.trace.id) = events := by
  obtain ⟨answers, L', hrun, hlen, hstatus, hlog⟩ := commit_log hbuilt L
  obtain ⟨hr, rfl⟩ := Prod.mk.inj (hrun.symm.trans hcommit)
  have hall := (accepted_iff hlen).mp (by rw [Except.ok.inj hr, haccepted])
  have htrue : ∀ b ∈ L.log.answers events, b = true := by
    intro b hb
    have hmem : LedgerClient.answer_of b ∈ answers.map (·.status) := by
      rw [hstatus]
      exact List.mem_map_of_mem hb
    obtain ⟨a, ha, hab⟩ := List.mem_map.mp hmem
    have hacc : LedgerClient.answer_of b = .accepted := hab.symm.trans (hall a ha)
    rcases b with _ | _
    · simp [LedgerClient.answer_of] at hacc
    · rfl
  have hevents : L'.events = L.events ++ events := by
    have hentries : L'.log.entries = L.log.entries ++ events := by
      rw [hlog, DedupLog.entries_of_answers htrue]
    exact hentries
  -- of the trace the ledger holds the new events and nothing else
  have hold : L.events.filter (fun e => e.trace_id = ev.trace.id) = [] := by
    rw [List.filter_eq_nil_iff]
    intro e he
    simp [hnew e he]
  rw [hevents, List.filter_append, hold, List.nil_append, List.filter_eq_self]
  intro e he
  obtain ⟨key, -, htrace, -⟩ := exists_of_forall₂ (build_events_hashes hbuilt) he
  simp [htrace]

/-- The resolution summary is decoded to what was encoded. -/
theorem build_result_outcome (trace : DecisionTrace) (result : DecisionResult)
    (signal_id : Option UUID) (created_at : Datetime) :
    ∃ r, build_result P (outcome_event P schema_version trace result) signal_id created_at = .ok r
      ∧ r.status = result.status ∧ r.outcome = result.outcome
      ∧ r.selected_node_id = result.selected_node_id ∧ r.confidence = result.confidence := by
  have hstatus : status_of (outcome_event P schema_version trace result).payload
      = result.status := by
    show (DecisionStatus.ofValue result.status.value).getD .confirmed = result.status
    rw [DecisionStatus.ofValue_value]
    rfl
  have houtcome : outcome_of (outcome_event P schema_version trace result).payload
      = result.outcome := by
    show (DecisionOutcome.ofValue result.outcome.value).getD .pass = result.outcome
    rw [DecisionOutcome.ofValue_value]
    rfl
  have hconf : confidence_of P (outcome_event P schema_version trace result).payload
      = .ok result.confidence := by
    show (if h : 0 ≤ result.confidence.val ∧ result.confidence.val ≤ 1 then
      (.ok ⟨result.confidence.val, h.1, h.2⟩ : Except PyError Confidence)
      else .error (.validationError "DecisionResult")) = .ok result.confidence
    rw [dif_pos ⟨result.confidence.nonneg, result.confidence.le_one⟩]
  have hsel : selected_of (outcome_event P schema_version trace result).payload
      = .ok result.selected_node_id := rfl
  rw [build_result, hconf, hsel, hstatus, houtcome]
  exact ⟨_, rfl, rfl, rfl, rfl, rfl⟩

/-- What is read off the events of an evaluation, up to how its records are read. -/
theorem fold_events (ev : Evaluation P) (rs : List NodeRecord) (p : Projection) :
    (ev.events schema_version rs).foldl Projection.add p =
      { (rs.map (record_event P schema_version ev.trace ev.result)).foldl Projection.add
          { p with signal_id := some ev.signal.id, started_at := ev.trace.started_at } with
        outcome_event := some (outcome_event P schema_version ev.trace ev.result)
        decision_id := some ev.result.id
        completed_at := some ev.result.evaluated_at } := by
  rw [Evaluation.events, List.foldl_append, List.foldl_append, List.foldl_append]
  simp only [List.foldl_cons, List.foldl_nil, add_signal, fold_gates, add_outcome]

/-- Without a fallback every record is read back. -/
theorem fold_matching (ev : Evaluation P) {rs : List NodeRecord}
    (h : ∀ r ∈ rs, r.node_type = "decision" ∨ r.node_type = "boundary") (started_at : Datetime) :
    (ev.events schema_version rs).foldl Projection.add { started_at := started_at } =
      { signal_id := some ev.signal.id
        started_at := ev.trace.started_at
        completed_at := some ev.result.evaluated_at
        decision_id := some ev.result.id
        evaluated_nodes := rs.map NodeRecord.toDict
        outcome_event := some (outcome_event P schema_version ev.trace ev.result) } := by
  rw [fold_events, fold_records h]
  rfl

/-- With a fallback among them, that record is not. -/
theorem fold_fallback (ev : Evaluation P) {decisions boundaries : List NodeRecord} {r : NodeRecord}
    (hdec : ∀ r ∈ decisions, r.node_type = "decision") (hr : r.node_type = "fallback")
    (hbnd : ∀ r ∈ boundaries, r.node_type = "boundary") (started_at : Datetime) :
    ((ev.events schema_version (decisions ++ [r] ++ boundaries)).foldl Projection.add
        { started_at := started_at }).evaluated_nodes
      = decisions.map NodeRecord.toDict ++ boundaries.map NodeRecord.toDict := by
  rw [fold_events, List.map_append, List.map_append, List.foldl_append, List.foldl_append,
    fold_records (fun r hr => Or.inl (hdec r hr)), List.map_singleton]
  simp only [List.foldl_cons, List.foldl_nil, add_fallback hr]
  rw [fold_records (fun r hr => Or.inr (hbnd r hr))]
  rfl

/-- **A committed evaluation is read back as it was** exactly when some decision node matched:
a fallback node is missing from the nodes that are read back. -/
theorem projection_iff (schema_version : String) (ev : Evaluation P) {L L₁ : LedgerClient}
    {r : LedgerCommitResult}
    (hnew : ∀ e ∈ L.events, e.trace_id ≠ ev.trace.id)
    (hcommit : commit LedgerClient.backend P schema_version ev.trace ev.result L = (.ok r, L₁))
    (haccepted : r.status = .accepted) :
    (∃ t, (project LedgerClient.backend P ev.trace.id.str L₁).1 = .ok (some t)
        ∧ Reconstructs ev t) ↔ PureEvaluate.Matches P ev.signal ev.flow := by
  obtain ⟨decisions, fallbacks, boundaries, hnodes, -, hdec, hbnd, hshape⟩ := records_shape ev
  have hbuilt := ev.build_events_eq schema_version hnodes
  have hfilter := events_of_accepted ev hbuilt hnew hcommit haccepted
  have hrun : (project LedgerClient.backend P ev.trace.id.str L₁).1
      = project_events P ev.trace.id.str
        (ev.events schema_version (decisions ++ fallbacks ++ boundaries)) := by
    rw [project_run hfilter]
  obtain ⟨rest, hrest⟩ : ∃ rest, ev.events schema_version (decisions ++ fallbacks ++ boundaries)
      = signal_event P schema_version ev.trace ev.result ev.signal.id :: rest := ⟨_, rfl⟩
  have hread : read (signal_event P schema_version ev.trace ev.result ev.signal.id) rest
      = (ev.events schema_version (decisions ++ fallbacks ++ boundaries)).foldl Projection.add
        { started_at := ev.trace.started_at } := by
    rw [hrest]
    rfl
  rw [hrun, hrest]
  rcases hshape with ⟨hmatch, rfl⟩ | ⟨hno, record, rfl, hrecord⟩
  · refine iff_of_true ?_ hmatch
    have hrecords : ∀ r ∈ decisions ++ [] ++ boundaries,
        r.node_type = "decision" ∨ r.node_type = "boundary" := by
      intro r hr
      rw [List.append_nil] at hr
      exact (List.mem_append.mp hr).imp (hdec r) (hbnd r)
    rw [fold_matching ev hrecords] at hread
    obtain ⟨restored, hrestored, hfields⟩ := build_result_outcome (P := P)
      ev.trace ev.result (some ev.signal.id) ev.trace.started_at
    have hresults : results_of P (read (signal_event P schema_version ev.trace ev.result
        ev.signal.id) rest) = .ok [restored.populate_canonical_fields] := by
      rw [results_of, hread]
      dsimp only
      rw [hrestored]
      rfl
    refine ⟨_, project_events_eq hresults, ?_⟩
    rw [hread]
    exact ⟨rfl, rfl, rfl, rfl, rfl, hnodes.symm, restored.populate_canonical_fields, rfl, hfields⟩
  -- the record of the fallback is not read back, so one is missing
  · refine iff_of_false ?_ hno
    rintro ⟨t, ht, hrec⟩
    have hback : t.evaluated_nodes
        = decisions.map NodeRecord.toDict ++ boundaries.map NodeRecord.toDict := by
      rw [evaluated_nodes_of_project ht, hread, fold_fallback ev hdec hrecord hbnd]
    have hall : t.evaluated_nodes
        = (decisions ++ [record] ++ boundaries).map NodeRecord.toDict := by
      rw [hrec.evaluated_nodes, ← hnodes]
      rfl
    have hlen := congrArg List.length (hback.symm.trans hall)
    simp only [List.length_append, List.length_map, List.length_singleton] at hlen
    omega

/-- The evaluation in which the decision node matched is read back. -/
theorem projection_iff_recorded :
    ∃ t, (project LedgerClient.backend Recorded.platform Recorded.first.trace.id.str
        (Recorded.committed Recorded.first)).1 = .ok (some t) ∧ Reconstructs Recorded.first t := by
  refine (projection_iff "1.0" Recorded.first (L := LedgerClient.init) ?_ rfl rfl).mpr ?_
  · intro e he
    simp [LedgerClient.init] at he
  · exact ⟨_, List.mem_singleton_self _, rfl⟩

/-- Of the two nodes of the other one, one is read back. -/
theorem fallback_not_read : ∃ t, (project LedgerClient.backend Recorded.platform
      unmatched.trace.id.str (Recorded.committed unmatched)).1 = .ok (some t)
    ∧ t.evaluated_nodes.length = 1 :=
  ⟨_, rfl, rfl⟩

/-- Committed evaluations of validated flows are not always read back. -/
theorem projection_counterexample :
    ¬∀ (ev : Evaluation Recorded.platform) (L L₁ : LedgerClient) (r : LedgerCommitResult),
      FlowValidator.validate Recorded.platform ev.flow false = .ok () →
      (∀ e ∈ L.events, e.trace_id ≠ ev.trace.id) →
      commit LedgerClient.backend Recorded.platform "1.0" ev.trace ev.result L = (.ok r, L₁) →
      r.status = .accepted →
      ∃ t, (project LedgerClient.backend Recorded.platform ev.trace.id.str L₁).1 = .ok (some t)
        ∧ Reconstructs ev t := by
  intro h
  have hnone : ∀ e ∈ LedgerClient.init.events, e.trace_id ≠ unmatched.trace.id := by
    intro e he
    simp [LedgerClient.init] at he
  obtain ⟨t, ht, hrec⟩ :=
    h unmatched LedgerClient.init (Recorded.committed unmatched) _ rfl hnone rfl rfl
  obtain ⟨t', ht', hlen⟩ := fallback_not_read
  rw [ht'] at ht
  rw [Option.some.inj (Except.ok.inj ht), hrec.evaluated_nodes] at hlen
  exact absurd hlen (by decide)

end Full

end DecisionRuntime.LedgerProjector
