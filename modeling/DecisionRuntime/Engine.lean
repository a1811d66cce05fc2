/-
`DecisionRuntimeEngine` of `backend/app/runtime/engine.py`: `evaluate` and
`simulate`, over everything that may be wired into the engine.

`evaluate` is five blocks, run in this order: open a human gate, commit to the
ledger in strict mode, dispatch the execution of a confirmed decision, remember
the result under the idempotency key in strict mode, persist the trace (and
commit in parallel mode). The second block is the only one that returns early.

What a call draws from outside, and which of the calls it makes fail, is `Env`.
The ledger is any backend over any state. The event bus, the publisher and the
trace store are the in-memory ones, except that a call to one of them may raise,
before or after it has taken effect.

`World.calls` is not a store of the program: it lists the appends, with their
answers, and the publishes, in the order the engine makes them.
-/
import DecisionRuntime.HumanGateManager
import DecisionRuntime.PureEvaluate
import DecisionRuntime.RuntimeLedgerAdapter
import DecisionRuntime.Stores

set_option autoImplicit false

namespace DecisionRuntime

/-! ## What the engine is wired to -/

/-- The constructor arguments of the engine: which dependencies there are, the ledger mode, and
the schema version of the adapter. -/
structure EngineConfig where
  human_gate_manager : Bool
  trace_store : Bool
  event_bus : Bool
  ledger_adapter : Bool
  ledger_mode : String
  idempotency_store : Bool
  execution_publisher : Bool
  schema_version : String

/-- There is a ledger, and it is the commit gate. -/
def EngineConfig.strict (cfg : EngineConfig) : Prop :=
  cfg.ledger_adapter = true ∧ cfg.ledger_mode = "strict"

/-- There is a ledger, and it is written after the fact. -/
def EngineConfig.parallel (cfg : EngineConfig) : Prop :=
  cfg.ledger_adapter = true ∧ cfg.ledger_mode ≠ "strict"

instance (cfg : EngineConfig) : Decidable cfg.strict := instDecidableAnd

instance (cfg : EngineConfig) : Decidable cfg.parallel := instDecidableAnd

/-- Whether a call to a dependency raises, and if so whether it has taken effect by then. -/
inductive Fault
  | none
  | before
  | after
  deriving DecidableEq

/-- What one `evaluate` draws from outside, and which of its calls fail. -/
structure Env where
  draws : Draws
  /-- The id and the creation time of a human gate. -/
  gate_id : UUID
  gate_created_at : Datetime
  /-- The `execution_id` of the `ExecutionRequest`. -/
  execution_id : UUID
  /-- The id and the timestamp of the `RuntimeEvent`. -/
  event_id : UUID
  event_timestamp : Datetime
  /-- The `updated_at` of an `ERROR` result. -/
  refused_at : Datetime
  /-- The `completed_at` of the trace that is committed in strict mode, and of the one that is
  stored. -/
  commit_completed_at : Datetime
  completed_at : Datetime
  event_bus_fault : Fault
  execution_publisher_fault : Fault
  trace_store_fault : Fault
  /-- The look-up of this decision id in the trace store raises. -/
  lookup_raises : String → Bool

/-- The ids one `evaluate` draws. -/
def Env.drawn (env : Env) : List UUID :=
  [env.draws.trace_id, env.draws.decision_id, env.gate_id, env.execution_id, env.event_id]

/-- A call the engine makes to a dependency, with the answer of the ledger. -/
inductive ExternalCall
  | append (event : LedgerEvent) (answer : Except PyError LedgerAppendResult)
  | publish_event (event : RuntimeEvent)
  | publish_execution (event : RuntimeEvent)

/-- The event of a publish. -/
def ExternalCall.published : ExternalCall → Option RuntimeEvent
  | .append _ _ => none
  | .publish_event event | .publish_execution event => some event

/-- Everything that may be wired into an engine, over a ledger with the state `σ`. -/
structure World (σ : Type) where
  human_gate_manager : HumanGateManager
  trace_store : TraceStore
  event_bus : List RuntimeEvent
  execution_publisher : List RuntimeEvent
  idempotency_store : IdempotencyStore
  ledger : σ
  calls : List ExternalCall

/-- Nothing evaluated yet, and a ledger in the state `s`. -/
def World.init {σ : Type} (s : σ) : World σ where
  human_gate_manager := HumanGateManager.init
  trace_store := TraceStore.init
  event_bus := []
  execution_publisher := []
  idempotency_store := Dict.empty
  ledger := s
  calls := []

namespace DecisionRuntimeEngine

variable {σ : Type}

/-! ## The dependencies, as the engine calls them -/

/-- The ledger client of the world. -/
def client (C : LedgerBackend σ) : LedgerBackend (World σ) where
  append event := fun w =>
    ((C.append event w.ledger).1,
      { w with
        ledger := (C.append event w.ledger).2
        calls := w.calls ++ [.append event (C.append event w.ledger).1] })
  get_by_event_id event_id := Exec.zoom World.ledger (fun s w => { w with ledger := s })
    (C.get_by_event_id event_id)
  get_events_by_trace_id trace_id := Exec.zoom World.ledger (fun s w => { w with ledger := s })
    (C.get_events_by_trace_id trace_id)

/-- A call with the effect `effect`, or one that raises before or after it. -/
def faulty (fault : Fault) (effect : World σ → World σ) : Exec PyError (World σ) Unit :=
  match fault with
  | .none => Exec.modify effect
  | .before => Exec.raise (.external "dependency failed")
  | .after => do
    Exec.modify effect
    Exec.raise (.external "dependency failed")

/-- A call to a dependency that is made only when it is there. -/
def when_wired (wired : Bool) (call : Exec PyError (World σ) Unit) : Exec PyError (World σ) Unit :=
  if wired then call else return ()

/-- `EventBus.publish`. -/
def publish_event (fault : Fault) (event : RuntimeEvent) : Exec PyError (World σ) Unit := do
  Exec.modify (fun w => { w with calls := w.calls ++ [.publish_event event] })
  faulty fault (fun w => { w with event_bus := w.event_bus ++ [event] })

/-- `ExecutionPublisher.publish`. -/
def publish_execution (fault : Fault) (event : RuntimeEvent) : Exec PyError (World σ) Unit := do
  Exec.modify (fun w => { w with calls := w.calls ++ [.publish_execution event] })
  faulty fault (fun w => { w with execution_publisher := w.execution_publisher ++ [event] })

/-- `TraceStore.save`. -/
def save_trace (fault : Fault) (trace : DecisionTrace) : Exec PyError (World σ) Unit :=
  faulty fault (fun w => { w with trace_store := w.trace_store.save trace })

section Evaluate

variable (P : Platform) (C : LedgerBackend σ) (cfg : EngineConfig) (env : Env) (signal : Signal)
  (flow : DecisionFlow)

/-! ## Recovering a committed result -/

/-- The loop over the event ids of `_recover_prior_result`. What the trace store raises is
caught, and what the ledger raises is not. -/
def recover_from_ledger : List UUID → Exec PyError (World σ) (Option DecisionResult)
  | [] => return none
  | event_id :: event_ids => do
    match ← (client C).get_by_event_id event_id with
    -- an event the ledger does not know is passed over
    | none => recover_from_ledger event_ids
    | some event =>
      -- the `except Exception: continue` around the look-up
      if env.lookup_raises event.decision_id.str then recover_from_ledger event_ids
      else do
        let w ← Exec.get
        match w.trace_store.get_by_decision_id event.decision_id.str with
        -- `get_by_decision_id` raised: the same `except`
        | .error _ => recover_from_ledger event_ids
        | .ok trace =>
          match trace.decision_results with
          | result :: _ => return some result
          | [] => recover_from_ledger event_ids

/-- `_recover_prior_result`. -/
def recover_prior_result (event_ids : List UUID) :
    Exec PyError (World σ) (Option DecisionResult) := do
  let w ← Exec.get
  let cached :=
    if nonempty signal.idempotency_key ∧ cfg.idempotency_store then
      w.idempotency_store.get (signal.idempotency_key.getD "")
    else none
  match cached with
  | some cached => return some cached
  | none =>
    if cfg.ledger_adapter ∧ cfg.trace_store then recover_from_ledger C env event_ids
    else return none

/-! ## The blocks of `evaluate` -/

/-- A `PENDING_HUMAN` decision gets a gate. -/
def open_gate (final : DecisionResult) : Exec PyError (World σ) DecisionResult :=
  if final.status = .pending_human ∧ cfg.human_gate_manager then do
    let gate_request ← Exec.zoom World.human_gate_manager
      (fun m w => { w with human_gate_manager := m })
      (HumanGateManager.create_request env.gate_id env.gate_created_at final none none)
    return { final with human_gate := some gate_request }
  else return final

/-- The `ERROR` result for a commit that was not accepted. -/
def refused (status : LedgerCommitStatus) (final : DecisionResult) : DecisionResult :=
  { final with
    status := .error
    state := .failed
    error_message := some (
      if status = .duplicate then "Ledger commit failed: duplicate — prior result not recoverable"
      else "Ledger commit failed: " ++ status.value)
    updated_at := env.refused_at }

/-- The commit gate lets `evaluate` go on, or answers for it. -/
inductive GateAnswer
  | proceed (final : DecisionResult)
  | answered (result : DecisionResult)

/-- The strict-mode commit. -/
def strict_commit (final : DecisionResult) (evaluated_nodes : List PyDict) :
    Exec PyError (World σ) GateAnswer :=
  if cfg.strict then do
    let (commit_trace, final) :=
      -- building the trace runs the validator of `DecisionResult`, which fills fields in
      create_trace env.commit_completed_at signal flow final evaluated_nodes
    let ledger_result ←
      RuntimeLedgerAdapter.commit (client C) P cfg.schema_version commit_trace final
    if ledger_result.status = .accepted then return .proceed final
    else if ledger_result.status = .duplicate then do
      -- a duplicate may be a retry of a decision that was committed
      match ← recover_prior_result C cfg env signal ledger_result.event_ids with
      | some prior => return .answered prior
      | none => return .answered (refused env ledger_result.status final)
    else return .answered (refused env ledger_result.status final)
  else return .proceed final

/-- The `EXECUTION_REQUESTED` event of a result that has its execution id. -/
def execution_event (final : DecisionResult) : RuntimeEvent :=
  { id := env.event_id
    event_type := .execution_requested
    flow_id := final.flow_id
    trace_id := final.trace_id
    decision_id := some final.id
    timestamp := env.event_timestamp
    payload :=
      [("execution_id", .str (final.execution_id.getD "")), ("decision_id", .str final.id.str),
        ("action", (final.action.map Value.dict).getD .none)] }

/-- A confirmed decision is handed to the event bus and then to the publisher. -/
def dispatch (final : DecisionResult) : Exec PyError (World σ) DecisionResult :=
  if final.status = .confirmed then do
    let final := { final with execution_id := some env.execution_id.str }
    -- the id goes into the result before the event is built from it
    when_wired cfg.event_bus (publish_event env.event_bus_fault (execution_event env final))
    when_wired cfg.execution_publisher
      (publish_execution env.execution_publisher_fault (execution_event env final))
    return final
  else return final

/-- In strict mode the result is remembered under the idempotency key. -/
def remember (final : DecisionResult) : Exec PyError (World σ) Unit :=
  if cfg.strict ∧ nonempty signal.idempotency_key ∧ cfg.idempotency_store then
    Exec.modify (fun w => { w with
      idempotency_store := w.idempotency_store.set (signal.idempotency_key.getD "") final })
  else return ()

/-- The commit of the parallel mode: what it raises is dropped. -/
def parallel_commit (trace : DecisionTrace) (final : DecisionResult) :
    Exec PyError (World σ) Unit :=
  Exec.tryExcept
    (do
      let _ ← RuntimeLedgerAdapter.commit (client C) P cfg.schema_version trace final
      return ())
    (fun _ => return ())

/-- The trace is stored, and in parallel mode committed. -/
def persist (final : DecisionResult) (evaluated_nodes : List PyDict) :
    Exec PyError (World σ) DecisionResult :=
  if cfg.trace_store ∨ cfg.parallel then do
    let (trace, final) := create_trace env.completed_at signal flow final evaluated_nodes
    when_wired cfg.trace_store (save_trace env.trace_store_fault trace)
    when_wired cfg.parallel (parallel_commit P C cfg trace final)
    return final
  else return final

/-- What follows the commit gate. -/
def finish (final : DecisionResult) (evaluated_nodes : List PyDict) :
    Exec PyError (World σ) DecisionResult := do
  let final ← dispatch cfg env final
  remember cfg signal final
  persist P C cfg env signal flow final evaluated_nodes

/-- `evaluate`. -/
def evaluate : Exec PyError (World σ) DecisionResult := do
  let (final, evaluated_nodes) ← Exec.lift (PureEvaluate.pure_evaluate P env.draws signal flow)
  let final ← open_gate cfg env final
  match ← strict_commit P C cfg env signal flow final evaluated_nodes with
  | .answered result => return result
  | .proceed final => finish P C cfg env signal flow final evaluated_nodes

/-- `simulate`, which touches nothing. -/
def simulate (draws : Draws) (completed_at : Datetime) :
    Except PyError (DecisionResult × DecisionTrace) := do
  let (final, evaluated_nodes) ← PureEvaluate.pure_evaluate P draws signal flow
  let (trace, final) := create_trace completed_at signal flow final evaluated_nodes
  return (final, trace)

end Evaluate

end DecisionRuntimeEngine

end DecisionRuntime
