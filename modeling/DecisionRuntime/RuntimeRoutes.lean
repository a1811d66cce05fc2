/-
The other routes of `backend/app/routes/runtime.py` that have to do with a decision
after it was made: `approve_gate` and `reject_gate`, `simulate_decision` and
`get_stats`.

Resolving a gate is two steps. The manager resolves it, and then an event is
assembled and appended to the ledger, in another component and from the word for the
action. A simulation takes the signal out of a stored trace and the flow out of the
registry, and runs an engine that has nothing wired to it.
-/
import DecisionRuntime.ResultInvariants
import DecisionRuntime.Routes
import DecisionRuntime.SignificantDigits

set_option autoImplicit false

namespace DecisionRuntime

/-! ## Actors -/

/-- `Actor`. -/
structure Actor where
  actor_id : String
  roles : List String

/-- The settings `get_actor` depends on: the entries of the map say who holds a key. -/
structure AuthSettings where
  auth_enabled : Bool
  api_key_role_map : Dict String PyDict

/-- `str` for a value that is one. -/
def Value.str? : Value → Option String
  | .str s => some s
  | _ => Option.none

/-- `Actor(actor_id=entry["actor_id"], roles=entry.get("roles", []))`. -/
def Actor.of_entry (entry : PyDict) : Except PyError Actor :=
  match PyDict.get entry "actor_id" with
  | none => .error (.keyError "actor_id")
  | some actor_id =>
    match actor_id.str?, (PyDict.get entry "roles").getD (.list []) with
    | some actor_id, .list roles =>
      match roles.mapM Value.str? with
      | some roles =>
        if 1 ≤ actor_id.length then .ok ⟨actor_id, roles⟩ else .error (.validationError "Actor")
      | none => .error (.validationError "Actor")
    | _, _ => .error (.validationError "Actor")

/-- `get_actor`, given the `X-Api-Key` header. -/
def get_actor (auth : AuthSettings) (api_key : Option String) : Except PyError (Option Actor) :=
  if auth.auth_enabled = false then .ok none
  else if nonempty api_key = false then
    .error (.httpException 401 "X-Api-Key header is required")
  else
    match auth.api_key_role_map.get (api_key.getD "") with
    | none => .error (.httpException 401 "Invalid API key")
    | some entry => (Actor.of_entry entry).map some

/-! ## Requests -/

/-- `GateActionBody`. -/
structure GateActionBody where
  actor_id : Option String := none
  comment : Option String := none
  comment_max : ∀ text, comment = some text → text.length ≤ 4096 := by simp

/-- A request to resolve a gate: its id is in the path, the key in a header. -/
structure GateRequest where
  request_id : String
  api_key : Option String := none
  body : GateActionBody

/-- The times that handling such a request draws: the manager's and the ledger event's. -/
structure GateDraws where
  now : Datetime
  occurred_at : Datetime

/-- `SignalOverrides`. -/
structure SignalOverrides where
  confidence : Option Confidence := none
  payload : Option PyDict := none

/-- `SimulateRequest`. -/
structure SimulateRequest where
  trace_id : String
  signal_overrides : Option SignalOverrides := none

/-- What a simulation draws: the id of its signal, and what the engine draws. -/
structure SimulateDraws where
  signal_id : UUID
  draws : Draws
  completed_at : Datetime

/-- `SimulateResponse`. -/
structure SimulateResponse where
  mode : String := "simulation"
  source_trace_id : String
  result : DecisionResult
  trace : DecisionTrace
  committed : Bool := false
  events_published : Bool := false

/-- `RuntimeStats`. -/
structure RuntimeStats where
  total : ℕ
  confirmed : ℕ
  fallback : ℕ
  error : ℕ
  pending_human : ℕ
  rejected : ℕ
  blocked : ℕ
  confirmed_rate : PyFloat
  deriving DecidableEq

namespace Routes

/-! ## Resolving a gate -/

/-- What a route does to a gate: the word for it, and the resolution of the manager. -/
structure GateAction where
  word : String
  resolution : HumanGateManager.Resolution

def approve_action : GateAction := ⟨"approve", HumanGateManager.approval⟩

def reject_action : GateAction := ⟨"reject", HumanGateManager.rejection⟩

/-- The `except` clauses around the call of the manager. -/
def gate_http_error : PyError → PyError
  | .humanGateNotFoundError exc => .httpException 404 exc
  | .humanGateInvalidStateError exc => .httpException 409 exc
  | .humanGateInsufficientRoleError exc => .httpException 403 exc
  | exc => exc

section Gates

variable {σ : Type} (P : Platform) (C : LedgerBackend σ) (settings : Settings)
  (auth : AuthSettings)

/-- The 500 of a ledger that does not take the event, in strict mode. -/
def append_failed (word : String) : PyError :=
  .httpException 500 ("Ledger append failed for human gate " ++ word ++ " event")

/-- `_append_human_gate_to_ledger`. In parallel mode what the ledger raises is dropped. -/
def append_human_gate_to_ledger (result : DecisionResult) (request_id actor_id : String)
    (actor_roles : Option (List String)) (word : String) (comment : Option String)
    (occurred_at : Datetime) : Exec PyError (World σ) Unit :=
  if settings.ledger_enabled = false then return ()
  else do
    let gate_req ← EngineCall.on_gates (HumanGateManager.get_request request_id)
    Exec.tryExcept
      (do
        let append_result ← (DecisionRuntimeEngine.client C).append
          (RuntimeLedgerAdapter.human_action_event P settings.ledger_schema_version gate_req result
            actor_id word occurred_at actor_roles comment)
        if settings.ledger_mode = "strict" ∧ append_result.status = .invalid then
          Exec.raise (append_failed word)
        else return ())
      (fun exc => match exc with
        | .httpException status_code detail => Exec.raise (.httpException status_code detail)
        | _ => if settings.ledger_mode = "strict" then Exec.raise (append_failed word)
          else return ())

/-- The id of the actor: that of the key, or what the request says. -/
def actor_id_of (actor : Option Actor) (body : GateActionBody) : String :=
  match actor with
  | some actor => actor.actor_id
  | none => if nonempty body.actor_id then body.actor_id.getD "" else "anonymous"

/-- The body `approve_gate` and `reject_gate` share. -/
def resolve_gate (action : GateAction) (draws : GateDraws) (request : GateRequest) :
    Exec PyError (World σ) DecisionResult := do
  let actor ← Exec.lift (get_actor auth request.api_key)
  let actor_id := actor_id_of actor request.body
  let actor_roles := actor.map Actor.roles
  let result ← Exec.tryExcept
    (EngineCall.on_gates (HumanGateManager.resolve action.resolution draws.now request.request_id
      request.body.comment actor_roles))
    (fun exc => Exec.raise (gate_http_error exc))
  -- the manager has resolved the gate by now, whatever becomes of the event
  append_human_gate_to_ledger P C settings result request.request_id actor_id actor_roles
    action.word request.body.comment draws.occurred_at
  return result

/-- `approve_gate`. -/
def approve_gate (draws : GateDraws) (request : GateRequest) :
    Exec PyError (World σ) DecisionResult :=
  resolve_gate P C settings auth approve_action draws request

/-- `reject_gate`. -/
def reject_gate (draws : GateDraws) (request : GateRequest) :
    Exec PyError (World σ) DecisionResult :=
  resolve_gate P C settings auth reject_action draws request

end Gates

/-! ### What such a request can do -/

section GateRun

open HumanGateManager

variable {σ : Type} {P : Platform} {C : LedgerBackend σ} {settings : Settings}
  {auth : AuthSettings} {action : GateAction} {draws : GateDraws} {request : GateRequest}
  {actor : Option Actor} {gate : HumanGateRequest} {held : DecisionResult} {w : World σ}

/-- The event of a gate that was resolved, `gate` being the gate before. -/
def resolution_event (P : Platform) (settings : Settings) (action : GateAction)
    (draws : GateDraws) (request : GateRequest) (actor : Option Actor) (gate : HumanGateRequest)
    (held : DecisionResult) : LedgerEvent :=
  RuntimeLedgerAdapter.human_action_event P settings.ledger_schema_version
    (action.resolution.gate draws.now request.body.comment gate)
    (action.resolution.update draws.now held) (actor_id_of actor request.body) action.word
    draws.occurred_at (actor.map Actor.roles) request.body.comment

/-- The world after the manager has resolved the gate. -/
def gate_resolved (action : GateAction) (draws : GateDraws) (request : GateRequest)
    (gate : HumanGateRequest) (held : DecisionResult) (w : World σ) : World σ :=
  { w with
    human_gate_manager := resolved action.resolution draws.now request.request_id
      request.body.comment gate held w.human_gate_manager }

/-- The world after the ledger was given an event, if there is a ledger. -/
def logged (C : LedgerBackend σ) (settings : Settings) (event : LedgerEvent) (w : World σ) :
    World σ :=
  if settings.ledger_enabled then ((DecisionRuntimeEngine.client C).append event w).2 else w

/-- The request resolves the gate `gate`, which holds `held` back. -/
structure Resolves (auth : AuthSettings) (request : GateRequest) (m : HumanGateManager)
    (actor : Option Actor) (gate : HumanGateRequest) (held : DecisionResult) : Prop where
  authenticated : get_actor auth request.api_key = .ok actor
  stored : m.store.get request.request_id = some gate
  held : m.results.get request.request_id = some held
  pending : gate.status = .pending
  allowed : role_allows gate.required_role (actor.map Actor.roles) = true

theorem on_gates_run {α : Type} {x : Exec PyError HumanGateManager α} {answer : Except PyError α}
    {m : HumanGateManager} (h : x w.human_gate_manager = (answer, m)) :
    EngineCall.on_gates x w = (answer, { w with human_gate_manager := m }) := by
  unfold EngineCall.on_gates Exec.zoom
  rw [h]

/-- Appending the event touches the ledger only, and raises in strict mode at most. -/
theorem append_human_gate_run {result : DecisionResult} {actor_id : String}
    {actor_roles : Option (List String)} {word request_id : String} {comment : Option String}
    {occurred_at : Datetime} (hgate : w.human_gate_manager.store.get request_id = some gate) :
    (append_human_gate_to_ledger P C settings result request_id actor_id actor_roles word comment
        occurred_at w).2
      = logged C settings (RuntimeLedgerAdapter.human_action_event P
          settings.ledger_schema_version gate result actor_id word occurred_at actor_roles
          comment) w := by
  unfold append_human_gate_to_ledger logged
  by_cases hoff : settings.ledger_enabled = false
  · rw [if_pos hoff, if_neg (by simp [hoff])]
    rfl
  have hon : settings.ledger_enabled = true := by simpa using hoff
  rw [if_neg hoff, hon, if_pos rfl]
  -- the gate is read again, and it is there
  have hget : EngineCall.on_gates (get_request request_id) w = (.ok gate, w) := by
    have hrun : get_request request_id w.human_gate_manager = (.ok gate, w.human_gate_manager) := by
      rw [get_request, Exec.run_get_bind, hgate]
      rfl
    exact on_gates_run hrun
  rw [Exec.run_bind_ok _ hget]
  let event := RuntimeLedgerAdapter.human_action_event P settings.ledger_schema_version gate result
    actor_id word occurred_at actor_roles comment
  rcases happ : (DecisionRuntimeEngine.client C).append event w with ⟨e | answer, w'⟩
  -- the append raised: in strict mode this fails the request, or else it is swallowed
  · rw [Exec.run_tryExcept_error (Exec.run_bind_error _ happ)]
    rcases e
    case httpException => rfl
    all_goals
      dsimp only
      split_ifs <;> rfl
  -- an invalid answer counts as a failure in strict mode only
  · have hbody : ((DecisionRuntimeEngine.client C).append event >>= fun append_result =>
        if settings.ledger_mode = "strict" ∧ append_result.status = .invalid then
          Exec.raise (append_failed word)
        else return ()) w
          = (if settings.ledger_mode = "strict" ∧ answer.status = .invalid then
              .error (append_failed word)
            else .ok (), w') := by
      rw [Exec.run_bind_ok _ happ]
      split_ifs <;> rfl
    by_cases hfail : settings.ledger_mode = "strict" ∧ answer.status = .invalid
    · rw [if_pos hfail] at hbody
      rw [Exec.run_tryExcept_error hbody]
      rfl
    · rw [if_neg hfail] at hbody
      rw [Exec.run_tryExcept_ok hbody]

/-- **What a request to resolve a gate can do.** It raises and changes nothing, or the manager
resolves the gate and the ledger is given the event; it answers with the result that was held
back, updated, unless the ledger is what fails. -/
theorem resolve_gate_run (P : Platform) (C : LedgerBackend σ) (settings : Settings)
    (auth : AuthSettings) (action : GateAction) (draws : GateDraws) (request : GateRequest)
    (hkeys : SameKeys w.human_gate_manager) :
    (∃ e, resolve_gate P C settings auth action draws request w = (.error e, w)
        ∧ ∀ actor gate held, ¬ Resolves auth request w.human_gate_manager actor gate held) ∨
    ∃ actor gate held, Resolves auth request w.human_gate_manager actor gate held
      ∧ (resolve_gate P C settings auth action draws request w).2
        = logged C settings (resolution_event P settings action draws request actor gate held)
            (gate_resolved action draws request gate held w)
      ∧ ∀ result, (resolve_gate P C settings auth action draws request w).1 = .ok result →
        result = action.resolution.update draws.now held := by
  rcases hactor : get_actor auth request.api_key with e | actor
  · -- nobody is let in
    left
    refine ⟨e, ?_, ?_⟩
    · rw [resolve_gate, hactor]
      rfl
    · rintro actor gate held ⟨hok, -⟩
      cases hactor.symm.trans hok
  rw [resolve_gate, hactor, Exec.run_lift_bind_ok]
  let actor_roles := actor.map Actor.roles
  let call := HumanGateManager.resolve action.resolution draws.now request.request_id
    request.body.comment actor_roles
  rcases resolve_run action.resolution draws.now request.request_id request.body.comment
      actor_roles hkeys with ⟨e, hrun⟩ | ⟨gate, held, hgate, hheld, hpending, hallowed, hrun⟩
  · -- the manager refuses
    left
    have hcall : EngineCall.on_gates call w = (.error e, w) := on_gates_run hrun
    refine ⟨gate_http_error e, ?_, ?_⟩
    · rw [Exec.run_bind_error _ (Exec.run_tryExcept_error hcall)]
    · rintro actor' gate held ⟨hok, hgate, hheld, hpending, hallowed⟩
      obtain rfl := Except.ok.inj (hactor.symm.trans hok)
      rw [resolve_success action.resolution draws.now request.body.comment hgate hheld hpending
        hallowed] at hrun
      cases congrArg Prod.fst hrun
  · -- the manager resolves the gate, and the ledger is next
    right
    have hcall : EngineCall.on_gates call w = (.ok (action.resolution.update draws.now held),
        gate_resolved action draws request gate held w) := on_gates_run hrun
    have hstored : (gate_resolved action draws request gate held w).human_gate_manager.store.get
        request.request_id = some (action.resolution.gate draws.now request.body.comment gate) :=
      Dict.get_set_same _ _ _
    refine ⟨actor, gate, held, ⟨hactor, hgate, hheld, hpending, hallowed⟩, ?_⟩
    rw [Exec.run_bind_ok _ (Exec.run_tryExcept_ok hcall)]
    let append := append_human_gate_to_ledger P C settings
      (action.resolution.update draws.now held) request.request_id
      (actor_id_of actor request.body) actor_roles action.word request.body.comment
      draws.occurred_at
    have hlogged : (append (gate_resolved action draws request gate held w)).2
        = logged C settings (resolution_event P settings action draws request actor gate held)
            (gate_resolved action draws request gate held w) := append_human_gate_run hstored
    rw [← hlogged]
    rcases happ : append (gate_resolved action draws request gate held w) with ⟨e | _, w'⟩
    · rw [Exec.run_bind_error _ happ]
      refine ⟨rfl, ?_⟩
      intro result hok
      cases hok
    · rw [Exec.run_bind_ok _ happ]
      refine ⟨rfl, ?_⟩
      intro result hok
      exact (Except.ok.inj hok).symm

end GateRun

/-! ## Simulating a decision -/

/-- `{**payload, **overrides}`. -/
def merge (payload overrides : PyDict) : PyDict :=
  overrides.foldl (fun d kv => Dict.put kv.1 kv.2 d) payload

/-- The `Signal` model accepts these fields. -/
def accepts_signal (signal : Signal) : Prop :=
  1 ≤ signal.name.length ∧ signal.name.length ≤ 256 ∧ signal.type.length ≤ 256
    ∧ 1 ≤ signal.source.length ∧ signal.source.length ≤ 512
    ∧ (signal.idempotency_key.getD "").length ≤ 512

instance (signal : Signal) : Decidable (accepts_signal signal) := by
  unfold accepts_signal
  infer_instance

/-- The data of the signal that is simulated: the original one under a new id and without its
key, with the overrides. -/
def simulated_signal (signal_id : UUID) (original_signal : Signal)
    (overrides : Option SignalOverrides) : Signal :=
  { original_signal with
    id := signal_id
    idempotency_key := none
    confidence := (overrides.bind SignalOverrides.confidence).getD original_signal.confidence
    payload := match overrides.bind SignalOverrides.payload with
      | some payload => merge original_signal.payload payload
      | none => original_signal.payload }

/-- The `except` clauses around `engine.simulate`. -/
def simulation_error : PyError → PyError
  | .conditionEvaluationError exc => .httpException 400 exc
  | .runtimeError exc => .httpException 500 exc
  | exc => .httpException 500 ("Unexpected simulation error: " ++ exc.text)

section Simulate

variable (P : Platform) (registry : FlowRegistry) (draws : SimulateDraws) (body : SimulateRequest)

/-- The trace to simulate. -/
def source_trace (store : TraceStore) : Except PyError DecisionTrace :=
  match store.get body.trace_id with
  | .ok source_trace => .ok source_trace
  | .error _ => .error (.httpException 404 ("Trace '" ++ body.trace_id ++ "' not found"))

/-- `source_trace.signals[0]`. -/
def original_signal (source_trace : DecisionTrace) : Except PyError Signal :=
  match source_trace.signals with
  | [] => .error (.httpException 422
      ("Trace '" ++ body.trace_id ++ "' contains no signals to replay"))
  | original_signal :: _ => .ok original_signal

/-- The flow with the id that the trace records. -/
def source_flow (source_trace : DecisionTrace) : Except PyError DecisionFlow :=
  match registry.list_flows.find? (fun flow => flow.id = source_trace.flow_id) with
  | some flow => .ok flow
  | none => .error (.httpException 404
      ("Flow for trace '" ++ body.trace_id ++ "' not found in registry"))

/-- What `simulate_decision` answers when the trace store is `store`. -/
def simulation (store : TraceStore) : Except PyError SimulateResponse := do
  let source_trace ← source_trace body store
  let original_signal ← original_signal body source_trace
  let flow ← source_flow registry body source_trace
  let signal := simulated_signal draws.signal_id original_signal body.signal_overrides
  if accepts_signal signal then do
    let (result, trace) ←
      (DecisionRuntimeEngine.simulate P signal flow draws.draws draws.completed_at).mapError
        simulation_error
    return { source_trace_id := body.trace_id, result := result, trace := trace }
  else .error (.validationError "Signal")

/-- `simulate_decision`. The engine has nothing wired to it: the trace store is read, and nothing
is written. -/
def simulate_decision {σ : Type} : Exec PyError (World σ) SimulateResponse := do
  let w ← Exec.get
  Exec.lift (simulation P registry draws body w.trace_store)

end Simulate

/-! ## Statistics -/

/-- `round(confirmed / total if total > 0 else 0.0, 4)`. -/
def confirmed_rate (confirmed total : ℕ) : ℚ :=
  SignificantDigits.round_digits 4
    (if 0 < total then SignificantDigits.double_ratio confirmed total else 0)

/-- `get_stats`. -/
def get_stats (limit : ℕ) (store : TraceStore) : RuntimeStats :=
  let results := (store.list_recent (min limit 10000)).flatMap DecisionTrace.decision_results
  let count := fun status => results.countP (fun result => result.status = status)
  let total := count .confirmed + count .fallback + count .error + count .pending_human
    + count .rejected + count .blocked
  { total := total
    confirmed := count .confirmed
    fallback := count .fallback
    error := count .error
    pending_human := count .pending_human
    rejected := count .rejected
    blocked := count .blocked
    confirmed_rate := .finite (confirmed_rate (count .confirmed) total) }

end Routes

/-! ## Runs of the service -/

/-- A request to the service, with what handling it draws. -/
inductive RuntimeCall
  | evaluate (c : EvaluateCall)
  | approve_gate (draws : GateDraws) (request : GateRequest)
  | reject_gate (draws : GateDraws) (request : GateRequest)
  | simulate (draws : SimulateDraws) (body : SimulateRequest)

namespace RuntimeCall

/-- The ids that handling the request draws. -/
def drawn : RuntimeCall → List UUID
  | .evaluate c => c.drawn
  | .approve_gate _ _ | .reject_gate _ _ => []
  | .simulate draws _ => [draws.signal_id, draws.draws.trace_id, draws.draws.decision_id]

/-- The request, handled. -/
def run {σ : Type} (P : Platform) (C : LedgerBackend σ) (settings : Settings)
    (auth : AuthSettings) (registry : FlowRegistry) :
    RuntimeCall → Exec PyError (World σ) DecisionResult
  | .evaluate c => c.run P C settings registry
  | .approve_gate draws request => Routes.approve_gate P C settings auth draws request
  | .reject_gate draws request => Routes.reject_gate P C settings auth draws request
  | .simulate draws body =>
    SimulateResponse.result <$> Routes.simulate_decision P registry draws body

end RuntimeCall

/-- One request of a run, with the world before and after it. -/
abbrev RuntimeEntry (σ : Type) := Entry RuntimeCall PyError (World σ) DecisionResult

end DecisionRuntime
