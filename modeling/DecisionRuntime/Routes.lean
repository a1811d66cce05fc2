/-
`POST /evaluate` and `GET /traces/{trace_id}` of `backend/app/routes/runtime.py`,
over the singletons that `main.py` wires into them.

The first route looks at the idempotency store before anything else, builds the
signal outside its `try`, and writes the store after the engine has returned; the
engine holds the same store. What one request can do is said once, in `route_run`.
-/
import DecisionRuntime.EngineRuns
import DecisionRuntime.FlowRegistry
import DecisionRuntime.LedgerProjector

set_option autoImplicit false

namespace DecisionRuntime

/-! ## Requests -/

/-- `EvaluateSignalInput`. -/
structure EvaluateSignalInput where
  signal_id : Option String := none
  name : Option String := none
  type : String := ""
  confidence : Confidence
  payload : PyDict := []
  source : String := "api"
  source_min : 1 ≤ source.length := by decide
  created_at : Option Datetime := none
  idempotency_key : Option String := none

/-- `EvaluateRequest`. -/
structure EvaluateRequest where
  flow_id : String
  flow_id_min : 1 ≤ flow_id.length := by decide
  flow_version : Option String := none
  signal : EvaluateSignalInput

/-- The idempotency key of a request, when it is true. -/
def EvaluateRequest.key (body : EvaluateRequest) : Option String :=
  body.signal.idempotency_key.filter (fun key => key ≠ "")

/-- What handling one request draws from outside: the id and the time of the signal, where the
request does not give them, and what the engine draws. -/
structure RequestDraws where
  signal_id : UUID
  received_at : Datetime
  env : Env

/-- The settings the route depends on. -/
structure Settings where
  ledger_enabled : Bool
  ledger_mode : String
  ledger_schema_version : String

/-- The engine the route builds: everything is wired but the ledger, which may be disabled. -/
def Settings.engine (settings : Settings) : EngineConfig where
  human_gate_manager := true
  trace_store := true
  event_bus := true
  ledger_adapter := settings.ledger_enabled
  ledger_mode := settings.ledger_mode
  idempotency_store := true
  execution_publisher := true
  schema_version := settings.ledger_schema_version

namespace Routes

/-! ## The route -/

/-- `_build_signal`. A signal id that is no UUID is passed over; a text that is too long for the
`Signal` model does not validate. -/
def build_signal (draws : RequestDraws) (sig : EvaluateSignalInput) : Except PyError Signal :=
  let name :=
    if nonempty sig.name then sig.name.getD ""
    else if sig.type ≠ "" then sig.type
    else "api_signal"
  if name.length ≤ 256 ∧ sig.type.length ≤ 256 ∧ sig.source.length ≤ 512
      ∧ (sig.idempotency_key.getD "").length ≤ 512 then
    .ok { id := ((sig.signal_id.filter (fun text => text ≠ "")).bind UUID.parse).getD
            draws.signal_id
          name := name
          type := sig.type
          confidence := sig.confidence
          payload := sig.payload
          source := sig.source
          timestamp := sig.created_at.getD draws.received_at
          idempotency_key := sig.idempotency_key }
  else .error (.validationError "Signal")

/-- The flow of the request, or the 404. -/
def load_flow (P : Platform) (registry : FlowRegistry) (body : EvaluateRequest) :
    Except PyError DecisionFlow :=
  match registry.get P body.flow_id body.flow_version with
  | .error (.flowNotFoundError exc) => .error (.httpException 404 exc)
  | res => res

/-- The `except` clauses around `engine.evaluate`. -/
def http_error : PyError → PyError
  | .conditionEvaluationError exc => .httpException 400 exc
  | .runtimeError exc => .httpException 500 exc
  | exc => .httpException 500 ("Unexpected runtime error: " ++ exc.text)

section Evaluate

variable {σ : Type} (P : Platform) (C : LedgerBackend σ) (settings : Settings)
  (registry : FlowRegistry)

/-- `if idempotency_key: idempotency_store.set(idempotency_key, result)`. -/
def store_result (body : EvaluateRequest) (result : DecisionResult) (w : World σ) : World σ :=
  match body.key with
  | some key => { w with idempotency_store := w.idempotency_store.set key result }
  | none => w

/-- `evaluate`. -/
def evaluate (draws : RequestDraws) (body : EvaluateRequest) :
    Exec PyError (World σ) DecisionResult := do
  let w ← Exec.get
  match body.key.bind w.idempotency_store.get with
  | some cached => return cached
  | none =>
    let flow ← Exec.lift (load_flow P registry body)
    let signal ← Exec.lift (build_signal draws body.signal)
    let result ← Exec.tryExcept
      (DecisionRuntimeEngine.evaluate P C settings.engine draws.env signal flow)
      (fun exc => Exec.raise (http_error exc))
    Exec.modify (store_result body result)
    return result

/-- `get_trace`. There is a projector when the ledger is enabled. -/
def get_trace (trace_id : String) : Exec PyError (World σ) DecisionTrace := do
  let w ← Exec.get
  match w.trace_store.get trace_id with
  | .ok trace => return trace
  | .error _ =>
    let not_found := PyError.httpException 404 ("Trace '" ++ trace_id ++ "' not found")
    if settings.ledger_enabled then do
      match ← LedgerProjector.project (DecisionRuntimeEngine.client C) P trace_id with
      | some projected => return projected
      | none => Exec.raise not_found
    else Exec.raise not_found

end Evaluate

/-! ## What a request can do -/

section Run

variable {σ : Type} {P : Platform} {C : LedgerBackend σ} {settings : Settings}
  {registry : FlowRegistry} {draws : RequestDraws} {body : EvaluateRequest}

/-- What the engine is called with, if it is called at all. -/
def prepare (P : Platform) (registry : FlowRegistry) (draws : RequestDraws)
    (body : EvaluateRequest) : Except PyError (Signal × DecisionFlow) := do
  let flow ← load_flow P registry body
  let signal ← build_signal draws body.signal
  return (signal, flow)

/-- The signal carries the key of the request. -/
theorem build_signal_key {signal : Signal} (h : build_signal draws body.signal = .ok signal) :
    signal.idempotency_key = body.signal.idempotency_key := by
  -- the validation fails or returns the signal, whichever name it has
  rw [build_signal] at h
  split_ifs at h
  all_goals rw [← Except.ok.inj h]

theorem prepare_key {signal : Signal} {flow : DecisionFlow}
    (h : prepare P registry draws body = .ok (signal, flow)) :
    signal.idempotency_key = body.signal.idempotency_key := by
  obtain ⟨flow', -, hprep⟩ := except_bind_eq_ok.mp h
  obtain ⟨signal', hbuild, hpair⟩ := except_bind_eq_ok.mp hprep
  obtain ⟨rfl, rfl⟩ := Prod.mk.inj (Except.ok.inj hpair)
  exact build_signal_key hbuild

/-- A key that is true is not empty, and is the one of the signal. -/
theorem key_eq_some {key : String} :
    body.key = some key ↔ body.signal.idempotency_key = some key ∧ key ≠ "" := by
  rw [EvaluateRequest.key, Option.filter_eq_some_iff, decide_eq_true_eq]

/-- The result is stored under the key of the request, and nothing else is written. -/
theorem store_result_get (result : DecisionResult) (w : World σ) (key : String) :
    (store_result body result w).idempotency_store.get key =
      if body.key = some key then some result else w.idempotency_store.get key := by
  unfold store_result
  rcases hkey : body.key with _ | own
  · rw [if_neg (by simp)]
  · dsimp only
    rw [Dict.get_set]
    by_cases heq : key = own
    · rw [if_pos heq, if_pos (by rw [heq])]
    · rw [if_neg heq, if_neg (fun h => heq (Option.some.inj h).symm)]

theorem store_result_ledger (result : DecisionResult) (w : World σ) :
    (store_result body result w).ledger = w.ledger := by
  unfold store_result
  rcases body.key with _ | key <;> rfl

theorem store_result_event_bus (result : DecisionResult) (w : World σ) :
    (store_result body result w).event_bus = w.event_bus := by
  unfold store_result
  rcases body.key with _ | key <;> rfl

/-- The ways a request can end. -/
inductive RouteRun (P : Platform) (C : LedgerBackend σ) (settings : Settings)
    (registry : FlowRegistry) (draws : RequestDraws) (body : EvaluateRequest) (w : World σ) :
    Except PyError DecisionResult → World σ → Prop
  | cached {result : DecisionResult} (hit : body.key.bind w.idempotency_store.get = some result) :
      RouteRun P C settings registry draws body w (.ok result) w
  | unprepared {e : PyError} (miss : body.key.bind w.idempotency_store.get = none)
      (prepared : prepare P registry draws body = .error e) :
      RouteRun P C settings registry draws body w (.error e) w
  | evaluated {signal : Signal} {flow : DecisionFlow}
      (miss : body.key.bind w.idempotency_store.get = none)
      (prepared : prepare P registry draws body = .ok (signal, flow))
      (answer : Except PyError DecisionResult) (w' : World σ)
      (run : DecisionRuntimeEngine.evaluate P C settings.engine draws.env signal flow w
        = (answer, w')) :
      RouteRun P C settings registry draws body w (answer.mapError http_error)
        (match answer with
          | .ok result => store_result body result w'
          | .error _ => w')

/-- **What a request can do.** -/
theorem route_run (P : Platform) (C : LedgerBackend σ) (settings : Settings)
    (registry : FlowRegistry) (draws : RequestDraws) (body : EvaluateRequest) (w : World σ) :
    RouteRun P C settings registry draws body w
      (evaluate P C settings registry draws body w).1
      (evaluate P C settings registry draws body w).2 := by
  rw [evaluate, Exec.run_get_bind]
  rcases hit : body.key.bind w.idempotency_store.get with _ | result
  swap
  · exact .cached hit
  dsimp only
  rcases hflow : load_flow P registry body with e | flow
  · exact .unprepared hit (by rw [prepare, hflow]; rfl)
  rw [Exec.run_lift_bind_ok]
  rcases hsignal : build_signal draws body.signal with e | signal
  · exact .unprepared hit (by rw [prepare, hflow, hsignal]; rfl)
  rw [Exec.run_lift_bind_ok]
  have hprepared : prepare P registry draws body = .ok (signal, flow) := by
    rw [prepare, hflow, hsignal]
    rfl
  rcases hrun : DecisionRuntimeEngine.evaluate P C settings.engine draws.env signal flow w with
    ⟨e | result, w'⟩
  · rw [Exec.run_bind_error _ (Exec.run_tryExcept_error hrun)]
    exact .evaluated hit hprepared (.error e) w' hrun
  · rw [Exec.run_bind_ok _ (Exec.run_tryExcept_ok hrun)]
    exact .evaluated hit hprepared (.ok result) w' hrun

/-- It leaves the world as it found it, or as the engine leaves it up to what is remembered. -/
theorem route_world (P : Platform) (C : LedgerBackend σ) (settings : Settings)
    (registry : FlowRegistry) (draws : RequestDraws) (body : EvaluateRequest) (w : World σ) :
    (evaluate P C settings registry draws body w).2 = w ∨
      ∃ signal flow remembered, prepare P registry draws body = .ok (signal, flow)
        ∧ (evaluate P C settings registry draws body w).2
          = { (DecisionRuntimeEngine.evaluate P C settings.engine draws.env signal flow w).2 with
              idempotency_store := remembered } := by
  have hrun := route_run P C settings registry draws body w
  generalize (evaluate P C settings registry draws body w).1 = answer at hrun
  generalize (evaluate P C settings registry draws body w).2 = w' at hrun ⊢
  rcases hrun with _ | _ | @⟨signal, flow, _, prepared, answer, w₁, hengine⟩
  case cached => exact Or.inl rfl
  case unprepared => exact Or.inl rfl
  case evaluated =>
    have hafter : (DecisionRuntimeEngine.evaluate P C settings.engine draws.env signal flow w).2
        = w₁ := congrArg Prod.snd hengine
    right
    rcases answer with e | result
    · refine ⟨signal, flow, w₁.idempotency_store, prepared, ?_⟩
      show w₁ = _
      rw [hafter]
    · refine ⟨signal, flow, (store_result body result w₁).idempotency_store, prepared, ?_⟩
      show store_result body result w₁ = _
      rw [hafter]
      unfold store_result
      rcases body.key with _ | key <;> rfl

end Run

end Routes

/-! ## Runs of requests -/

/-- One request of a run, with what handling it draws. -/
structure EvaluateCall where
  draws : RequestDraws
  body : EvaluateRequest

namespace EvaluateCall

/-- The idempotency key of the request, when it is true. -/
abbrev key (c : EvaluateCall) : Option String := c.body.key

/-- The ids that handling the request draws. -/
def drawn (c : EvaluateCall) : List UUID := c.draws.signal_id :: c.draws.env.drawn

/-- The request, handled. -/
def run {σ : Type} (P : Platform) (C : LedgerBackend σ) (settings : Settings)
    (registry : FlowRegistry) (c : EvaluateCall) : Exec PyError (World σ) DecisionResult :=
  Routes.evaluate P C settings registry c.draws c.body

end EvaluateCall

/-- One request of a run, with the world before and after it. -/
abbrev RouteEntry (σ : Type) := Entry EvaluateCall PyError (World σ) DecisionResult

end DecisionRuntime
