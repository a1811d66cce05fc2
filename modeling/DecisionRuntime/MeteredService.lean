/-
The service with its metrics: where `DecisionRuntimeEngine.evaluate` and the routes of
`backend/app/routes/runtime.py` call `increment` and `observe`.

The other modules leave these calls out, because the metrics are "for observability
only". Here they stand where the source has them: between the commit and the look
at its status, inside the `try` of the parallel commit and of the gate event, and
on every return of `evaluate`. `metrics_transparent` is that they can be left out.

The addition of floats is a parameter, and so is what a clock said.
-/
import DecisionRuntime.Metrics
import DecisionRuntime.StoredTraces

set_option autoImplicit false

namespace DecisionRuntime

/-! ## The summaries -/

namespace Metrics

/-- `observe`, where `add` is the addition of floats. -/
def observe (add : ℚ → ℚ → ℚ) (name : String) (value : ℚ) (m : Metrics) : Metrics :=
  let summary := (m.summaries.get name).getD ⟨0, 0⟩
  { m with summaries := m.summaries.set name ⟨add_one summary.count, add summary.sum value⟩ }

/-- `get_summary`. -/
def get_summary (name : String) (m : Metrics) : Summary := (m.summaries.get name).getD ⟨0, 0⟩

/-- `reset`, and the registry as it is imported. -/
def reset : Metrics := ⟨Dict.empty, Dict.empty⟩

end Metrics

def LedgerAppendStatus.value : LedgerAppendStatus → String
  | .accepted => "accepted"
  | .duplicate => "duplicate"
  | .invalid => "invalid"

/-! ## The service -/

/-- The service and its metrics. -/
structure Metered (σ : Type) where
  world : World σ
  metrics : Metrics

namespace Metered

variable {σ : Type}

/-- What does not touch the metrics. -/
def unmetered {α : Type} (x : Exec PyError (World σ) α) : Exec PyError (Metered σ) α :=
  Exec.zoom Metered.world (fun w o => { o with world := w }) x

/-- A dictionary with one label. -/
def label (name value : String) : Labels := Dict.empty.set name value

/-- `_metrics.increment`. -/
def increment (name : String) (labels : Labels) : Exec PyError (Metered σ) Unit :=
  Exec.modify (fun o => { o with metrics := o.metrics.increment name (some labels) })

/-- `_metrics.observe`. -/
def observe (add : ℚ → ℚ → ℚ) (name : String) (value : ℚ) : Exec PyError (Metered σ) Unit :=
  Exec.modify (fun o => { o with metrics := o.metrics.observe add name value })

/-- `_record`: `elapsed` is `time.monotonic() - _eval_start`. -/
def record (add : ℚ → ℚ → ℚ) (elapsed : ℚ) (result : DecisionResult) :
    Exec PyError (Metered σ) DecisionResult := do
  increment "decision_evaluate_total" (label "status" result.status.value)
  observe add "decision_evaluate_duration_seconds" elapsed
  return result

open DecisionRuntimeEngine

section Engine

variable (add : ℚ → ℚ → ℚ) (P : Platform) (C : LedgerBackend σ) (cfg : EngineConfig) (env : Env)
  (elapsed : ℚ) (signal : Signal) (flow : DecisionFlow)

/-! ### The engine -/

/-- The strict-mode commit. -/
def strict_commit (final : DecisionResult) (evaluated_nodes : List PyDict) :
    Exec PyError (Metered σ) GateAnswer :=
  if cfg.strict then do
    let (commit_trace, final) :=
      create_trace env.commit_completed_at signal flow final evaluated_nodes
    let ledger_result ← unmetered
      (RuntimeLedgerAdapter.commit (client C) P cfg.schema_version commit_trace final)
    -- counted whatever the status is, and before a prior result is looked for
    increment "ledger_append_total" (label "result" ledger_result.status.value)
    if ledger_result.status = .accepted then return .proceed final
    else if ledger_result.status = .duplicate then do
      match ← unmetered (recover_prior_result C cfg env signal ledger_result.event_ids) with
      | some prior => return .answered prior
      | none => return .answered (refused env ledger_result.status final)
    else return .answered (refused env ledger_result.status final)
  else return .proceed final

/-- The commit of the parallel mode, and of no other: one that raises is not counted. -/
def parallel_commit (trace : DecisionTrace) (final : DecisionResult) :
    Exec PyError (Metered σ) Unit :=
  if cfg.parallel then
    Exec.tryExcept
      (do
        let commit_result ← unmetered
          (RuntimeLedgerAdapter.commit (client C) P cfg.schema_version trace final)
        increment "ledger_append_total" (label "result" commit_result.status.value))
      (fun _ => return ())
  else return ()

/-- The trace is stored, and in parallel mode committed. -/
def persist (final : DecisionResult) (evaluated_nodes : List PyDict) :
    Exec PyError (Metered σ) DecisionResult :=
  if cfg.trace_store ∨ cfg.parallel then do
    let (trace, final) := create_trace env.completed_at signal flow final evaluated_nodes
    unmetered (when_wired cfg.trace_store (save_trace env.trace_store_fault trace))
    parallel_commit P C cfg trace final
    return final
  else return final

/-- What follows the commit gate. -/
def finish (final : DecisionResult) (evaluated_nodes : List PyDict) :
    Exec PyError (Metered σ) DecisionResult := do
  let final ← unmetered (dispatch cfg env final)
  unmetered (remember cfg signal final)
  let final ← persist P C cfg env signal flow final evaluated_nodes
  record add elapsed final

/-- `DecisionRuntimeEngine.evaluate`. -/
def engine_evaluate : Exec PyError (Metered σ) DecisionResult := do
  let (final, evaluated_nodes) ← Exec.lift (PureEvaluate.pure_evaluate P env.draws signal flow)
  let final ← unmetered (open_gate cfg env final)
  match ← strict_commit P C cfg env signal flow final evaluated_nodes with
  | .answered result => record add elapsed result
  | .proceed final => finish add P C cfg env elapsed signal flow final evaluated_nodes

end Engine

section Routes

open Routes

variable (add : ℚ → ℚ → ℚ) (P : Platform) (C : LedgerBackend σ) (settings : Settings)
  (auth : AuthSettings) (registry : FlowRegistry)

/-! ### The routes -/

/-- The route `evaluate`. -/
def evaluate (elapsed : ℚ) (draws : RequestDraws) (body : EvaluateRequest) :
    Exec PyError (Metered σ) DecisionResult := do
  let w ← unmetered Exec.get
  match body.key.bind w.idempotency_store.get with
  -- the engine is not asked, and nothing is counted
  | some cached => return cached
  | none =>
    let flow ← Exec.lift (load_flow P registry body)
    let signal ← Exec.lift (build_signal draws body.signal)
    let result ← Exec.tryExcept
      (engine_evaluate add P C settings.engine draws.env elapsed signal flow)
      (fun exc => Exec.raise (http_error exc))
    unmetered (Exec.modify (store_result body result))
    return result

/-- `_append_human_gate_to_ledger`: the answer is counted before it is looked at. -/
def append_human_gate_to_ledger (result : DecisionResult) (request_id actor_id : String)
    (actor_roles : Option (List String)) (word : String) (comment : Option String)
    (occurred_at : Datetime) : Exec PyError (Metered σ) Unit :=
  if settings.ledger_enabled = false then return ()
  else do
    let gate_req ← unmetered (EngineCall.on_gates (HumanGateManager.get_request request_id))
    Exec.tryExcept
      (do
        let append_result ← unmetered ((client C).append
          (RuntimeLedgerAdapter.human_action_event P settings.ledger_schema_version gate_req result
            actor_id word occurred_at actor_roles comment))
        increment "ledger_append_total" (label "result" append_result.status.value)
        if settings.ledger_mode = "strict" ∧ append_result.status = .invalid then
          Exec.raise (append_failed word)
        else return ())
      (fun exc => match exc with
        | .httpException status_code detail => Exec.raise (.httpException status_code detail)
        | _ => if settings.ledger_mode = "strict" then Exec.raise (append_failed word)
          else return ())

/-- The body `approve_gate` and `reject_gate` share. -/
def resolve_gate (action : GateAction) (draws : GateDraws) (request : GateRequest) :
    Exec PyError (Metered σ) DecisionResult := do
  let actor ← Exec.lift (get_actor auth request.api_key)
  let actor_id := actor_id_of actor request.body
  let actor_roles := actor.map Actor.roles
  let result ← Exec.tryExcept
    (unmetered (EngineCall.on_gates (HumanGateManager.resolve action.resolution draws.now
      request.request_id request.body.comment actor_roles)))
    (fun exc => Exec.raise (gate_http_error exc))
  -- counted once the gate is resolved, and before the ledger is asked
  increment "human_gate_action_total" (label "action" action.word)
  append_human_gate_to_ledger P C settings result request.request_id actor_id actor_roles
    action.word request.body.comment draws.occurred_at
  return result

end Routes

end Metered

/-- A request to the service, with the time that evaluating it takes. -/
structure MeteredCall where
  call : RuntimeCall
  elapsed : ℚ

namespace MeteredCall

/-- The request, handled. -/
def run {σ : Type} (add : ℚ → ℚ → ℚ) (P : Platform) (C : LedgerBackend σ) (settings : Settings)
    (auth : AuthSettings) (registry : FlowRegistry) (c : MeteredCall) :
    Exec PyError (Metered σ) DecisionResult :=
  match c.call with
  | .evaluate e => Metered.evaluate add P C settings registry c.elapsed e.draws e.body
  | .approve_gate draws request =>
    Metered.resolve_gate P C settings auth Routes.approve_action draws request
  | .reject_gate draws request =>
    Metered.resolve_gate P C settings auth Routes.reject_action draws request
  | .simulate draws body =>
    Metered.unmetered (SimulateResponse.result <$> Routes.simulate_decision P registry draws body)

end MeteredCall

/-! ## The metrics can be left out -/

namespace Metered

open DecisionRuntimeEngine Routes

variable {σ : Type}

theorem simulates_unmetered {α : Type} (x : Exec PyError (World σ) α) :
    Exec.Simulates world (unmetered x) x :=
  Exec.simulates_zoom (fun _ _ => rfl) x

/-- Counting before the rest of a computation. -/
theorem simulates_increment_bind {α : Type} {x : Exec PyError (Metered σ) α}
    {y : Exec PyError (World σ) α} (name : String) (labels : Labels)
    (h : Exec.Simulates world x y) :
    Exec.Simulates world (increment name labels >>= fun _ => x) y :=
  Exec.simulates_modify_bind (fun _ => rfl) h

theorem simulates_record (add : ℚ → ℚ → ℚ) (elapsed : ℚ) (result : DecisionResult) :
    Exec.Simulates (world (σ := σ)) (record add elapsed result) (pure result) := by
  apply simulates_increment_bind
  exact Exec.simulates_modify_bind (fun _ => rfl) (Exec.simulates_pure result)

/-- Recording the result of a computation at its end. -/
theorem simulates_bind_record {x : Exec PyError (Metered σ) DecisionResult}
    {y : Exec PyError (World σ) DecisionResult} (add : ℚ → ℚ → ℚ) (elapsed : ℚ)
    (h : Exec.Simulates world x y) :
    Exec.Simulates world (x >>= record add elapsed) y := by
  have hbind := Exec.simulates_bind h (simulates_record add elapsed)
  rwa [bind_pure] at hbind

section Engine

variable (P : Platform) (C : LedgerBackend σ) (cfg : EngineConfig) (env : Env) (signal : Signal)
  (flow : DecisionFlow) (final : DecisionResult) (evaluated_nodes : List PyDict)

theorem simulates_strict_commit :
    Exec.Simulates world (strict_commit P C cfg env signal flow final evaluated_nodes)
      (DecisionRuntimeEngine.strict_commit P C cfg env signal flow final evaluated_nodes) := by
  refine Exec.simulates_ite ?_ (Exec.simulates_pure _)
  refine Exec.simulates_bind (simulates_unmetered _) (fun ledger_result => ?_)
  apply simulates_increment_bind
  refine Exec.simulates_ite (Exec.simulates_pure _) (Exec.simulates_ite ?_ (Exec.simulates_pure _))
  refine Exec.simulates_bind (simulates_unmetered _) (fun prior => ?_)
  rcases prior with _ | prior
  · exact Exec.simulates_pure _
  · exact Exec.simulates_pure _

theorem simulates_parallel_commit (trace : DecisionTrace) :
    Exec.Simulates world (parallel_commit P C cfg trace final)
      (when_wired cfg.parallel (DecisionRuntimeEngine.parallel_commit P C cfg trace final)) := by
  unfold parallel_commit when_wired
  by_cases hp : cfg.parallel
  · rw [if_pos hp, if_pos (decide_eq_true hp)]
    refine Exec.simulates_tryExcept ?_ (fun _ => Exec.simulates_pure ())
    refine Exec.simulates_bind (simulates_unmetered _) (fun commit_result => ?_)
    exact simulates_increment_bind _ _ (Exec.simulates_pure ())
  · rw [if_neg hp, if_neg (by simpa using hp)]
    exact Exec.simulates_pure ()

theorem simulates_persist :
    Exec.Simulates world (persist P C cfg env signal flow final evaluated_nodes)
      (DecisionRuntimeEngine.persist P C cfg env signal flow final evaluated_nodes) := by
  refine Exec.simulates_ite ?_ (Exec.simulates_pure _)
  refine Exec.simulates_bind (simulates_unmetered _) (fun _ => ?_)
  exact Exec.simulates_bind (simulates_parallel_commit P C cfg _ _)
    (fun _ => Exec.simulates_pure _)

theorem simulates_finish (add : ℚ → ℚ → ℚ) (elapsed : ℚ) :
    Exec.Simulates world (finish add P C cfg env elapsed signal flow final evaluated_nodes)
      (DecisionRuntimeEngine.finish P C cfg env signal flow final evaluated_nodes) := by
  refine Exec.simulates_bind (simulates_unmetered _) (fun final => ?_)
  refine Exec.simulates_bind (simulates_unmetered _) (fun _ => ?_)
  exact simulates_bind_record add elapsed
    (simulates_persist P C cfg env signal flow final evaluated_nodes)

theorem simulates_engine_evaluate (add : ℚ → ℚ → ℚ) (elapsed : ℚ) :
    Exec.Simulates world (engine_evaluate add P C cfg env elapsed signal flow)
      (DecisionRuntimeEngine.evaluate P C cfg env signal flow) := by
  refine Exec.simulates_bind (Exec.simulates_lift _) (fun core => ?_)
  refine Exec.simulates_bind (simulates_unmetered _) (fun final => ?_)
  refine Exec.simulates_bind
    (simulates_strict_commit P C cfg env signal flow final core.2) (fun answer => ?_)
  cases answer with
  | answered result => exact simulates_record add elapsed result
  | proceed final => exact simulates_finish P C cfg env signal flow final core.2 add elapsed

end Engine

section Routes

variable (P : Platform) (C : LedgerBackend σ) (settings : Settings) (auth : AuthSettings)
  (registry : FlowRegistry)

theorem simulates_evaluate (add : ℚ → ℚ → ℚ) (elapsed : ℚ) (draws : RequestDraws)
    (body : EvaluateRequest) :
    Exec.Simulates world (evaluate add P C settings registry elapsed draws body)
      (Routes.evaluate P C settings registry draws body) := by
  refine Exec.simulates_bind (simulates_unmetered _) (fun w => ?_)
  rcases body.key.bind w.idempotency_store.get with _ | cached
  swap
  · exact Exec.simulates_pure cached
  refine Exec.simulates_bind (Exec.simulates_lift _) (fun flow => ?_)
  refine Exec.simulates_bind (Exec.simulates_lift _) (fun signal => ?_)
  refine Exec.simulates_bind ?_ (fun result => ?_)
  · exact Exec.simulates_tryExcept
      (simulates_engine_evaluate P C settings.engine draws.env signal flow add elapsed)
      (fun exc => Exec.simulates_raise (http_error exc))
  · exact Exec.simulates_bind (simulates_unmetered _) (fun _ => Exec.simulates_pure result)

theorem simulates_append_human_gate_to_ledger (result : DecisionResult)
    (request_id actor_id : String) (actor_roles : Option (List String)) (word : String)
    (comment : Option String) (occurred_at : Datetime) :
    Exec.Simulates world
      (append_human_gate_to_ledger P C settings result request_id actor_id actor_roles word comment
        occurred_at)
      (Routes.append_human_gate_to_ledger P C settings result request_id actor_id actor_roles word
        comment occurred_at) := by
  refine Exec.simulates_ite (Exec.simulates_pure ()) ?_
  refine Exec.simulates_bind (simulates_unmetered _) (fun gate_req => ?_)
  refine Exec.simulates_tryExcept ?_ (fun exc => ?_)
  · refine Exec.simulates_bind (simulates_unmetered _) (fun append_result => ?_)
    apply simulates_increment_bind
    exact Exec.simulates_ite (Exec.simulates_raise _) (Exec.simulates_pure ())
  · -- the handler raises again what is an `HTTPException` already
    cases exc
    case httpException => exact Exec.simulates_raise _
    all_goals exact Exec.simulates_ite (Exec.simulates_raise _) (Exec.simulates_pure ())

theorem simulates_resolve_gate (action : GateAction) (draws : GateDraws) (request : GateRequest) :
    Exec.Simulates world (resolve_gate P C settings auth action draws request)
      (Routes.resolve_gate P C settings auth action draws request) := by
  refine Exec.simulates_bind (Exec.simulates_lift _) (fun actor => ?_)
  refine Exec.simulates_bind ?_ (fun result => ?_)
  · exact Exec.simulates_tryExcept (simulates_unmetered _)
      (fun exc => Exec.simulates_raise (gate_http_error exc))
  apply simulates_increment_bind
  refine Exec.simulates_bind ?_ (fun _ => Exec.simulates_pure result)
  exact simulates_append_human_gate_to_ledger P C settings result _ _ _ _ _ _

end Routes

end Metered

namespace MeteredCall

variable {σ : Type} (add : ℚ → ℚ → ℚ) (P : Platform) (C : LedgerBackend σ) (settings : Settings)
  (auth : AuthSettings) (registry : FlowRegistry)

/-- Handling a request with metrics is handling it without. -/
theorem simulates_run (c : MeteredCall) :
    Exec.Simulates Metered.world (c.run add P C settings auth registry)
      (c.call.run P C settings auth registry) := by
  rcases c with ⟨call, elapsed⟩
  cases call with
  | evaluate e => exact Metered.simulates_evaluate P C settings registry add elapsed e.draws e.body
  | approve_gate draws request =>
      exact Metered.simulates_resolve_gate P C settings auth _ draws request
  | reject_gate draws request =>
      exact Metered.simulates_resolve_gate P C settings auth _ draws request
  | simulate draws body => exact Metered.simulates_unmetered _

/-- **The metrics influence nothing.** Whatever the registry holds at the start, whatever the
clocks say and however floats are added, a run of the service answers every request as the service
without metrics does, and leaves every store, the event bus, the publisher and the ledger as that
one does. -/
theorem metrics_transparent (s : Metered σ) (calls : List MeteredCall) :
    (Run.entries (run add P C settings auth registry) s calls).map Entry.answer
        = (Run.entries (RuntimeCall.run P C settings auth registry) s.world
            (calls.map MeteredCall.call)).map Entry.answer
      ∧ (Run.final (run add P C settings auth registry) s calls).world
        = Run.final (RuntimeCall.run P C settings auth registry) s.world
            (calls.map MeteredCall.call) :=
  Run.simulates (simulates_run add P C settings auth registry) s calls

end MeteredCall

end DecisionRuntime
