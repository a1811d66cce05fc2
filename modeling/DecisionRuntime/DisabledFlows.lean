/-
Which flows answer requests, with and without `is_active`.

A request finds its flow in one of three ways: by the version it names, by the
highest version there is, or by the id that a stored trace records. None of them
reads `is_active`, and neither does the engine. So whether a flow answers a request
is a matter of whether the request finds it and whether it is able to decide the
signal at all (`answeredBy_iff`, `simulatedBy_iff`), and a disabled flow decides
whenever an enabled one in its place would.
-/
import DecisionRuntime.DecisionSelection
import DecisionRuntime.Replay

set_option autoImplicit false

namespace DecisionRuntime

open ConditionEvaluator BoundaryEngine PureEvaluate

/-! ## Flows that are able to decide -/

/-- Nothing keeps the flow from deciding the signal: its conditions evaluate, and there is a policy
to read or a fallback to select. -/
structure AbleToDecide (P : Platform) (signal : Signal) (flow : DecisionFlow) : Prop where
  decisions : DecisionsEvaluate P signal flow
  boundaries : BoundariesEvaluate P signal flow
  policy : (∃ n ∈ decision_nodes flow, Fires P signal n) → PolicyReadable flow
  fallback : (∀ n ∈ decision_nodes flow, ¬ Fires P signal n) → ActiveFallback flow

section Able

variable {P : Platform} {flow : DecisionFlow} {signal : Signal} {draws : Draws}

/-- **Able to decide.** A validated flow decides the signals that it is able to decide, and no
other. -/
theorem pure_evaluate_returns_iff {validate_conditions : Bool}
    (h : FlowValidator.validate P flow validate_conditions = .ok ()) :
    (∃ r, pure_evaluate P draws signal flow = .ok r) ↔ AbleToDecide P signal flow := by
  constructor
  · rintro ⟨⟨final, evaluated_nodes⟩, hreturns⟩
    obtain ⟨outcomes, sel, version, brs, houtcomes, hsel, -, hbrs, -⟩ :=
      pure_evaluate_eq_ok.mp hreturns
    have hdecisions : DecisionsEvaluate P signal flow :=
      evaluate_nodes_returns_iff.mp ⟨outcomes, houtcomes⟩
    rw [evaluate_nodes_eq hdecisions] at houtcomes
    rw [← Except.ok.inj houtcomes, matched_eq] at hsel
    obtain ⟨hpolicy, hfallback⟩ := select_candidates_iff.mp ⟨sel, hsel⟩
    exact ⟨hdecisions, evaluate_boundaries_returns_iff.mp ⟨brs, hbrs⟩, hpolicy, hfallback⟩
  · rintro ⟨hdecisions, hboundaries, hpolicy, hfallback⟩
    obtain ⟨sel, hsel⟩ := select_candidates_iff.mpr ⟨hpolicy, hfallback⟩
    have houtcomes := evaluate_nodes_eq hdecisions
    rw [← matched_eq] at hsel
    obtain ⟨version, hversion⟩ := contract_version_returns (validated h) houtcomes hsel
    exact ⟨_, pure_evaluate_eq_ok.mpr ⟨_, sel, version, _, houtcomes, hsel, hversion,
      evaluate_boundaries_eq hboundaries, rfl, rfl⟩⟩

end Able

/-- The draws with every dependency in order. -/
def RequestDraws.sound (draws : RequestDraws) : RequestDraws :=
  { draws with env := { draws.env with
      event_bus_fault := .none
      execution_publisher_fault := .none
      trace_store_fault := .none } }

namespace Routes

open DecisionRuntimeEngine

/-! ## Answers -/

/-- The request is answered with a decision of the flow: for some store, ledger and draws it is not
remembered, finds the flow, and has the engine return. -/
def AnsweredBy (P : Platform) (registry : FlowRegistry) (body : EvaluateRequest)
    (flow : DecisionFlow) : Prop :=
  ∃ (σ : Type) (C : LedgerBackend σ) (settings : Settings) (draws : RequestDraws) (w : World σ)
    (signal : Signal) (result : DecisionResult),
    body.key.bind w.idempotency_store.get = none
      ∧ prepare P registry draws body = .ok (signal, flow)
      ∧ (evaluate P C settings registry draws body w).1 = .ok result

/-- The simulation of a stored trace is answered with a decision of the flow. -/
def SimulatedBy (P : Platform) (registry : FlowRegistry) (store : TraceStore)
    (body : SimulateRequest) (flow : DecisionFlow) : Prop :=
  ∃ (draws : SimulateDraws) (trace : DecisionTrace) (response : SimulateResponse),
    source_trace body store = .ok trace ∧ source_flow registry body trace = .ok flow
      ∧ simulation P registry draws body store = .ok response

/-- The simulation finds the flow, and runs it on this signal. -/
def SimulationFinds (registry : FlowRegistry) (store : TraceStore) (draws : SimulateDraws)
    (body : SimulateRequest) (signal : Signal) (flow : DecisionFlow) : Prop :=
  ∃ trace original, source_trace body store = .ok trace
    ∧ original_signal body trace = .ok original ∧ source_flow registry body trace = .ok flow
    ∧ signal = simulated_signal draws.signal_id original body.signal_overrides
    ∧ accepts_signal signal

section Answers

variable {P : Platform} {registry : FlowRegistry} {files : List FlowFile} {body : EvaluateRequest}
  {flow : DecisionFlow}

/-- A setting without a ledger, so that nothing but the evaluation decides. -/
def bare_settings : Settings where
  ledger_enabled := false
  ledger_mode := ""
  ledger_schema_version := ""

theorem list_flows_validated (hload : FlowRegistry.load_all P files = .ok registry)
    (hflow : flow ∈ registry.list_flows) : FlowValidator.validate P flow false = .ok () := by
  obtain ⟨raw, -, -, hvalid⟩ := FlowRegistry.load_all_parsed hload hflow
  exact hvalid

/-- The flow that a request finds is listed. -/
theorem prepare_mem {draws : RequestDraws} {signal : Signal}
    (h : prepare P registry draws body = .ok (signal, flow)) : flow ∈ registry.list_flows := by
  obtain ⟨found, hfound, hprepared⟩ := except_bind_eq_ok.mp h
  obtain ⟨signal', -, hpair⟩ := except_bind_eq_ok.mp hprepared
  obtain ⟨-, rfl⟩ := Prod.mk.inj (Except.ok.inj hpair)
  unfold load_flow at hfound
  split at hfound
  · cases hfound
  · exact FlowRegistry.mem_list_flows_of_get hfound

/-- An engine that returns has evaluated the flow. -/
theorem evaluated_of_returned {σ : Type} {C : LedgerBackend σ} {cfg : EngineConfig} {env : Env}
    {signal : Signal} {w : World σ} {result : DecisionResult}
    (h : (DecisionRuntimeEngine.evaluate P C cfg env signal flow w).1 = .ok result) :
    ∃ r, pure_evaluate P env.draws signal flow = .ok r := by
  rcases hcomputed : pure_evaluate P env.draws signal flow with e | r
  · rw [DecisionRuntimeEngine.evaluate, hcomputed] at h
    cases h
  · exact ⟨r, rfl⟩

/-- **Who answers a request.** A flow answers it when the request finds the flow and the flow is
able to decide the signal; whether the flow is active is not asked. -/
theorem answeredBy_iff (hload : FlowRegistry.load_all P files = .ok registry) :
    AnsweredBy P registry body flow ↔ ∃ draws signal,
      prepare P registry draws body = .ok (signal, flow) ∧ AbleToDecide P signal flow := by
  constructor
  · rintro ⟨σ, C, settings, draws, w, signal, result, hmiss, hprepared, hanswer⟩
    refine ⟨draws, signal, hprepared, ?_⟩
    have hvalid := list_flows_validated hload (prepare_mem hprepared)
    have hrun := route_run P C settings registry draws body w
    rw [hanswer] at hrun
    generalize (evaluate P C settings registry draws body w).2 = w' at hrun
    generalize hok : (Except.ok result : Except PyError DecisionResult) = answer at hrun
    rcases hrun with ⟨hit⟩ | _ | @⟨signal', flow', _, hprepared', answer, w₁, hengine⟩
    · rw [hmiss] at hit
      cases hit
    · cases hok
    · obtain ⟨rfl, rfl⟩ := except_pair_unique hprepared hprepared'
      rcases answer with e | result'
      · cases hok
      · exact (pure_evaluate_returns_iff hvalid).mp
          (evaluated_of_returned (congrArg Prod.fst hengine))
  · rintro ⟨draws, signal, hprepared, hable⟩
    have hvalid := list_flows_validated hload (prepare_mem hprepared)
    let world := World.init LedgerClient.init
    have hprepared' : prepare P registry draws.sound body = .ok (signal, flow) := hprepared
    have hmiss : body.key.bind world.idempotency_store.get = none := by
      rcases body.key with _ | key <;> rfl
    obtain ⟨r, hreturns⟩ := (pure_evaluate_returns_iff hvalid).mpr hable
    -- nothing gets in the way of this engine
    have hpasses : CommitPasses P LedgerClient.backend bare_settings.engine draws.sound.env signal
        flow world := fun hstrict => absurd hstrict.1 (by simp [bare_settings, Settings.engine])
    have hanswer : ∃ result, (evaluate P LedgerClient.backend bare_settings registry draws.sound
        body world).1 = .ok result := by
      have hrun := route_run P LedgerClient.backend bare_settings registry draws.sound body world
      generalize (evaluate P LedgerClient.backend bare_settings registry draws.sound body
        world).2 = w' at hrun
      generalize (evaluate P LedgerClient.backend bare_settings registry draws.sound body
        world).1 = answer at hrun ⊢
      rcases hrun with ⟨hit⟩ | ⟨-, hfailed⟩ | @⟨signal', flow', -, hfound, answer, w₁, hengine⟩
      · exact ⟨_, rfl⟩
      · cases hfailed.symm.trans hprepared'
      · obtain ⟨rfl, rfl⟩ := except_pair_unique hprepared' hfound
        rcases answer with e | result
        · have hraised := evaluate_raised ⟨rfl, rfl, rfl⟩ hpasses (congrArg Prod.fst hengine)
          cases hraised.symm.trans hreturns
        · exact ⟨result, rfl⟩
    obtain ⟨result, hresult⟩ := hanswer
    exact ⟨_, LedgerClient.backend, bare_settings, draws.sound, world, signal, result, hmiss,
      hprepared', hresult⟩

/-- The flow that a simulation finds is listed. -/
theorem source_flow_mem {request : SimulateRequest} {trace : DecisionTrace}
    (h : source_flow registry request trace = .ok flow) : flow ∈ registry.list_flows := by
  unfold source_flow at h
  split at h
  · next found hfound =>
    rw [← Except.ok.inj h]
    exact List.mem_of_find?_eq_some hfound
  · cases h

/-- A simulation returns when it finds a flow and a signal, and the flow decides the signal. -/
theorem simulation_returns_iff {store : TraceStore} {draws : SimulateDraws}
    {request : SimulateRequest} :
    (∃ response, simulation P registry draws request store = .ok response) ↔
      ∃ signal flow, SimulationFinds registry store draws request signal flow
        ∧ ∃ r, pure_evaluate P draws.draws signal flow = .ok r := by
  constructor
  · rintro ⟨response, hresponse⟩
    rw [simulation, except_bind_eq_ok] at hresponse
    obtain ⟨trace, htrace, hresponse⟩ := hresponse
    obtain ⟨original, horiginal, hresponse⟩ := except_bind_eq_ok.mp hresponse
    obtain ⟨flow, hflow, hresponse⟩ := except_bind_eq_ok.mp hresponse
    dsimp only at hresponse
    split_ifs at hresponse with haccepts
    refine ⟨_, flow, ⟨trace, original, htrace, horiginal, hflow, rfl, haccepts⟩, ?_⟩
    rcases hcomputed : pure_evaluate P draws.draws
      (simulated_signal draws.signal_id original request.signal_overrides) flow with e | r
    · rw [DecisionRuntimeEngine.simulate, hcomputed] at hresponse
      cases hresponse
    · exact ⟨r, rfl⟩
  · rintro ⟨signal, flow, ⟨trace, original, htrace, horiginal, hflow, rfl, haccepts⟩, r, hreturns⟩
    rw [simulation, htrace]
    show ∃ response, (original_signal request trace >>= _) = _
    rw [horiginal]
    show ∃ response, (source_flow registry request trace >>= _) = _
    rw [hflow]
    dsimp only [bind, Except.bind]
    rw [if_pos haccepts, DecisionRuntimeEngine.simulate, hreturns]
    exact ⟨_, rfl⟩

/-- **Who answers a simulation.** A flow does when it is the one the trace was made by and is able
to decide the signal; whether it is active is not asked. -/
theorem simulatedBy_iff (hload : FlowRegistry.load_all P files = .ok registry)
    {store : TraceStore} {request : SimulateRequest} :
    SimulatedBy P registry store request flow ↔ ∃ draws signal,
      SimulationFinds registry store draws request signal flow ∧ AbleToDecide P signal flow := by
  constructor
  · rintro ⟨draws, trace, response, htrace, hflow, hresponse⟩
    obtain ⟨signal, found, hsimulates, r, hreturns⟩ := simulation_returns_iff.mp ⟨_, hresponse⟩
    obtain ⟨trace', original, htrace', -, hflow', -⟩ := id hsimulates
    obtain rfl := Except.ok.inj (htrace.symm.trans htrace')
    obtain rfl := Except.ok.inj (hflow.symm.trans hflow')
    have hvalid := list_flows_validated hload (source_flow_mem hflow)
    exact ⟨draws, signal, hsimulates, (pure_evaluate_returns_iff hvalid).mp ⟨r, hreturns⟩⟩
  · rintro ⟨draws, signal, hsimulates, hable⟩
    obtain ⟨trace, original, htrace, -, hflow, -⟩ := id hsimulates
    have hvalid := list_flows_validated hload (source_flow_mem hflow)
    obtain ⟨response, hresponse⟩ := simulation_returns_iff.mpr
      ⟨signal, flow, hsimulates, (pure_evaluate_returns_iff hvalid).mpr hable⟩
    exact ⟨draws, trace, response, htrace, hflow, hresponse⟩

/-- Without a version, a request finds the flow with the highest one. -/
theorem prepare_latest {newest : DecisionFlow} (hversion : body.flow_version = none)
    (hget : registry.get P body.flow_id none = .ok newest) {draws : RequestDraws}
    {signal : Signal} : prepare P registry draws body = .ok (signal, newest) ↔
      build_signal draws body.signal = .ok signal := by
  have hload : load_flow P registry body = .ok newest := by
    unfold load_flow
    rw [hversion, hget]
  rw [prepare, hload]
  show (build_signal draws body.signal >>= fun signal => pure (signal, newest)) = _ ↔ _
  rw [except_bind_eq_ok]
  constructor
  · rintro ⟨built, hbuilt, hpair⟩
    obtain ⟨rfl, -⟩ := Prod.mk.inj (Except.ok.inj hpair)
    exact hbuilt
  · intro hbuilt
    exact ⟨signal, hbuilt, rfl⟩

end Answers

/-- **Disabled flows.** No request is answered with the decision of an inactive flow exactly when
the flow that the request finds is active, or is not able to decide the signal. This is so for
evaluations, by version or by the highest version, and for simulations. -/
theorem disabled_flows_iff {P : Platform} {files : List FlowFile} {registry : FlowRegistry}
    (hload : FlowRegistry.load_all P files = .ok registry) :
    (∀ body, (∀ flow, flow.is_active = false → ¬ AnsweredBy P registry body flow) ↔
      ∀ draws signal flow, prepare P registry draws body = .ok (signal, flow) →
        AbleToDecide P signal flow → flow.is_active = true) ∧
    (∀ body newest, body.flow_version = none → registry.get P body.flow_id none = .ok newest →
      (¬ AnsweredBy P registry body newest ↔
        ∀ draws signal, build_signal draws body.signal = .ok signal →
          ¬ AbleToDecide P signal newest)) ∧
    ∀ store request, (∀ flow, flow.is_active = false →
        ¬ SimulatedBy P registry store request flow) ↔
      ∀ draws signal flow, SimulationFinds registry store draws request signal flow →
        AbleToDecide P signal flow → flow.is_active = true := by
  refine ⟨fun body => ?_, fun body newest hversion hget => ?_, fun store request => ?_⟩
  · simp only [answeredBy_iff hload]
    constructor
    · intro h draws signal flow hprepared hable
      by_contra hinactive
      exact h flow (by simpa using hinactive) ⟨draws, signal, hprepared, hable⟩
    · rintro h flow hinactive ⟨draws, signal, hprepared, hable⟩
      rw [h draws signal flow hprepared hable] at hinactive
      cases hinactive
  · rw [answeredBy_iff hload]
    simp only [prepare_latest hversion hget, not_exists, not_and]
  · simp only [simulatedBy_iff hload]
    constructor
    · intro h draws signal flow hfound hable
      by_contra hinactive
      exact h flow (by simpa using hinactive) ⟨draws, signal, hfound, hable⟩
    · rintro h flow hinactive ⟨draws, signal, hfound, hable⟩
      rw [h draws signal flow hfound hable] at hinactive
      cases hinactive

end Routes

namespace Recorded

/-- A flow that is switched off, whose decision node has no condition. -/
def disabled_file : FlowFile where
  flow_id := "payment"
  version := "1.0.0"
  entry_node_id := "always"
  nodes := [{ id := "always", node_type := .decision, config := terms },
    { id := "manual", node_type := .fallback, config := terms }]
  is_active := false

def disabled_registry : FlowRegistry :=
  (FlowRegistry.load_all (parser (.constant .none)) [disabled_file]).toOption.getD
    FlowRegistry.init

theorem load_disabled :
    FlowRegistry.load_all (parser (.constant .none)) [disabled_file] = .ok disabled_registry := by
  have hloads : (FlowRegistry.load_all (parser (.constant .none))
      [disabled_file]).toOption.isSome = true := by decide +kernel
  exact except_eq_ok_getD hloads FlowRegistry.init

/-- The same flow, switched on. -/
def enabled_file : FlowFile := { disabled_file with is_active := true }

def enabled_registry : FlowRegistry :=
  (FlowRegistry.load_all (parser (.constant .none)) [enabled_file]).toOption.getD
    FlowRegistry.init

theorem load_enabled :
    FlowRegistry.load_all (parser (.constant .none)) [enabled_file] = .ok enabled_registry := by
  have hloads : (FlowRegistry.load_all (parser (.constant .none))
      [enabled_file]).toOption.isSome = true := by decide +kernel
  exact except_eq_ok_getD hloads FlowRegistry.init

def disabled_draws : RequestDraws where
  signal_id := UUID.repeated 1
  received_at := ⟨0, some 0⟩
  env := env (UUID.repeated 4) (UUID.repeated 5)

end Recorded

namespace Routes

/-- A flow that is switched on answers the request for it, and none that is switched off does. -/
theorem disabled_flows_enabled :
    (∃ flow, flow.is_active = true ∧ AnsweredBy (Recorded.parser (.constant .none))
      Recorded.enabled_registry (Recorded.request "k") flow) ∧
    ¬ ∃ flow, flow.is_active = false ∧ AnsweredBy (Recorded.parser (.constant .none))
      Recorded.enabled_registry (Recorded.request "k") flow := by
  have hfound : ((load_flow (Recorded.parser (.constant .none)) Recorded.enabled_registry
      (Recorded.request "k")).toOption.map (fun flow => flow.is_active)) = some true := by
    decide +kernel
  have hprepares : (prepare (Recorded.parser (.constant .none)) Recorded.enabled_registry
      Recorded.disabled_draws (Recorded.request "k")).toOption.isSome = true := by decide +kernel
  have hanswer : (evaluate (Recorded.parser (.constant .none)) LedgerClient.backend bare_settings
      Recorded.enabled_registry Recorded.disabled_draws (Recorded.request "k")
      (World.init LedgerClient.init)).1.toOption.isSome = true := by decide +kernel
  obtain ⟨found, hload, hactive⟩ := except_of_toOption_map hfound
  -- whatever the request is prepared with, the flow is the one that is found
  have hsame : ∀ draws signal flow, prepare (Recorded.parser (.constant .none))
      Recorded.enabled_registry draws (Recorded.request "k") = .ok (signal, flow) →
      flow.is_active = true := by
    intro draws signal flow hprepared
    obtain ⟨flow', hload', hrest⟩ := except_bind_eq_ok.mp hprepared
    obtain ⟨signal', -, hpair⟩ := except_bind_eq_ok.mp hrest
    obtain ⟨-, rfl⟩ := Prod.mk.inj (Except.ok.inj hpair)
    rw [← Except.ok.inj (hload.symm.trans hload')]
    exact hactive
  constructor
  · obtain ⟨⟨signal, flow⟩, hprepared⟩ := except_of_isSome hprepares
    obtain ⟨result, hresult⟩ := except_of_isSome hanswer
    exact ⟨flow, hsame _ _ _ hprepared, _, LedgerClient.backend, bare_settings,
      Recorded.disabled_draws, World.init LedgerClient.init, signal, result, rfl, hprepared,
      hresult⟩
  · rintro ⟨flow, hinactive, hanswered⟩
    exact ((disabled_flows_iff Recorded.load_enabled).1 (Recorded.request "k")).mpr
      (fun draws signal flow hprepared _ => hsame draws signal flow hprepared) flow hinactive
      hanswered

/-- A flow that is switched off answers the request for it. -/
theorem disabled_flows_answer :
    ¬ ∀ (P : Platform) (files : List FlowFile) (registry : FlowRegistry),
      FlowRegistry.load_all P files = .ok registry → ∀ body flow, flow.is_active = false →
        ¬ AnsweredBy P registry body flow := by
  intro h
  have hfound : ((prepare (Recorded.parser (.constant .none)) Recorded.disabled_registry
      Recorded.disabled_draws (Recorded.request "k")).toOption.map (fun p => p.2.is_active))
      = some false := by decide +kernel
  have hanswer : (evaluate (Recorded.parser (.constant .none)) LedgerClient.backend bare_settings
      Recorded.disabled_registry Recorded.disabled_draws (Recorded.request "k")
      (World.init LedgerClient.init)).1.toOption.isSome = true := by decide +kernel
  obtain ⟨⟨signal, flow⟩, hprepared, hinactive⟩ := except_of_toOption_map hfound
  obtain ⟨result, hresult⟩ := except_of_isSome hanswer
  refine h _ _ _ Recorded.load_disabled (Recorded.request "k") flow hinactive ?_
  exact ⟨_, LedgerClient.backend, bare_settings, Recorded.disabled_draws,
    World.init LedgerClient.init, signal, result, rfl, hprepared, hresult⟩

end Routes

end DecisionRuntime
