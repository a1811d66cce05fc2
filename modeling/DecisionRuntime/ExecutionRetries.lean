/-
Retries under one idempotency key, when any call to the outside may fail.

The result of a request is remembered only after both publishes, and outside the
strict mode only after the trace is stored. A request that fails in between has put
its event on the event bus and is forgotten, so that its retry puts another one
there. `Undisturbed` says of one request that this does not happen, as a condition
on the faults it meets; when every request that comes to its dispatch is
undisturbed, the event bus holds at most one execution request for the key.
-/
import DecisionRuntime.IdempotentResponses

set_option autoImplicit false

namespace DecisionRuntime

namespace Routes

open DecisionRuntimeEngine RuntimeLedgerAdapter

variable {σ : Type} {P : Platform} {C : LedgerBackend σ} {settings : Settings}
  {registry : FlowRegistry}

/-! ## Requests that publish -/

/-- The request, evaluated in `w`, has a confirmed decision, and in strict mode the ledger accepts
its events. -/
def Confirms (P : Platform) (C : LedgerBackend σ) (settings : Settings)
    (registry : FlowRegistry) (c : EvaluateCall) (w : World σ) : Prop :=
  ∃ signal flow core evaluated_nodes, prepare P registry c.draws c.body = .ok (signal, flow)
    ∧ PureEvaluate.pure_evaluate P c.draws.env.draws signal flow = .ok (core, evaluated_nodes)
    ∧ core.status = .confirmed
    ∧ (settings.engine.strict → ∀ events,
      build_events P settings.engine.schema_version
        (commit_trace c.draws.env signal flow (opened settings.engine c.draws.env core)
          evaluated_nodes).1
        (commit_trace c.draws.env signal flow (opened settings.engine c.draws.env core)
          evaluated_nodes).2 = .ok events → LedgerAccepts C events w.ledger)

/-- The request, made in `w`, comes to its dispatch: its key is not remembered, and its decision is
one to be executed. -/
def Dispatches (P : Platform) (C : LedgerBackend σ) (settings : Settings)
    (registry : FlowRegistry) (c : EvaluateCall) (w : World σ) : Prop :=
  c.key.bind w.idempotency_store.get = none ∧ Confirms P C settings registry c w

/-- The event bus does not take the event in, or it takes it in and nothing fails before the result
is remembered. -/
def Undisturbed (settings : Settings) (env : Env) : Prop :=
  env.event_bus_fault = .before ∨
    (env.event_bus_fault = .none ∧ env.execution_publisher_fault = .none
      ∧ (settings.engine.strict ∨ env.trace_store_fault = .none))

/-- The execution requests on the event bus. -/
def execution_requests (w : World σ) : List RuntimeEvent :=
  w.event_bus.filter (fun event => event.event_type = .execution_requested)

/-- At most one event, and the key is remembered once there is one. -/
structure Once (key : String) (w : World σ) : Prop where
  at_most_one : w.event_bus.length ≤ 1
  remembered : w.event_bus ≠ [] → ∃ result, w.idempotency_store.get key = some result

/-! ## One request -/

section Step

variable {c : EvaluateCall} {key : String} {w : World σ}

/-- A request that passes the commit gate with a confirmed decision comes to its dispatch. -/
theorem dispatches_of_passed (miss : c.key.bind w.idempotency_store.get = none) {signal : Signal}
    {flow : DecisionFlow} (prepared : prepare P registry c.draws c.body = .ok (signal, flow))
    {core : DecisionResult} {evaluated_nodes : List PyDict}
    (computed : PureEvaluate.pure_evaluate P c.draws.env.draws signal flow
      = .ok (core, evaluated_nodes)) {w₁ : World σ}
    (passed : Passed P C settings.engine c.draws.env signal flow core evaluated_nodes w w₁)
    (hst : (ready settings.engine c.draws.env core).status = .confirmed) :
    Dispatches P C settings registry c w := by
  rw [ready_status] at hst
  refine ⟨miss, signal, flow, core, evaluated_nodes, prepared, computed, hst, ?_⟩
  intro hs events hbuild
  have haccepts := (accepted_iff_ledgerAccepts hbuild).mp (passed.strict hs).1
  exact haccepts

/-- Through the commit gate the event bus stays as it is. -/
theorem event_bus_passed {env : Env} {signal : Signal} {flow : DecisionFlow}
    {core : DecisionResult} {evaluated_nodes : List PyDict} {w₁ : World σ}
    (passed : Passed P C settings.engine env signal flow core evaluated_nodes w w₁) :
    w₁.event_bus = w.event_bus :=
  passed.ledger_only.event_bus

/-- A dispatch adds at most one event to an empty event bus. -/
theorem length_event_bus {event : RuntimeEvent} {w₁ w₂ : World σ} (hempty : w₁.event_bus = [])
    (hands_over : HandsOver event w₁ w₂ ∨ w₂ = w₁) : w₂.event_bus.length ≤ 1 := by
  rcases hands_over with hho | rfl
  · rcases hho.event_bus with heq | ⟨heq, -⟩
    · rw [heq, hempty]
      exact Nat.zero_le 1
    · rw [heq, hempty]
      exact le_refl 1
  · rw [hempty]
    exact Nat.zero_le 1

/-- **One evaluation**, on an empty event bus. When it raises and has put an event there, the key
is remembered: the engine itself does so in strict mode. -/
theorem evaluate_once {env : Env} {signal : Signal} {flow : DecisionFlow}
    (hkey : signal.idempotency_key = some key) (hne : key ≠ "") (hempty : w.event_bus = [])
    (hquiet : ∀ {core evaluated_nodes w₁},
      PureEvaluate.pure_evaluate P env.draws signal flow = .ok (core, evaluated_nodes) →
      Passed P C settings.engine env signal flow core evaluated_nodes w w₁ →
      (ready settings.engine env core).status = .confirmed → Undisturbed settings env)
    {answer : Except PyError DecisionResult} {w' : World σ}
    (hrun : EvaluateRun P C settings.engine env signal flow w answer w') :
    w'.event_bus.length ≤ 1 ∧ ∀ e, answer = .error e → w'.event_bus ≠ [] →
      ∃ result, w'.idempotency_store.get key = some result := by
  have hnil : ∀ {v : World σ}, v.event_bus = [] → v.event_bus.length ≤ 1 ∧
      ∀ e, answer = .error e → v.event_bus ≠ [] →
        ∃ result, v.idempotency_store.get key = some result := by
    intro v hv
    refine ⟨by rw [hv]; exact Nat.zero_le 1, ?_⟩
    exact fun _ _ hne => absurd hv hne
  rcases hrun with _ | ⟨_, _, hframe⟩ | ⟨computed, passed, _, hd⟩
    | ⟨computed, passed, hho, hd, hfault⟩ | ⟨computed, passed, hho, _⟩
  case invalid => exact hnil hempty
  case stopped => exact hnil (hframe.event_bus.trans hempty)
  case undispatched =>
    -- a publish raised, and not after the event bus had taken the event in
    apply hnil
    have hpassed := (event_bus_passed passed).trans hempty
    rcases hd with _ | _ | ⟨hst, hwhy, hbus⟩
    rcases hquiet computed passed hst with hbefore | ⟨hnone, hpub, -⟩
    · have htaken : ∀ event : RuntimeEvent, taken env.event_bus_fault event = [] :=
        fun _ => if_pos hbefore
      rw [hbus, htaken, ite_self, List.append_nil]
      exact hpassed
    · rcases hwhy with ⟨-, hf⟩ | ⟨-, hf⟩
      · exact absurd hnone hf
      · exact absurd hpub hf
  case unsaved =>
    have hpassed := (event_bus_passed passed).trans hempty
    have hlength := length_event_bus hpassed hho
    rcases hd with _ | ⟨hst, hbus⟩
    · exact hnil hpassed
    · rcases hquiet computed passed hst with hbefore | ⟨-, -, hs | hnone⟩
      · exact absurd (hbefore.symm.trans (hbus rfl)) (fun h => nomatch h)
      · refine ⟨hlength, ?_⟩
        exact fun _ _ _ => ⟨_, remembered_own hs rfl hkey hne _ _⟩
      · exact absurd hnone hfault.2
  case done =>
    have hlength := length_event_bus ((event_bus_passed passed).trans hempty) hho
    refine ⟨?_, fun _ h => nomatch h⟩
    rw [(ledgerOnly_committed_after P C settings.engine _ _).event_bus]
    exact hlength

/-- **The step lemma.** -/
theorem once_step (hkey : c.key = some key) (h : Once key w)
    (hquiet : Dispatches P C settings registry c w → Undisturbed settings c.draws.env) :
    Once key (c.run P C settings registry w).2 := by
  have hbody : c.body.key = some key := hkey
  have hrun := route_run P C settings registry c.draws c.body w
  unfold EvaluateCall.run
  generalize (evaluate P C settings registry c.draws c.body w).1 = answer at hrun
  generalize (evaluate P C settings registry c.draws c.body w).2 = w' at hrun ⊢
  rcases hrun with _ | _ | ⟨miss, prepared, answer, w₁, run⟩
  case cached => exact h
  case unprepared => exact h
  case evaluated signal flow =>
    -- the key is not remembered, so there is no event yet
    have hempty : w.event_bus = [] := by
      by_contra hne
      obtain ⟨result, hget⟩ := h.remembered hne
      rw [hbody] at miss
      exact nomatch miss.symm.trans hget
    obtain ⟨hsome, hne⟩ := key_eq_some.mp hbody
    have hengine := evaluate_run P C settings.engine c.draws.env signal flow w
    rw [run] at hengine
    obtain ⟨hlength, hraised⟩ := evaluate_once ((prepare_key prepared).trans hsome) hne hempty
      (fun computed passed hst =>
        hquiet (dispatches_of_passed miss prepared computed passed hst)) hengine
    rcases answer with e | result
    · exact ⟨hlength, hraised e rfl⟩
    · -- the route remembers the result
      dsimp only
      refine ⟨?_, ?_⟩
      · rw [store_result_event_bus]
        exact hlength
      · intro _
        refine ⟨result, ?_⟩
        rw [store_result_get, if_pos hbody]

end Step

/-! ## Disturbed requests -/

section Disturbed

variable {c c' : EvaluateCall} {key : String} {w : World σ}

/-- **One evaluation that comes to its dispatch.** An event bus that does not raise before it takes
the event in holds it from then on; and when the request is disturbed, that is all there is. -/
theorem evaluate_dispatched {env : Env} {signal : Signal} {flow : DecisionFlow}
    {core : DecisionResult} {evaluated_nodes : List PyDict}
    (computed : PureEvaluate.pure_evaluate P env.draws signal flow = .ok (core, evaluated_nodes))
    (hst : core.status = .confirmed)
    (haccepts : settings.engine.strict → ∀ events,
      build_events P settings.engine.schema_version
        (commit_trace env signal flow (opened settings.engine env core) evaluated_nodes).1
        (commit_trace env signal flow (opened settings.engine env core) evaluated_nodes).2
          = .ok events → LedgerAccepts C events w.ledger)
    (hbus : env.event_bus_fault ≠ .before) {answer : Except PyError DecisionResult}
    {w' : World σ} (hrun : EvaluateRun P C settings.engine env signal flow w answer w') :
    w'.event_bus = w.event_bus ++ [request_event env (ready settings.engine env core)] ∧
      (¬ Undisturbed settings env → (∃ e, answer = .error e)
        ∧ w'.idempotency_store = w.idempotency_store) := by
  rcases hrun with hinvalid | ⟨hother, hs, _, hnot⟩ | ⟨hother, passed, hho, hd⟩
    | ⟨hother, passed, hho, hd, hfault⟩ | ⟨hother, passed, hho, hd, hsaved⟩
  case invalid => exact nomatch computed.symm.trans hinvalid
  all_goals obtain ⟨rfl, rfl⟩ := except_pair_unique computed hother
  case stopped =>
    -- the ledger accepts every event, so the commit gate is passed
    obtain ⟨events, hbuild⟩ := exists_events settings.engine computed
      (opened settings.engine env core)
    have haccepted : Accepted P C settings.engine env signal flow (opened settings.engine env core)
        evaluated_nodes (gated settings.engine env core w) := by
      rw [accepted_iff_ledgerAccepts hbuild]
      exact haccepts hs events hbuild
    exact absurd haccepted hnot
  all_goals
    have hready : (ready settings.engine env core).status = .confirmed := by
      rw [ready_status, hst]
    have hpassed : _ = w.event_bus := event_bus_passed passed
  case undispatched =>
    have hstore := (upToDispatch passed hho).idempotency_store
    rcases hd with _ | _ | ⟨-, -, heq⟩
    have htaken : taken env.event_bus_fault (request_event env (ready settings.engine env core))
        = [request_event env (ready settings.engine env core)] := if_neg hbus
    refine ⟨?_, fun _ => ⟨⟨_, rfl⟩, hstore⟩⟩
    have hwired : settings.engine.event_bus = true := rfl
    rw [heq, hpassed, if_pos hwired, htaken]
  case unsaved =>
    have hstore := (upToDispatch passed hho).idempotency_store
    rcases hd with ⟨hskip⟩ | ⟨-, hnone, hpub⟩
    · exact absurd hready hskip
    refine ⟨congrArg (· ++ [request_event env (ready settings.engine env core)]) hpassed, ?_⟩
    intro hdisturbed
    refine ⟨⟨_, rfl⟩, ?_⟩
    -- in strict mode the request would be undisturbed, so the engine does not remember
    have hs : ¬ settings.engine.strict :=
      fun hs => hdisturbed (Or.inr ⟨hnone rfl, hpub rfl, Or.inl hs⟩)
    have hforgotten : ∀ final store, remembered settings.engine signal final store = store :=
      fun _ _ => if_neg (fun h => hs h.1)
    exact (hforgotten _ _).trans hstore
  case done =>
    rcases hd with ⟨hskip⟩ | ⟨-, hnone, hpub⟩
    · exact absurd hready hskip
    refine ⟨?_, fun hdisturbed => ?_⟩
    · rw [(ledgerOnly_committed_after P C settings.engine _ _).event_bus]
      exact congrArg (· ++ [request_event env (ready settings.engine env core)]) hpassed
    · exact absurd (Or.inr ⟨hnone rfl, hpub rfl, Or.inr (hsaved rfl)⟩) hdisturbed

/-- **A request that comes to its dispatch.** It puts its execution request on the event bus; when
it is disturbed, its key is as unknown as before. -/
theorem dispatches_step (hd : Dispatches P C settings registry c w)
    (hbus : c.draws.env.event_bus_fault ≠ .before) :
    (∃ event, (c.run P C settings registry w).2.event_bus = w.event_bus ++ [event]
      ∧ event.event_type = .execution_requested) ∧
    (¬ Undisturbed settings c.draws.env →
      (c.run P C settings registry w).2.idempotency_store = w.idempotency_store) := by
  obtain ⟨miss, signal, flow, core, evaluated_nodes, hprepared, computed, hst, haccepts⟩ := hd
  have hrun := route_run P C settings registry c.draws c.body w
  unfold EvaluateCall.run
  generalize (evaluate P C settings registry c.draws c.body w).1 = answer at hrun
  generalize (evaluate P C settings registry c.draws c.body w).2 = w' at hrun ⊢
  rcases hrun with ⟨hit⟩ | ⟨-, hnot⟩ | ⟨-, hprepared', answer, w₁, run⟩
  case cached => exact nomatch hit.symm.trans miss
  case unprepared => exact nomatch hprepared.symm.trans hnot
  case evaluated =>
    obtain ⟨rfl, rfl⟩ := except_pair_unique hprepared hprepared'
    have hengine := evaluate_run P C settings.engine c.draws.env signal flow w
    rw [run] at hengine
    obtain ⟨heq, hdisturbed⟩ := evaluate_dispatched computed hst haccepts hbus hengine
    rcases answer with e | result
    · exact ⟨⟨_, heq, rfl⟩, fun h => (hdisturbed h).2⟩
    · dsimp only
      refine ⟨⟨_, (store_result_event_bus result w₁).trans heq, rfl⟩, fun h => ?_⟩
      obtain ⟨⟨e, herror⟩, -⟩ := hdisturbed h
      exact nomatch herror

/-- **Undisturbed requests are needed.** A disturbed request leaves its key unknown with its event
on the bus, so that a retry whose decision is confirmed puts a second one there. -/
theorem disturbed_retry (hd : Dispatches P C settings registry c w)
    (hdisturbed : ¬ Undisturbed settings c.draws.env) (hkey : c'.key = c.key)
    (hconfirms : Confirms P C settings registry c' (c.run P C settings registry w).2)
    (hbus' : c'.draws.env.event_bus_fault ≠ .before) :
    (execution_requests
      (c'.run P C settings registry (c.run P C settings registry w).2).2).length
      = (execution_requests w).length + 2 := by
  have hbus : c.draws.env.event_bus_fault ≠ .before := fun h => hdisturbed (Or.inl h)
  obtain ⟨⟨event, heq, htype⟩, hforgotten⟩ := dispatches_step hd hbus
  have hd' : Dispatches P C settings registry c' (c.run P C settings registry w).2 := by
    refine ⟨?_, hconfirms⟩
    rw [hforgotten hdisturbed, hkey]
    exact hd.1
  obtain ⟨⟨event', heq', htype'⟩, -⟩ := dispatches_step hd' hbus'
  rw [execution_requests, heq', heq]
  simp [execution_requests, htype, htype']

end Disturbed

/-! ## Whole runs -/

/-- **Retries under one key.** When every request that comes to its dispatch is undisturbed, the
event bus holds at most one execution request after each request, however many there are. -/
theorem at_most_one_execution (P : Platform) (C : LedgerBackend σ) (settings : Settings)
    (registry : FlowRegistry) (s : σ) (key : String) (calls : List EvaluateCall)
    (hkeys : ∀ c ∈ calls, c.key = some key)
    (hquiet : ∀ t ∈ Run.entries (EvaluateCall.run P C settings registry) (World.init s) calls,
      Dispatches P C settings registry t.call t.before → Undisturbed settings t.call.draws.env) :
    ∀ t ∈ Run.entries (EvaluateCall.run P C settings registry) (World.init s) calls,
      (execution_requests t.after).length ≤ 1 := by
  have honce : ∀ t ∈ Run.entries (EvaluateCall.run P C settings registry) (World.init s) calls,
      Once key t.after := by
    apply Run.invariant_after
    · exact ⟨Nat.zero_le 1, fun hne => absurd rfl hne⟩
    · intro t ht hbefore
      obtain ⟨pre, c, post, hcs, rfl⟩ := Run.mem_entries.mp ht
      exact once_step (hkeys c (by simp [hcs])) hbefore (hquiet _ ht)
  intro t ht
  exact le_trans (List.length_filter_le _ _) (honce t ht).at_most_one

end Routes

namespace Recorded

/-- A request whose result the execution publisher does not take, and its retry. -/
def unpublished : List EvaluateCall :=
  let draws := request_draws (UUID.repeated 0xa) (UUID.repeated 0xc) 10
  [⟨{ draws with env := { draws.env with execution_publisher_fault := .before } },
      request "first"⟩,
    ⟨request_draws (UUID.repeated 0xd) (UUID.repeated 0xe) 20, request "first"⟩]

/-- A request whose event the event bus does not take, its retry, and the request once more. -/
def untaken : List EvaluateCall :=
  let draws := request_draws (UUID.repeated 0xa) (UUID.repeated 0xc) 10
  [⟨{ draws with env := { draws.env with event_bus_fault := .before } }, request "first"⟩,
    ⟨request_draws (UUID.repeated 0xd) (UUID.repeated 0xe) 20, request "first"⟩,
    ⟨request_draws (UUID.repeated 4) (UUID.repeated 5) 30, request "first"⟩]

end Recorded

/-- The retry of a request that failed between the two publishes is executed a second time. -/
theorem Routes.at_most_one_execution_retried :
    ¬ ∀ t ∈ Run.entries (EvaluateCall.run Recorded.platform LedgerClient.backend
        (Recorded.settings "strict") Recorded.registry) (World.init LedgerClient.init)
        Recorded.unpublished, (Routes.execution_requests t.after).length ≤ 1 := by
  decide +kernel

theorem Routes.at_most_one_execution_recorded :
    let history := Run.entries (EvaluateCall.run Recorded.platform LedgerClient.backend
      (Recorded.settings "strict") Recorded.registry) (World.init LedgerClient.init)
      Recorded.untaken
    history.map (fun t => (Routes.execution_requests t.after).length) = [0, 1, 1]
      ∧ ∀ t ∈ history, (Routes.execution_requests t.after).length ≤ 1 := by
  refine ⟨by decide +kernel, ?_⟩
  refine Routes.at_most_one_execution Recorded.platform LedgerClient.backend
    (Recorded.settings "strict") Recorded.registry LedgerClient.init "first" Recorded.untaken ?_ ?_
  · decide +kernel
  · -- the calls of the entries are those of the run, and none of them is disturbed
    intro t ht _
    have hcall : t.call ∈ Recorded.untaken := Run.call_mem ht
    simp only [Recorded.untaken, List.mem_cons, List.not_mem_nil, or_false] at hcall
    rcases hcall with h | h | h
    · exact Or.inl (by rw [h])
    · exact Or.inr (by rw [h]; exact ⟨rfl, rfl, Or.inl (by decide)⟩)
    · exact Or.inr (by rw [h]; exact ⟨rfl, rfl, Or.inl (by decide)⟩)

end DecisionRuntime
