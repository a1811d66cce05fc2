/-
Which results `POST /evaluate` remembers in strict mode.

The idempotency store has two writers. The engine writes it past the commit gate,
so that it never writes a decision the ledger did not accept; the route writes what
the engine has returned, whichever of its exits it came from. `NotAccepted` says of
one commit, from the answers of the ledger, that `evaluate` returns an `ERROR`; the
store stays free of `ERROR` results over a run exactly when no request with a key
meets such a commit (`only_finalised_iff`).
-/
import DecisionRuntime.GateCommitment
import DecisionRuntime.IdempotentResponses

set_option autoImplicit false

namespace DecisionRuntime

namespace DecisionRuntimeEngine

open RuntimeLedgerAdapter

variable {σ : Type} {P : Platform} {C : LedgerBackend σ} {cfg : EngineConfig} {env : Env}
  {signal : Signal} {flow : DecisionFlow} {core : DecisionResult} {evaluated_nodes : List PyDict}
  {events : List LedgerEvent}

/-! ## The commit gate, from the answers of the ledger -/

/-- The commit of these events in `w` is answered, not with `ACCEPTED` throughout, and when it is
with `DUPLICATE` throughout, there is no earlier result to answer with. -/
def NotAccepted (C : LedgerBackend σ) (cfg : EngineConfig) (env : Env) (signal : Signal)
    (events : List LedgerEvent) (w : World σ) : Prop :=
  ∃ answers w', append_all (client C) events w = (.ok answers, w')
    ∧ (∃ a ∈ answers, a.status ≠ .accepted)
    ∧ ((∀ a ∈ answers, a.status = .duplicate) →
      (recover_prior_result C cfg env signal (answers.map (·.event_id)) w').1 = .ok none)

/-- A commit during which an append raises, raises. -/
theorem strict_commit_raised (hs : cfg.strict) {final : DecisionResult}
    (hbuild : build_events P cfg.schema_version
      (commit_trace env signal flow final evaluated_nodes).1
      (commit_trace env signal flow final evaluated_nodes).2 = .ok events)
    {w w' : World σ} {e : PyError} (happ : append_all (client C) events w = (.error e, w')) :
    strict_commit P C cfg env signal flow final evaluated_nodes w = (.error e, w') := by
  have hcommit := commit_run (client C) hbuild w
  rw [happ] at hcommit
  rw [strict_commit_eq hs]
  exact Exec.run_bind_error _ hcommit

section Answered

variable {final : DecisionResult} {answers : List LedgerAppendResult} {w w' : World σ}

/-- A commit that is answered adds the answers up. -/
theorem commit_answered {trace : DecisionTrace} {result : DecisionResult}
    (hbuild : build_events P cfg.schema_version trace result = .ok events)
    (happ : append_all (client C) events w = (.ok answers, w')) :
    ∃ r, commit (client C) P cfg.schema_version trace result w = (.ok r, w')
      ∧ r.status = (totals {} events answers).result.status
      ∧ r.event_ids = answers.map (·.event_id) := by
  refine ⟨(totals {} events answers).result, ?_, rfl, ?_⟩
  · rw [commit_run (client C) hbuild, happ]
    rfl
  · exact (totals_spec (length_append_all (client C) happ)).2.2.1

/-- One that is not accepted, and not a duplicate either, is refused. -/
theorem strict_commit_refused (hs : cfg.strict)
    (hbuild : build_events P cfg.schema_version
      (commit_trace env signal flow final evaluated_nodes).1
      (commit_trace env signal flow final evaluated_nodes).2 = .ok events)
    (happ : append_all (client C) events w = (.ok answers, w'))
    (hacc : (totals {} events answers).result.status ≠ .accepted)
    (hdup : (totals {} events answers).result.status ≠ .duplicate) :
    ∃ status, strict_commit P C cfg env signal flow final evaluated_nodes w
      = (.ok (.answered (refused env status final.populate_canonical_fields)), w') := by
  obtain ⟨r, hcommit, hstatus, -⟩ := commit_answered hbuild happ
  rw [← hstatus] at hacc hdup
  refine ⟨r.status, ?_⟩
  rw [strict_commit_eq hs, Exec.run_bind_ok _ hcommit, if_neg hacc, if_neg hdup]
  rfl

/-- A duplicate is answered with the earlier result, or refused when there is none. -/
theorem strict_commit_duplicate (hs : cfg.strict)
    (hbuild : build_events P cfg.schema_version
      (commit_trace env signal flow final evaluated_nodes).1
      (commit_trace env signal flow final evaluated_nodes).2 = .ok events)
    (happ : append_all (client C) events w = (.ok answers, w'))
    (hdup : (totals {} events answers).result.status = .duplicate) :
    (strict_commit P C cfg env signal flow final evaluated_nodes w).1 =
      (recover_prior_result C cfg env signal (answers.map (·.event_id)) w').1.map
        (fun prior => .answered (prior.getD
          (refused env .duplicate final.populate_canonical_fields))) := by
  obtain ⟨r, hcommit, hstatus, hids⟩ := commit_answered hbuild happ
  have hr : r.status = .duplicate := hstatus.trans hdup
  rw [strict_commit_eq hs, Exec.run_bind_ok _ hcommit, hr, hids, if_neg (by decide), if_pos rfl]
  rcases hrec : recover_prior_result C cfg env signal (answers.map (·.event_id)) w' with
    ⟨e | _ | prior, w''⟩
  · rw [Exec.run_bind_error _ hrec, hrec]
    rfl
  · rw [Exec.run_bind_ok _ hrec, hrec]
    rfl
  · rw [Exec.run_bind_ok _ hrec, hrec]
    rfl

end Answered

/-! ## Evaluations that end in an `ERROR` -/

/-- No result that a later call may hand back is an `ERROR`. -/
def Finalised (w : World σ) : Prop := Stored (fun result => result.status ≠ .error) w

/-- A result that passes the commit gate is none. -/
theorem not_error_of_dispatched
    (computed : PureEvaluate.pure_evaluate P env.draws signal flow = .ok (core, evaluated_nodes))
    {final : DecisionResult} {w w' : World σ}
    (hd : Dispatch cfg env (ready cfg env core) w (.ok final) w') : final.status ≠ .error := by
  rw [hd.ids.2.2, ready_status]
  rcases PureEvaluate.status_cases computed with h | h | h | h
  all_goals simp [h]

/-- So the engine leaves none behind. -/
theorem Finalised.evaluate {w : World σ} (h : Finalised w) (env : Env) (signal : Signal)
    (flow : DecisionFlow) :
    Finalised (DecisionRuntimeEngine.evaluate P C cfg env signal flow w).2 := by
  apply Stored.evaluate h env signal flow
  intro core evaluated_nodes w₁ final w₂ computed _ hd
  have hne := not_error_of_dispatched computed hd
  exact ⟨hne, hne⟩

/-- An accepted evaluation does not return an `ERROR`. -/
theorem not_error_of_accepted
    (computed : PureEvaluate.pure_evaluate P env.draws signal flow = .ok (core, evaluated_nodes))
    {w : World σ} (hacc : Accepted P C cfg env signal flow (opened cfg env core) evaluated_nodes
      (gated cfg env core w)) {result : DecisionResult}
    (hok : (evaluate P C cfg env signal flow w).1 = .ok result) : result.status ≠ .error := by
  have hrun := evaluate_run P C cfg env signal flow w
  rw [hok] at hrun
  generalize (evaluate P C cfg env signal flow w).2 = w' at hrun
  rcases hrun with _ | ⟨computed', _, _, hnot⟩ | _ | _ | ⟨computed', passed, _, hd⟩
  all_goals obtain ⟨rfl, rfl⟩ := except_pair_unique computed computed'
  · exact absurd hacc hnot
  · rw [persisted_status]
    exact not_error_of_dispatched computed hd

/-- An `evaluate` returns what the commit gate answers for it. -/
theorem evaluate_of_answered
    (computed : PureEvaluate.pure_evaluate P env.draws signal flow = .ok (core, evaluated_nodes))
    {w : World σ} {result : DecisionResult}
    (h : (strict_commit P C cfg env signal flow (opened cfg env core) evaluated_nodes
      (gated cfg env core w)).1 = .ok (.answered result)) :
    (evaluate P C cfg env signal flow w).1 = .ok result := by
  rw [evaluate_gated computed, Exec.run_bind_ok _ (Prod.ext h rfl)]
  rfl

/-- It raises what the commit gate raises. -/
theorem evaluate_of_raised
    (computed : PureEvaluate.pure_evaluate P env.draws signal flow = .ok (core, evaluated_nodes))
    {w : World σ} {e : PyError}
    (h : (strict_commit P C cfg env signal flow (opened cfg env core) evaluated_nodes
      (gated cfg env core w)).1 = .error e) :
    (evaluate P C cfg env signal flow w).1 = .error e := by
  rw [evaluate_gated computed, Exec.run_bind_error _ (Prod.ext h rfl)]

section Answers

variable {answers : List LedgerAppendResult} {w w' : World σ}

theorem notAccepted_iff (happ : append_all (client C) events w = (.ok answers, w')) :
    NotAccepted C cfg env signal events w ↔
      (∃ a ∈ answers, a.status ≠ .accepted) ∧ ((∀ a ∈ answers, a.status = .duplicate) →
        (recover_prior_result C cfg env signal (answers.map (·.event_id)) w').1 = .ok none) :=
  Exec.exists_run_iff happ

/-- What is recovered is an earlier result of the stores. -/
theorem recovered_not_error (hfinal : Finalised w)
    (happ : append_all (client C) events (gated cfg env core w) = (.ok answers, w'))
    {prior : DecisionResult}
    (hrec : (recover_prior_result C cfg env signal (answers.map (·.event_id)) w').1
      = .ok (some prior)) : prior.status ≠ .error := by
  obtain ⟨-, hprior⟩ :=
    recover_prior_result_cases C cfg env signal (answers.map (·.event_id)) w'
  have hframe := ledgerOnly_append_all (C := C) events (gated cfg env core w)
  rw [happ] at hframe
  exact Stored.recoverable hfinal (hframe.recoverable (hprior prior hrec))

variable (hs : cfg.strict)
  (computed : PureEvaluate.pure_evaluate P env.draws signal flow = .ok (core, evaluated_nodes))
  (hbuild : build_events P cfg.schema_version
    (commit_trace env signal flow (opened cfg env core) evaluated_nodes).1
    (commit_trace env signal flow (opened cfg env core) evaluated_nodes).2 = .ok events)

include hs computed hbuild

/-- When an append raises, so does `evaluate`. -/
theorem evaluate_append_raised {e : PyError}
    (happ : append_all (client C) events (gated cfg env core w) = (.error e, w')) :
    (evaluate P C cfg env signal flow w).1 = .error e :=
  evaluate_of_raised computed (congrArg Prod.fst (strict_commit_raised hs hbuild happ))

/-- When some append is not accepted, and not all are answered `DUPLICATE`, it returns an
`ERROR`. -/
theorem evaluate_append_refused
    (happ : append_all (client C) events (gated cfg env core w) = (.ok answers, w'))
    (hsome : ∃ a ∈ answers, a.status ≠ .accepted)
    (hnot : ¬ ∀ a ∈ answers, a.status = .duplicate) :
    ∃ status, (evaluate P C cfg env signal flow w).1
      = .ok (refused env status (opened cfg env core).populate_canonical_fields) := by
  have hlength := length_append_all (client C) happ
  have hacc : (totals {} events answers).result.status ≠ .accepted := by
    intro hacc
    obtain ⟨a, ha, hne⟩ := hsome
    exact hne ((accepted_iff hlength).mp hacc a ha)
  have hdup : (totals {} events answers).result.status ≠ .duplicate :=
    fun hdup => hnot ((duplicate_iff hlength).mp hdup).2
  obtain ⟨status, hcommit⟩ := strict_commit_refused hs hbuild happ hacc hdup
  exact ⟨status, evaluate_of_answered computed (congrArg Prod.fst hcommit)⟩

/-- When all are answered `DUPLICATE`, what is recovered decides. -/
theorem evaluate_append_duplicate
    (happ : append_all (client C) events (gated cfg env core w) = (.ok answers, w'))
    (hsome : ∃ a ∈ answers, a.status ≠ .accepted)
    (hall : ∀ a ∈ answers, a.status = .duplicate) :
    (evaluate P C cfg env signal flow w).1 =
      (recover_prior_result C cfg env signal (answers.map (·.event_id)) w').1.map
        (fun prior => prior.getD
          (refused env .duplicate (opened cfg env core).populate_canonical_fields)) := by
  obtain ⟨a, ha, -⟩ := hsome
  have hdup := (duplicate_iff (length_append_all (client C) happ)).mpr ⟨List.ne_nil_of_mem ha, hall⟩
  have hcommit := strict_commit_duplicate hs hbuild happ hdup
  rcases hrec : (recover_prior_result C cfg env signal (answers.map (·.event_id)) w').1 with
    e | prior
  · rw [hrec] at hcommit
    rw [evaluate_of_raised computed hcommit, hrec]
    rfl
  · rw [hrec] at hcommit
    rw [evaluate_of_answered computed hcommit, hrec]
    rfl

/-- **Evaluations that end in an `ERROR`.** Over stores that hold none, they are those whose
commit is not accepted. -/
theorem evaluate_error_iff (hfinal : Finalised w) :
    (∃ result, (evaluate P C cfg env signal flow w).1 = .ok result ∧ result.status = .error) ↔
      NotAccepted C cfg env signal events (gated cfg env core w) := by
  rcases happ : append_all (client C) events (gated cfg env core w) with ⟨e | answers, w'⟩
  · have hraised := evaluate_append_raised hs computed hbuild happ
    refine iff_of_false ?_ ?_
    · rintro ⟨result, hok, -⟩
      cases hraised.symm.trans hok
    · rintro ⟨answers, w'', hok, -⟩
      cases happ.symm.trans hok
  rw [notAccepted_iff happ]
  by_cases hsome : ∃ a ∈ answers, a.status ≠ .accepted
  swap
  · -- the commit is accepted, and no result after that is an error
    refine iff_of_false ?_ (fun h => hsome h.1)
    rintro ⟨result, hok, herror⟩
    have haccepted : Accepted P C cfg env signal flow (opened cfg env core) evaluated_nodes
        (gated cfg env core w) := by
      obtain ⟨r, hcommit, hstatus, -⟩ := commit_answered hbuild happ
      refine ⟨r, congrArg Prod.fst hcommit, hstatus.trans ?_⟩
      rw [accepted_iff (length_append_all (client C) happ)]
      simpa using hsome
    exact not_error_of_accepted computed haccepted hok herror
  by_cases hall : ∀ a ∈ answers, a.status = .duplicate
  swap
  · obtain ⟨status, hok⟩ := evaluate_append_refused hs computed hbuild happ hsome hall
    exact iff_of_true ⟨_, hok, rfl⟩ ⟨hsome, fun h => absurd h hall⟩
  -- duplicates only: an error is returned when no earlier result is found
  have hanswer := evaluate_append_duplicate hs computed hbuild happ hsome hall
  rcases hrec : (recover_prior_result C cfg env signal (answers.map (·.event_id)) w').1 with
    e | _ | prior
  · rw [hrec] at hanswer
    refine iff_of_false ?_ ?_
    · rintro ⟨result, hok, -⟩
      cases hanswer.symm.trans hok
    · rintro ⟨-, hnone⟩
      cases hrec.symm.trans (hnone hall)
  · rw [hrec] at hanswer
    exact iff_of_true ⟨_, hanswer, rfl⟩ ⟨hsome, fun _ => hrec⟩
  · rw [hrec] at hanswer
    refine iff_of_false ?_ ?_
    · rintro ⟨result, hok, herror⟩
      obtain rfl : prior = result := Except.ok.inj (hanswer.symm.trans hok)
      exact recovered_not_error hfinal happ hrec herror
    · rintro ⟨-, hnone⟩
      cases hrec.symm.trans (hnone hall)

end Answers

end DecisionRuntimeEngine

namespace Routes

open DecisionRuntimeEngine RuntimeLedgerAdapter

variable {σ : Type} {P : Platform} {C : LedgerBackend σ} {settings : Settings}
  {registry : FlowRegistry} {c : EvaluateCall} {w : World σ}

/-! ## One request -/

/-- The idempotency store holds no `ERROR`. -/
def OnlyFinalised (w : World σ) : Prop :=
  ∀ key result, w.idempotency_store.get key = some result → result.status ≠ .error

/-- The request, made in `w`, has a key that is not remembered, and its commit is not accepted. -/
def Refuses (P : Platform) (C : LedgerBackend σ) (settings : Settings) (registry : FlowRegistry)
    (c : EvaluateCall) (w : World σ) : Prop :=
  (∃ key, c.key = some key ∧ w.idempotency_store.get key = none) ∧
    ∃ signal flow core evaluated_nodes events,
      prepare P registry c.draws c.body = .ok (signal, flow)
      ∧ PureEvaluate.pure_evaluate P c.draws.env.draws signal flow = .ok (core, evaluated_nodes)
      ∧ build_events P settings.engine.schema_version
        (commit_trace c.draws.env signal flow (opened settings.engine c.draws.env core)
          evaluated_nodes).1
        (commit_trace c.draws.env signal flow (opened settings.engine c.draws.env core)
          evaluated_nodes).2 = .ok events
      ∧ NotAccepted C settings.engine c.draws.env signal events
        (gated settings.engine c.draws.env core w)

/-- Such a request is one with a key for which the engine returns an `ERROR`. -/
theorem refuses_iff (hs : settings.engine.strict) (hfinal : Finalised w)
    (miss : c.key.bind w.idempotency_store.get = none) {signal : Signal} {flow : DecisionFlow}
    (prepared : prepare P registry c.draws c.body = .ok (signal, flow)) :
    Refuses P C settings registry c w ↔ c.key ≠ none ∧ ∃ result,
      (DecisionRuntimeEngine.evaluate P C settings.engine c.draws.env signal flow w).1 = .ok result
        ∧ result.status = .error := by
  constructor
  · rintro ⟨⟨key, hkey, -⟩, signal', flow', core, evaluated_nodes, events, prepared', computed,
      hbuild, hnot⟩
    obtain ⟨rfl, rfl⟩ := except_pair_unique prepared prepared'
    rw [hkey]
    exact ⟨Option.some_ne_none key, (evaluate_error_iff hs computed hbuild hfinal).mpr hnot⟩
  · rintro ⟨hkey, hresult⟩
    obtain ⟨key, hsome⟩ := Option.ne_none_iff_exists'.mp hkey
    rw [hsome] at miss
    refine ⟨⟨key, hsome, miss⟩, ?_⟩
    rcases computed : PureEvaluate.pure_evaluate P c.draws.env.draws signal flow with
      e | ⟨core, evaluated_nodes⟩
    · rw [DecisionRuntimeEngine.evaluate, computed] at hresult
      obtain ⟨result, hok, -⟩ := hresult
      cases hok
    · obtain ⟨events, hbuild⟩ := exists_events settings.engine computed
        (opened settings.engine c.draws.env core)
      exact ⟨signal, flow, core, evaluated_nodes, events, prepared, computed, hbuild,
        (evaluate_error_iff hs computed hbuild hfinal).mp hresult⟩

/-- What the engine leaves behind is finalised, whatever it answers. -/
theorem finalised_of_run (h : Finalised w) {signal : Signal} {flow : DecisionFlow}
    {answer : Except PyError DecisionResult} {w₁ : World σ}
    (run : DecisionRuntimeEngine.evaluate P C settings.engine c.draws.env signal flow w
      = (answer, w₁)) : Finalised w₁ := by
  have hengine : Finalised (DecisionRuntimeEngine.evaluate P C settings.engine c.draws.env signal
    flow w).2 := h.evaluate c.draws.env signal flow
  rwa [run] at hengine

theorem store_result_trace_store (body : EvaluateRequest) (result : DecisionResult)
    (w : World σ) : (store_result body result w).trace_store = w.trace_store := by
  unfold store_result
  cases body.key <;> rfl

/-- What the route writes is what the engine has returned. -/
theorem finalised_store_result (h : Finalised w) (result : DecisionResult) :
    Finalised (store_result c.body result w) ↔ (c.key ≠ none → result.status ≠ .error) := by
  constructor
  · intro hnext hkey
    obtain ⟨key, hsome⟩ := Option.ne_none_iff_exists'.mp hkey
    apply hnext.remembered key result
    rw [store_result_get, if_pos hsome]
  · intro hne
    refine ⟨?_, ?_⟩
    · intro key found hget
      rw [store_result_get] at hget
      split_ifs at hget with hkey
      · obtain rfl := Option.some.inj hget
        apply hne
        have hsome : c.key = some key := hkey
        rw [hsome]
        exact nofun
      · exact h.remembered key found hget
    · rw [store_result_trace_store]
      exact h.traced

/-- **The step lemma.** A request leaves an `ERROR` behind exactly when it is refused. -/
theorem finalised_step (hs : settings.engine.strict) (h : Finalised w) :
    Finalised (c.run P C settings registry w).2 ↔ ¬ Refuses P C settings registry c w := by
  have hrun := route_run P C settings registry c.draws c.body w
  unfold EvaluateCall.run
  generalize (evaluate P C settings registry c.draws c.body w).1 = answer at hrun
  generalize (evaluate P C settings registry c.draws c.body w).2 = w' at hrun ⊢
  rcases hrun with ⟨hit⟩ | ⟨miss, hnot⟩ | ⟨miss, prepared, answer, w₁, run⟩
  case cached =>
    refine iff_of_true h ?_
    rintro ⟨⟨key, hkey, hnone⟩, -⟩
    have hkey' : c.body.key = some key := hkey
    rw [hkey', Option.bind_some, hnone] at hit
    exact nomatch hit
  case unprepared =>
    refine iff_of_true h ?_
    rintro ⟨-, signal, flow, core, evaluated_nodes, events, prepared, -⟩
    exact nomatch hnot.symm.trans prepared
  case evaluated signal flow =>
    -- the engine leaves no error behind; what counts is what the route remembers
    have hnext : Finalised w₁ := finalised_of_run h run
    have hrefuses : Refuses P C settings registry c w ↔
        c.key ≠ none ∧ ∃ result, answer = .ok result ∧ result.status = .error := by
      rw [refuses_iff hs h miss prepared, run]
    rw [hrefuses]
    rcases answer with e | result
    · refine iff_of_true hnext ?_
      rintro ⟨-, result, hok, -⟩
      exact nomatch hok
    · dsimp only
      rw [finalised_store_result hnext]
      constructor
      · rintro hne ⟨hkey, result', hok, herror⟩
        obtain rfl := Except.ok.inj hok
        exact hne hkey herror
      · exact fun hnot hkey herror => hnot ⟨hkey, result, rfl, herror⟩

/-! ## Whole runs -/

/-- No stored trace is of an `ERROR`, whatever the store of the keys holds. -/
theorem finalised_iff_only (h : Finalised w) :
    Finalised (c.run P C settings registry w).2
      ↔ OnlyFinalised (c.run P C settings registry w).2 := by
  refine ⟨fun hnext => hnext.remembered, fun honly => ⟨honly, ?_⟩⟩
  have hrun := route_run P C settings registry c.draws c.body w
  unfold EvaluateCall.run
  generalize (evaluate P C settings registry c.draws c.body w).1 = answer at hrun
  generalize (evaluate P C settings registry c.draws c.body w).2 = w' at hrun ⊢
  rcases hrun with _ | _ | ⟨miss, prepared, answer, w₁, run⟩
  case cached => exact h.traced
  case unprepared => exact h.traced
  case evaluated signal flow =>
    have hnext : Finalised w₁ := finalised_of_run h run
    rcases answer with e | result
    · exact hnext.traced
    · dsimp only
      rw [store_result_trace_store]
      exact hnext.traced

/-- **Which results are remembered.** In strict mode, whatever the ledger answers, the idempotency
store holds no `ERROR` after any request exactly when no request that has a key, and is not
answered from the store, meets a commit that is not accepted. -/
theorem only_finalised_iff (P : Platform) (C : LedgerBackend σ) (settings : Settings)
    (registry : FlowRegistry) (hs : settings.engine.strict) (s : σ) (calls : List EvaluateCall) :
    (∀ t ∈ Run.entries (EvaluateCall.run P C settings registry) (World.init s) calls,
        OnlyFinalised t.after) ↔
      ∀ t ∈ Run.entries (EvaluateCall.run P C settings registry) (World.init s) calls,
        ¬ Refuses P C settings registry t.call t.before := by
  refine Run.forall_iff (I := Finalised) (stored_init _ s) ?_ ?_
  · -- what was left behind before this request is finalised
    exact fun c w h => (finalised_iff_only h).symm.trans (finalised_step hs h)
  · exact fun c w h honly => (finalised_iff_only h).mpr honly

end Routes

namespace Recorded

/-- A ledger that answers its first three appends with `INVALID`, and the others with `ACCEPTED`;
its state is the number of appends. -/
def recovering : LedgerBackend ℕ where
  append event := do
    let n ← Exec.get
    Exec.modify (· + 1)
    return { status := if n < 3 then .invalid else .accepted, event_id := event.event_id }
  get_by_event_id _ := return none
  get_events_by_trace_id _ := return []

end Recorded

/-- The ledger refuses a request, and accepts the next one. Its retry is answered with the `ERROR`
that was remembered. -/
theorem Routes.only_finalised_recovering :
    let history := Run.entries (EvaluateCall.run Recorded.platform Recorded.recovering
      (Recorded.settings "strict") Recorded.registry) (World.init 0) Recorded.requests
    history.map (fun t => t.answer.toOption.map (fun result => (result.id, result.status)))
        = [some (UUID.repeated 0xc, .error), some (UUID.repeated 0xe, .confirmed),
          some (UUID.repeated 0xc, .error)]
      ∧ ¬ ∀ t ∈ history, Routes.OnlyFinalised t.after := by
  intro history
  refine ⟨by decide +kernel, ?_⟩
  intro honly
  let first := Run.entry (EvaluateCall.run Recorded.platform Recorded.recovering
    (Recorded.settings "strict") Recorded.registry) (World.init 0) Recorded.requests[0]
  have hstatus : (first.after.idempotency_store.get "first").map DecisionResult.status
      = some .error := by decide +kernel
  rcases hget : first.after.idempotency_store.get "first" with _ | result
  · rw [hget] at hstatus
    cases hstatus
  · rw [hget] at hstatus
    exact honly first (.head _) "first" result hget (Option.some.inj hstatus)

/-- `LedgerClient` refuses none of the three requests, and no `ERROR` is remembered. -/
theorem Routes.only_finalised_recorded :
    let history := Run.entries (EvaluateCall.run Recorded.platform LedgerClient.backend
      (Recorded.settings "strict") Recorded.registry) (World.init LedgerClient.init)
      Recorded.requests
    (∀ t ∈ history, Routes.OnlyFinalised t.after) ∧ ∀ t ∈ history,
      ¬ Routes.Refuses Recorded.platform LedgerClient.backend (Recorded.settings "strict")
        Recorded.registry t.call t.before := by
  intro history
  have hstored : ∀ t ∈ history, ∀ entry ∈ t.after.idempotency_store.entries,
      entry.2.status ≠ .error := by decide +kernel
  have honly : ∀ t ∈ history, Routes.OnlyFinalised t.after :=
    fun t ht key result hget => hstored t ht (key, result) (Dict.mem_of_get hget)
  exact ⟨honly, (Routes.only_finalised_iff Recorded.platform LedgerClient.backend
    (Recorded.settings "strict") Recorded.registry ⟨rfl, rfl⟩ LedgerClient.init
    Recorded.requests).mp honly⟩

end DecisionRuntime
