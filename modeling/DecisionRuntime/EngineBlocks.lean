/-
What each block of `evaluate` does to the world, one specification for each.

Every later argument goes through these. `LedgerOnly` is the frame of everything
that only talks to the ledger; `open_gate_run`, `strict_commit_cases`,
`dispatch_cases`, `remember_run` and `persist_cases` say all a block can do,
whatever the ledger answers and whichever dependency fails.
-/
import DecisionRuntime.Engine

set_option autoImplicit false

namespace DecisionRuntime.DecisionRuntimeEngine

open RuntimeLedgerAdapter

variable {σ : Type} {P : Platform} {C : LedgerBackend σ} {cfg : EngineConfig} {env : Env}
  {signal : Signal} {flow : DecisionFlow}

/-! ## Talking to the ledger -/

/-- Only the ledger has been used: every store is as it was, and what was added to the calls is
not a publish. -/
structure LedgerOnly (w w' : World σ) : Prop where
  human_gate_manager : w'.human_gate_manager = w.human_gate_manager
  trace_store : w'.trace_store = w.trace_store
  event_bus : w'.event_bus = w.event_bus
  execution_publisher : w'.execution_publisher = w.execution_publisher
  idempotency_store : w'.idempotency_store = w.idempotency_store
  calls : ∃ appends, w'.calls = w.calls ++ appends ∧ ∀ x ∈ appends, x.published = none

theorem LedgerOnly.refl (w : World σ) : LedgerOnly w w :=
  ⟨rfl, rfl, rfl, rfl, rfl, [], by simp, by simp⟩

theorem LedgerOnly.trans {w w' w'' : World σ} (h : LedgerOnly w w') (h' : LedgerOnly w' w'') :
    LedgerOnly w w'' := by
  obtain ⟨appends, hcalls, hnone⟩ := h.calls
  obtain ⟨appends', hcalls', hnone'⟩ := h'.calls
  refine ⟨h'.human_gate_manager.trans h.human_gate_manager, h'.trace_store.trans h.trace_store,
    h'.event_bus.trans h.event_bus, h'.execution_publisher.trans h.execution_publisher,
    h'.idempotency_store.trans h.idempotency_store, appends ++ appends', ?_, ?_⟩
  · rw [hcalls', hcalls, List.append_assoc]
  · intro x hx
    rcases List.mem_append.mp hx with hx | hx
    · exact hnone x hx
    · exact hnone' x hx

theorem ledgerOnly_append (event : LedgerEvent) (w : World σ) :
    LedgerOnly w ((client C).append event w).2 := by
  refine ⟨rfl, rfl, rfl, rfl, rfl, [.append event (C.append event w.ledger).1], rfl, ?_⟩
  intro x hx
  rw [List.mem_singleton.mp hx]
  rfl

theorem ledgerOnly_get_by_event_id (event_id : UUID) (w : World σ) :
    LedgerOnly w ((client C).get_by_event_id event_id w).2 :=
  ⟨rfl, rfl, rfl, rfl, rfl, [], by simp [client, Exec.zoom], by simp⟩

/-- A computation all of whose halves only use the ledger. -/
theorem ledgerOnly_bind {α β : Type} {x : Exec PyError (World σ) α}
    {f : α → Exec PyError (World σ) β} (hx : ∀ w, LedgerOnly w (x w).2)
    (hf : ∀ a w, LedgerOnly w (f a w).2) (w : World σ) : LedgerOnly w ((x >>= f) w).2 := by
  have h := hx w
  rcases hr : x w with ⟨e | a, w'⟩
  · rw [Exec.run_bind_error f hr]
    rwa [hr] at h
  · rw [Exec.run_bind_ok f hr]
    rw [hr] at h
    exact h.trans (hf a w')

theorem ledgerOnly_append_all (events : List LedgerEvent) (w : World σ) :
    LedgerOnly w (append_all (client C) events w).2 := by
  induction events generalizing w with
  | nil => exact LedgerOnly.refl w
  | cons event events ih =>
      refine ledgerOnly_bind (ledgerOnly_append event) ?_ w
      exact fun _ => ledgerOnly_bind ih (fun _ w => LedgerOnly.refl w)

/-- Seen from the ledger, the appends of the engine are appends to it. -/
theorem simulates_append_all (events : List LedgerEvent) :
    Exec.Simulates World.ledger (append_all (client C) events) (append_all C events) := by
  induction events with
  | nil => exact Exec.simulates_pure _
  | cons event events ih =>
      have hone : Exec.Simulates World.ledger ((client C).append event) (C.append event) :=
        fun _ => ⟨rfl, rfl⟩
      refine Exec.simulates_bind hone ?_
      exact fun _ => Exec.simulates_bind ih (fun _ => Exec.simulates_pure _)

theorem ledgerOnly_commit (schema_version : String) (trace : DecisionTrace)
    (result : DecisionResult) (w : World σ) :
    LedgerOnly w (commit (client C) P schema_version trace result w).2 := by
  rcases he : build_events P schema_version trace result with e | events
  · have hr : commit (client C) P schema_version trace result w = (.error e, w) := by
      rw [commit, he]
      rfl
    rw [hr]
    exact LedgerOnly.refl w
  · rw [commit_run (client C) he]
    exact ledgerOnly_append_all events w

/-- Appends that all answered are the last calls made. -/
theorem calls_append_all {events : List LedgerEvent} {answers : List LedgerAppendResult}
    {w w' : World σ} (h : append_all (client C) events w = (.ok answers, w')) :
    w'.calls = w.calls
      ++ List.zipWith (fun event answer => .append event (.ok answer)) events answers := by
  induction events generalizing answers w with
  | nil =>
      obtain ⟨rfl, rfl⟩ : [] = answers ∧ w = w' := by
        obtain ⟨hans, hw⟩ := Prod.mk.inj h
        exact ⟨Except.ok.inj hans, hw⟩
      simp
  | cons event events ih =>
      rw [append_all, Exec.run_bind_eq_ok] at h
      obtain ⟨answer, w₁, happ, h⟩ := h
      obtain ⟨rest, w₂, hrest, h⟩ := Exec.run_bind_eq_ok.mp h
      obtain ⟨rfl, rfl⟩ : answer :: rest = answers ∧ w₂ = w' := by
        obtain ⟨hans, hw⟩ := Prod.mk.inj h
        exact ⟨Except.ok.inj hans, hw⟩
      obtain ⟨hans, hw₁⟩ := Prod.mk.inj happ
      have hcalls : w₁.calls = w.calls ++ [.append event (.ok answer)] := by
        rw [← hw₁, ← hans]
      rw [ih hrest, hcalls, List.append_assoc]
      rfl

/-! ## Recovery -/

/-- A result that `_recover_prior_result` can come up with: one remembered under the key of the
signal, or the first one of a stored trace. -/
def Recoverable (signal : Signal) (w : World σ) (prior : DecisionResult) : Prop :=
  (∃ key, signal.idempotency_key = some key ∧ w.idempotency_store.get key = some prior) ∨
    ∃ decision_id trace, w.trace_store.get_by_decision_id decision_id = .ok trace
      ∧ trace.decision_results.head? = some prior

theorem LedgerOnly.recoverable {w w' : World σ} (h : LedgerOnly w w') {prior : DecisionResult}
    (hr : Recoverable signal w' prior) : Recoverable signal w prior := by
  rw [Recoverable, h.idempotency_store, h.trace_store] at hr
  exact hr

theorem recover_from_ledger_cases (C : LedgerBackend σ) (env : Env) (signal : Signal)
    (event_ids : List UUID) (w : World σ) :
    LedgerOnly w (recover_from_ledger C env event_ids w).2 ∧
      ∀ prior, (recover_from_ledger C env event_ids w).1 = .ok (some prior) →
        Recoverable signal w prior := by
  induction event_ids generalizing w with
  | nil => exact ⟨LedgerOnly.refl w, fun _ h => nomatch h⟩
  | cons event_id event_ids ih =>
      have hget := ledgerOnly_get_by_event_id (C := C) event_id w
      have hnext : ∀ w', LedgerOnly w w' →
          LedgerOnly w (recover_from_ledger C env event_ids w').2 ∧
            ∀ prior, (recover_from_ledger C env event_ids w').1 = .ok (some prior) →
              Recoverable signal w prior := by
        intro w' hw'
        obtain ⟨hframe, hprior⟩ := ih w'
        exact ⟨hw'.trans hframe, fun prior h => hw'.recoverable (hprior prior h)⟩
      -- whatever does not lead to a result, the loop goes on with the next id
      rcases hr : (client C).get_by_event_id event_id w with ⟨e | _ | event, w'⟩
      · rw [hr] at hget
        rw [recover_from_ledger, Exec.run_bind_error _ hr]
        exact ⟨hget, fun _ h => nomatch h⟩
      · rw [hr] at hget
        rw [recover_from_ledger, Exec.run_bind_ok _ hr]
        exact hnext w' hget
      · rw [hr] at hget
        rw [recover_from_ledger, Exec.run_bind_ok _ hr]
        by_cases hraises : env.lookup_raises event.decision_id.str = true
        · dsimp only
          rw [if_pos hraises]
          exact hnext w' hget
        · dsimp only
          rw [if_neg hraises, Exec.run_get_bind]
          rcases ht : w'.trace_store.get_by_decision_id event.decision_id.str with e | trace
          · exact hnext w' hget
          · dsimp only
            rcases hd : trace.decision_results with _ | ⟨result, results⟩
            · exact hnext w' hget
            · refine ⟨hget, ?_⟩
              intro prior h
              obtain rfl : result = prior := Option.some.inj (Except.ok.inj h)
              refine hget.recoverable (Or.inr ⟨_, trace, ht, ?_⟩)
              rw [hd]
              rfl

theorem recover_prior_result_cases (C : LedgerBackend σ) (cfg : EngineConfig) (env : Env)
    (signal : Signal) (event_ids : List UUID) (w : World σ) :
    LedgerOnly w (recover_prior_result C cfg env signal event_ids w).2 ∧
      ∀ prior, (recover_prior_result C cfg env signal event_ids w).1 = .ok (some prior) →
        Recoverable signal w prior := by
  rw [recover_prior_result, Exec.run_get_bind]
  by_cases hkey : nonempty signal.idempotency_key ∧ cfg.idempotency_store
  · obtain ⟨key, hsome⟩ : ∃ key, signal.idempotency_key = some key := by
      rcases hk : signal.idempotency_key with _ | key
      · rw [hk] at hkey
        exact absurd hkey.1 (by decide)
      · exact ⟨key, rfl⟩
    rw [if_pos hkey, hsome, Option.getD_some]
    rcases hc : w.idempotency_store.get key with _ | cached
    · dsimp only
      split
      · exact recover_from_ledger_cases C env signal event_ids w
      · exact ⟨LedgerOnly.refl w, fun _ h => nomatch h⟩
    · refine ⟨LedgerOnly.refl w, ?_⟩
      intro prior h
      obtain rfl : cached = prior := Option.some.inj (Except.ok.inj h)
      exact Or.inl ⟨key, hsome, hc⟩
  · rw [if_neg hkey]
    dsimp only
    split
    · exact recover_from_ledger_cases C env signal event_ids w
    · exact ⟨LedgerOnly.refl w, fun _ h => nomatch h⟩

section Keeps

variable {τ : Type} {f : World σ → τ}

/-- A part of the world that a look-up in the ledger keeps is kept by the recovery. -/
theorem keeps_recover_from_ledger
    (hread : ∀ event_id, Exec.Keeps f ((client C).get_by_event_id event_id)) (env : Env)
    (event_ids : List UUID) : Exec.Keeps f (recover_from_ledger C env event_ids) := by
  induction event_ids with
  | nil => exact Exec.keeps_pure none
  | cons event_id event_ids ih =>
      refine Exec.keeps_bind (hread event_id) (fun found => ?_)
      rcases found with _ | event
      · exact ih
      · refine Exec.keeps_ite ih ?_
        refine Exec.keeps_bind (fun _ => rfl) (fun w => ?_)
        rcases w.trace_store.get_by_decision_id event.decision_id.str with e | trace
        · exact ih
        · rcases hresults : trace.decision_results with _ | ⟨result, results⟩
          · simp only [hresults]
            exact ih
          · simp only [hresults]
            exact Exec.keeps_pure _

theorem keeps_recover_prior_result
    (hread : ∀ event_id, Exec.Keeps f ((client C).get_by_event_id event_id)) (cfg : EngineConfig)
    (env : Env) (signal : Signal) (event_ids : List UUID) :
    Exec.Keeps f (recover_prior_result C cfg env signal event_ids) := by
  refine Exec.keeps_bind (fun _ => rfl) (fun w => ?_)
  have hrest : Exec.Keeps f
      (if cfg.ledger_adapter ∧ cfg.trace_store then recover_from_ledger C env event_ids
        else pure none) :=
    Exec.keeps_ite (keeps_recover_from_ledger hread env event_ids) (Exec.keeps_pure none)
  by_cases hkey : nonempty signal.idempotency_key ∧ cfg.idempotency_store
  · simp only [if_pos hkey]
    rcases w.idempotency_store.get (signal.idempotency_key.getD "") with _ | cached
    · exact hrest
    · exact Exec.keeps_pure (some cached)
  · simp only [if_neg hkey]
    exact hrest

end Keeps

/-! ## The gate -/

/-- The result with the gate that `open_gate` creates, if it creates one. -/
def opened (cfg : EngineConfig) (env : Env) (final : DecisionResult) : DecisionResult :=
  if final.status = .pending_human ∧ cfg.human_gate_manager then
    { final with human_gate := some (HumanGateManager.gate_request env.gate_id env.gate_created_at
        final none none) }
  else final

/-- The gates after `open_gate`. -/
def gates_opened (cfg : EngineConfig) (env : Env) (final : DecisionResult)
    (m : HumanGateManager) : HumanGateManager :=
  if final.status = .pending_human ∧ cfg.human_gate_manager then
    HumanGateManager.created env.gate_id env.gate_created_at final none none m
  else m

theorem open_gate_run (final : DecisionResult) (w : World σ) :
    open_gate cfg env final w = (.ok (opened cfg env final),
      { w with human_gate_manager := gates_opened cfg env final w.human_gate_manager }) := by
  unfold open_gate opened gates_opened
  split_ifs with h
  · have hc := HumanGateManager.create_request_default env.gate_id env.gate_created_at final
      w.human_gate_manager
    have hz : ∀ put : HumanGateManager → World σ → World σ,
        Exec.zoom World.human_gate_manager put
          (HumanGateManager.create_request env.gate_id env.gate_created_at final none none) w
        = (.ok (HumanGateManager.gate_request env.gate_id env.gate_created_at final none none),
          put (HumanGateManager.created env.gate_id env.gate_created_at final none none
            w.human_gate_manager) w) := by
      intro put
      rw [Exec.zoom, hc]
    rw [Exec.run_bind_ok _ (hz _)]
    rfl
  · rfl

@[simp] theorem opened_status (final : DecisionResult) :
    (opened cfg env final).status = final.status := by
  unfold opened
  split_ifs <;> rfl

@[simp] theorem opened_id (final : DecisionResult) : (opened cfg env final).id = final.id := by
  unfold opened
  split_ifs <;> rfl

@[simp] theorem opened_trace_id (final : DecisionResult) :
    (opened cfg env final).trace_id = final.trace_id := by
  unfold opened
  split_ifs <;> rfl

@[simp] theorem opened_execution_id (final : DecisionResult) :
    (opened cfg env final).execution_id = final.execution_id := by
  unfold opened
  split_ifs <;> rfl

/-! ## The commit gate -/

/-- The trace that is committed in strict mode, and the result as the validator left it. -/
def commit_trace (env : Env) (signal : Signal) (flow : DecisionFlow) (final : DecisionResult)
    (evaluated_nodes : List PyDict) : DecisionTrace × DecisionResult :=
  create_trace env.commit_completed_at signal flow final evaluated_nodes

/-- The events of an evaluation can always be built. -/
theorem exists_events (cfg : EngineConfig) {core : DecisionResult} {evaluated_nodes : List PyDict}
    (computed : PureEvaluate.pure_evaluate P env.draws signal flow = .ok (core, evaluated_nodes))
    (result : DecisionResult) :
    ∃ events, build_events P cfg.schema_version
      (commit_trace env signal flow result evaluated_nodes).1
      (commit_trace env signal flow result evaluated_nodes).2 = .ok events := by
  obtain ⟨outcomes, sel, version, brs, -, -, -, -, -, hnodes⟩ :=
    PureEvaluate.pure_evaluate_eq_ok.mp computed
  have hrecords : (commit_trace env signal flow result evaluated_nodes).1.evaluated_nodes
      = (PureEvaluate.node_records flow outcomes sel brs).map NodeRecord.toDict := hnodes
  exact ⟨_, build_events_records hrecords⟩

/-- The strict commit of `final`, made in `w`, returns `ACCEPTED`. -/
def Accepted (P : Platform) (C : LedgerBackend σ) (cfg : EngineConfig) (env : Env)
    (signal : Signal) (flow : DecisionFlow) (final : DecisionResult)
    (evaluated_nodes : List PyDict) (w : World σ) : Prop :=
  ∃ ledger_result,
    (commit (client C) P cfg.schema_version (commit_trace env signal flow final evaluated_nodes).1
      (commit_trace env signal flow final evaluated_nodes).2 w).1 = .ok ledger_result
    ∧ ledger_result.status = .accepted

/-- The ledger in the state `s` accepts all these events. -/
def LedgerAccepts (C : LedgerBackend σ) (events : List LedgerEvent) (s : σ) : Prop :=
  ∃ answers, (append_all C events s).1 = .ok answers ∧ ∀ a ∈ answers, a.status = .accepted

/-- It accepts the first of them, and then the others. -/
theorem ledgerAccepts_cons {event : LedgerEvent} {events : List LedgerEvent} {s : σ} :
    LedgerAccepts C (event :: events) s ↔ ∃ answer s', C.append event s = (.ok answer, s')
      ∧ answer.status = .accepted ∧ LedgerAccepts C events s' := by
  unfold LedgerAccepts
  constructor
  · rintro ⟨answers, hok, hall⟩
    have hrun : append_all C (event :: events) s
        = (.ok answers, (append_all C (event :: events) s).2) := Prod.ext hok rfl
    rw [append_all, Exec.run_bind_eq_ok] at hrun
    obtain ⟨answer, s', happ, hrun⟩ := hrun
    obtain ⟨rest, s'', hrest, hrun⟩ := Exec.run_bind_eq_ok.mp hrun
    have hanswers : answer :: rest = answers := Except.ok.inj (congrArg Prod.fst hrun)
    rw [← hanswers, List.forall_mem_cons] at hall
    exact ⟨answer, s', happ, hall.1, rest, congrArg Prod.fst hrest, hall.2⟩
  · rintro ⟨answer, s', happ, hacc, rest, hrest, hall⟩
    refine ⟨answer :: rest, ?_, List.forall_mem_cons.mpr ⟨hacc, hall⟩⟩
    rw [append_all_cons C happ (Prod.ext hrest rfl)]

/-- When the appends of the engine end normally, their answers say whether it does. -/
theorem ledgerAccepts_iff {events : List LedgerEvent} {answers : List LedgerAppendResult}
    {w w' : World σ} (happ : append_all (client C) events w = (.ok answers, w')) :
    LedgerAccepts C events w.ledger ↔ ∀ a ∈ answers, a.status = .accepted := by
  have hok : (append_all C events w.ledger).1 = .ok answers := by
    rw [← (simulates_append_all (C := C) events w).1, happ]
  constructor
  · rintro ⟨answers', hok', hall⟩
    obtain rfl := Except.ok.inj (hok.symm.trans hok')
    exact hall
  · exact fun hall => ⟨answers, hok, hall⟩

/-- A strict commit is accepted exactly when the ledger accepts the events. -/
theorem accepted_iff_ledgerAccepts {result : DecisionResult} {evaluated_nodes : List PyDict}
    {events : List LedgerEvent} {w : World σ}
    (hbuild : build_events P cfg.schema_version
      (commit_trace env signal flow result evaluated_nodes).1
      (commit_trace env signal flow result evaluated_nodes).2 = .ok events) :
    Accepted P C cfg env signal flow result evaluated_nodes w ↔
      LedgerAccepts C events w.ledger := by
  have hrun := congrArg Prod.fst (commit_run (client C) hbuild w)
  dsimp only at hrun
  rw [Accepted, hrun]
  rcases ha : append_all (client C) events w with ⟨e | answers, w'⟩
  · have hsim := (simulates_append_all (C := C) events w).1
    rw [ha] at hsim
    refine iff_of_false ?_ ?_
    · rintro ⟨_, h, -⟩
      cases h
    · rintro ⟨_, h, -⟩
      cases hsim.trans h
  · have hlen := length_append_all (client C) ha
    rw [ledgerAccepts_iff ha]
    constructor
    · rintro ⟨ledger_result, h, hacc⟩
      obtain rfl := Except.ok.inj h
      exact (accepted_iff hlen).mp hacc
    · exact fun hall => ⟨_, rfl, (accepted_iff hlen).mpr hall⟩

/-- An accepted commit has built its events, and every append answered `ACCEPTED`. -/
theorem commit_accepted {trace : DecisionTrace} {result : DecisionResult}
    {ledger_result : LedgerCommitResult} {w w' : World σ}
    (hr : commit (client C) P cfg.schema_version trace result w = (.ok ledger_result, w'))
    (hacc : ledger_result.status = .accepted) :
    ∃ events answers, build_events P cfg.schema_version trace result = .ok events
      ∧ append_all (client C) events w = (.ok answers, w')
      ∧ ∀ a ∈ answers, a.status = .accepted := by
  rcases hb : build_events P cfg.schema_version trace result with e | events
  · rw [commit, hb] at hr
    cases congrArg Prod.fst hr
  have hrun := commit_run (client C) hb w
  rw [hr] at hrun
  rcases ha : append_all (client C) events w with ⟨e | answers, w''⟩
  · rw [ha] at hrun
    cases congrArg Prod.fst hrun
  · rw [ha] at hrun
    obtain ⟨hres, rfl⟩ := Prod.mk.inj hrun
    obtain rfl := Except.ok.inj hres
    have hall := (accepted_iff (length_append_all (client C) ha)).mp hacc
    exact ⟨events, answers, rfl, ha, hall⟩

theorem strict_commit_eq (hs : cfg.strict) (final : DecisionResult)
    (evaluated_nodes : List PyDict) :
    strict_commit P C cfg env signal flow final evaluated_nodes =
      (commit (client C) P cfg.schema_version
        (commit_trace env signal flow final evaluated_nodes).1
        (commit_trace env signal flow final evaluated_nodes).2 >>= fun ledger_result =>
          if ledger_result.status = .accepted then return .proceed final.populate_canonical_fields
          else if ledger_result.status = .duplicate then do
            match ← recover_prior_result C cfg env signal ledger_result.event_ids with
            | some prior => return .answered prior
            | none => return .answered (refused env ledger_result.status
                final.populate_canonical_fields)
          else return .answered (refused env ledger_result.status
            final.populate_canonical_fields)) := by
  rw [strict_commit, if_pos hs]
  rfl

/-- What follows the appends of a strict commit only reads. -/
theorem keeps_strict_commit {τ : Type} {f : World σ → τ}
    (hread : ∀ event_id, Exec.Keeps f ((client C).get_by_event_id event_id)) (hs : cfg.strict)
    (final : DecisionResult) (evaluated_nodes : List PyDict) (w : World σ) :
    f (strict_commit P C cfg env signal flow final evaluated_nodes w).2 =
      f (commit (client C) P cfg.schema_version
        (commit_trace env signal flow final evaluated_nodes).1
        (commit_trace env signal flow final evaluated_nodes).2 w).2 := by
  rw [strict_commit_eq hs]
  apply Exec.keeps_second
  intro ledger_result
  refine Exec.keeps_ite (Exec.keeps_pure _) (Exec.keeps_ite ?_ (Exec.keeps_pure _))
  refine Exec.keeps_bind (keeps_recover_prior_result hread cfg env signal _) (fun prior => ?_)
  rcases prior with _ | prior
  · exact Exec.keeps_pure _
  · exact Exec.keeps_pure _

/-- The ways a strict commit can end, with the world it ends in. -/
inductive StrictCommit (P : Platform) (C : LedgerBackend σ) (cfg : EngineConfig) (env : Env)
    (signal : Signal) (flow : DecisionFlow) (final : DecisionResult)
    (evaluated_nodes : List PyDict) (w : World σ) : Except PyError GateAnswer → World σ → Prop
  | accepted {w' : World σ} {events : List LedgerEvent} {answers : List LedgerAppendResult}
      (accepted : Accepted P C cfg env signal flow final evaluated_nodes w)
      (build : build_events P cfg.schema_version
        (commit_trace env signal flow final evaluated_nodes).1
        (commit_trace env signal flow final evaluated_nodes).2 = .ok events)
      (appends : append_all (client C) events w = (.ok answers, w'))
      (all : ∀ a ∈ answers, a.status = .accepted) :
      StrictCommit P C cfg env signal flow final evaluated_nodes w
        (.ok (.proceed final.populate_canonical_fields)) w'
  | refused {w' : World σ} {status : LedgerCommitStatus}
      (not_accepted : ¬ Accepted P C cfg env signal flow final evaluated_nodes w) :
      StrictCommit P C cfg env signal flow final evaluated_nodes w
        (.ok (.answered (refused env status final.populate_canonical_fields))) w'
  | recovered {w' : World σ} {prior : DecisionResult}
      (not_accepted : ¬ Accepted P C cfg env signal flow final evaluated_nodes w)
      (recoverable : Recoverable signal w prior) :
      StrictCommit P C cfg env signal flow final evaluated_nodes w (.ok (.answered prior)) w'
  | raised {w' : World σ} {e : PyError}
      (not_accepted : ¬ Accepted P C cfg env signal flow final evaluated_nodes w) :
      StrictCommit P C cfg env signal flow final evaluated_nodes w (.error e) w'

/-- **The commit gate.** Whatever the ledger does, only the ledger is used, and `evaluate` goes on
only when every append was accepted. -/
theorem strict_commit_cases (P : Platform) (C : LedgerBackend σ) (env : Env) (signal : Signal)
    (flow : DecisionFlow) (hs : cfg.strict) (final : DecisionResult)
    (evaluated_nodes : List PyDict) (w : World σ) :
    LedgerOnly w (strict_commit P C cfg env signal flow final evaluated_nodes w).2 ∧
      StrictCommit P C cfg env signal flow final evaluated_nodes w
        (strict_commit P C cfg env signal flow final evaluated_nodes w).1
        (strict_commit P C cfg env signal flow final evaluated_nodes w).2 := by
  rw [strict_commit_eq hs]
  have hframe := ledgerOnly_commit (P := P) (C := C) cfg.schema_version
    (commit_trace env signal flow final evaluated_nodes).1
    (commit_trace env signal flow final evaluated_nodes).2 w
  rcases hr : commit (client C) P cfg.schema_version
      (commit_trace env signal flow final evaluated_nodes).1
      (commit_trace env signal flow final evaluated_nodes).2 w with ⟨e | ledger_result, w'⟩
  · rw [hr] at hframe
    rw [Exec.run_bind_error _ hr]
    refine ⟨hframe, .raised ?_⟩
    rintro ⟨ledger_result, hok, -⟩
    rw [hr] at hok
    exact nomatch hok
  rw [hr] at hframe
  have hnot : ledger_result.status ≠ .accepted →
      ¬ Accepted P C cfg env signal flow final evaluated_nodes w := by
    rintro hne ⟨ledger_result', hok, hacc⟩
    rw [hr] at hok
    obtain rfl := Except.ok.inj hok
    exact hne hacc
  rw [Exec.run_bind_ok _ hr]
  by_cases hacc : ledger_result.status = .accepted
  · rw [if_pos hacc]
    obtain ⟨events, answers, hbuild, happends, hall⟩ := commit_accepted hr hacc
    refine ⟨hframe, .accepted ⟨ledger_result, ?_, hacc⟩ hbuild happends hall⟩
    rw [hr]
  · rw [if_neg hacc]
    by_cases hdup : ledger_result.status = .duplicate
    · -- committed before: what the stores know of it is returned
      rw [if_pos hdup]
      obtain ⟨hrframe, hprior⟩ :=
        recover_prior_result_cases C cfg env signal ledger_result.event_ids w'
      rcases hrec : recover_prior_result C cfg env signal ledger_result.event_ids w'
        with ⟨e | _ | prior, w''⟩
      · rw [hrec] at hrframe
        rw [Exec.run_bind_error _ hrec]
        exact ⟨hframe.trans hrframe, .raised (hnot hacc)⟩
      · rw [hrec] at hrframe
        rw [Exec.run_bind_ok _ hrec]
        exact ⟨hframe.trans hrframe, .refused (hnot hacc)⟩
      · rw [hrec] at hrframe hprior
        rw [Exec.run_bind_ok _ hrec]
        exact ⟨hframe.trans hrframe, .recovered (hnot hacc)
          (hframe.recoverable (hprior prior rfl))⟩
    · rw [if_neg hdup]
      exact ⟨hframe, .refused (hnot hacc)⟩

theorem strict_commit_not_strict (hs : ¬ cfg.strict) (final : DecisionResult)
    (evaluated_nodes : List PyDict) (w : World σ) :
    strict_commit P C cfg env signal flow final evaluated_nodes w = (.ok (.proceed final), w) := by
  rw [strict_commit, if_neg hs]
  rfl

/-! ## The dispatch -/

/-- What a dependency has taken in when the call returns or raises. -/
def taken {α : Type} (fault : Fault) (a : α) : List α := if fault = .before then [] else [a]

/-- How the call to a dependency ends. -/
def ending (fault : Fault) : Except PyError Unit :=
  if fault = .none then .ok () else .error (.external "dependency failed")

/-- What a dependency has taken in, if there is one: nothing, or the one thing it was given. -/
theorem taken_cases {α : Type} (wired : Bool) (fault : Fault) (a : α) :
    (if wired then taken fault a else []) = [] ∨
      wired = true ∧ (if wired then taken fault a else []) = [a] := by
  by_cases hw : wired = true
  · rw [if_pos hw, taken]
    by_cases hf : fault = .before
    · exact Or.inl (if_pos hf)
    · exact Or.inr ⟨hw, if_neg hf⟩
  · exact Or.inl (if_neg hw)

/-- The world after `EventBus.publish`, if there is an event bus. -/
def event_published (wired : Bool) (fault : Fault) (event : RuntimeEvent) (w : World σ) :
    World σ :=
  { w with
    event_bus := w.event_bus ++ (if wired then taken fault event else [])
    calls := w.calls ++ if wired then [.publish_event event] else [] }

/-- The world after `ExecutionPublisher.publish`, if there is a publisher. -/
def execution_published (wired : Bool) (fault : Fault) (event : RuntimeEvent) (w : World σ) :
    World σ :=
  { w with
    execution_publisher := w.execution_publisher ++ (if wired then taken fault event else [])
    calls := w.calls ++ if wired then [.publish_execution event] else [] }

theorem publish_event_run (wired : Bool) (fault : Fault) (event : RuntimeEvent) (w : World σ) :
    when_wired wired (publish_event fault event) w =
      (if wired then ending fault else .ok (), event_published wired fault event w) := by
  unfold event_published
  rcases wired with _ | _
  · simp only [when_wired, Bool.false_eq_true, if_false, List.append_nil]
    rfl
  · simp only [when_wired, if_true]
    rcases fault with _ | _ | _
    · rfl
    · rw [taken, if_pos rfl, List.append_nil]
      rfl
    · rfl

theorem publish_execution_run (wired : Bool) (fault : Fault) (event : RuntimeEvent)
    (w : World σ) :
    when_wired wired (publish_execution fault event) w =
      (if wired then ending fault else .ok (), execution_published wired fault event w) := by
  unfold execution_published
  rcases wired with _ | _
  · simp only [when_wired, Bool.false_eq_true, if_false, List.append_nil]
    rfl
  · simp only [when_wired, if_true]
    rcases fault with _ | _ | _
    · rfl
    · rw [taken, if_pos rfl, List.append_nil]
      rfl
    · rfl

/-- A confirmed result with its execution id. -/
def requested (env : Env) (final : DecisionResult) : DecisionResult :=
  { final with execution_id := some env.execution_id.str }

/-- The event of a confirmed result. -/
def request_event (env : Env) (final : DecisionResult) : RuntimeEvent :=
  execution_event env (requested env final)

/-- Only the event bus and the publisher have been used, and only for `event`. -/
structure HandsOver (event : RuntimeEvent) (w w' : World σ) : Prop where
  human_gate_manager : w'.human_gate_manager = w.human_gate_manager
  trace_store : w'.trace_store = w.trace_store
  idempotency_store : w'.idempotency_store = w.idempotency_store
  ledger : w'.ledger = w.ledger
  calls : ∃ handed, w'.calls = w.calls ++ handed ∧ ∀ x ∈ handed, x.published = some event
  event_bus : w'.event_bus = w.event_bus ∨
    w'.event_bus = w.event_bus ++ [event] ∧ .publish_event event ∈ w'.calls
  execution_publisher : w'.execution_publisher = w.execution_publisher ∨
    w'.execution_publisher = w.execution_publisher ++ [event]
      ∧ .publish_execution event ∈ w'.calls

/-- The world after both publishes of `event` have been made. -/
def handed_over (cfg : EngineConfig) (event : RuntimeEvent) (w : World σ) : World σ :=
  { w with
    event_bus := w.event_bus ++ (if cfg.event_bus then [event] else [])
    execution_publisher :=
      w.execution_publisher ++ (if cfg.execution_publisher then [event] else [])
    calls := w.calls ++ ((if cfg.event_bus then [.publish_event event] else [])
      ++ if cfg.execution_publisher then [.publish_execution event] else []) }

/-- The ways a dispatch can end. -/
inductive Dispatch (cfg : EngineConfig) (env : Env) (final : DecisionResult) (w : World σ) :
    Except PyError DecisionResult → World σ → Prop
  | skipped (status : final.status ≠ .confirmed) : Dispatch cfg env final w (.ok final) w
  | done (status : final.status = .confirmed)
      (event_bus : cfg.event_bus = true → env.event_bus_fault = .none)
      (execution_publisher : cfg.execution_publisher = true →
        env.execution_publisher_fault = .none) :
      Dispatch cfg env final w (.ok (requested env final))
        (handed_over cfg (request_event env final) w)
  | raised {w' : World σ} {e : PyError} (status : final.status = .confirmed)
      (why : (cfg.event_bus = true ∧ env.event_bus_fault ≠ .none) ∨
        (cfg.execution_publisher = true ∧ env.execution_publisher_fault ≠ .none))
      (event_bus : w'.event_bus = w.event_bus ++
        if cfg.event_bus then taken env.event_bus_fault (request_event env final) else []) :
      Dispatch cfg env final w (.error e) w'

/-- A call that is made only when its dependency is wired publishes what it is for. -/
theorem published_of_mem {wired : Bool} {event : RuntimeEvent} {call x : ExternalCall}
    (hcall : call.published = some event) (hx : x ∈ if wired then [call] else []) :
    x.published = some event := by
  by_cases hw : wired = true
  · rw [if_pos hw] at hx
    rw [List.mem_singleton.mp hx]
    exact hcall
  · rw [if_neg hw] at hx
    exact nomatch hx

/-- `EventBus.publish` hands the event over to the event bus or to nobody. -/
theorem handsOver_event_published (wired : Bool) (fault : Fault) (event : RuntimeEvent)
    (w : World σ) : HandsOver event w (event_published wired fault event w) := by
  refine ⟨rfl, rfl, rfl, rfl, ⟨_, rfl, ?_⟩, ?_, Or.inl rfl⟩
  · exact fun x hx => published_of_mem rfl hx
  · rcases taken_cases wired fault event with hnone | ⟨hw, hone⟩
    · refine Or.inl ?_
      rw [event_published, hnone, List.append_nil]
    · refine Or.inr ⟨?_, ?_⟩
      · rw [event_published, hone]
      · apply List.mem_append_right
        rw [if_pos hw]
        exact List.mem_singleton_self _

/-- `ExecutionPublisher.publish` comes after, and hands the same event over. -/
theorem HandsOver.execution_published {event : RuntimeEvent} {w w₁ : World σ}
    (h : HandsOver event w w₁) (hfirst : w₁.execution_publisher = w.execution_publisher)
    (wired : Bool) (fault : Fault) :
    HandsOver event w (execution_published wired fault event w₁) := by
  obtain ⟨handed, hcalls, hpublished⟩ := h.calls
  refine ⟨h.human_gate_manager, h.trace_store, h.idempotency_store, h.ledger,
    ⟨handed ++ if wired then [.publish_execution event] else [], ?_, ?_⟩, ?_, ?_⟩
  · rw [DecisionRuntimeEngine.execution_published, hcalls, List.append_assoc]
  · intro x hx
    rcases List.mem_append.mp hx with hx | hx
    · exact hpublished x hx
    · exact published_of_mem rfl hx
  · rcases h.event_bus with heq | ⟨heq, hmem⟩
    · exact Or.inl heq
    · exact Or.inr ⟨heq, List.mem_append_left _ hmem⟩
  · rcases taken_cases wired fault event with hnone | ⟨hw, hone⟩
    · refine Or.inl ?_
      rw [DecisionRuntimeEngine.execution_published, hnone, List.append_nil, hfirst]
    · refine Or.inr ⟨?_, ?_⟩
      · rw [DecisionRuntimeEngine.execution_published, hone, hfirst]
      · apply List.mem_append_right
        rw [if_pos hw]
        exact List.mem_singleton_self _

/-- A call that is made, and ends normally, has taken the event in. -/
theorem ending_ok {wired : Bool} {fault : Fault}
    (h : (if wired then ending fault else .ok ()) = Except.ok ()) :
    wired = true → fault = .none := by
  intro hw
  rw [if_pos hw, ending] at h
  by_contra hf
  rw [if_neg hf] at h
  exact nomatch h

theorem ending_error {wired : Bool} {fault : Fault} {e : PyError}
    (h : (if wired then ending fault else .ok ()) = Except.error e) :
    wired = true ∧ fault ≠ .none := by
  by_cases hw : wired = true
  · refine ⟨hw, ?_⟩
    rintro rfl
    rw [if_pos hw] at h
    exact nomatch h
  · rw [if_neg hw] at h
    exact nomatch h

theorem taken_of_ok {α : Type} {wired : Bool} {fault : Fault} (h : wired = true → fault = .none)
    (a : α) : (if wired then taken fault a else []) = if wired then [a] else [] := by
  by_cases hw : wired = true
  · rw [if_pos hw, if_pos hw, h hw]
    rfl
  · rw [if_neg hw, if_neg hw]

/-- When nothing fails, the two publishes come to `handed_over`. -/
theorem published_eq_handed_over
    (hbus : cfg.event_bus = true → env.event_bus_fault = .none)
    (hpub : cfg.execution_publisher = true → env.execution_publisher_fault = .none)
    (event : RuntimeEvent) (w : World σ) :
    execution_published cfg.execution_publisher env.execution_publisher_fault event
        (event_published cfg.event_bus env.event_bus_fault event w)
      = handed_over cfg event w := by
  unfold execution_published event_published handed_over
  rw [taken_of_ok hbus, taken_of_ok hpub, List.append_assoc]

/-- **The dispatch.** At most one event is handed over, that of the result, and only a confirmed
result has one. -/
theorem dispatch_cases (cfg : EngineConfig) (env : Env) (final : DecisionResult) (w : World σ) :
    (HandsOver (request_event env final) w (dispatch cfg env final w).2 ∨
        (dispatch cfg env final w).2 = w) ∧
      Dispatch cfg env final w (dispatch cfg env final w).1 (dispatch cfg env final w).2 := by
  by_cases hs : final.status = .confirmed
  swap
  · have hskip : dispatch cfg env final w = (.ok final, w) := by
      rw [dispatch, if_neg hs]
      rfl
    rw [hskip]
    exact ⟨Or.inr rfl, .skipped hs⟩
  have hrun : dispatch cfg env final w
      = (when_wired cfg.event_bus (publish_event env.event_bus_fault (request_event env final))
        >>= fun _ => when_wired cfg.execution_publisher
          (publish_execution env.execution_publisher_fault (request_event env final))
        >>= fun _ => pure (requested env final)) w := by
    rw [dispatch, if_pos hs]
    rfl
  have hbus := publish_event_run cfg.event_bus env.event_bus_fault (request_event env final) w
  have hfirst := handsOver_event_published cfg.event_bus env.event_bus_fault
    (request_event env final) w
  rcases hend : (if cfg.event_bus then ending env.event_bus_fault else .ok ()) with e | _
  · -- the event bus raised
    rw [hend] at hbus
    rw [hrun, Exec.run_bind_error _ hbus]
    exact ⟨Or.inl hfirst, .raised hs (Or.inl (ending_error hend)) rfl⟩
  rw [hend] at hbus
  rw [hrun, Exec.run_bind_ok _ hbus]
  have hpub := publish_execution_run cfg.execution_publisher env.execution_publisher_fault
    (request_event env final)
    (event_published cfg.event_bus env.event_bus_fault (request_event env final) w)
  have hboth := hfirst.execution_published rfl cfg.execution_publisher
    env.execution_publisher_fault
  rcases hend' : (if cfg.execution_publisher then ending env.execution_publisher_fault
      else .ok ()) with e | _
  · -- the publisher raised, after the event bus has taken the event in
    rw [hend'] at hpub
    rw [Exec.run_bind_error _ hpub]
    exact ⟨Or.inl hboth, .raised hs (Or.inr (ending_error hend')) rfl⟩
  · -- both have taken it in
    rw [hend'] at hpub
    rw [Exec.run_bind_ok _ hpub, Exec.run_pure]
    have hok := ending_ok hend
    have hok' := ending_ok hend'
    rw [published_eq_handed_over hok hok'] at hboth ⊢
    exact ⟨Or.inl hboth, .done hs hok hok'⟩

/-! ## Remembering and storing -/

/-- The idempotency store after `remember`. -/
def remembered (cfg : EngineConfig) (signal : Signal) (final : DecisionResult)
    (store : IdempotencyStore) : IdempotencyStore :=
  if cfg.strict ∧ nonempty signal.idempotency_key ∧ cfg.idempotency_store then
    store.set (signal.idempotency_key.getD "") final
  else store

theorem remember_run (final : DecisionResult) (w : World σ) :
    remember cfg signal final w = (.ok (),
      { w with idempotency_store := remembered cfg signal final w.idempotency_store }) := by
  unfold remember remembered
  split_ifs
  · rfl
  · rfl

/-- The trace that is stored, and the result as the validator left it. -/
def stored_trace (env : Env) (signal : Signal) (flow : DecisionFlow) (final : DecisionResult)
    (evaluated_nodes : List PyDict) : DecisionTrace × DecisionResult :=
  create_trace env.completed_at signal flow final evaluated_nodes

/-- The result that `evaluate` returns. -/
def persisted (cfg : EngineConfig) (final : DecisionResult) : DecisionResult :=
  if cfg.trace_store ∨ cfg.parallel then final.populate_canonical_fields else final

/-- The world after the trace was stored. -/
def traced (cfg : EngineConfig) (env : Env) (signal : Signal) (flow : DecisionFlow)
    (final : DecisionResult) (evaluated_nodes : List PyDict) (w : World σ) : World σ :=
  { w with
    trace_store :=
      if cfg.trace_store then
        w.trace_store.save (stored_trace env signal flow final evaluated_nodes).1
      else w.trace_store }

/-- The world after the commit of the parallel mode. -/
def committed_after (P : Platform) (C : LedgerBackend σ) (cfg : EngineConfig)
    (trace : DecisionTrace × DecisionResult) (w : World σ) : World σ :=
  if cfg.parallel then (commit (client C) P cfg.schema_version trace.1 trace.2 w).2 else w

theorem save_trace_run (wired : Bool) (fault : Fault) (trace : DecisionTrace) (w : World σ) :
    when_wired wired (save_trace fault trace) w =
      (if wired then ending fault else .ok (),
        { w with
          trace_store := if wired ∧ fault ≠ .before then w.trace_store.save trace
            else w.trace_store }) := by
  rcases wired with _ | _
  · rfl
  · rcases fault with _ | _ | _ <;> rfl

/-- The commit of the parallel mode never raises. -/
theorem parallel_commit_run (trace : DecisionTrace × DecisionResult) (w : World σ) :
    when_wired cfg.parallel (parallel_commit P C cfg trace.1 trace.2) w
      = (.ok (), committed_after P C cfg trace w) := by
  by_cases hp : cfg.parallel
  · rw [committed_after, if_pos hp, when_wired, if_pos (decide_eq_true hp), parallel_commit]
    rcases hc : commit (client C) P cfg.schema_version trace.1 trace.2 w with ⟨e | r, w'⟩
    · rw [Exec.run_tryExcept_error (Exec.run_bind_error _ hc)]
      rfl
    · have hret := Exec.run_bind_ok (fun _ => (pure () : Exec PyError (World σ) Unit)) hc
      exact Exec.run_tryExcept_ok hret
  · rw [committed_after, if_neg hp, when_wired, if_neg (by simpa using hp)]
    rfl

/-- **The trace, stored.** The store holds it, the ledger may have been written, and the result is
the validated one, whatever becomes of a parallel commit. -/
theorem persist_run (hsave : cfg.trace_store = true → env.trace_store_fault = .none)
    (final : DecisionResult) (evaluated_nodes : List PyDict) (w : World σ) :
    persist P C cfg env signal flow final evaluated_nodes w =
      (.ok (persisted cfg final),
        committed_after P C cfg (stored_trace env signal flow final evaluated_nodes)
          (traced cfg env signal flow final evaluated_nodes w)) := by
  unfold persist persisted
  split_ifs with h
  swap
  · -- neither a trace store nor a parallel commit, so no trace is made
    rw [not_or] at h
    have hw : traced cfg env signal flow final evaluated_nodes w = w := by
      rw [traced, if_neg h.1]
    rw [committed_after, if_neg h.2, hw]
    rfl
  · have hst := save_trace_run cfg.trace_store env.trace_store_fault
      (stored_trace env signal flow final evaluated_nodes).1 w
    have hend : (if cfg.trace_store then ending env.trace_store_fault else .ok ())
        = Except.ok () := by
      by_cases hw : cfg.trace_store = true
      · rw [if_pos hw, hsave hw]
        rfl
      · rw [if_neg hw]
    have hcond : (cfg.trace_store ∧ env.trace_store_fault ≠ .before) ↔ cfg.trace_store = true := by
      refine ⟨And.left, fun hw => ⟨hw, ?_⟩⟩
      rw [hsave hw]
      exact fun h => nomatch h
    rw [hend] at hst
    simp only [hcond] at hst
    refine (Exec.run_bind_ok _ hst).trans ?_
    exact Exec.run_bind_ok _ (parallel_commit_run
      (stored_trace env signal flow final evaluated_nodes) _)

/-- When the trace store raises, nothing else has been touched. -/
theorem persist_raised (P : Platform) (C : LedgerBackend σ) (signal : Signal)
    (flow : DecisionFlow) (hw : cfg.trace_store = true) (hf : env.trace_store_fault ≠ .none)
    (final : DecisionResult) (evaluated_nodes : List PyDict) (w : World σ) :
    ∃ e store, persist P C cfg env signal flow final evaluated_nodes w
      = (.error e, { w with trace_store := store })
      ∧ (store = w.trace_store ∨
        store = w.trace_store.save (stored_trace env signal flow final evaluated_nodes).1) := by
  have hst := save_trace_run cfg.trace_store env.trace_store_fault
    (stored_trace env signal flow final evaluated_nodes).1 w
  have hend : (if cfg.trace_store then ending env.trace_store_fault else .ok ())
      = Except.error (.external "dependency failed") := by
    rw [if_pos hw, ending, if_neg hf]
  rw [hend] at hst
  refine ⟨.external "dependency failed", if cfg.trace_store ∧ env.trace_store_fault ≠ .before
    then w.trace_store.save (stored_trace env signal flow final evaluated_nodes).1
    else w.trace_store, ?_, ?_⟩
  · rw [persist, if_pos (Or.inl hw)]
    exact Exec.run_bind_error _ hst
  · split_ifs
    · exact Or.inr rfl
    · exact Or.inl rfl

theorem ledgerOnly_committed_after (P : Platform) (C : LedgerBackend σ) (cfg : EngineConfig)
    (trace : DecisionTrace × DecisionResult) (w : World σ) :
    LedgerOnly w (committed_after P C cfg trace w) := by
  unfold committed_after
  split_ifs
  · exact ledgerOnly_commit cfg.schema_version trace.1 trace.2 w
  · exact LedgerOnly.refl w

/-! ## The whole of `evaluate` -/

/-- The world after `open_gate`. -/
def gated (cfg : EngineConfig) (env : Env) (core : DecisionResult) (w : World σ) : World σ :=
  { w with human_gate_manager := gates_opened cfg env core w.human_gate_manager }

/-- The result that passes the commit gate: in strict mode the validator has seen it. -/
def ready (cfg : EngineConfig) (env : Env) (core : DecisionResult) : DecisionResult :=
  if cfg.strict then (opened cfg env core).populate_canonical_fields else opened cfg env core

/-- The commit gate was passed: in strict mode every append was accepted, in any other the ledger
has not been touched. -/
structure Passed (P : Platform) (C : LedgerBackend σ) (cfg : EngineConfig) (env : Env)
    (signal : Signal) (flow : DecisionFlow) (core : DecisionResult)
    (evaluated_nodes : List PyDict) (w w₁ : World σ) : Prop where
  ledger_only : LedgerOnly (gated cfg env core w) w₁
  strict : cfg.strict → Accepted P C cfg env signal flow (opened cfg env core) evaluated_nodes
      (gated cfg env core w) ∧
    ∃ events answers, build_events P cfg.schema_version
        (commit_trace env signal flow (opened cfg env core) evaluated_nodes).1
        (commit_trace env signal flow (opened cfg env core) evaluated_nodes).2 = .ok events
      ∧ append_all (client C) events (gated cfg env core w) = (.ok answers, w₁)
      ∧ ∀ a ∈ answers, a.status = .accepted
  not_strict : ¬ cfg.strict → w₁ = gated cfg env core w

/-- The answer of an evaluation that did not pass the commit gate. -/
inductive Stopped (cfg : EngineConfig) (env : Env) (signal : Signal) (core : DecisionResult)
    (w : World σ) : Except PyError DecisionResult → Prop
  | refused (status : LedgerCommitStatus) : Stopped cfg env signal core w
      (.ok (DecisionRuntimeEngine.refused env status
        (opened cfg env core).populate_canonical_fields))
  | recovered {prior : DecisionResult} (h : Recoverable signal w prior) :
      Stopped cfg env signal core w (.ok prior)
  | raised (e : PyError) : Stopped cfg env signal core w (.error e)

/-- The world after `remember`. -/
def remembering (cfg : EngineConfig) (signal : Signal) (final : DecisionResult) (w : World σ) :
    World σ :=
  { w with idempotency_store := remembered cfg signal final w.idempotency_store }

/-- The ways an `evaluate` made in `w` can end, with the world it ends in. -/
inductive EvaluateRun (P : Platform) (C : LedgerBackend σ) (cfg : EngineConfig) (env : Env)
    (signal : Signal) (flow : DecisionFlow) (w : World σ) :
    Except PyError DecisionResult → World σ → Prop
  | invalid {e : PyError}
      (computed : PureEvaluate.pure_evaluate P env.draws signal flow = .error e) :
      EvaluateRun P C cfg env signal flow w (.error e) w
  | stopped {core : DecisionResult} {evaluated_nodes : List PyDict} {w' : World σ}
      {answer : Except PyError DecisionResult}
      (computed : PureEvaluate.pure_evaluate P env.draws signal flow
        = .ok (core, evaluated_nodes))
      (strict : cfg.strict) (ledger_only : LedgerOnly (gated cfg env core w) w')
      (not_accepted : ¬ Accepted P C cfg env signal flow (opened cfg env core) evaluated_nodes
        (gated cfg env core w))
      (answered : Stopped cfg env signal core w answer) :
      EvaluateRun P C cfg env signal flow w answer w'
  | undispatched {core : DecisionResult} {evaluated_nodes : List PyDict} {w₁ w' : World σ}
      {e : PyError}
      (computed : PureEvaluate.pure_evaluate P env.draws signal flow
        = .ok (core, evaluated_nodes))
      (passed : Passed P C cfg env signal flow core evaluated_nodes w w₁)
      (hands_over : HandsOver (request_event env (ready cfg env core)) w₁ w' ∨ w' = w₁)
      (dispatched : Dispatch cfg env (ready cfg env core) w₁ (.error e) w') :
      EvaluateRun P C cfg env signal flow w (.error e) w'
  | unsaved {core final : DecisionResult} {evaluated_nodes : List PyDict} {w₁ w₂ : World σ}
      {e : PyError} {store : TraceStore}
      (computed : PureEvaluate.pure_evaluate P env.draws signal flow
        = .ok (core, evaluated_nodes))
      (passed : Passed P C cfg env signal flow core evaluated_nodes w w₁)
      (hands_over : HandsOver (request_event env (ready cfg env core)) w₁ w₂ ∨ w₂ = w₁)
      (dispatched : Dispatch cfg env (ready cfg env core) w₁ (.ok final) w₂)
      (fault : cfg.trace_store = true ∧ env.trace_store_fault ≠ .none)
      (store_eq : store = w₂.trace_store ∨
        store = w₂.trace_store.save (stored_trace env signal flow final evaluated_nodes).1) :
      EvaluateRun P C cfg env signal flow w (.error e)
        { remembering cfg signal final w₂ with trace_store := store }
  | done {core final : DecisionResult} {evaluated_nodes : List PyDict} {w₁ w₂ : World σ}
      (computed : PureEvaluate.pure_evaluate P env.draws signal flow
        = .ok (core, evaluated_nodes))
      (passed : Passed P C cfg env signal flow core evaluated_nodes w w₁)
      (hands_over : HandsOver (request_event env (ready cfg env core)) w₁ w₂ ∨ w₂ = w₁)
      (dispatched : Dispatch cfg env (ready cfg env core) w₁ (.ok final) w₂)
      (saved : cfg.trace_store = true → env.trace_store_fault = .none) :
      EvaluateRun P C cfg env signal flow w (.ok (persisted cfg final))
        (committed_after P C cfg (stored_trace env signal flow final evaluated_nodes)
          (traced cfg env signal flow final evaluated_nodes (remembering cfg signal final w₂)))

/-- What follows the commit gate, given its answer. -/
def conclude (P : Platform) (C : LedgerBackend σ) (cfg : EngineConfig) (env : Env)
    (signal : Signal) (flow : DecisionFlow) (evaluated_nodes : List PyDict)
    (answer : GateAnswer) : Exec PyError (World σ) DecisionResult :=
  match answer with
  | .answered result => return result
  | .proceed final => finish P C cfg env signal flow final evaluated_nodes

/-- An `evaluate` that computes a decision opens its gate and goes on to the commit gate. -/
theorem evaluate_gated {core : DecisionResult} {evaluated_nodes : List PyDict}
    (computed : PureEvaluate.pure_evaluate P env.draws signal flow = .ok (core, evaluated_nodes))
    (w : World σ) : evaluate P C cfg env signal flow w =
      (strict_commit P C cfg env signal flow (opened cfg env core) evaluated_nodes
        >>= conclude P C cfg env signal flow evaluated_nodes) (gated cfg env core w) := by
  rw [evaluate, computed, Exec.run_lift_bind_ok]
  exact Exec.run_bind_ok _ (open_gate_run core w)

/-- An evaluation that passed the commit gate ends as `finish` does. -/
theorem finish_run {core : DecisionResult} {evaluated_nodes : List PyDict} {w w₁ : World σ}
    (computed : PureEvaluate.pure_evaluate P env.draws signal flow = .ok (core, evaluated_nodes))
    (passed : Passed P C cfg env signal flow core evaluated_nodes w w₁) :
    EvaluateRun P C cfg env signal flow w
      (finish P C cfg env signal flow (ready cfg env core) evaluated_nodes w₁).1
      (finish P C cfg env signal flow (ready cfg env core) evaluated_nodes w₁).2 := by
  obtain ⟨hands_over, hd⟩ := dispatch_cases cfg env (ready cfg env core) w₁
  rcases hr : dispatch cfg env (ready cfg env core) w₁ with ⟨e | final, w₂⟩
  · rw [hr] at hands_over hd
    rw [finish, Exec.run_bind_error _ hr]
    exact .undispatched computed passed hands_over hd
  · rw [hr] at hands_over hd
    rw [finish, Exec.run_bind_ok _ hr, Exec.run_bind_ok _ (remember_run final w₂)]
    by_cases hfault : cfg.trace_store = true ∧ env.trace_store_fault ≠ .none
    · obtain ⟨e, store, hp, hstore⟩ := persist_raised P C signal flow hfault.1 hfault.2 final
        evaluated_nodes (remembering cfg signal final w₂)
      have hp' : persist P C cfg env signal flow final evaluated_nodes
          { w₂ with idempotency_store := remembered cfg signal final w₂.idempotency_store }
          = (.error e, { remembering cfg signal final w₂ with trace_store := store }) := hp
      rw [hp']
      exact .unsaved computed passed hands_over hd hfault hstore
    · have hsave : cfg.trace_store = true → env.trace_store_fault = .none := by
        intro hw
        by_contra hf
        exact hfault ⟨hw, hf⟩
      rw [persist_run hsave]
      exact .done computed passed hands_over hd hsave

/-- **What an `evaluate` can do.** -/
theorem evaluate_run (P : Platform) (C : LedgerBackend σ) (cfg : EngineConfig) (env : Env)
    (signal : Signal) (flow : DecisionFlow) (w : World σ) :
    EvaluateRun P C cfg env signal flow w (evaluate P C cfg env signal flow w).1
      (evaluate P C cfg env signal flow w).2 := by
  rcases computed : PureEvaluate.pure_evaluate P env.draws signal flow with
    e | ⟨core, evaluated_nodes⟩
  · rw [evaluate, computed]
    exact .invalid computed
  rw [evaluate_gated computed]
  by_cases hs : cfg.strict
  swap
  · -- without strict mode the gate passes everything
    have hready : ready cfg env core = opened cfg env core := by rw [ready, if_neg hs]
    have passed : Passed P C cfg env signal flow core evaluated_nodes w (gated cfg env core w) :=
      ⟨LedgerOnly.refl _, fun h => absurd h hs, fun _ => rfl⟩
    rw [Exec.run_bind_ok _ (strict_commit_not_strict hs _ _ _), ← hready]
    exact finish_run computed passed
  have hready : ready cfg env core = (opened cfg env core).populate_canonical_fields := by
    rw [ready, if_pos hs]
  -- one of the four answers of the gate lets the evaluation go on
  obtain ⟨hframe, hc⟩ := strict_commit_cases P C env signal flow hs (opened cfg env core)
    evaluated_nodes (gated cfg env core w)
  rcases hr : strict_commit P C cfg env signal flow (opened cfg env core) evaluated_nodes
      (gated cfg env core w) with ⟨answer, w₁⟩
  rw [hr] at hframe hc
  dsimp only at hframe hc
  rcases hc with ⟨haccepted, hbuild, happends, hall⟩ | ⟨hnot⟩ | ⟨hnot, hrec⟩ | ⟨hnot⟩
  · rw [Exec.run_bind_ok _ hr, ← hready]
    exact finish_run computed ⟨hframe, fun _ => ⟨haccepted, _, _, hbuild, happends, hall⟩,
      fun h => absurd hs h⟩
  · rw [Exec.run_bind_ok _ hr]
    exact .stopped computed hs hframe hnot (.refused _)
  · rw [Exec.run_bind_ok _ hr]
    exact .stopped computed hs hframe hnot (.recovered hrec)
  · rw [Exec.run_bind_error _ hr]
    exact .stopped computed hs hframe hnot (.raised _)

/-- An evaluation whose commit is not accepted ends at the commit gate. -/
theorem evaluate_stopped (hs : cfg.strict) {core : DecisionResult} {evaluated_nodes : List PyDict}
    (computed : PureEvaluate.pure_evaluate P env.draws signal flow = .ok (core, evaluated_nodes))
    {w : World σ} (hnot : ¬ Accepted P C cfg env signal flow (opened cfg env core) evaluated_nodes
      (gated cfg env core w)) :
    LedgerOnly (gated cfg env core w) (evaluate P C cfg env signal flow w).2 ∧
      Stopped cfg env signal core w (evaluate P C cfg env signal flow w).1 := by
  have hrun := evaluate_run P C cfg env signal flow w
  generalize (evaluate P C cfg env signal flow w).1 = answer at hrun ⊢
  generalize (evaluate P C cfg env signal flow w).2 = w' at hrun ⊢
  rcases hrun with ⟨invalid⟩ | ⟨computed', _, hframe, _, hstopped⟩ | ⟨computed', passed⟩
    | ⟨computed', passed⟩ | ⟨computed', passed⟩
  case invalid => exact nomatch computed.symm.trans invalid
  all_goals obtain ⟨rfl, rfl⟩ := except_pair_unique computed computed'
  case stopped => exact ⟨hframe, hstopped⟩
  all_goals exact absurd (passed.strict hs).1 hnot

end DecisionRuntime.DecisionRuntimeEngine
