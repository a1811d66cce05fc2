/-
Runs of one engine: its calls, and the calls that resolve the gates it opens.

Two things are the same for every property of runs and are proved here once. The
results that a call can hand back without computing them are those of earlier
calls (`Known`), so a result that carries the id its own call drew is a fresh one
(`fresh`). And what a call that is not an `evaluate` touches is the gates.
-/
import DecisionRuntime.EngineBlocks
import DecisionRuntime.History

set_option autoImplicit false

namespace DecisionRuntime

/-- A call of a run, with what it draws. -/
inductive EngineCall
  | evaluate (env : Env) (signal : Signal) (flow : DecisionFlow)
  | simulate (draws : Draws) (completed_at : Datetime) (signal : Signal) (flow : DecisionFlow)
  | approve (now : Datetime) (request_id actor_id : String) (comment : Option String)
      (actor_roles : Option (List String))
  | reject (now : Datetime) (request_id actor_id : String) (comment : Option String)
      (actor_roles : Option (List String))

/-- No call to the event bus, the publisher or the trace store raises. -/
structure Env.Clean (env : Env) : Prop where
  event_bus : env.event_bus_fault = .none
  execution_publisher : env.execution_publisher_fault = .none
  trace_store : env.trace_store_fault = .none

namespace EngineCall

/-- The ids the call draws. -/
def drawn : EngineCall → List UUID
  | .evaluate env _ _ => env.drawn
  | .simulate draws _ _ _ => [draws.trace_id, draws.decision_id]
  | .approve _ _ _ _ _ | .reject _ _ _ _ _ => []

/-- No call to the outside raises. -/
def Clean : EngineCall → Prop
  | .evaluate env _ _ => env.Clean
  | _ => True

variable {σ : Type}

/-- A call of the gate manager. -/
def on_gates {α : Type} (x : Exec PyError HumanGateManager α) : Exec PyError (World σ) α :=
  Exec.zoom World.human_gate_manager (fun m w => { w with human_gate_manager := m }) x

/-- The call itself. -/
def run (P : Platform) (C : LedgerBackend σ) (cfg : EngineConfig) :
    EngineCall → Exec PyError (World σ) DecisionResult
  | .evaluate env signal flow => DecisionRuntimeEngine.evaluate P C cfg env signal flow
  | .simulate draws completed_at signal flow => Exec.lift
      ((DecisionRuntimeEngine.simulate P signal flow draws completed_at).map Prod.fst)
  | .approve now request_id _ comment actor_roles =>
    on_gates (HumanGateManager.approve now request_id comment actor_roles)
  | .reject now request_id _ comment actor_roles =>
    on_gates (HumanGateManager.reject now request_id comment actor_roles)

end EngineCall

/-- One call of a run, with the world before and after it. -/
abbrev EngineEntry (σ : Type) := Entry EngineCall PyError (World σ) DecisionResult

namespace DecisionRuntimeEngine

variable {σ : Type} {P : Platform} {C : LedgerBackend σ} {cfg : EngineConfig} {env : Env}
  {signal : Signal} {flow : DecisionFlow}

/-! ## The ids of a result -/

section Ids

variable {core final : DecisionResult} {evaluated_nodes : List PyDict} {w w' : World σ}

@[simp] theorem ready_status : (ready cfg env core).status = core.status := by
  unfold ready
  split_ifs
  · rw [DecisionResult.canonical_status, opened_status]
  · rw [opened_status]

@[simp] theorem ready_id : (ready cfg env core).id = core.id := by
  unfold ready
  split_ifs
  · rw [DecisionResult.canonical_id, opened_id]
  · rw [opened_id]

@[simp] theorem ready_trace_id : (ready cfg env core).trace_id = core.trace_id := by
  unfold ready
  split_ifs
  · rw [DecisionResult.canonical_trace_id, opened_trace_id]
  · rw [opened_trace_id]

@[simp] theorem ready_execution_id :
    (ready cfg env core).execution_id = core.execution_id := by
  unfold ready
  split_ifs
  · rw [DecisionResult.canonical_execution_id, opened_execution_id]
  · rw [opened_execution_id]

@[simp] theorem persisted_id : (persisted cfg final).id = final.id := by
  unfold persisted
  split_ifs <;> rfl

@[simp] theorem persisted_trace_id : (persisted cfg final).trace_id = final.trace_id := by
  unfold persisted
  split_ifs <;> rfl

@[simp] theorem persisted_status : (persisted cfg final).status = final.status := by
  unfold persisted
  split_ifs <;> rfl

@[simp] theorem persisted_execution_id :
    (persisted cfg final).execution_id = final.execution_id := by
  unfold persisted
  split_ifs <;> rfl

/-- The result of a dispatch is the one that was dispatched, up to its execution id. -/
theorem Dispatch.result (h : Dispatch cfg env core w (.ok final) w') :
    final = core ∧ core.status ≠ .confirmed ∧ w' = w ∨
      final = requested env core ∧ core.status = .confirmed
        ∧ w' = handed_over cfg (request_event env core) w := by
  rcases h with hst | hst
  · exact Or.inl ⟨rfl, hst, rfl⟩
  · exact Or.inr ⟨rfl, hst, rfl⟩

theorem Dispatch.ids (h : Dispatch cfg env core w (.ok final) w') :
    final.id = core.id ∧ final.trace_id = core.trace_id ∧ final.status = core.status := by
  rcases h.result with ⟨rfl, -⟩ | ⟨rfl, -⟩
  · exact ⟨rfl, rfl, rfl⟩
  · exact ⟨rfl, rfl, rfl⟩

end Ids

/-! ## Up to the dispatch -/

/-- Of the gates and the two stores, only the gates have been written, to open one. -/
structure UpToDispatch (cfg : EngineConfig) (env : Env) (core : DecisionResult) (w w' : World σ) :
    Prop where
  human_gate_manager : w'.human_gate_manager = gates_opened cfg env core w.human_gate_manager
  trace_store : w'.trace_store = w.trace_store
  idempotency_store : w'.idempotency_store = w.idempotency_store

/-- An `evaluate` that has passed its commit gate and made its dispatch. -/
theorem upToDispatch {env : Env} {signal : Signal} {flow : DecisionFlow} {core : DecisionResult}
    {evaluated_nodes : List PyDict} {event : RuntimeEvent} {w w₁ w₂ : World σ}
    (passed : Passed P C cfg env signal flow core evaluated_nodes w w₁)
    (hands_over : HandsOver event w₁ w₂ ∨ w₂ = w₁) : UpToDispatch cfg env core w w₂ := by
  have hframe := passed.ledger_only
  rcases hands_over with hho | rfl
  · exact ⟨hho.human_gate_manager.trans hframe.human_gate_manager,
      hho.trace_store.trans hframe.trace_store,
      hho.idempotency_store.trans hframe.idempotency_store⟩
  · exact ⟨hframe.human_gate_manager, hframe.trace_store, hframe.idempotency_store⟩

/-! ## Fresh results -/

/-- The result of an `evaluate` that computed it: it carries the id this very call drew. -/
def fresh (t : EngineEntry σ) : Option DecisionResult :=
  match t.call, t.answer with
  | .evaluate env _ _, .ok result =>
    if result.id = env.draws.decision_id then some result else none
  | _, _ => none

theorem fresh_eq_some {t : EngineEntry σ} {result : DecisionResult} (h : fresh t = some result) :
    t.answer = .ok result ∧ ∃ env signal flow, t.call = .evaluate env signal flow
      ∧ result.id = env.draws.decision_id := by
  unfold fresh at h
  split at h
  · next env signal flow r hcall hanswer =>
    split_ifs at h with hid
    obtain rfl := Option.some.inj h
    exact ⟨hanswer, env, signal, flow, hcall, hid⟩
  · exact nomatch h

/-- The results that a later call may hand back satisfy `p`. -/
structure Stored (p : DecisionResult → Prop) (w : World σ) : Prop where
  remembered : ∀ key result, w.idempotency_store.get key = some result → p result
  traced : ∀ decision_id trace, w.trace_store.get_by_decision_id decision_id = .ok trace →
    ∀ result, trace.decision_results.head? = some result → p result

section Stored

variable {p : DecisionResult → Prop} {w w' : World σ}

theorem stored_init (p : DecisionResult → Prop) (s : σ) : Stored p (World.init s) where
  remembered _ _ h := nomatch h
  traced _ _ h := nomatch h

theorem Stored.mono {q : DecisionResult → Prop} (h : Stored p w) (hpq : ∀ r, p r → q r) :
    Stored q w :=
  ⟨fun key result hk => hpq _ (h.remembered key result hk),
    fun d trace ht result hr => hpq _ (h.traced d trace ht result hr)⟩

theorem Stored.of_eq (h : Stored p w) (hidem : w'.idempotency_store = w.idempotency_store)
    (htrace : w'.trace_store = w.trace_store) : Stored p w' := by
  refine ⟨?_, ?_⟩
  · rw [hidem]
    exact h.remembered
  · rw [htrace]
    exact h.traced

theorem Stored.recoverable (h : Stored p w) {prior : DecisionResult}
    (hr : Recoverable signal w prior) : p prior := by
  rcases hr with ⟨key, -, hget⟩ | ⟨d, trace, hget, hhead⟩
  · exact h.remembered key prior hget
  · exact h.traced d trace hget prior hhead

theorem Stored.remembering (h : Stored p w) (cfg : EngineConfig) (signal : Signal)
    {final : DecisionResult} (hfinal : p final) :
    Stored p (remembering cfg signal final w) := by
  refine ⟨?_, h.traced⟩
  intro key result hget
  have hstore : (DecisionRuntimeEngine.remembering cfg signal final w).idempotency_store
      = DecisionRuntimeEngine.remembered cfg signal final w.idempotency_store := rfl
  rw [hstore, DecisionRuntimeEngine.remembered] at hget
  split_ifs at hget with hcond
  · rw [Dict.get_set] at hget
    split_ifs at hget with hkey
    · obtain rfl := Option.some.inj hget
      exact hfinal
    · exact h.remembered key result hget
  · exact h.remembered key result hget

theorem Stored.save (h : Stored p w) {trace : DecisionTrace}
    (hnew : ∀ result, trace.decision_results.head? = some result → p result) :
    Stored p { w with trace_store := w.trace_store.save trace } := by
  refine ⟨h.remembered, ?_⟩
  intro d trace' hget result hhead
  rcases TraceStore.get_by_decision_id_save hget with rfl | hold
  · exact hnew result hhead
  · exact h.traced d trace' hold result hhead

/-- **What an `evaluate` leaves behind** are the results of earlier calls, and its own when it
passed the commit gate. -/
theorem Stored.evaluate (h : Stored p w) (env : Env) (signal : Signal) (flow : DecisionFlow)
    (hown : ∀ {core evaluated_nodes w₁ final w₂},
      PureEvaluate.pure_evaluate P env.draws signal flow = .ok (core, evaluated_nodes) →
      Passed P C cfg env signal flow core evaluated_nodes w w₁ →
      Dispatch cfg env (ready cfg env core) w₁ (.ok final) w₂ →
      p final ∧ p final.populate_canonical_fields) :
    Stored p (DecisionRuntimeEngine.evaluate P C cfg env signal flow w).2 := by
  have hdispatched : ∀ {core} {w₂ : World σ}, UpToDispatch cfg env core w w₂ → Stored p w₂ :=
    fun hup => h.of_eq hup.idempotency_store hup.trace_store
  have hrun := evaluate_run P C cfg env signal flow w
  generalize (DecisionRuntimeEngine.evaluate P C cfg env signal flow w).1 = answer at hrun
  generalize (DecisionRuntimeEngine.evaluate P C cfg env signal flow w).2 = w' at hrun ⊢
  rcases hrun with _ | ⟨_, _, hframe⟩ | ⟨_, passed, hho⟩
    | ⟨computed, passed, hho, hd, _, hstore⟩ | ⟨computed, passed, hho, hd⟩
  case invalid => exact h
  case stopped => exact h.of_eq hframe.idempotency_store hframe.trace_store
  case undispatched => exact hdispatched (upToDispatch passed hho)
  case unsaved =>
    obtain ⟨hfinal, hvalidated⟩ := hown computed passed hd
    have h₂ := (hdispatched (upToDispatch passed hho)).remembering cfg signal hfinal
    -- the trace store raised before it had saved the trace, or after
    rcases hstore with rfl | rfl
    · exact h₂.of_eq rfl rfl
    · refine h₂.save ?_
      intro result hhead
      obtain rfl := Option.some.inj hhead
      exact hvalidated
  case done =>
    obtain ⟨hfinal, hvalidated⟩ := hown computed passed hd
    have h₂ := (hdispatched (upToDispatch passed hho)).remembering cfg signal hfinal
    have hframe := ledgerOnly_committed_after P C cfg
    refine Stored.of_eq ?_ (hframe _ _).idempotency_store (hframe _ _).trace_store
    unfold DecisionRuntimeEngine.traced
    split_ifs
    · refine h₂.save ?_
      intro result hhead
      obtain rfl := Option.some.inj hhead
      exact hvalidated
    · exact h₂.of_eq rfl rfl

end Stored

/-- The results that a later call may hand back have ids that satisfy `p`. -/
structure Known (p : UUID → Prop) (w : World σ) : Prop where
  remembered : ∀ key result, w.idempotency_store.get key = some result → p result.id
  traced : ∀ decision_id trace, w.trace_store.get_by_decision_id decision_id = .ok trace →
    ∀ result, trace.decision_results.head? = some result → p result.id

section Known

variable {p : UUID → Prop} {w w' : World σ}

theorem known_init (p : UUID → Prop) (s : σ) : Known p (World.init s) where
  remembered _ _ h := nomatch h
  traced _ _ h := nomatch h

theorem Known.mono {q : UUID → Prop} (h : Known p w) (hpq : ∀ u, p u → q u) : Known q w :=
  ⟨fun key result hk => hpq _ (h.remembered key result hk),
    fun d trace ht result hr => hpq _ (h.traced d trace ht result hr)⟩

/-- A property of the ids is a property of the results. -/
theorem known_iff_stored : Known p w ↔ Stored (fun result => p result.id) w :=
  ⟨fun h => ⟨h.remembered, h.traced⟩, fun h => ⟨h.remembered, h.traced⟩⟩

theorem Known.of_eq (h : Known p w) (hidem : w'.idempotency_store = w.idempotency_store)
    (htrace : w'.trace_store = w.trace_store) : Known p w' :=
  known_iff_stored.mpr ((known_iff_stored.mp h).of_eq hidem htrace)

theorem Known.recoverable (h : Known p w) {prior : DecisionResult}
    (hr : Recoverable signal w prior) : p prior.id :=
  (known_iff_stored.mp h).recoverable hr

theorem known_evaluate (h : Known p w) (env : Env) (signal : Signal) (flow : DecisionFlow)
    (hown : ∀ {core evaluated_nodes w₁},
      PureEvaluate.pure_evaluate P env.draws signal flow = .ok (core, evaluated_nodes) →
      Passed P C cfg env signal flow core evaluated_nodes w w₁ → p core.id) :
    Known p (evaluate P C cfg env signal flow w).2 := by
  refine known_iff_stored.mpr ((known_iff_stored.mp h).evaluate env signal flow ?_)
  intro core evaluated_nodes w₁ final w₂ computed passed hd
  have hid : final.id = core.id := by rw [hd.ids.1, ready_id]
  rw [DecisionResult.canonical_id, hid]
  exact ⟨hown computed passed, hown computed passed⟩

/-- The same for every call. -/
theorem known_call (h : Known p w) (c : EngineCall)
    (hown : ∀ {env signal flow core evaluated_nodes w₁}, c = .evaluate env signal flow →
      PureEvaluate.pure_evaluate P env.draws signal flow = .ok (core, evaluated_nodes) →
      Passed P C cfg env signal flow core evaluated_nodes w w₁ → p core.id) :
    Known p (c.run P C cfg w).2 := by
  rcases c with ⟨env, signal, flow⟩ | _ | _ | _
  case evaluate => exact known_evaluate h env signal flow (hown rfl)
  all_goals exact h.of_eq rfl rfl

end Known

/-! ## The gates -/

/-- An `evaluate` opens the gate of an escalated decision, and does nothing else to the gates. -/
theorem evaluate_gates {core : DecisionResult} {evaluated_nodes : List PyDict}
    (computed : PureEvaluate.pure_evaluate P env.draws signal flow = .ok (core, evaluated_nodes))
    (w : World σ) :
    (evaluate P C cfg env signal flow w).2.human_gate_manager
      = gates_opened cfg env core w.human_gate_manager := by
  have hrun := evaluate_run P C cfg env signal flow w
  generalize (evaluate P C cfg env signal flow w).1 = answer at hrun
  generalize (evaluate P C cfg env signal flow w).2 = w' at hrun ⊢
  rcases hrun with ⟨invalid⟩ | ⟨computed', _, hframe⟩ | ⟨computed', passed, hho⟩
    | ⟨computed', passed, hho⟩ | ⟨computed', passed, hho⟩
  case invalid => exact nomatch computed.symm.trans invalid
  -- the run computed this very core
  all_goals obtain ⟨rfl, -⟩ := except_pair_unique computed computed'
  case stopped => exact hframe.human_gate_manager
  case undispatched => exact (upToDispatch passed hho).human_gate_manager
  case unsaved =>
    have h₂ := (upToDispatch passed hho).human_gate_manager
    exact h₂
  case done =>
    have h₂ := (upToDispatch passed hho).human_gate_manager
    rw [(ledgerOnly_committed_after P C cfg _ _).human_gate_manager]
    exact h₂

/-! ## The idempotency store -/

section Store

variable {w w' : World σ}

theorem remembered_other {k : String} (hk : signal.idempotency_key ≠ some k)
    (final : DecisionResult) (store : IdempotencyStore) :
    (remembered cfg signal final store).get k = store.get k := by
  unfold remembered
  split_ifs with hcond
  · rw [Dict.get_set_other]
    rintro rfl
    rcases hkey : signal.idempotency_key with _ | key
    · rw [hkey] at hcond
      exact absurd hcond.2.1 (by decide)
    · rw [hkey] at hk
      exact hk rfl
  · rfl

/-- In strict mode the engine remembers the result under the key of the signal. -/
theorem remembered_own (hs : cfg.strict) (hwired : cfg.idempotency_store = true) {k : String}
    (hk : signal.idempotency_key = some k) (hne : k ≠ "") (final : DecisionResult)
    (store : IdempotencyStore) :
    (remembered cfg signal final store).get k = some final := by
  have hnonempty : nonempty signal.idempotency_key = true := by
    rw [hk]
    exact decide_eq_true hne
  rw [remembered, if_pos ⟨hs, hnonempty, hwired⟩, hk]
  exact Dict.get_set_same store k final

/-- The store is written under the key of the signal only. -/
theorem evaluate_store_other (P : Platform) (C : LedgerBackend σ) (cfg : EngineConfig) (env : Env)
    (flow : DecisionFlow) (w : World σ) {k : String} (hk : signal.idempotency_key ≠ some k) :
    (evaluate P C cfg env signal flow w).2.idempotency_store.get k
      = w.idempotency_store.get k := by
  have hrun := evaluate_run P C cfg env signal flow w
  generalize (evaluate P C cfg env signal flow w).1 = answer at hrun
  generalize (evaluate P C cfg env signal flow w).2 = w' at hrun ⊢
  rcases hrun with _ | ⟨_, _, hframe⟩ | ⟨_, passed, hho⟩ | ⟨_, passed, hho⟩ | ⟨_, passed, hho⟩
  case invalid => rfl
  case stopped =>
    rw [hframe.idempotency_store]
    rfl
  case undispatched => rw [(upToDispatch passed hho).idempotency_store]
  case unsaved =>
    rw [← (upToDispatch passed hho).idempotency_store]
    exact remembered_other hk _ _
  case done =>
    rw [(ledgerOnly_committed_after P C cfg _ _).idempotency_store,
      ← (upToDispatch passed hho).idempotency_store]
    exact remembered_other hk _ _

/-- When nothing outside fails, an `evaluate` that raises has not written the store. -/
theorem evaluate_store_raised (hclean : env.Clean) {e : PyError}
    (h : evaluate P C cfg env signal flow w = (.error e, w')) :
    w'.idempotency_store = w.idempotency_store := by
  have hrun := evaluate_run P C cfg env signal flow w
  rw [h] at hrun
  dsimp only at hrun
  rcases hrun with _ | ⟨_, _, hframe⟩ | ⟨_, passed, hho⟩ | ⟨_, _, _, _, hf⟩
  case invalid => rfl
  case stopped => exact hframe.idempotency_store
  case undispatched => exact (upToDispatch passed hho).idempotency_store
  case unsaved => exact absurd hclean.trace_store hf.2

end Store

end DecisionRuntimeEngine

namespace Recorded

/-- An engine with everything wired. -/
def config (ledger_mode : String) : EngineConfig where
  human_gate_manager := true
  trace_store := true
  event_bus := true
  ledger_adapter := true
  ledger_mode := ledger_mode
  idempotency_store := true
  execution_publisher := true
  schema_version := "1.0"

/-- A call in which nothing fails. -/
def env (trace_id decision_id : UUID) : Env where
  draws := { trace_id := trace_id, decision_id := decision_id, now := ⟨10, some 0⟩ }
  gate_id := UUID.repeated 1
  gate_created_at := ⟨11, some 0⟩
  execution_id := UUID.repeated 2
  event_id := UUID.repeated 3
  event_timestamp := ⟨12, some 0⟩
  refused_at := ⟨13, some 0⟩
  commit_completed_at := ⟨14, some 0⟩
  completed_at := ⟨15, some 0⟩
  event_bus_fault := .none
  execution_publisher_fault := .none
  trace_store_fault := .none
  lookup_raises _ := false

/-- An evaluation, a simulation, and a second evaluation. -/
def calls (flow : DecisionFlow) (signal : Signal) : List EngineCall :=
  [.evaluate (env (UUID.repeated 0xa) (UUID.repeated 0xc)) signal flow,
    .simulate { trace_id := UUID.repeated 4, decision_id := UUID.repeated 5, now := ⟨16, some 0⟩ }
      ⟨17, some 0⟩ signal flow,
    .evaluate { env (UUID.repeated 0xd) (UUID.repeated 0xe) with
      gate_id := UUID.repeated 6
      execution_id := UUID.repeated 7
      event_id := UUID.repeated 8 } signal flow]

end Recorded

end DecisionRuntime
