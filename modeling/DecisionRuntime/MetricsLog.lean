/-
The calls of the metrics registry that the service makes.

`MetricCall` is a call of the registry, and the registry after a run is the one after
a log of such calls. Each block of `evaluate` and each route has one lemma that says
what it adds to the log; `run_log` puts them together for one request: the word for a
gate it resolved, at most one commit or append that came back with an answer, and the
status and the duration of a decision of the engine, in this order.
-/
import DecisionRuntime.MeteredService

set_option autoImplicit false

namespace DecisionRuntime

/-! ## Logs of metric calls -/

/-- A call of `increment` or of `observe`. -/
inductive MetricCall
  | increment (c : Increment)
  | observe (name : String) (value : ℚ)

namespace MetricCall

/-- The increments of a log. -/
def incremented : List MetricCall → List Increment :=
  List.filterMap fun
    | increment c => some c
    | observe _ _ => none

/-- The values a log observes under a name. -/
def observed (name : String) : List MetricCall → List ℚ :=
  List.filterMap fun
    | increment _ => none
    | observe name' value => if name' = name then some value else none

/-- The call, made. -/
def apply (add : ℚ → ℚ → ℚ) (m : Metrics) : MetricCall → Metrics
  | increment c => m.increment c.name c.labels
  | observe name value => m.observe add name value

theorem incremented_append (log log' : List MetricCall) :
    incremented (log ++ log') = incremented log ++ incremented log' :=
  List.filterMap_append

theorem observed_append (name : String) (log log' : List MetricCall) :
    observed name (log ++ log') = observed name log ++ observed name log' :=
  List.filterMap_append

end MetricCall

namespace Metrics

open MetricCall

variable {add : ℚ → ℚ → ℚ}

/-- The registry after a log. -/
def after (add : ℚ → ℚ → ℚ) (m : Metrics) (log : List MetricCall) : Metrics :=
  log.foldl (MetricCall.apply add) m

theorem after_append (m : Metrics) (log log' : List MetricCall) :
    m.after add (log ++ log') = (m.after add log).after add log' :=
  List.foldl_append

theorem after_concat (m : Metrics) (log : List MetricCall) (c : MetricCall) :
    m.after add (log ++ [c]) = c.apply add (m.after add log) := by
  rw [after_append]
  rfl

/-- The counters are those of the increments, whatever was observed between them. -/
theorem counters_after (log : List MetricCall) :
    (reset.after add log).counters = (counted Dict.empty (incremented log)).counters := by
  induction log using List.reverseRecOn with
  | nil => rfl
  | append_singleton log c ih =>
      rw [after_concat, incremented_append]
      cases c with
      | increment c =>
          have hlog : incremented [.increment c] = [c] := rfl
          rw [hlog, counted_append, MetricCall.apply, Metrics.increment, Metrics.increment]
          simp only [ih]
      | observe name value =>
          have hlog : incremented [.observe name value] = [] := rfl
          rw [hlog, List.append_nil, ← ih]
          rfl

/-- What `get_counter` answers is how often the key of the counter was incremented. -/
theorem get_counter_after (add : ℚ → ℚ → ℚ) (log : List MetricCall) (c : Increment) :
    (reset.after add log).get_counter c.name c.labels
      = min ((incremented log).countP fun c' => c'.key = c.key) (2 ^ 53) := by
  have hcounted : (counted Dict.empty (incremented log)).get_counter c.name c.labels
      = min ((incremented log).countP fun c' => c'.key = c.key) (2 ^ 53) :=
    get_counter_counted c
  rw [← hcounted, Metrics.get_counter, Metrics.get_counter, counters_after]

/-- A summary is how many values were observed, and their sum, added up one after the other. -/
theorem get_summary_after (log : List MetricCall) (name : String) :
    (reset.after add log).get_summary name
      = ⟨min (observed name log).length (2 ^ 53), (observed name log).foldl add 0⟩ := by
  induction log using List.reverseRecOn with
  | nil => rfl
  | append_singleton log c ih =>
      rw [after_concat, observed_append]
      cases c with
      | increment c =>
          have hlog : observed name [.increment c] = [] := rfl
          rw [hlog, List.append_nil, ← ih]
          rfl
      | observe name' value =>
          rw [MetricCall.apply, Metrics.observe, get_summary, Dict.get_set]
          by_cases h : name = name'
          · have hlog : observed name [.observe name' value] = [value] := by
              simp [observed, h]
            rw [if_pos h, hlog, Option.getD_some, List.length_append, List.foldl_append, ← h]
            have hih : ((reset.after add log).summaries.get name).getD ⟨0, 0⟩
                = ⟨min (observed name log).length (2 ^ 53), (observed name log).foldl add 0⟩ := ih
            rw [hih, add_one]
            -- the count stops at `2 ^ 53`, where the sum goes on
            simp only [List.length_singleton, List.foldl_cons, List.foldl_nil]
            congr 1
            split <;> omega
          · have hlog : observed name [.observe name' value] = [] := by
              simp [observed, Ne.symm h]
            rw [if_neg h, hlog, List.append_nil]
            exact ih

end Metrics

/-! ## What a computation logs -/

/-- The ledger answers every call, whatever the answer is. -/
structure LedgerBackend.Responds {σ : Type} (C : LedgerBackend σ) : Prop where
  append : ∀ event s, ∃ answer s', C.append event s = (.ok answer, s')
  get_by_event_id : ∀ event_id s, ∃ found s', C.get_by_event_id event_id s = (.ok found, s')

namespace Metered

open DecisionRuntimeEngine RuntimeLedgerAdapter

variable {σ : Type} {add : ℚ → ℚ → ℚ} {P : Platform} {C : LedgerBackend σ} {cfg : EngineConfig}
  {env : Env} {signal : Signal} {flow : DecisionFlow}

/-- The increment for a decision with this status. -/
def decision_counter (status : DecisionStatus) : Increment :=
  ⟨"decision_evaluate_total", some (label "status" status.value)⟩

/-- The increment for a gate action. -/
def action_counter (word : String) : Increment :=
  ⟨"human_gate_action_total", some (label "action" word)⟩

/-- The increment for a commit or an append with this status. -/
def append_counter (result : String) : Increment :=
  ⟨"ledger_append_total", some (label "result" result)⟩

/-- The log of these commits or appends. -/
def appends (results : List String) : List MetricCall :=
  results.map fun result => .increment (append_counter result)

/-- The log of an evaluation that returned this. -/
def recorded (elapsed : ℚ) : Option DecisionResult → List MetricCall
  | none => []
  | some result =>
    [.increment (decision_counter result.status),
      .observe "decision_evaluate_duration_seconds" elapsed]

/-- What counting a commit comes to: one result when there is a commit to make and it returns, and
none when there is none to make. -/
structure Counts (due returned : Prop) (results : List String) : Prop where
  at_most_one : results.length ≤ 1
  none : ¬ due → results = []
  one : due → returned → results.length = 1

/-- `x`, run in `o`, makes the calls of the log. -/
def Logs {α : Type} (add : ℚ → ℚ → ℚ) (x : Exec PyError (Metered σ) α) (o : Metered σ)
    (log : List MetricCall) : Prop :=
  (x o).2.metrics = o.metrics.after add log

theorem keeps_unmetered {α : Type} (x : Exec PyError (World σ) α) :
    Exec.Keeps metrics (unmetered x) :=
  fun _ => rfl

theorem Logs.of_keeps {α : Type} {x : Exec PyError (Metered σ) α} (h : Exec.Keeps metrics x)
    (o : Metered σ) : Logs add x o [] :=
  h o

theorem unmetered_run {α : Type} {x : Exec PyError (World σ) α} {o : Metered σ}
    {answer : Except PyError α} {w : World σ} (h : x o.world = (answer, w)) :
    unmetered x o = (answer, { o with world := w }) := by
  unfold unmetered Exec.zoom
  rw [h]

theorem Logs.bind_ok {α β : Type} {x : Exec PyError (Metered σ) α}
    {f : α → Exec PyError (Metered σ) β} {o o' : Metered σ} {a : α} {log log' : List MetricCall}
    (hx : x o = (.ok a, o')) (hlog : Logs add x o log) (hlog' : Logs add (f a) o' log') :
    Logs add (x >>= f) o (log ++ log') := by
  unfold Logs at *
  rw [hx] at hlog
  rw [Exec.run_bind_ok f hx, hlog', hlog, Metrics.after_append]

theorem Logs.bind_error {α β : Type} {x : Exec PyError (Metered σ) α}
    {f : α → Exec PyError (Metered σ) β} {o o' : Metered σ} {e : PyError} {log : List MetricCall}
    (hx : x o = (.error e, o')) (hlog : Logs add x o log) : Logs add (x >>= f) o log := by
  unfold Logs at *
  rw [hx] at hlog
  rw [Exec.run_bind_error f hx]
  exact hlog

theorem Logs.unmetered_bind {α β : Type} {x : Exec PyError (World σ) α}
    {f : α → Exec PyError (Metered σ) β} {o : Metered σ} {a : α} {w : World σ}
    {log : List MetricCall} (hx : x o.world = (.ok a, w))
    (hlog : Logs add (f a) { o with world := w } log) : Logs add (unmetered x >>= f) o log := by
  unfold Logs at *
  rw [Exec.run_bind_ok f (unmetered_run hx), hlog]

/-- Counting, and nothing more. -/
theorem logs_increment_bind {α : Type} {x : Exec PyError (Metered σ) α}
    (hx : Exec.Keeps metrics x) (name : String) (labels : Labels) (o : Metered σ) :
    Logs add (increment name labels >>= fun _ => x) o [.increment ⟨name, some labels⟩] := by
  unfold Logs increment
  rw [Exec.run_modify_bind, hx]
  rfl

theorem record_run (add : ℚ → ℚ → ℚ) (elapsed : ℚ) (result : DecisionResult) (o : Metered σ) :
    record add elapsed result o
      = (.ok result, { o with metrics := o.metrics.after add (recorded elapsed (some result)) }) :=
  rfl

/-! ### The commits -/

/-- Appends to a ledger that answers all end normally. -/
theorem append_all_returns (hC : C.Responds) (events : List LedgerEvent) (w : World σ) :
    ∃ answers w', append_all (client C) events w = (.ok answers, w') := by
  induction events generalizing w with
  | nil => exact ⟨[], w, rfl⟩
  | cons event events ih =>
      obtain ⟨answer, s', happ⟩ := hC.append event w.ledger
      have hfst : ((client C).append event w).1 = .ok answer := congrArg Prod.fst happ
      have hone : (client C).append event w = (.ok answer, ((client C).append event w).2) :=
        Prod.ext hfst rfl
      obtain ⟨answers, w', hrest⟩ := ih ((client C).append event w).2
      exact ⟨answer :: answers, w', append_all_cons (client C) hone hrest⟩

theorem commit_returns (hC : C.Responds) {trace : DecisionTrace} {result : DecisionResult}
    {events : List LedgerEvent}
    (hbuild : build_events P cfg.schema_version trace result = .ok events)
    (w : World σ) :
    ∃ ledger_result w', commit (client C) P cfg.schema_version trace result w
      = (.ok ledger_result, w') := by
  obtain ⟨answers, w', hrun⟩ := append_all_returns hC events w
  rw [commit_run (client C) hbuild, hrun]
  exact ⟨_, w', rfl⟩

theorem recover_from_ledger_returns (hC : C.Responds) (env : Env) (event_ids : List UUID)
    (w : World σ) :
    ∃ found w', recover_from_ledger C env event_ids w = (.ok found, w') := by
  induction event_ids generalizing w with
  | nil => exact ⟨none, w, rfl⟩
  | cons event_id event_ids ih =>
      obtain ⟨found, s', hget⟩ := hC.get_by_event_id event_id w.ledger
      have hfst : ((client C).get_by_event_id event_id w).1 = .ok found := congrArg Prod.fst hget
      have hone : (client C).get_by_event_id event_id w
          = (.ok found, ((client C).get_by_event_id event_id w).2) := Prod.ext hfst rfl
      rw [recover_from_ledger, Exec.run_bind_ok _ hone]
      -- an event that leads to no stored result is passed over
      rcases found with _ | event
      · exact ih _
      · dsimp only
        split_ifs
        · exact ih _
        · rw [Exec.run_get_bind]
          rcases TraceStore.get_by_decision_id _ _ with e | trace
          · exact ih _
          · dsimp only
            rcases trace.decision_results with _ | ⟨result, results⟩
            · exact ih _
            · exact ⟨some result, _, rfl⟩

theorem recover_prior_result_returns (hC : C.Responds) (cfg : EngineConfig) (env : Env)
    (signal : Signal) (event_ids : List UUID) (w : World σ) :
    ∃ found w', recover_prior_result C cfg env signal event_ids w = (.ok found, w') := by
  rw [recover_prior_result, Exec.run_get_bind]
  have hrest : ∃ found w', (if cfg.ledger_adapter ∧ cfg.trace_store then
      recover_from_ledger C env event_ids else return none) w = (.ok found, w') := by
    split_ifs
    · exact recover_from_ledger_returns hC env event_ids w
    · exact ⟨none, w, rfl⟩
  by_cases hkey : nonempty signal.idempotency_key ∧ cfg.idempotency_store
  · rw [if_pos hkey]
    rcases w.idempotency_store.get (signal.idempotency_key.getD "") with _ | cached
    · exact hrest
    · exact ⟨some cached, w, rfl⟩
  · rw [if_neg hkey]
    exact hrest

/-- The commit gate answers when the ledger does. -/
theorem strict_commit_returns (hC : C.Responds) {final : DecisionResult}
    {evaluated_nodes : List PyDict} {events : List LedgerEvent}
    (hbuild : build_events P cfg.schema_version
      (commit_trace env signal flow final evaluated_nodes).1
      (commit_trace env signal flow final evaluated_nodes).2 = .ok events) (w : World σ) :
    ∃ answer w', DecisionRuntimeEngine.strict_commit P C cfg env signal flow final evaluated_nodes w
      = (.ok answer, w') := by
  by_cases hs : cfg.strict
  swap
  · exact ⟨_, _, strict_commit_not_strict hs final evaluated_nodes w⟩
  obtain ⟨ledger_result, w', hcommit⟩ := commit_returns hC hbuild w
  rw [strict_commit_eq hs, Exec.run_bind_ok _ hcommit]
  split_ifs
  · exact ⟨_, _, rfl⟩
  · obtain ⟨found, w'', hrecover⟩ :=
      recover_prior_result_returns hC cfg env signal ledger_result.event_ids w'
    rw [Exec.run_bind_ok _ hrecover]
    rcases found with _ | prior
    · exact ⟨_, _, rfl⟩
    · exact ⟨_, _, rfl⟩
  · exact ⟨_, _, rfl⟩

/-- The commit gate counts a commit that returns, and no other. -/
theorem strict_commit_log (add : ℚ → ℚ → ℚ) (P : Platform) (C : LedgerBackend σ)
    (cfg : EngineConfig) (env : Env) (signal : Signal) (flow : DecisionFlow)
    (final : DecisionResult) (evaluated_nodes : List PyDict) (o : Metered σ) :
    ∃ results, Counts cfg.strict (∃ ledger_result w', commit (client C) P cfg.schema_version
        (commit_trace env signal flow final evaluated_nodes).1
        (commit_trace env signal flow final evaluated_nodes).2 o.world = (.ok ledger_result, w'))
        results
      ∧ Logs add (strict_commit P C cfg env signal flow final evaluated_nodes) o
          (appends results) := by
  by_cases hs : cfg.strict
  swap
  · refine ⟨[], ⟨Nat.zero_le 1, fun _ => rfl, fun h => absurd h hs⟩, ?_⟩
    rw [strict_commit, if_neg hs]
    rfl
  rw [strict_commit, if_pos hs]
  rcases hcommit : commit (client C) P cfg.schema_version
      (commit_trace env signal flow final evaluated_nodes).1
      (commit_trace env signal flow final evaluated_nodes).2 o.world with ⟨e | ledger_result, w'⟩
  · -- the commit raised
    refine ⟨[], ⟨Nat.zero_le 1, fun _ => rfl, ?_⟩, ?_⟩
    · rintro - ⟨ledger_result, w'', hreturned⟩
      cases hreturned
    · exact Logs.bind_error (unmetered_run hcommit) (Logs.of_keeps (keeps_unmetered _) o)
  · refine ⟨[ledger_result.status.value], ⟨le_refl 1, fun h => absurd hs h, fun _ _ => rfl⟩, ?_⟩
    refine Logs.unmetered_bind hcommit (logs_increment_bind ?_ _ _ _)
    -- what follows only reads
    refine Exec.keeps_ite (Exec.keeps_pure _) (Exec.keeps_ite ?_ (Exec.keeps_pure _))
    refine Exec.keeps_bind (keeps_unmetered _) (fun prior => ?_)
    rcases prior with _ | prior
    · exact Exec.keeps_pure _
    · exact Exec.keeps_pure _

/-- So does the commit of the parallel mode. -/
theorem parallel_commit_log (add : ℚ → ℚ → ℚ) (P : Platform) (C : LedgerBackend σ)
    (cfg : EngineConfig) (trace : DecisionTrace) (final : DecisionResult) (o : Metered σ) :
    ∃ results, Counts cfg.parallel (∃ ledger_result w', commit (client C) P cfg.schema_version
        trace final o.world = (.ok ledger_result, w')) results
      ∧ Logs add (parallel_commit P C cfg trace final) o (appends results) := by
  by_cases hp : cfg.parallel
  swap
  · refine ⟨[], ⟨Nat.zero_le 1, fun _ => rfl, fun h => absurd h hp⟩, ?_⟩
    rw [parallel_commit, if_neg hp]
    rfl
  rw [parallel_commit, if_pos hp]
  rcases hcommit : commit (client C) P cfg.schema_version trace final o.world
    with ⟨e | ledger_result, w'⟩
  · -- the commit raised before it was counted, and parallel mode passes over it
    refine ⟨[], ⟨Nat.zero_le 1, fun _ => rfl, ?_⟩, ?_⟩
    · rintro - ⟨ledger_result, w'', hreturned⟩
      cases hreturned
    · have hraised := Exec.run_bind_error (fun commit_result : LedgerCommitResult =>
        increment "ledger_append_total" (label "result" commit_result.status.value))
        (unmetered_run hcommit)
      unfold Logs
      rw [Exec.run_tryExcept_error hraised]
      rfl
  · refine ⟨[ledger_result.status.value], ⟨le_refl 1, fun h => absurd hp h, fun _ _ => rfl⟩, ?_⟩
    have hreturned := Exec.run_bind_ok (fun commit_result : LedgerCommitResult =>
      increment "ledger_append_total" (label "result" commit_result.status.value))
      (unmetered_run hcommit)
    unfold Logs
    rw [Exec.run_tryExcept_ok hreturned]
    rfl

/-! ### The engine -/

/-- The trace that is stored has events, as the committed one has. -/
theorem stored_events {core : DecisionResult} {evaluated_nodes : List PyDict}
    (computed : PureEvaluate.pure_evaluate P env.draws signal flow = .ok (core, evaluated_nodes))
    (schema_version : String) (result : DecisionResult) :
    ∃ events, build_events P schema_version
      (stored_trace env signal flow result evaluated_nodes).1
      (stored_trace env signal flow result evaluated_nodes).2 = .ok events := by
  obtain ⟨outcomes, sel, version, brs, -, -, -, -, -, hnodes⟩ :=
    PureEvaluate.pure_evaluate_eq_ok.mp computed
  have hrecords : (stored_trace env signal flow result evaluated_nodes).1.evaluated_nodes
      = (PureEvaluate.node_records flow outcomes sel brs).map NodeRecord.toDict := hnodes
  exact ⟨_, build_events_records hrecords⟩

theorem parallel_commit_returns (P : Platform) (C : LedgerBackend σ) (cfg : EngineConfig)
    (trace : DecisionTrace) (final : DecisionResult) (o : Metered σ) :
    ∃ o', parallel_commit P C cfg trace final o = (.ok (), o') := by
  have hsim := (simulates_parallel_commit P C cfg final trace o).1
  rw [parallel_commit_run (trace, final)] at hsim
  exact ⟨_, Prod.ext hsim rfl⟩

/-- The parallel commit of the trace of this result, made in any world, returns. -/
def CommitReturns (P : Platform) (C : LedgerBackend σ) (cfg : EngineConfig) (env : Env)
    (signal : Signal) (flow : DecisionFlow) (evaluated_nodes : List PyDict)
    (result : DecisionResult) : Prop :=
  ∀ w, ∃ ledger_result w', commit (client C) P cfg.schema_version
    (stored_trace env signal flow result evaluated_nodes).1
    (stored_trace env signal flow result evaluated_nodes).2 w = (.ok ledger_result, w')

/-- Storing the trace counts a parallel commit, if it comes to one. -/
theorem persist_log (add : ℚ → ℚ → ℚ) (P : Platform) (C : LedgerBackend σ) (cfg : EngineConfig)
    (env : Env) (signal : Signal) (flow : DecisionFlow) (final : DecisionResult)
    (evaluated_nodes : List PyDict) (o : Metered σ) :
    ∃ results, Counts cfg.parallel
        (CommitReturns P C cfg env signal flow evaluated_nodes final ∧ ∃ result,
          (persist P C cfg env signal flow final evaluated_nodes o).1 = .ok result) results
      ∧ Logs add (persist P C cfg env signal flow final evaluated_nodes) o (appends results) := by
  by_cases hwired : cfg.trace_store ∨ cfg.parallel
  swap
  · have hp : ¬ cfg.parallel := fun hp => hwired (Or.inr hp)
    refine ⟨[], ⟨Nat.zero_le 1, fun _ => rfl, fun h => absurd h hp⟩, ?_⟩
    rw [persist, if_neg hwired]
    rfl
  rw [persist, if_pos hwired]
  let trace := stored_trace env signal flow final evaluated_nodes
  rcases hsave : when_wired cfg.trace_store (save_trace env.trace_store_fault trace.1) o.world
    with ⟨e | _, w'⟩
  · -- the store raised, and no commit is made
    have hraised := unmetered_run hsave
    refine ⟨[], ⟨Nat.zero_le 1, fun _ => rfl, ?_⟩, ?_⟩
    · rintro - ⟨-, result, hok⟩
      have herror := Exec.run_bind_error (fun _ => parallel_commit P C cfg trace.1 trace.2
        >>= fun _ => (pure trace.2 : Exec PyError (Metered σ) DecisionResult)) hraised
      cases (congrArg Prod.fst herror).symm.trans hok
    · exact Logs.bind_error hraised (Logs.of_keeps (keeps_unmetered _) o)
  · obtain ⟨results, hcounts, hlog⟩ := parallel_commit_log add P C cfg trace.1 trace.2
      { o with world := w' }
    refine ⟨results, ⟨hcounts.at_most_one, hcounts.none, ?_⟩, ?_⟩
    · exact fun hp hreturned => hcounts.one hp (hreturned.1 w')
    · refine Logs.unmetered_bind hsave ?_
      obtain ⟨o', hreturned⟩ := parallel_commit_returns P C cfg trace.1 trace.2
        { o with world := w' }
      rw [← List.append_nil (appends results)]
      exact Logs.bind_ok hreturned hlog (Logs.of_keeps (Exec.keeps_pure _) o')

/-- Recording is the last thing that is logged, and only what was returned is recorded. -/
theorem Logs.bind_record {x : Exec PyError (Metered σ) DecisionResult} {o : Metered σ}
    {log : List MetricCall} (hlog : Logs add x o log) (elapsed : ℚ) :
    Logs add (x >>= record add elapsed) o (log ++ recorded elapsed (x o).1.toOption)
      ∧ ((x >>= record add elapsed) o).1 = (x o).1 := by
  unfold Logs at *
  rcases hx : x o with ⟨e | result, o'⟩
  · rw [hx] at hlog
    rw [Exec.run_bind_error _ hx]
    refine ⟨?_, rfl⟩
    show o'.metrics = o.metrics.after add (log ++ [])
    rw [List.append_nil, hlog]
  · rw [hx] at hlog
    rw [Exec.run_bind_ok _ hx, record_run]
    refine ⟨?_, rfl⟩
    show o'.metrics.after add _ = o.metrics.after add (log ++ recorded elapsed (some result))
    rw [Metrics.after_append, hlog]

/-- What follows the commit gate counts a parallel commit, and the decision if it returns one. -/
theorem finish_log (add : ℚ → ℚ → ℚ) (P : Platform) (C : LedgerBackend σ) (cfg : EngineConfig)
    (env : Env) (elapsed : ℚ) (signal : Signal) (flow : DecisionFlow) (final : DecisionResult)
    (evaluated_nodes : List PyDict) (o : Metered σ) :
    ∃ results, Counts cfg.parallel
        ((∀ result, CommitReturns P C cfg env signal flow evaluated_nodes result) ∧ ∃ result,
          (finish add P C cfg env elapsed signal flow final evaluated_nodes o).1 = .ok result)
        results
      ∧ Logs add (finish add P C cfg env elapsed signal flow final evaluated_nodes) o
          (appends results ++ recorded elapsed
            (finish add P C cfg env elapsed signal flow final evaluated_nodes o).1.toOption) := by
  rcases hdispatch : dispatch cfg env final o.world with ⟨e | dispatched, w'⟩
  · -- the dispatch raised
    have hraised : finish add P C cfg env elapsed signal flow final evaluated_nodes o
        = (.error e, { o with world := w' }) := Exec.run_bind_error _ (unmetered_run hdispatch)
    refine ⟨[], ⟨Nat.zero_le 1, fun _ => rfl, ?_⟩, ?_⟩
    · rintro - ⟨-, result, hok⟩
      rw [hraised] at hok
      cases hok
    · unfold Logs
      rw [hraised]
      rfl
  -- remembering the result touches no metric
  let w'' := { w' with
    idempotency_store := remembered cfg signal dispatched w'.idempotency_store }
  have hremember : unmetered (remember cfg signal dispatched) { o with world := w' }
      = (.ok (), { o with world := w'' }) := unmetered_run (remember_run dispatched w')
  have hrun : finish add P C cfg env elapsed signal flow final evaluated_nodes o
      = (persist P C cfg env signal flow dispatched evaluated_nodes >>= record add elapsed)
          { o with world := w'' } := by
    rw [finish, Exec.run_bind_ok _ (unmetered_run hdispatch), Exec.run_bind_ok _ hremember]
  obtain ⟨results, hcounts, hlog⟩ := persist_log add P C cfg env signal flow dispatched
    evaluated_nodes { o with world := w'' }
  obtain ⟨hrecorded, hanswer⟩ := hlog.bind_record elapsed
  refine ⟨results, ⟨hcounts.at_most_one, hcounts.none, ?_⟩, ?_⟩
  · rintro hp ⟨hreturns, result, hok⟩
    rw [hrun, hanswer] at hok
    exact hcounts.one hp ⟨hreturns dispatched, result, hok⟩
  · unfold Logs at *
    rw [hrun, hanswer]
    exact hrecorded

/-- When nothing outside fails, what follows the commit gate returns. -/
theorem finish_returns (P : Platform) (C : LedgerBackend σ) (cfg : EngineConfig)
    (hclean : env.Clean) (signal : Signal) (flow : DecisionFlow) (final : DecisionResult)
    (evaluated_nodes : List PyDict) (w : World σ) :
    ∃ result w', DecisionRuntimeEngine.finish P C cfg env signal flow final evaluated_nodes w
      = (.ok result, w') := by
  obtain ⟨-, hd⟩ := dispatch_cases cfg env final w
  rcases hr : dispatch cfg env final w with ⟨e | dispatched, w₁⟩
  · rw [hr] at hd
    rcases hd with _ | _ | ⟨-, why, -⟩
    rcases why with ⟨-, hfault⟩ | ⟨-, hfault⟩
    · exact absurd hclean.event_bus hfault
    · exact absurd hclean.execution_publisher hfault
  · rw [DecisionRuntimeEngine.finish, Exec.run_bind_ok _ hr,
      Exec.run_bind_ok _ (remember_run dispatched w₁), persist_run (fun _ => hclean.trace_store)]
    exact ⟨_, _, rfl⟩

/-- What follows the commit gate, given its answer. -/
def conclude (add : ℚ → ℚ → ℚ) (P : Platform) (C : LedgerBackend σ) (cfg : EngineConfig)
    (env : Env) (elapsed : ℚ) (signal : Signal) (flow : DecisionFlow)
    (evaluated_nodes : List PyDict) (answer : GateAnswer) :
    Exec PyError (Metered σ) DecisionResult :=
  match answer with
  | .answered result => record add elapsed result
  | .proceed final => finish add P C cfg env elapsed signal flow final evaluated_nodes

/-- An evaluation that computes a decision opens its gate and goes on to the commit gate. -/
theorem engine_evaluate_gated (add : ℚ → ℚ → ℚ) (P : Platform) (C : LedgerBackend σ)
    (cfg : EngineConfig) (env : Env) (elapsed : ℚ) (signal : Signal) (flow : DecisionFlow)
    {core : DecisionResult} {evaluated_nodes : List PyDict}
    (computed : PureEvaluate.pure_evaluate P env.draws signal flow = .ok (core, evaluated_nodes))
    (o : Metered σ) : engine_evaluate add P C cfg env elapsed signal flow o =
      (strict_commit P C cfg env signal flow (opened cfg env core) evaluated_nodes
        >>= conclude add P C cfg env elapsed signal flow evaluated_nodes)
        { o with world := gated cfg env core o.world } := by
  rw [engine_evaluate, computed, Exec.run_lift_bind_ok]
  exact Exec.run_bind_ok _ (unmetered_run (open_gate_run core o.world))

theorem conclude_log (add : ℚ → ℚ → ℚ) (P : Platform) (C : LedgerBackend σ) (cfg : EngineConfig)
    (env : Env) (elapsed : ℚ) (signal : Signal) (flow : DecisionFlow)
    (evaluated_nodes : List PyDict) (answer : GateAnswer) (o : Metered σ) :
    ∃ results, Counts (cfg.parallel ∧ ∃ final, answer = .proceed final)
        ((∀ result, CommitReturns P C cfg env signal flow evaluated_nodes result) ∧ ∃ result,
          (conclude add P C cfg env elapsed signal flow evaluated_nodes answer o).1 = .ok result)
        results
      ∧ Logs add (conclude add P C cfg env elapsed signal flow evaluated_nodes answer) o
          (appends results ++ recorded elapsed
            (conclude add P C cfg env elapsed signal flow evaluated_nodes answer
              o).1.toOption) := by
  cases answer with
  | answered result =>
      refine ⟨[], ⟨Nat.zero_le 1, fun _ => rfl, ?_⟩, rfl⟩
      rintro ⟨-, final, hproceed⟩
      cases hproceed
  | proceed final =>
      obtain ⟨results, hcounts, hlog⟩ := finish_log add P C cfg env elapsed signal flow final
        evaluated_nodes o
      refine ⟨results, ⟨hcounts.at_most_one, ?_, fun hdue => hcounts.one hdue.1⟩, hlog⟩
      exact fun hnot => hcounts.none fun hp => hnot ⟨hp, final, rfl⟩

/-- When nothing outside fails, what follows the commit gate returns, whatever the gate says. -/
theorem conclude_returns (add : ℚ → ℚ → ℚ) (P : Platform) (C : LedgerBackend σ)
    (cfg : EngineConfig) (hclean : env.Clean) (elapsed : ℚ) (signal : Signal) (flow : DecisionFlow)
    (evaluated_nodes : List PyDict) (answer : GateAnswer) (o : Metered σ) :
    ∃ result, (conclude add P C cfg env elapsed signal flow evaluated_nodes answer o).1
      = .ok result := by
  cases answer with
  | answered result => exact ⟨result, rfl⟩
  | proceed final =>
      obtain ⟨result, w', hfinish⟩ := finish_returns P C cfg hclean signal flow final
        evaluated_nodes o.world
      have hsim := (simulates_finish P C cfg env signal flow final evaluated_nodes add elapsed o).1
      rw [hfinish] at hsim
      exact ⟨result, hsim⟩

theorem appends_append (results results' : List String) :
    appends (results ++ results') = appends results ++ appends results' :=
  List.map_append

/-- **What an evaluation logs.** At most one commit, and the decision if it returns one; when
nothing outside fails, one commit for each decision that is returned. -/
theorem engine_evaluate_log (add : ℚ → ℚ → ℚ) (P : Platform) (C : LedgerBackend σ)
    (cfg : EngineConfig) (env : Env) (elapsed : ℚ) (signal : Signal) (flow : DecisionFlow)
    (o : Metered σ) :
    ∃ results, results.length ≤ 1
      ∧ Logs add (engine_evaluate add P C cfg env elapsed signal flow) o
          (appends results ++ recorded elapsed
            (engine_evaluate add P C cfg env elapsed signal flow o).1.toOption)
      ∧ (C.Responds → env.Clean → (results.length = 1 ↔ cfg.ledger_adapter = true ∧ ∃ result,
          (engine_evaluate add P C cfg env elapsed signal flow o).1 = .ok result)) := by
  rcases computed : PureEvaluate.pure_evaluate P env.draws signal flow with
    e | ⟨core, evaluated_nodes⟩
  · -- no decision was made
    have hrun : engine_evaluate add P C cfg env elapsed signal flow o = (.error e, o) := by
      rw [engine_evaluate, computed]
      rfl
    refine ⟨[], Nat.zero_le 1, ?_, ?_⟩
    · unfold Logs
      rw [hrun]
      rfl
    · intro hC hclean
      rw [hrun]
      refine iff_of_false (by simp) ?_
      rintro ⟨-, result, hok⟩
      cases hok
  let final := opened cfg env core
  let o₀ : Metered σ := { o with world := gated cfg env core o.world }
  have hrun := engine_evaluate_gated add P C cfg env elapsed signal flow computed o
  obtain ⟨events, hbuild⟩ := exists_events cfg computed final
  obtain ⟨results, hcounts, hlog⟩ := strict_commit_log add P C cfg env signal flow final
    evaluated_nodes o₀
  rcases hstrict : strict_commit P C cfg env signal flow final evaluated_nodes o₀
    with ⟨e | answer, o₁⟩
  · -- the commit gate raised, which it does not when the ledger answers
    rw [Exec.run_bind_error _ hstrict] at hrun
    refine ⟨results, hcounts.at_most_one, ?_, ?_⟩
    · unfold Logs at *
      rw [hstrict] at hlog
      rw [hrun]
      show o₁.metrics = o.metrics.after add (appends results ++ [])
      rw [List.append_nil, hlog]
    · intro hC hclean
      have hsim := (simulates_strict_commit P C cfg env signal flow final evaluated_nodes o₀).1
      obtain ⟨answer, w', hreturned⟩ := strict_commit_returns hC hbuild o₀.world
      rw [hstrict, hreturned] at hsim
      cases hsim
  rw [Exec.run_bind_ok _ hstrict] at hrun
  obtain ⟨results', hcounts', hlog'⟩ := conclude_log add P C cfg env elapsed signal flow
    evaluated_nodes answer o₁
  -- one of the two modes commits, if there is a ledger
  have hstrict_only : cfg.strict → results' = [] :=
    fun hs => hcounts'.none fun hdue => hdue.1.2 hs.2
  have hparallel_only : ¬ cfg.strict → results = [] ∧ answer = .proceed final := by
    intro hs
    have hsim := (simulates_strict_commit P C cfg env signal flow final evaluated_nodes o₀).1
    rw [hstrict, strict_commit_not_strict hs] at hsim
    exact ⟨hcounts.none hs, Except.ok.inj hsim⟩
  refine ⟨results ++ results', ?_, ?_, ?_⟩
  · by_cases hs : cfg.strict
    · rw [hstrict_only hs, List.append_nil]
      exact hcounts.at_most_one
    · rw [(hparallel_only hs).1, List.nil_append]
      exact hcounts'.at_most_one
  · rw [appends_append, List.append_assoc]
    unfold Logs at *
    rw [hstrict] at hlog
    rw [hrun, hlog', hlog, ← Metrics.after_append]
  · intro hC hclean
    -- the evaluation returns, so one append is due exactly when there is a ledger
    obtain ⟨result, hresult⟩ := conclude_returns add P C cfg hclean elapsed signal flow
      evaluated_nodes answer o₁
    rw [hrun]
    constructor
    · intro hlength
      refine ⟨?_, result, hresult⟩
      by_contra hoff
      have hs : ¬ cfg.strict := fun hs => hoff hs.1
      rw [(hparallel_only hs).1, hcounts'.none fun hdue => hoff hdue.1.1] at hlength
      cases hlength
    · rintro ⟨hon, -⟩
      by_cases hs : cfg.strict
      · rw [hstrict_only hs, List.append_nil]
        exact hcounts.one hs (commit_returns hC hbuild _)
      · obtain ⟨hnone, hanswer⟩ := hparallel_only hs
        rw [hnone, List.nil_append]
        have hp : cfg.parallel := ⟨hon, fun hmode => hs ⟨hon, hmode⟩⟩
        refine hcounts'.one ⟨hp, final, hanswer⟩ ⟨?_, result, hresult⟩
        intro stored w'
        obtain ⟨events', hbuild'⟩ := stored_events computed cfg.schema_version stored
        exact commit_returns hC hbuild' w'

/-! ### The routes -/

open Routes HumanGateManager

variable {settings : Settings} {auth : AuthSettings} {registry : FlowRegistry}

/-- The result of the engine that the request was answered with, if the engine was asked. -/
def evaluated (body : EvaluateRequest) (w : World σ) (answer : Except PyError DecisionResult) :
    Option DecisionResult :=
  if (body.key.bind w.idempotency_store.get).isSome then none else answer.toOption

/-- The log of a request: at most one commit or append, after the gate action it is about, and
before the decision. When nothing outside fails, there is one exactly when there is a ledger, and
an action or a decision. -/
structure Logged {α : Type} (add : ℚ → ℚ → ℚ) (C : LedgerBackend σ) (settings : Settings)
    (clean : Prop) (x : Exec PyError (Metered σ) α) (o : Metered σ) (action : Option String)
    (elapsed : ℚ) (result : Option DecisionResult) (results : List String) : Prop where
  at_most_one : results.length ≤ 1
  logs : Logs add x o ((action.toList.map fun word => .increment (action_counter word))
    ++ appends results ++ recorded elapsed result)
  one : C.Responds → clean → (results.length = 1 ↔
    settings.ledger_enabled = true ∧ (action.isSome = true ∨ result.isSome = true))

theorem logged_of_keeps {α : Type} {x : Exec PyError (Metered σ) α} {o : Metered σ}
    (add : ℚ → ℚ → ℚ) (C : LedgerBackend σ) (settings : Settings) (clean : Prop)
    (h : (x o).2.metrics = o.metrics) (elapsed : ℚ) :
    Logged add C settings clean x o none elapsed none [] :=
  ⟨Nat.zero_le 1, h, fun _ _ => by simp⟩

theorem evaluate_log (add : ℚ → ℚ → ℚ) (P : Platform) (C : LedgerBackend σ) (settings : Settings)
    (registry : FlowRegistry) (elapsed : ℚ) (draws : RequestDraws) (body : EvaluateRequest)
    (o : Metered σ) :
    ∃ results, Logged add C settings draws.env.Clean
      (evaluate add P C settings registry elapsed draws body) o none elapsed
      (evaluated body o.world (evaluate add P C settings registry elapsed draws body o).1)
      results := by
  have hget : unmetered (Exec.get (ε := PyError)) o = (.ok o.world, o) := rfl
  rcases hit : body.key.bind o.world.idempotency_store.get with _ | cached
  swap
  · -- the answer was remembered
    have hrun : evaluate add P C settings registry elapsed draws body o = (.ok cached, o) := by
      rw [evaluate, Exec.run_bind_ok _ hget, hit]
      rfl
    have hnone : evaluated body o.world
        (evaluate add P C settings registry elapsed draws body o).1 = none := by
      rw [evaluated, hit]
      rfl
    rw [hnone]
    exact ⟨[], logged_of_keeps add C settings _ (by rw [hrun]) elapsed⟩
  have hasked : ∀ answer, evaluated body o.world answer = answer.toOption := by
    intro answer
    rw [evaluated, hit]
    rfl
  rw [hasked]
  rcases hflow : load_flow P registry body with e | flow
  · -- the flow cannot be used
    have hrun : evaluate add P C settings registry elapsed draws body o = (.error e, o) := by
      rw [evaluate, Exec.run_bind_ok _ hget, hit, hflow]
      rfl
    rw [hrun]
    exact ⟨[], logged_of_keeps add C settings _ (by rw [hrun]) elapsed⟩
  rcases hsignal : build_signal draws body.signal with e | signal
  · -- the signal cannot be built
    have hrun : evaluate add P C settings registry elapsed draws body o = (.error e, o) := by
      rw [evaluate, Exec.run_bind_ok _ hget, hit, hflow, hsignal]
      rfl
    rw [hrun]
    exact ⟨[], logged_of_keeps add C settings _ (by rw [hrun]) elapsed⟩
  have hprepared : evaluate add P C settings registry elapsed draws body o
      = (Exec.tryExcept (engine_evaluate add P C settings.engine draws.env elapsed signal flow)
          (fun exc => Exec.raise (http_error exc)) >>= fun result =>
        unmetered (Exec.modify (store_result body result)) >>= fun _ => pure result) o := by
    rw [evaluate, Exec.run_bind_ok _ hget, hit]
    dsimp only
    rw [hflow, Exec.run_lift_bind_ok, hsignal, Exec.run_lift_bind_ok]
  obtain ⟨results, hlen, hlog, hone⟩ := engine_evaluate_log add P C settings.engine draws.env
    elapsed signal flow o
  rcases hengine : engine_evaluate add P C settings.engine draws.env elapsed signal flow o
    with ⟨e | result, o'⟩
  · -- the engine raised, after what it had logged by then
    have hrun : evaluate add P C settings registry elapsed draws body o
        = (.error (http_error e), o') := by
      rw [hprepared, Exec.run_bind_error _ (Exec.run_tryExcept_error hengine)]
    rw [hengine] at hone
    unfold Logs at hlog
    rw [hengine] at hlog
    refine ⟨results, hlen, ?_, ?_⟩
    · unfold Logs
      rw [hrun]
      exact hlog
    · intro hC hclean
      rw [hone hC hclean, hrun]
      simp [Except.toOption]
  · have hrun : evaluate add P C settings registry elapsed draws body o
        = (.ok result, { o' with world := store_result body result o'.world }) := by
      rw [hprepared, Exec.run_bind_ok _ (Exec.run_tryExcept_ok hengine)]
      rfl
    rw [hengine] at hone
    unfold Logs at hlog
    rw [hengine] at hlog
    refine ⟨results, hlen, ?_, ?_⟩
    · unfold Logs
      rw [hrun]
      exact hlog
    · intro hC hclean
      rw [hone hC hclean, hrun]
      simp [Except.toOption, Settings.engine]

/-- The gate event is counted when the ledger answers. -/
theorem append_human_gate_log (add : ℚ → ℚ → ℚ) (P : Platform) (C : LedgerBackend σ)
    (settings : Settings) (result : DecisionResult) {request_id : String} (actor_id : String)
    (actor_roles : Option (List String)) (word : String) (comment : Option String)
    (occurred_at : Datetime) {o : Metered σ} {gate : HumanGateRequest}
    (hgate : o.world.human_gate_manager.store.get request_id = some gate) :
    ∃ results, results.length ≤ 1
      ∧ Logs add (append_human_gate_to_ledger P C settings result request_id actor_id actor_roles
          word comment occurred_at) o (appends results)
      ∧ (C.Responds → (results.length = 1 ↔ settings.ledger_enabled = true)) := by
  by_cases hoff : settings.ledger_enabled = false
  · refine ⟨[], Nat.zero_le 1, ?_, fun _ => by simp [hoff]⟩
    rw [append_human_gate_to_ledger, if_pos hoff]
    rfl
  have hon : settings.ledger_enabled = true := by simpa using hoff
  rw [append_human_gate_to_ledger, if_neg hoff]
  have hget : unmetered (EngineCall.on_gates (get_request request_id)) o = (.ok gate, o) := by
    apply unmetered_run
    apply on_gates_run
    rw [get_request, Exec.run_get_bind, hgate]
    rfl
  let event := human_action_event P settings.ledger_schema_version gate result actor_id word
    occurred_at actor_roles comment
  rcases happ : (client C).append event o.world with ⟨e | answer, w'⟩
  · -- the append raised
    refine ⟨[], Nat.zero_le 1, ?_, ?_⟩
    · unfold Logs
      rw [Exec.run_bind_ok _ hget,
        Exec.run_tryExcept_error (Exec.run_bind_error _ (unmetered_run happ))]
      cases e
      case httpException => rfl
      all_goals
        dsimp only
        split_ifs <;> rfl
    · intro hC
      obtain ⟨answer, s', hresponds⟩ := hC.append event o.world.ledger
      have hfst : ((client C).append event o.world).1 = .ok answer := congrArg Prod.fst hresponds
      rw [happ] at hfst
      cases hfst
  · refine ⟨[answer.status.value], le_refl 1, ?_, fun _ => by simp [hon]⟩
    let labels := label "result" answer.status.value
    let o' : Metered σ := ⟨w', o.metrics.increment "ledger_append_total" (some labels)⟩
    have hbody : (unmetered ((client C).append event) >>= fun append_result =>
        increment "ledger_append_total" (label "result" append_result.status.value) >>= fun _ =>
        if settings.ledger_mode = "strict" ∧ append_result.status = .invalid then
          Exec.raise (append_failed word)
        else return ()) o
          = (if settings.ledger_mode = "strict" ∧ answer.status = .invalid then
              .error (append_failed word)
            else .ok (), o') := by
      rw [Exec.run_bind_ok _ (unmetered_run happ), increment, Exec.run_modify_bind]
      split_ifs <;> rfl
    unfold Logs
    rw [Exec.run_bind_ok _ hget]
    by_cases hfail : settings.ledger_mode = "strict" ∧ answer.status = .invalid
    · rw [if_pos hfail] at hbody
      rw [Exec.run_tryExcept_error hbody]
      rfl
    · rw [if_neg hfail] at hbody
      rw [Exec.run_tryExcept_ok hbody]
      rfl

/-- The word for what a request does to a gate, if the manager lets it. -/
def acted (auth : AuthSettings) (action : GateAction) (draws : GateDraws) (request : GateRequest)
    (m : HumanGateManager) : Option String :=
  match get_actor auth request.api_key with
  | .error _ => none
  | .ok actor =>
    ((resolve action.resolution draws.now request.request_id request.body.comment
      (actor.map Actor.roles) m).1.map fun _ => action.word).toOption

theorem resolve_gate_log (add : ℚ → ℚ → ℚ) (P : Platform) (C : LedgerBackend σ)
    (settings : Settings) (auth : AuthSettings) (action : GateAction) (draws : GateDraws)
    (request : GateRequest) (elapsed : ℚ) {o : Metered σ}
    (hkeys : SameKeys o.world.human_gate_manager) :
    ∃ results, Logged add C settings True (resolve_gate P C settings auth action draws request) o
      (acted auth action draws request o.world.human_gate_manager) elapsed none results := by
  rcases hactor : get_actor auth request.api_key with e | actor
  · have hrun : resolve_gate P C settings auth action draws request o = (.error e, o) := by
      rw [resolve_gate, hactor]
      rfl
    have hnone : acted auth action draws request o.world.human_gate_manager = none := by
      rw [acted, hactor]
    rw [hnone]
    exact ⟨[], logged_of_keeps add C settings _ (by rw [hrun]) elapsed⟩
  rcases resolve_run action.resolution draws.now request.request_id request.body.comment
      (actor.map Actor.roles) hkeys with ⟨e, hrun⟩ | ⟨gate, held, hgate, hheld, -, -, hrun⟩
  · -- the manager refuses
    have hcall : unmetered (EngineCall.on_gates (resolve action.resolution draws.now
        request.request_id request.body.comment (actor.map Actor.roles))) o = (.error e, o) :=
      unmetered_run (on_gates_run hrun)
    have hrefused : resolve_gate P C settings auth action draws request o
        = (.error (gate_http_error e), o) := by
      rw [resolve_gate, hactor, Exec.run_lift_bind_ok]
      exact Exec.run_bind_error _ (Exec.run_tryExcept_error hcall)
    have hnone : acted auth action draws request o.world.human_gate_manager = none := by
      rw [acted, hactor]
      dsimp only
      rw [hrun]
      rfl
    rw [hnone]
    exact ⟨[], logged_of_keeps add C settings _ (by rw [hrefused]) elapsed⟩
  · -- the manager resolves the gate, and the ledger is next
    let o₁ : Metered σ := { o with
      world := gate_resolved action draws request gate held o.world }
    let o₂ : Metered σ := ⟨o₁.world, o.metrics.increment "human_gate_action_total"
      (some (label "action" action.word))⟩
    have hcall : unmetered (EngineCall.on_gates (resolve action.resolution draws.now
        request.request_id request.body.comment (actor.map Actor.roles))) o
          = (.ok (action.resolution.update draws.now held), o₁) :=
      unmetered_run (on_gates_run hrun)
    have hacted : acted auth action draws request o.world.human_gate_manager
        = some action.word := by
      rw [acted, hactor]
      dsimp only
      rw [hrun]
      rfl
    have hstored : o₂.world.human_gate_manager.store.get request.request_id
        = some (action.resolution.gate draws.now request.body.comment gate) :=
      Dict.get_set_same _ _ _
    obtain ⟨results, hlen, hlog, hone⟩ := append_human_gate_log add P C settings
      (action.resolution.update draws.now held) (actor_id_of actor request.body)
      (actor.map Actor.roles) action.word request.body.comment draws.occurred_at hstored
    refine ⟨results, hlen, ?_, ?_⟩
    · have hresolved : resolve_gate P C settings auth action draws request o
          = (append_human_gate_to_ledger P C settings (action.resolution.update draws.now held)
              request.request_id (actor_id_of actor request.body) (actor.map Actor.roles)
              action.word request.body.comment draws.occurred_at
            >>= fun _ => pure (action.resolution.update draws.now held)) o₂ := by
        rw [resolve_gate, hactor, Exec.run_lift_bind_ok,
          Exec.run_bind_ok _ (Exec.run_tryExcept_ok hcall)]
        rfl
      have hlast := Exec.keeps_second (f := metrics) (x := append_human_gate_to_ledger P C settings
        (action.resolution.update draws.now held) request.request_id
        (actor_id_of actor request.body) (actor.map Actor.roles) action.word request.body.comment
        draws.occurred_at)
        (fun _ => Exec.keeps_pure (action.resolution.update draws.now held)) o₂
      unfold Logs at hlog ⊢
      rw [hresolved, hlast, hlog, hacted]
      show _ = o.metrics.after add ([.increment (action_counter action.word)]
        ++ appends results ++ [])
      rw [List.append_nil, Metrics.after_append]
      rfl
    · intro hC _
      rw [hone hC, hacted]
      simp

end Metered

namespace MeteredCall

open Metered Routes

variable {σ : Type} {add : ℚ → ℚ → ℚ} {P : Platform} {C : LedgerBackend σ} {settings : Settings}
  {auth : AuthSettings} {registry : FlowRegistry}

/-- Nothing that the request calls outside the ledger fails. -/
def Clean (c : MeteredCall) : Prop :=
  match c.call with
  | .evaluate e => e.draws.env.Clean
  | _ => True

/-- The word for what the request does to a gate, if the manager lets it. -/
def action (auth : AuthSettings) (c : MeteredCall) (w : World σ) : Option String :=
  match c.call.gate_action with
  | none => none
  | some (action, draws, request) => acted auth action draws request w.human_gate_manager

/-- The result of the engine that the request was answered with, if the engine was asked. -/
def decision (c : MeteredCall) (w : World σ) (answer : Except PyError DecisionResult) :
    Option DecisionResult :=
  match c.call with
  | .evaluate e => evaluated e.body w answer
  | _ => none

/-- **What handling a request logs.** -/
theorem run_log (add : ℚ → ℚ → ℚ) (P : Platform) (C : LedgerBackend σ) (settings : Settings)
    (auth : AuthSettings) (registry : FlowRegistry) (c : MeteredCall) {o : Metered σ}
    (hkeys : HumanGateManager.SameKeys o.world.human_gate_manager) :
    ∃ results, Logged add C settings c.Clean (c.run add P C settings auth registry) o
      (c.action auth o.world) c.elapsed
      (c.decision o.world (c.run add P C settings auth registry o).1) results := by
  rcases c with ⟨call, elapsed⟩
  cases call with
  | evaluate e => exact evaluate_log add P C settings registry elapsed e.draws e.body o
  | approve_gate draws request =>
      exact resolve_gate_log add P C settings auth approve_action draws request elapsed hkeys
  | reject_gate draws request =>
      exact resolve_gate_log add P C settings auth reject_action draws request elapsed hkeys
  | simulate draws body => exact ⟨[], logged_of_keeps add C settings _ rfl elapsed⟩

end MeteredCall

end DecisionRuntime
