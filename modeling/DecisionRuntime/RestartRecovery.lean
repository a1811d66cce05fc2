/-
Retries across a restart, in strict mode.

A restart empties the stores of the process and keeps a durable ledger. The ids of the
ledger events are hashes of a trace id, so that a trace committed twice would be
recognised; but every request draws a trace id of its own, and the retry of a
request that was committed before the restart has no event in common with it. Its
appends are answered as those of a new decision (`restart_recovery_iff`): only when
the ledger refuses one of them, or when something fails on the way, is the retry
not executed once more.
-/
import DecisionRuntime.RememberedResults

set_option autoImplicit false

namespace DecisionRuntime

/-! ## Runs with restarts -/

/-- The world after a restart: the ledger is kept, and what has been published is published. The
ledger is a durable one, as with `ledger_backend=postgres`: for `memory` the lifespan makes a new
`LedgerClient`, and where a run below restarts over `LedgerClient` it stands in for a durable
ledger. The settings and the flows are those of before. -/
def World.restart {σ : Type} (w : World σ) : World σ :=
  { World.init w.ledger with
    event_bus := w.event_bus
    execution_publisher := w.execution_publisher
    calls := w.calls }

/-- What happens to the service: a request, or a restart. -/
inductive ServiceCall
  | evaluate (c : EvaluateCall)
  | restart

namespace ServiceCall

/-- The ids that are drawn. -/
def drawn : ServiceCall → List UUID
  | .evaluate c => c.drawn
  | .restart => []

/-- The request handled, or the restart. -/
def run {σ : Type} (P : Platform) (C : LedgerBackend σ) (settings : Settings)
    (registry : FlowRegistry) : ServiceCall → Exec PyError (World σ) (Option DecisionResult)
  | .evaluate c => some <$> c.run P C settings registry
  | .restart => do
    Exec.modify World.restart
    return none

end ServiceCall

/-- One call of a run, with the world before and after it. -/
abbrev ServiceEntry (σ : Type) := Entry ServiceCall PyError (World σ) (Option DecisionResult)

namespace DecisionRuntimeEngine

open RuntimeLedgerAdapter

variable {σ : Type} {P : Platform} {C : LedgerBackend σ} {cfg : EngineConfig} {env : Env}
  {signal : Signal} {flow : DecisionFlow} {core : DecisionResult} {evaluated_nodes : List PyDict}
  {w w' : World σ} {answer : Except PyError DecisionResult}

/-! ## Past the commit gate -/

/-- Nothing fails past the commit gate: the publishes of a confirmed decision, and the trace. -/
def Completes (env : Env) (core : DecisionResult) : Prop :=
  (core.status = .confirmed →
    env.event_bus_fault = .none ∧ env.execution_publisher_fault = .none)
    ∧ env.trace_store_fault = .none

/-- The event bus takes an event in: the decision is confirmed, and the bus does not raise first. -/
def Executes (env : Env) (core : DecisionResult) : Prop :=
  core.status = .confirmed ∧ env.event_bus_fault ≠ .before

/-- What an evaluation does whose commit is accepted. -/
structure Proceeds (env : Env) (core : DecisionResult) (w : World σ)
    (answer : Except PyError DecisionResult) (w' : World σ) : Prop where
  executes : w'.event_bus ≠ w.event_bus ↔ Executes env core
  completes : Completes env core → ∃ result, answer = .ok result
  returns : ∀ result, answer = .ok result → Completes env core
    ∧ result.id = env.draws.decision_id ∧ result.status ≠ .error

/-- A dispatch that ends normally has put the event of a confirmed decision on the event bus. -/
theorem Dispatch.executes (hbus : cfg.event_bus = true) {final : DecisionResult}
    (hd : Dispatch cfg env (ready cfg env core) w (.ok final) w') :
    w'.event_bus ≠ w.event_bus ↔ Executes env core := by
  unfold Executes
  rcases hd with ⟨hst⟩ | ⟨hst, hnone, -⟩
  · rw [ready_status] at hst
    simp [hst]
  · rw [ready_status] at hst
    simp [handed_over, hbus, hst, hnone hbus]

/-- A dispatch that raises has not completed. -/
theorem Dispatch.not_completes {e : PyError}
    (hd : Dispatch cfg env (ready cfg env core) w (.error e) w') : ¬ Completes env core := by
  rcases hd with _ | _ | ⟨hst, hwhy, -⟩
  rw [ready_status] at hst
  rintro ⟨hclean, -⟩
  rcases hwhy with ⟨-, hf⟩ | ⟨-, hf⟩
  · exact hf (hclean hst).1
  · exact hf (hclean hst).2

/-- It has put the event there unless the event bus raised first. -/
theorem Dispatch.executes_raised (hbus : cfg.event_bus = true) {e : PyError}
    (hd : Dispatch cfg env (ready cfg env core) w (.error e) w') :
    w'.event_bus ≠ w.event_bus ↔ Executes env core := by
  unfold Executes
  rcases hd with _ | _ | ⟨hst, -, heq⟩
  rw [ready_status] at hst
  rw [heq, if_pos hbus, taken]
  by_cases hbefore : env.event_bus_fault = .before
  · simp [hbefore]
  · simp [hbefore, hst]

/-- **One evaluation past the commit gate.** -/
theorem proceeds_of_accepted (hbus : cfg.event_bus = true) (hpub : cfg.execution_publisher = true)
    (hstore : cfg.trace_store = true)
    (computed : PureEvaluate.pure_evaluate P env.draws signal flow = .ok (core, evaluated_nodes))
    (hacc : Accepted P C cfg env signal flow (opened cfg env core) evaluated_nodes
      (gated cfg env core w))
    (hrun : EvaluateRun P C cfg env signal flow w answer w') : Proceeds env core w answer w' := by
  rcases hrun with ⟨invalid⟩ | ⟨other, _, _, hnot⟩ | ⟨other, passed, _, hd⟩
    | ⟨other, passed, _, hd, hfault⟩ | ⟨other, passed, _, hd, hsaved⟩
  case invalid => exact nomatch computed.symm.trans invalid
  all_goals obtain ⟨rfl, rfl⟩ := except_pair_unique computed other
  case stopped => exact absurd hacc hnot
  all_goals have hpassed : _ = w.event_bus := passed.ledger_only.event_bus
  case undispatched =>
    refine ⟨?_, fun h => absurd h hd.not_completes, fun result hok => ?_⟩
    · rw [← hpassed]
      exact hd.executes_raised hbus
    · cases hok
  case unsaved =>
    have hexecutes := hd.executes hbus
    rw [hpassed] at hexecutes
    refine ⟨hexecutes, fun h => absurd h.2 hfault.2, fun result hok => ?_⟩
    cases hok
  case done =>
    have hexecutes := hd.executes hbus
    rw [hpassed] at hexecutes
    refine ⟨?_, fun _ => ⟨_, rfl⟩, ?_⟩
    · rw [(ledgerOnly_committed_after P C cfg _ _).event_bus]
      exact hexecutes
    · intro result hok
      obtain rfl := Except.ok.inj hok
      rw [persisted_id, persisted_status, hd.ids.1, ready_id, (PureEvaluate.stamped computed).id]
      refine ⟨⟨?_, hsaved hstore⟩, rfl, not_error_of_dispatched computed hd⟩
      rcases hd with ⟨hst⟩ | ⟨hst, hbus', hpub'⟩
      · rw [ready_status] at hst
        exact fun h => absurd h hst
      · exact fun _ => ⟨hbus' hbus, hpub' hpub⟩

/-- An evaluation whose events are new, and not all accepted, puts nothing on the event bus and
returns an `ERROR` at most. -/
theorem refused_of_new (L : DeduplicatingLedger σ) (hs : cfg.strict)
    (computed : PureEvaluate.pure_evaluate P env.draws signal flow = .ok (core, evaluated_nodes))
    {events : List LedgerEvent}
    (hbuild : build_events P cfg.schema_version
      (commit_trace env signal flow (opened cfg env core) evaluated_nodes).1
      (commit_trace env signal flow (opened cfg env core) evaluated_nodes).2 = .ok events)
    (hnew : NewTo L P cfg env signal flow w.ledger)
    (hnot : ¬ LedgerAccepts L.toLedgerBackend events w.ledger) :
    (evaluate P L.toLedgerBackend cfg env signal flow w).2.event_bus = w.event_bus ∧
      ∀ result, (evaluate P L.toLedgerBackend cfg env signal flow w).1 = .ok result →
        result.status = .error := by
  have hcommit := (strict_commit_dedup L hs computed hbuild hnew).1
  refine ⟨?_, ?_⟩
  · have hstopped : ¬ Accepted P L.toLedgerBackend cfg env signal flow (opened cfg env core)
        evaluated_nodes (gated cfg env core w) := by
      rw [accepted_iff_ledgerAccepts hbuild]
      exact hnot
    exact (evaluate_stopped hs computed hstopped).1.event_bus
  · -- new events are not answered with duplicates, so nothing is recovered
    rcases happ : append_all L.toLedgerBackend events w.ledger with ⟨e | answers, s⟩
    · rw [happ] at hcommit
      rw [evaluate_of_raised computed hcommit]
      exact fun result hok => nomatch hok
    · have hstatus : (totals {} events answers).result.status ≠ .accepted := by
        intro hacc
        refine hnot ⟨answers, congrArg Prod.fst happ, ?_⟩
        exact (accepted_iff (length_append_all _ happ)).mp hacc
      have hjudged : judged env (opened cfg env core).populate_canonical_fields
          (totals {} events answers).result.status
          = .answered (refused env (totals {} events answers).result.status
            (opened cfg env core).populate_canonical_fields) := if_neg hstatus
      rw [happ] at hcommit
      dsimp only [Except.map] at hcommit
      rw [hjudged] at hcommit
      rw [evaluate_of_answered computed hcommit]
      intro result hok
      rw [← Except.ok.inj hok]
      rfl

end DecisionRuntimeEngine

namespace Routes

open DecisionRuntimeEngine RuntimeLedgerAdapter

variable {σ : Type} {P : Platform} {C : LedgerBackend σ} {settings : Settings}
  {registry : FlowRegistry} {c : EvaluateCall} {core : DecisionResult}
  {events : List LedgerEvent} {w : World σ}

/-! ## A request that comes to the ledger -/

/-- The request, made in `w`, is not answered from the store, and comes to the commit gate with this
decision and these events. -/
structure Submits (P : Platform) (settings : Settings) (registry : FlowRegistry)
    (c : EvaluateCall) (core : DecisionResult) (events : List LedgerEvent) (w : World σ) :
    Prop where
  miss : c.key.bind w.idempotency_store.get = none
  computed : ∃ signal flow evaluated_nodes, prepare P registry c.draws c.body = .ok (signal, flow)
    ∧ PureEvaluate.pure_evaluate P c.draws.env.draws signal flow = .ok (core, evaluated_nodes)
    ∧ build_events P settings.engine.schema_version
      (commit_trace c.draws.env signal flow (opened settings.engine c.draws.env core)
        evaluated_nodes).1
      (commit_trace c.draws.env signal flow (opened settings.engine c.draws.env core)
        evaluated_nodes).2 = .ok events

/-- A request that is evaluated does what the engine does. -/
theorem run_evaluated (C : LedgerBackend σ) (settings : Settings)
    (miss : c.key.bind w.idempotency_store.get = none) {signal : Signal} {flow : DecisionFlow}
    (prepared : prepare P registry c.draws c.body = .ok (signal, flow)) :
    (c.run P C settings registry w).1 = (DecisionRuntimeEngine.evaluate P C settings.engine
        c.draws.env signal flow w).1.mapError http_error
      ∧ (c.run P C settings registry w).2.event_bus = (DecisionRuntimeEngine.evaluate P C
        settings.engine c.draws.env signal flow w).2.event_bus := by
  have hrun := route_run P C settings registry c.draws c.body w
  unfold EvaluateCall.run
  generalize (evaluate P C settings registry c.draws c.body w).1 = answer at hrun ⊢
  generalize (evaluate P C settings registry c.draws c.body w).2 = w' at hrun ⊢
  rcases hrun with ⟨hit⟩ | ⟨-, hnot⟩ | ⟨-, prepared', answer, w₁, run⟩
  case cached => exact nomatch hit.symm.trans miss
  case unprepared => exact nomatch prepared.symm.trans hnot
  case evaluated =>
    obtain ⟨rfl, rfl⟩ := except_pair_unique prepared prepared'
    have hanswer := congrArg Prod.fst run
    have hworld := congrArg Prod.snd run
    dsimp only at hanswer hworld
    rw [hanswer, hworld]
    rcases answer with e | result
    · exact ⟨rfl, rfl⟩
    · exact ⟨rfl, store_result_event_bus result w₁⟩

/-- What a request comes to the ledger with is one. -/
theorem Submits.unique {core' : DecisionResult} {events' : List LedgerEvent}
    (h : Submits P settings registry c core events w)
    (h' : Submits P settings registry c core' events' w) : core = core' ∧ events = events' := by
  obtain ⟨signal, flow, evaluated_nodes, prepared, computed, hbuild⟩ := h.computed
  obtain ⟨signal', flow', evaluated_nodes', prepared', computed', hbuild'⟩ := h'.computed
  obtain ⟨rfl, rfl⟩ := except_pair_unique prepared prepared'
  obtain ⟨rfl, rfl⟩ := except_pair_unique computed computed'
  exact ⟨rfl, Except.ok.inj (hbuild.symm.trans hbuild')⟩

/-- The answers of the route and the engine agree on what is returned. -/
theorem mapError_eq_ok {answer : Except PyError DecisionResult} {result : DecisionResult} :
    answer.mapError http_error = .ok result ↔ answer = .ok result := by
  rcases answer with e | r
  · simp [Except.mapError]
  · simp [Except.mapError]

/-- A request whose commit is accepted. -/
theorem Submits.proceeds (h : Submits P settings registry c core events w)
    (haccepts : LedgerAccepts C events w.ledger) :
    Proceeds c.draws.env core w (c.run P C settings registry w).1
      (c.run P C settings registry w).2 := by
  obtain ⟨signal, flow, evaluated_nodes, prepared, computed, hbuild⟩ := h.computed
  obtain ⟨hanswer, hbus⟩ := run_evaluated C settings h.miss prepared
  have haccepted : Accepted P C settings.engine c.draws.env signal flow
      (opened settings.engine c.draws.env core) evaluated_nodes
      (gated settings.engine c.draws.env core w) := by
    rw [accepted_iff_ledgerAccepts hbuild]
    exact haccepts
  have hengine := proceeds_of_accepted rfl rfl rfl computed haccepted
    (evaluate_run P C settings.engine c.draws.env signal flow w)
  refine ⟨?_, ?_, ?_⟩
  · rw [hbus]
    exact hengine.executes
  · intro hcompletes
    obtain ⟨result, hok⟩ := hengine.completes hcompletes
    exact ⟨result, hanswer.trans (mapError_eq_ok.mpr hok)⟩
  · intro result hok
    rw [hanswer, mapError_eq_ok] at hok
    exact hengine.returns result hok

/-- A request whose events are new, and not all accepted. -/
theorem Submits.refused (L : DeduplicatingLedger σ) (hs : settings.engine.strict)
    (h : Submits P settings registry c core events w)
    (hnew : ∀ name ∈ names P settings registry c, ¬ L.recorded w.ledger (hash P name))
    (hnot : ¬ LedgerAccepts L.toLedgerBackend events w.ledger) :
    (c.run P L.toLedgerBackend settings registry w).2.event_bus = w.event_bus ∧
      ∀ result, (c.run P L.toLedgerBackend settings registry w).1 = .ok result →
        result.status = .error := by
  obtain ⟨signal, flow, evaluated_nodes, prepared, computed, hbuild⟩ := h.computed
  obtain ⟨hanswer, hbus⟩ := run_evaluated L.toLedgerBackend settings h.miss prepared
  have hnew' : NewTo L P settings.engine c.draws.env signal flow w.ledger := by
    rw [names, prepared] at hnew
    exact hnew
  obtain ⟨hsame, herror⟩ := refused_of_new L hs computed hbuild hnew' hnot
  refine ⟨hbus.trans hsame, ?_⟩
  intro result hok
  rw [hanswer, mapError_eq_ok] at hok
  exact herror result hok

/-- A request that is not answered from the store and does not come to the ledger raises. -/
theorem raises_of_not_submits (C : LedgerBackend σ)
    (miss : c.key.bind w.idempotency_store.get = none)
    (hnot : ∀ core events, ¬ Submits P settings registry c core events w) :
    (c.run P C settings registry w).2.event_bus = w.event_bus ∧
      ∃ e, (c.run P C settings registry w).1 = .error e := by
  rcases prepared : prepare P registry c.draws c.body with e | ⟨signal, flow⟩
  · have hrun := route_run P C settings registry c.draws c.body w
    unfold EvaluateCall.run
    generalize (evaluate P C settings registry c.draws c.body w).1 = answer at hrun ⊢
    generalize (evaluate P C settings registry c.draws c.body w).2 = w' at hrun ⊢
    rcases hrun with ⟨hit⟩ | _ | ⟨-, prepared', -⟩
    case cached => exact nomatch hit.symm.trans miss
    case unprepared => exact ⟨rfl, _, rfl⟩
    case evaluated => exact nomatch prepared.symm.trans prepared'
  · obtain ⟨hanswer, hbus⟩ := run_evaluated C settings miss prepared
    rcases computed : PureEvaluate.pure_evaluate P c.draws.env.draws signal flow with
      e | ⟨core, evaluated_nodes⟩
    · rw [DecisionRuntimeEngine.evaluate, computed] at hanswer hbus
      exact ⟨hbus, _, hanswer⟩
    · obtain ⟨events, hbuild⟩ := exists_events settings.engine computed
        (opened settings.engine c.draws.env core)
      exact absurd ⟨miss, signal, flow, evaluated_nodes, prepared, computed, hbuild⟩
        (hnot core events)

/-- A request that puts an event on the event bus has had its commit accepted. -/
theorem accepted_of_published (C : LedgerBackend σ) (hs : settings.engine.strict)
    (miss : c.key.bind w.idempotency_store.get = none)
    (hbus : (c.run P C settings registry w).2.event_bus ≠ w.event_bus) :
    ∃ core events,
      Submits P settings registry c core events w ∧ LedgerAccepts C events w.ledger := by
  by_contra hnone
  push Not at hnone
  apply hbus
  by_cases hsubmits : ∃ core events, Submits P settings registry c core events w
  · obtain ⟨core, events, hsubmits⟩ := hsubmits
    obtain ⟨signal, flow, evaluated_nodes, prepared, computed, hbuild⟩ := hsubmits.computed
    rw [(run_evaluated C settings miss prepared).2]
    apply (evaluate_stopped hs computed ?_).1.event_bus
    rw [accepted_iff_ledgerAccepts hbuild]
    exact hnone core events hsubmits
  · push Not at hsubmits
    exact (raises_of_not_submits C miss hsubmits).1

end Routes

/-! ## Resubmissions -/

namespace ServiceCall

variable {σ : Type}

/-- The names that the ledger ids of a call are hashes of. -/
def names (P : Platform) (settings : Settings) (registry : FlowRegistry) :
    ServiceCall → List String
  | .evaluate c => Routes.names P settings registry c
  | .restart => []

/-- A request is handled as by the route. -/
theorem run_evaluate (P : Platform) (C : LedgerBackend σ) (settings : Settings)
    (registry : FlowRegistry) (c : EvaluateCall) (w : World σ) :
    run P C settings registry (.evaluate c) w
      = ((c.run P C settings registry w).1.map some, (c.run P C settings registry w).2) := by
  show (c.run P C settings registry >>= fun result => pure (some result)) w = _
  rcases hrun : c.run P C settings registry w with ⟨e | result, w'⟩
  · exact Exec.run_bind_error _ hrun
  · exact Exec.run_bind_ok _ hrun

end ServiceCall

namespace Routes

open DecisionRuntimeEngine RuntimeLedgerAdapter

variable {σ : Type}

/-- The request `c` came to a commit that was accepted; after a restart it is submitted again as
`d`, under a key that is no longer remembered. -/
structure Resubmission (P : Platform) (C : LedgerBackend σ) (settings : Settings)
    (registry : FlowRegistry) (c d : EvaluateCall) (t : ServiceEntry σ)
    (mid : List (ServiceEntry σ)) (u : ServiceEntry σ) : Prop where
  first : t.call = .evaluate c
  again : u.call = .evaluate d
  keyed : c.key ≠ none
  same : d.body = c.body
  accepted : ∃ core events, Submits P settings registry c core events t.before
    ∧ LedgerAccepts C events t.before.ledger
  restarted : ∃ v ∈ mid, v.call = .restart
  lost : d.key.bind u.before.idempotency_store.get = none

/-- The second request does not publish what the first one has published, and returns the decision
made for the first one, or an `ERROR`. -/
def Recovers (c : EvaluateCall) (t u : ServiceEntry σ) : Prop :=
  ¬ (t.after.event_bus ≠ t.before.event_bus ∧ u.after.event_bus ≠ u.before.event_bus) ∧
    ∀ result, u.answer = .ok (some result) →
      result.id = c.draws.env.draws.decision_id ∨ result.status = .error

/-- The ledger accepts the events of the second request, and then nothing fails past the commit
gate, or what fails does so after both requests have put their events on the event bus. -/
def Repeats (P : Platform) (C : LedgerBackend σ) (settings : Settings) (registry : FlowRegistry)
    (c d : EvaluateCall) (t u : ServiceEntry σ) : Prop :=
  ∃ core events core' events', Submits P settings registry c core events t.before
    ∧ Submits P settings registry d core' events' u.before
    ∧ LedgerAccepts C events' u.before.ledger
    ∧ (Completes d.draws.env core'
      ∨ Executes c.draws.env core ∧ Executes d.draws.env core')

section Service

variable {L : DeduplicatingLedger σ} {P : Platform} {settings : Settings}
  {registry : FlowRegistry} {s : σ} {calls : List ServiceCall}

/-- The ledger records what it started with and hashes of the names of the calls. -/
def RecordsNames (L : DeduplicatingLedger σ) (P : Platform) (settings : Settings)
    (registry : FlowRegistry) (s : σ) (history : List (ServiceEntry σ)) (w : World σ) : Prop :=
  ∀ u, L.recorded w.ledger u → L.recorded s u ∨
    ∃ t ∈ history, ∃ name ∈ t.call.names P settings registry, u = hash P name

/-- When the ledger records names of earlier calls only, those of the next one are new. -/
theorem RecordsNames.fresh {pre post : List ServiceCall} {c : ServiceCall} {w : World σ}
    (hfresh : ((pre ++ c :: post).flatMap ServiceCall.drawn).Nodup)
    (hinj : Set.InjOn (hash P)
      {n | ∃ c' ∈ pre ++ c :: post, n ∈ c'.names P settings registry})
    (hnew : ∀ n ∈ c.names P settings registry, ¬ L.recorded s (hash P n))
    (h : RecordsNames L P settings registry s
      (Run.entries (ServiceCall.run P L.toLedgerBackend settings registry) (World.init s) pre) w) :
    ∀ name ∈ c.names P settings registry, ¬ L.recorded w.ledger (hash P name) := by
  intro name hname hrec
  rcases h _ hrec with hinit | ⟨t, ht, name', hname', heq⟩
  · exact hnew name hname hinit
  have hmem : t.call ∈ pre := Run.call_mem ht
  have hsame : name = name' := by
    refine hinj ⟨c, ?_, hname⟩ ⟨t.call, ?_, hname'⟩ heq
    · simp
    · exact List.mem_append_left _ hmem
  rw [← hsame] at hname'
  -- only requests hash names, and one name tells one trace id
  rcases c with c | _
  swap
  · cases hname
  have hdrawn := Run.fresh_of_nodup ServiceCall.drawn hfresh (trace_id_drawn c) t ht
  rcases hcall : t.call with c' | _
  · rw [hcall] at hname' hdrawn
    apply hdrawn
    rw [names_trace_eq hname hname']
    exact trace_id_drawn c'
  · rw [hcall] at hname'
    cases hname'

/-- **What the ledger records after a run.** -/
theorem recordsNames_run (hs : settings.engine.strict)
    (hfresh : (calls.flatMap ServiceCall.drawn).Nodup)
    (hinj : Set.InjOn (hash P) {n | ∃ c ∈ calls, n ∈ c.names P settings registry})
    (hnew : ∀ c ∈ calls, ∀ n ∈ c.names P settings registry, ¬ L.recorded s (hash P n)) :
    RecordsNames L P settings registry s
      (Run.entries (ServiceCall.run P L.toLedgerBackend settings registry) (World.init s) calls)
      (Run.final (ServiceCall.run P L.toLedgerBackend settings registry) (World.init s)
        calls) := by
  refine Run.entries_invariant (RecordsNames L P settings registry s) ?_ ?_
  · exact fun u hu => Or.inl hu
  intro pre c post hcs h u hu
  subst hcs
  have hunrecorded := h.fresh hfresh hinj (hnew c (by simp))
  have hstep : L.recorded (Run.final (ServiceCall.run P L.toLedgerBackend settings registry)
      (World.init s) pre).ledger u ∨ ∃ name ∈ c.names P settings registry, u = hash P name := by
    rcases c with c | _
    · rw [ServiceCall.run_evaluate] at hu
      exact step_recorded hs hunrecorded hu
    · exact Or.inl hu
  rcases hstep with hrec | ⟨name, hname, heq⟩
  · rcases h u hrec with hinit | ⟨t, ht, hold⟩
    · exact Or.inl hinit
    · exact Or.inr ⟨t, List.mem_append_left _ ht, hold⟩
  · exact Or.inr ⟨_, List.mem_append_right _ (List.mem_singleton_self _), name, hname, heq⟩

/-- **One resubmission**, whose names are not recorded and whose decision is another one. -/
theorem recovers_iff (hs : settings.engine.strict) {c d : EvaluateCall} {w v : World σ}
    {t u : ServiceEntry σ} {mid : List (ServiceEntry σ)}
    (ht : t = Run.entry (ServiceCall.run P L.toLedgerBackend settings registry) w (.evaluate c))
    (hu : u = Run.entry (ServiceCall.run P L.toLedgerBackend settings registry) v (.evaluate d))
    (hnew : ∀ name ∈ names P settings registry d, ¬ L.recorded v.ledger (hash P name))
    (hid : d.draws.env.draws.decision_id ≠ c.draws.env.draws.decision_id)
    (h : Resubmission P L.toLedgerBackend settings registry c d t mid u) :
    Recovers c t u ↔ ¬ Repeats P L.toLedgerBackend settings registry c d t u := by
  subst ht hu
  obtain ⟨core, events, hsubmits, haccepts⟩ := h.accepted
  have hlost := h.lost
  simp only [Recovers, Repeats, Run.entry, ServiceCall.run_evaluate] at hsubmits haccepts hlost ⊢
  have hfirst := hsubmits.proceeds haccepts
  have hanswer : ∀ result, (d.run P L.toLedgerBackend settings registry v).1.map some
      = .ok (some result) ↔ (d.run P L.toLedgerBackend settings registry v).1 = .ok result := by
    intro result
    rcases (d.run P L.toLedgerBackend settings registry v).1 with e | r
    · simp [Except.map]
    · simp [Except.map]
  simp only [hanswer]
  constructor
  · rintro ⟨honce, hreturns⟩ ⟨core₁, events₁, core', events', hsubmits₁, hagain, haccepts', hwhy⟩
    obtain ⟨rfl, rfl⟩ := hsubmits.unique hsubmits₁
    have hsecond := hagain.proceeds haccepts'
    rcases hwhy with hcompletes | ⟨hexecutes, hexecutes'⟩
    · -- the second request returns a decision of its own
      obtain ⟨result, hok⟩ := hsecond.completes hcompletes
      obtain ⟨-, hown, hstatus⟩ := hsecond.returns result hok
      rcases hreturns result hok with hprior | herror
      · exact hid (hown.symm.trans hprior)
      · exact hstatus herror
    · exact honce ⟨hfirst.executes.mpr hexecutes, hsecond.executes.mpr hexecutes'⟩
  · intro hnot
    by_cases hagain : ∃ core' events', Submits P settings registry d core' events' v
    swap
    · push Not at hagain
      obtain ⟨hbus, e, hraised⟩ := raises_of_not_submits L.toLedgerBackend hlost hagain
      refine ⟨fun hboth => hboth.2 hbus, ?_⟩
      intro result hok
      cases hraised.symm.trans hok
    obtain ⟨core', events', hagain⟩ := hagain
    by_cases haccepts' : LedgerAccepts L.toLedgerBackend events' v.ledger
    · have hsecond := hagain.proceeds haccepts'
      refine ⟨?_, ?_⟩
      · rintro ⟨hbus, hbus'⟩
        apply hnot
        refine ⟨core, events, core', events', hsubmits, hagain, haccepts', Or.inr ⟨?_, ?_⟩⟩
        · exact hfirst.executes.mp hbus
        · exact hsecond.executes.mp hbus'
      · intro result hok
        exact absurd ⟨core, events, core', events', hsubmits, hagain, haccepts',
          Or.inl (hsecond.returns result hok).1⟩ hnot
    · obtain ⟨hbus, herror⟩ := hagain.refused L hs hnew haccepts'
      exact ⟨fun hboth => hboth.2 hbus, fun result hok => Or.inr (herror result hok)⟩

end Service

/-- A request that is published, and submitted again right after a restart. -/
theorem resubmission_of_published {P : Platform} (C : LedgerBackend σ) {settings : Settings}
    {registry : FlowRegistry} (hs : settings.engine.strict) {c d : EvaluateCall} {w : World σ}
    (keyed : c.key ≠ none) (same : d.body = c.body)
    (miss : c.key.bind w.idempotency_store.get = none) :
    let run := ServiceCall.run P C settings registry
    let t := Run.entry run w (.evaluate c)
    let v := Run.entry run t.after .restart
    t.after.event_bus.length = w.event_bus.length + 1 →
      Resubmission P C settings registry c d t [v] (Run.entry run v.after (.evaluate d)) := by
  intro run t v hbus
  refine ⟨rfl, rfl, keyed, same, ?_, ⟨v, List.mem_singleton_self v, rfl⟩, ?_⟩
  · apply accepted_of_published C hs miss
    intro heq
    have hafter : t.after = (c.run P C settings registry w).2 :=
      congrArg Prod.snd (ServiceCall.run_evaluate P C settings registry c w)
    rw [hafter, heq] at hbus
    omega
  · -- nothing is remembered after the restart
    rcases d.key with _ | key
    · rfl
    · rfl

/-- What holds of every resubmission of such a run holds of its last request. -/
theorem holds_of_published {P : Platform} (C : LedgerBackend σ) {settings : Settings}
    {registry : FlowRegistry} (hs : settings.engine.strict) {c d : EvaluateCall} {w : World σ}
    (keyed : c.key ≠ none) (same : d.body = c.body)
    (miss : c.key.bind w.idempotency_store.get = none) {n m : Nat}
    (hbus : (Run.entries (ServiceCall.run P C settings registry) w
      [.evaluate c, .restart, .evaluate d]).map (fun t => t.after.event_bus.length)
        = [w.event_bus.length + 1, n, m])
    (Q : EvaluateCall → EvaluateCall → ServiceEntry σ → ServiceEntry σ → Prop)
    (hall : ∀ pre t mid u post, Run.entries (ServiceCall.run P C settings registry) w
        [.evaluate c, .restart, .evaluate d] = pre ++ t :: (mid ++ u :: post) →
      ∀ c d, Resubmission P C settings registry c d t mid u → Q c d t u) :
    ∃ t v u, Run.entries (ServiceCall.run P C settings registry) w
      [.evaluate c, .restart, .evaluate d] = [t, v, u] ∧ Q c d t u := by
  let run := ServiceCall.run P C settings registry
  let t := Run.entry run w (.evaluate c)
  let v := Run.entry run t.after .restart
  let u := Run.entry run v.after (.evaluate d)
  have hsplit : Run.entries run w [.evaluate c, .restart, .evaluate d] = [t, v, u] :=
    Run.entries_three w _ _ _
  have hfirst : t.after.event_bus.length = w.event_bus.length + 1 := by
    rw [hsplit] at hbus
    exact (List.cons.inj hbus).1
  have hre := resubmission_of_published C hs (d := d) keyed same miss hfirst
  exact ⟨t, v, u, hsplit, hall [] t [v] u [] hsplit c d hre⟩

/-- One that is published once more then is not recovered. -/
theorem not_recovers_of_lengths {P : Platform} {C : LedgerBackend σ} {settings : Settings}
    {registry : FlowRegistry} {c d : EvaluateCall} {w : World σ} {t v u : ServiceEntry σ}
    (hsplit : Run.entries (ServiceCall.run P C settings registry) w
      [.evaluate c, .restart, .evaluate d] = [t, v, u])
    (hbus : (Run.entries (ServiceCall.run P C settings registry) w
      [.evaluate c, .restart, .evaluate d]).map (fun t => t.after.event_bus.length)
        = [w.event_bus.length + 1, w.event_bus.length + 1, w.event_bus.length + 2]) :
    ¬ Recovers c t u := by
  intro hrecovered
  obtain ⟨hfirst, hkept, hagain⟩ : t.after.event_bus.length = w.event_bus.length + 1
      ∧ v.after.event_bus.length = w.event_bus.length + 1
      ∧ u.after.event_bus.length = w.event_bus.length + 2 := by
    simpa [hsplit] using hbus
  obtain ⟨ht, hu⟩ : t.before = w ∧ u.before = v.after := by
    simp only [Run.entries, Run.entry, List.cons.injEq, and_true] at hsplit
    obtain ⟨rfl, rfl, rfl⟩ := hsplit
    exact ⟨rfl, rfl⟩
  refine hrecovered.1 ⟨?_, ?_⟩
  · intro heq
    have hlength : t.after.event_bus.length = w.event_bus.length := by rw [heq, ht]
    omega
  · intro heq
    have hlength : u.after.event_bus.length = v.after.event_bus.length := by rw [heq, hu]
    omega

/-- **Resubmission after a restart.** In strict mode, in every run of requests and restarts, a
request that was committed before a restart and is submitted again after it is recovered exactly
when it is not repeated. -/
theorem restart_recovery_iff (P : Platform) (L : DeduplicatingLedger σ) (settings : Settings)
    (registry : FlowRegistry) (hs : settings.engine.strict) (s : σ) (calls : List ServiceCall)
    (hfresh : (calls.flatMap ServiceCall.drawn).Nodup)
    (hinj : Set.InjOn (hash P) {n | ∃ c ∈ calls, n ∈ c.names P settings registry})
    (hnew : ∀ c ∈ calls, ∀ n ∈ c.names P settings registry, ¬ L.recorded s (hash P n)) :
    ∀ pre t mid u post, Run.entries (ServiceCall.run P L.toLedgerBackend settings registry)
        (World.init s) calls = pre ++ t :: (mid ++ u :: post) →
      ∀ c d, Resubmission P L.toLedgerBackend settings registry c d t mid u →
        (Recovers c t u ↔ ¬ Repeats P L.toLedgerBackend settings registry c d t u) := by
  intro pre t mid u post hsplit c d hre
  have hwhole : Run.entries (ServiceCall.run P L.toLedgerBackend settings registry)
      (World.init s) calls = (pre ++ t :: mid) ++ u :: post := by
    rw [hsplit]
    simp
  obtain ⟨_, c', _, -, -, ht, -⟩ := Run.entries_split hsplit
  obtain ⟨as, d', bs, rfl, has, hu, -⟩ := Run.entries_split hwhole
  obtain rfl : c' = .evaluate c := by
    rw [← hre.first, ht, Run.entry_call]
  obtain rfl : d' = .evaluate d := by
    rw [← hre.again, hu, Run.entry_call]
  refine recovers_iff hs ht hu ?_ ?_ hre
  · -- what the ledger holds before the second request comes from earlier ones
    have hmem : ∀ e ∈ as, e ∈ as ++ ServiceCall.evaluate d :: bs :=
      fun e he => List.mem_append_left _ he
    have hearlier : (as.flatMap ServiceCall.drawn).Nodup := by
      rw [List.flatMap_append] at hfresh
      exact hfresh.of_append_left
    have hrecords := recordsNames_run (L := L) (s := s) hs hearlier
      (hinj.mono (fun n ⟨e, he, hn⟩ => ⟨e, hmem e he, hn⟩)) (fun e he => hnew e (hmem e he))
    exact hrecords.fresh hfresh hinj (hnew (.evaluate d) (by simp))
  · -- the first request has drawn another decision id
    have hmem : t ∈ Run.entries (ServiceCall.run P L.toLedgerBackend settings registry)
        (World.init s) as := by
      rw [← has]
      simp
    have hdrawn := Run.fresh_of_nodup ServiceCall.drawn hfresh
      (u := d.draws.env.draws.decision_id) ?_ t hmem
    · intro heq
      apply hdrawn
      rw [hre.first, heq]
      simp [ServiceCall.drawn, EvaluateCall.drawn, Env.drawn]
    · simp [ServiceCall.drawn, EvaluateCall.drawn, Env.drawn]

end Routes

namespace Recorded

/-- A request. -/
def submitted : EvaluateCall :=
  ⟨request_draws (UUID.repeated 0xa) (UUID.repeated 0xc) 10, request "first"⟩

/-- The same request once more. -/
def resubmitted : EvaluateCall :=
  ⟨request_draws (UUID.repeated 4) (UUID.repeated 5) 30, request "first"⟩

/-- The request, a restart, and the request again. -/
def restarted : List ServiceCall := [.evaluate submitted, .restart, .evaluate resubmitted]

end Recorded

/-- A request is executed twice: nothing fails, and after a restart it is published again. -/
theorem Routes.restart_recovery_restarted :
    let history := Run.entries (ServiceCall.run Recorded.platform LedgerClient.backend
      (Recorded.settings "strict") Recorded.registry) (World.init LedgerClient.init)
      Recorded.restarted
    history.map (fun t => t.after.event_bus.length) = [1, 1, 2] ∧
      ¬ ∀ pre t mid u post, history = pre ++ t :: (mid ++ u :: post) →
        ∀ c d, Routes.Resubmission Recorded.platform LedgerClient.backend
            (Recorded.settings "strict") Recorded.registry c d t mid u →
          Routes.Recovers c t u := by
  intro history
  have hbus : history.map (fun t => t.after.event_bus.length) = [1, 1, 2] := by decide +kernel
  refine ⟨hbus, ?_⟩
  intro hrecovers
  obtain ⟨t, v, u, hsplit, hrecovered⟩ := Routes.holds_of_published LedgerClient.backend
    ⟨rfl, rfl⟩ (c := Recorded.submitted) (d := Recorded.resubmitted)
    (w := World.init LedgerClient.init) (by decide +kernel) rfl rfl hbus
    (fun c _ t u => Routes.Recovers c t u) hrecovers
  exact Routes.not_recovers_of_lengths hsplit hbus hrecovered

/-- The second request of that run repeats the first: the ledger accepts its events, and nothing
fails. -/
theorem Routes.restart_recovery_recorded :
    ∃ t v u, Run.entries (ServiceCall.run Recorded.platform LedgerClient.backend
        (Recorded.settings "strict") Recorded.registry) (World.init LedgerClient.init)
        Recorded.restarted = [t, v, u] ∧
      ¬ Routes.Recovers Recorded.submitted t u ∧
      Routes.Repeats Recorded.platform LedgerClient.backend (Recorded.settings "strict")
        Recorded.registry Recorded.submitted Recorded.resubmitted t u := by
  have hnodup : ((Recorded.restarted.flatMap (ServiceCall.names Recorded.platform
      (Recorded.settings "strict") Recorded.registry)).map
        (Routes.hash Recorded.platform)).Nodup := by decide +kernel
  have hbus : (Run.entries (ServiceCall.run Recorded.platform LedgerClient.backend
      (Recorded.settings "strict") Recorded.registry) (World.init LedgerClient.init)
      Recorded.restarted).map (fun t => t.after.event_bus.length) = [1, 1, 2] := by
    decide +kernel
  obtain ⟨t, v, u, hsplit, hiff⟩ := Routes.holds_of_published LedgerClient.backend ⟨rfl, rfl⟩
    (c := Recorded.submitted) (d := Recorded.resubmitted) (w := World.init LedgerClient.init)
    (by decide +kernel) rfl rfl hbus
    (fun c d t u => Routes.Recovers c t u ↔ ¬ Routes.Repeats Recorded.platform
      LedgerClient.backend (Recorded.settings "strict") Recorded.registry c d t u)
    (Routes.restart_recovery_iff Recorded.platform LedgerClient.deduplicating
      (Recorded.settings "strict") Recorded.registry ⟨rfl, rfl⟩ LedgerClient.init
      Recorded.restarted (by decide +kernel) (Run.injOn_of_nodup _ _ hnodup)
      fun c _ n _ => LedgerClient.not_recorded_init _)
  have hlost : ¬ Routes.Recovers Recorded.submitted t u :=
    Routes.not_recovers_of_lengths hsplit hbus
  refine ⟨t, v, u, hsplit, hlost, ?_⟩
  by_contra hnot
  exact hlost (hiff.mpr hnot)

end DecisionRuntime
