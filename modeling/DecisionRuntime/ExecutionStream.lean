/-
The execution stream of a run in which no call to the outside fails.

The event bus and the publisher are written by `evaluate` alone, in one block, and
the results come back through the answers of the calls. `StreamLaws` ties them
together over a whole run: the stream is, in order and one for one, the confirmed
results that the evaluations computed themselves; every other answer adds nothing
to it; and each of these results is what the trace store holds under its trace id.
-/
import DecisionRuntime.EngineRuns
import DecisionRuntime.LedgerCommit

set_option autoImplicit false

namespace DecisionRuntime.DecisionRuntimeEngine

variable {σ : Type} {P : Platform} {C : LedgerBackend σ} {cfg : EngineConfig}

/-- A confirmed result that the `evaluate` computed itself. -/
def freshly_confirmed (t : EngineEntry σ) : Option DecisionResult :=
  (fresh t).filter (fun result => result.status = .confirmed)

/-- The event asks for the execution of the result. -/
structure Carries (event : RuntimeEvent) (result : DecisionResult) : Prop where
  event_type : event.event_type = .execution_requested
  trace_id : event.trace_id = result.trace_id
  decision_id : event.decision_id = some result.id
  flow_id : event.flow_id = result.flow_id
  execution_id : ∃ execution_id, result.execution_id = some execution_id
    ∧ PyDict.get event.payload "execution_id" = some (.str execution_id)
  payload_decision_id : PyDict.get event.payload "decision_id" = some (.str result.id.str)
  action : PyDict.get event.payload "action"
    = some ((result.action.map Value.dict).getD .none)

/-- The store holds the trace of the result, with the result as its first one. -/
def Traced (store : TraceStore) (result : DecisionResult) : Prop :=
  ∃ trace, store.get result.trace_id.str = .ok trace ∧ trace.id = result.trace_id
    ∧ trace.decision_results.head? = some result

/-- What the answers of a run and the stores at its end have to do with each other. -/
structure StreamLaws (cfg : EngineConfig) (history : List (EngineEntry σ)) (w : World σ) :
    Prop where
  /-- The event bus and the publisher hold the same events. -/
  same : w.event_bus = w.execution_publisher
  /-- One for each freshly confirmed result, in call order. -/
  stream : List.Forall₂ Carries w.event_bus (history.filterMap freshly_confirmed)
  /-- No other fresh result has an execution id. -/
  execution_id : ∀ t ∈ history, ∀ result, fresh t = some result → result.status ≠ .confirmed →
    result.execution_id = none
  /-- Every fresh result but an `ERROR` is in the trace store. -/
  traced : cfg.trace_store = true → ∀ t ∈ history, ∀ result, fresh t = some result →
    result.status ≠ .error → Traced w.trace_store result

/-! ## One more call -/

section Step

variable {history : List (EngineEntry σ)} {w w' : World σ} {t : EngineEntry σ}

theorem filterMap_concat {α β : Type} (f : α → Option β) (l : List α) (a : α) :
    (l ++ [a]).filterMap f = l.filterMap f ++ (f a).toList := by
  rw [List.filterMap_append]
  rcases h : f a with _ | b
  · simp [h]
  · simp [h]

/-- A call that adds no event and no trace has no fresh result, or an `ERROR`. -/
theorem StreamLaws.quiet (h : StreamLaws cfg history w) (hbus : w'.event_bus = w.event_bus)
    (hpub : w'.execution_publisher = w.execution_publisher)
    (htrace : w'.trace_store = w.trace_store)
    (hfresh : ∀ result, fresh t = some result →
      result.status = .error ∧ result.execution_id = none) :
    StreamLaws cfg (history ++ [t]) w' where
  same := by rw [hbus, hpub, h.same]
  stream := by
    have hnone : freshly_confirmed t = none := by
      rw [freshly_confirmed, Option.filter_eq_none_iff]
      intro result hres
      rw [(hfresh result hres).1]
      decide
    rw [filterMap_concat, hnone, Option.toList_none, List.append_nil, hbus]
    exact h.stream
  execution_id t' ht' result hres hne := by
    rcases List.mem_append.mp ht' with ht' | ht'
    · exact h.execution_id t' ht' result hres hne
    · rw [List.mem_singleton.mp ht'] at hres
      exact (hfresh result hres).2
  traced hw t' ht' result hres hne := by
    rw [htrace]
    rcases List.mem_append.mp ht' with ht' | ht'
    · exact h.traced hw t' ht' result hres hne
    · rw [List.mem_singleton.mp ht'] at hres
      exact absurd (hfresh result hres).1 hne

/-- A call that ends with a fresh result: a confirmed one adds its event, and the trace store
gains its trace and keeps those of other ids. -/
theorem StreamLaws.extend (h : StreamLaws cfg history w) {result : DecisionResult}
    (hfresh : fresh t = some result)
    (hbus : w'.event_bus = w'.execution_publisher)
    (hstream : result.status ≠ .confirmed ∧ w'.event_bus = w.event_bus
        ∧ result.execution_id = none ∨
      result.status = .confirmed ∧ ∃ event, Carries event result
        ∧ w'.event_bus = w.event_bus ++ [event])
    (hown : cfg.trace_store = true → Traced w'.trace_store result)
    (hold : ∀ t' ∈ history, ∀ result', fresh t' = some result' →
      Traced w.trace_store result' → Traced w'.trace_store result') :
    StreamLaws cfg (history ++ [t]) w' where
  same := hbus
  stream := by
    rw [filterMap_concat, freshly_confirmed, hfresh]
    rcases hstream with ⟨hne, hsame, -⟩ | ⟨heq, event, hcarries, hsnoc⟩
    · rw [Option.filter_some, if_neg (by simpa using hne), Option.toList_none, List.append_nil,
        hsame]
      exact h.stream
    · rw [Option.filter_some, if_pos (by simpa using heq), Option.toList_some, hsnoc]
      exact List.rel_append h.stream (.cons hcarries .nil)
  execution_id t' ht' result' hres hne := by
    rcases List.mem_append.mp ht' with ht' | ht'
    · exact h.execution_id t' ht' result' hres hne
    · rw [List.mem_singleton.mp ht', hfresh] at hres
      obtain rfl := Option.some.inj hres
      rcases hstream with ⟨-, -, hnone⟩ | ⟨heq, -⟩
      · exact hnone
      · exact absurd heq hne
  traced hw t' ht' result' hres hne := by
    rcases List.mem_append.mp ht' with ht' | ht'
    · exact hold t' ht' result' hres (h.traced hw t' ht' result' hres hne)
    · rw [List.mem_singleton.mp ht', hfresh] at hres
      obtain rfl := Option.some.inj hres
      exact hown hw

theorem carries_request_event (cfg : EngineConfig) (env : Env) (core : DecisionResult) :
    Carries (request_event env core) (persisted cfg (requested env core)) := by
  unfold persisted
  split_ifs
  · exact ⟨rfl, rfl, rfl, rfl, ⟨_, rfl, rfl⟩, rfl, rfl⟩
  · exact ⟨rfl, rfl, rfl, rfl, ⟨_, rfl, rfl⟩, rfl, rfl⟩

/-! ## A whole run -/

/-- What is carried along a run: the laws, and where the ids in the stores come from. -/
structure StreamInv (cfg : EngineConfig) (history : List (EngineEntry σ)) (w : World σ) :
    Prop where
  known : Known (fun u => ∃ t ∈ history, u ∈ t.call.drawn) w
  trace_ids : ∀ t ∈ history, ∀ result, fresh t = some result → result.trace_id ∈ t.call.drawn
  laws : StreamLaws cfg history w

/-- The core of an evaluation has no execution id, and neither has the result until it is
dispatched. -/
theorem execution_id_none {env : Env} {signal : Signal} {flow : DecisionFlow}
    {core : DecisionResult} {evaluated_nodes : List PyDict}
    (computed : PureEvaluate.pure_evaluate P env.draws signal flow = .ok (core, evaluated_nodes)) :
    (opened cfg env core).populate_canonical_fields.execution_id = none := by
  rw [DecisionResult.canonical_execution_id, opened_execution_id,
    (PureEvaluate.stamped computed).execution_id]

/-- A finished evaluation, given what its dispatch did. -/
theorem stream_done (hbus : cfg.event_bus = true) (hpub : cfg.execution_publisher = true)
    (h : StreamInv cfg history w) {env : Env} {signal : Signal} {flow : DecisionFlow}
    (hnew : ∀ t ∈ history, env.draws.trace_id ∉ t.call.drawn)
    {core final : DecisionResult} {evaluated_nodes : List PyDict} {w₁ w₂ : World σ}
    (computed : PureEvaluate.pure_evaluate P env.draws signal flow = .ok (core, evaluated_nodes))
    (passed : Passed P C cfg env signal flow core evaluated_nodes w w₁)
    (dispatched : Dispatch cfg env (ready cfg env core) w₁ (.ok final) w₂)
    (hframe : LedgerOnly
      (traced cfg env signal flow final evaluated_nodes (remembering cfg signal final w₂)) w')
    (hfresh : fresh t = some (persisted cfg final)) :
    StreamLaws cfg (history ++ [t]) w' := by
  have hstamp := PureEvaluate.stamped computed
  have htrace_id : final.trace_id = env.draws.trace_id := by
    rw [dispatched.ids.2.1, ready_trace_id, hstamp.trace_id]
  have hexec : (ready cfg env core).execution_id = none := by
    rw [ready_execution_id, hstamp.execution_id]
  have hbus₂ : w'.event_bus = w₂.event_bus := hframe.event_bus
  have hpub₂ : w'.execution_publisher = w₂.execution_publisher := hframe.execution_publisher
  have hbus₁ : w₁.event_bus = w.event_bus := passed.ledger_only.event_bus
  have hpub₁ : w₁.execution_publisher = w.execution_publisher :=
    passed.ledger_only.execution_publisher
  have hstore : w'.trace_store = if cfg.trace_store then
      w.trace_store.save (stored_trace env signal flow final evaluated_nodes).1
      else w.trace_store := by
    have hw₂ : w₂.trace_store = w.trace_store := by
      rcases dispatched.result with ⟨-, -, rfl⟩ | ⟨-, -, rfl⟩
      · exact passed.ledger_only.trace_store
      · exact passed.ledger_only.trace_store
    rw [hframe.trace_store, ← hw₂]
    rfl
  refine h.laws.extend hfresh ?_ ?_ ?_ ?_
  · rw [hbus₂, hpub₂]
    rcases dispatched.result with ⟨-, -, rfl⟩ | ⟨-, -, rfl⟩
    · rw [hbus₁, hpub₁, h.laws.same]
    · simp only [handed_over, hbus, hpub, if_true, hbus₁, hpub₁, h.laws.same]
  · rw [hbus₂, persisted_status, persisted_execution_id]
    rcases dispatched.result with ⟨rfl, hst, rfl⟩ | ⟨rfl, hst, rfl⟩
    · exact Or.inl ⟨hst, hbus₁, hexec⟩
    · refine Or.inr ⟨hst, request_event env (ready cfg env core), ?_, ?_⟩
      · exact carries_request_event cfg env (ready cfg env core)
      · simp only [handed_over, hbus, if_true, hbus₁]
  · intro hw
    rw [hstore, if_pos hw]
    refine ⟨(stored_trace env signal flow final evaluated_nodes).1, ?_, ?_, ?_⟩
    · rw [persisted_trace_id]
      exact TraceStore.get_save_same (stored_trace env signal flow final evaluated_nodes).1 _
    · rw [persisted_trace_id]
      rfl
    · rw [persisted, if_pos (Or.inl hw)]
      rfl
  · rintro t' ht' result' hres' ⟨trace, hget, hid, hhead⟩
    refine ⟨trace, ?_, hid, hhead⟩
    rw [hstore]
    split_ifs
    · -- the two traces have different ids, since the trace id was drawn by an earlier call
      rw [TraceStore.get_save_other, hget]
      intro hstr
      have heq : result'.trace_id = final.trace_id := UUID.str_inj.mp hstr
      rw [htrace_id] at heq
      refine hnew t' ht' ?_
      rw [← heq]
      exact h.trace_ids t' ht' result' hres'
    · exact hget

/-- A call that raises has no fresh result. -/
theorem not_fresh_of_raised {e : PyError} (h : t.answer = .error e) (result : DecisionResult) :
    fresh t ≠ some result := by
  intro hres
  rw [(fresh_eq_some hres).1] at h
  exact nomatch h

/-- An evaluation that did not pass the commit gate. -/
theorem stream_stopped (h : StreamInv cfg history w) {env : Env} {signal : Signal}
    {flow : DecisionFlow} (hnew : ∀ u ∈ env.drawn, ∀ t ∈ history, u ∉ t.call.drawn)
    {core : DecisionResult} {evaluated_nodes : List PyDict}
    (computed : PureEvaluate.pure_evaluate P env.draws signal flow = .ok (core, evaluated_nodes))
    (hframe : LedgerOnly (gated cfg env core w) w')
    {answer : Except PyError DecisionResult} (hstopped : Stopped cfg env signal core w answer)
    (htcall : t.call = .evaluate env signal flow) (htanswer : t.answer = answer) :
    (∀ result, fresh t = some result → result.trace_id = env.draws.trace_id)
      ∧ StreamLaws cfg (history ++ [t]) w' := by
  have hquiet : (∀ result, fresh t = some result →
      result.status = .error ∧ result.execution_id = none) →
      StreamLaws cfg (history ++ [t]) w' :=
    h.laws.quiet hframe.event_bus hframe.execution_publisher hframe.trace_store
  rcases hstopped with status | hrec | e
  · -- an `ERROR` result, under the id that was drawn
    have hall : ∀ result, fresh t = some result → result = refused env status
        (opened cfg env core).populate_canonical_fields := by
      intro result hres
      have hok := (fresh_eq_some hres).1
      rw [htanswer] at hok
      exact (Except.ok.inj hok).symm
    refine ⟨?_, hquiet ?_⟩
    · intro result hres
      rw [hall result hres]
      show (opened cfg env core).trace_id = _
      rw [opened_trace_id, (PureEvaluate.stamped computed).trace_id]
    · intro result hres
      rw [hall result hres]
      exact ⟨rfl, execution_id_none computed⟩
  · -- a recovered result has the id of an earlier call
    have hnone : ∀ result, fresh t ≠ some result := by
      intro result hres
      obtain ⟨hok, env', signal', flow', hcall', hid⟩ := fresh_eq_some hres
      rw [htanswer] at hok
      obtain rfl := Except.ok.inj hok
      rw [htcall] at hcall'
      obtain ⟨rfl, -, -⟩ := EngineCall.evaluate.inj hcall'
      obtain ⟨u, hu, hmem⟩ := h.known.recoverable hrec
      rw [hid] at hmem
      exact hnew _ (by simp [Env.drawn]) u hu hmem
    refine ⟨fun result hres => absurd hres (hnone result), hquiet ?_⟩
    exact fun result hres => absurd hres (hnone result)
  · have hnone := not_fresh_of_raised htanswer
    refine ⟨fun result hres => absurd hres (hnone result), hquiet ?_⟩
    exact fun result hres => absurd hres (hnone result)

/-- An `evaluate` in which no call to the outside raises. -/
theorem stream_evaluate (hbus : cfg.event_bus = true) (hpub : cfg.execution_publisher = true)
    (h : StreamInv cfg history w) {env : Env} {signal : Signal} {flow : DecisionFlow}
    (hclean : env.Clean)
    (hnew : ∀ u ∈ env.drawn, ∀ t ∈ history, u ∉ t.call.drawn)
    {answer : Except PyError DecisionResult}
    (hrun : EvaluateRun P C cfg env signal flow w answer w')
    (htcall : t.call = .evaluate env signal flow) (htanswer : t.answer = answer) :
    (∀ result, fresh t = some result → result.trace_id = env.draws.trace_id)
      ∧ StreamLaws cfg (history ++ [t]) w' := by
  have hreturned : ∀ r, t.answer = .ok r → r.id = env.draws.decision_id → fresh t = some r := by
    intro r hr hid
    rw [fresh, htcall, hr]
    exact if_pos hid
  rcases hrun with _ | ⟨computed, _, hframe, _, hstopped⟩ | ⟨_, _, _, hd⟩ | ⟨_, _, _, _, hf⟩
    | ⟨computed, passed, _, hd⟩
  case invalid =>
    have hnone := not_fresh_of_raised htanswer
    refine ⟨fun result hres => absurd hres (hnone result), h.laws.quiet rfl rfl rfl ?_⟩
    exact fun result hres => absurd hres (hnone result)
  case stopped =>
    exact stream_stopped h hnew computed hframe hstopped htcall htanswer
  case undispatched =>
    -- a dispatch fails only where a call to the outside raises
    rcases hd with _ | _ | ⟨_, hwhy, _⟩
    rcases hwhy with ⟨-, hf⟩ | ⟨-, hf⟩
    · exact absurd hclean.event_bus hf
    · exact absurd hclean.execution_publisher hf
  case unsaved => exact absurd hclean.trace_store hf.2
  case done =>
    have hstamp := PureEvaluate.stamped computed
    have hfresh := hreturned _ htanswer (by
      rw [persisted_id, hd.ids.1, ready_id, hstamp.id])
    refine ⟨?_, stream_done hbus hpub h (hnew _ (by simp [Env.drawn])) computed passed hd
      (ledgerOnly_committed_after P C cfg _ _) hfresh⟩
    intro result hres
    rw [hfresh] at hres
    obtain rfl := Option.some.inj hres
    rw [persisted_trace_id, hd.ids.2.1, ready_trace_id, hstamp.trace_id]

/-- **The step lemma.** -/
theorem stream_call (hbus : cfg.event_bus = true) (hpub : cfg.execution_publisher = true)
    (h : StreamInv cfg history w) {c : EngineCall} (hclean : c.Clean)
    (hfresh : ∀ u ∈ c.drawn, ∀ t ∈ history, u ∉ t.call.drawn) :
    StreamInv cfg (history ++ [Run.entry (EngineCall.run P C cfg) w c])
      (c.run P C cfg w).2 := by
  have hknown : Known (fun u => ∃ t ∈ history ++ [Run.entry (EngineCall.run P C cfg) w c],
      u ∈ t.call.drawn) (c.run P C cfg w).2 := by
    refine known_call (h.known.mono ?_) c ?_
    · rintro u ⟨t, ht, hut⟩
      exact ⟨t, List.mem_append_left _ ht, hut⟩
    · rintro env signal flow core evaluated_nodes w₁ rfl computed -
      refine ⟨_, List.mem_append_right _ (List.mem_singleton_self _), ?_⟩
      rw [(PureEvaluate.stamped computed).id]
      simp [EngineCall.drawn, Env.drawn]
  rcases c with ⟨env, signal, flow⟩ | _ | _ | _
  case simulate | approve | reject =>
    -- no evaluation, so nothing is published
    refine ⟨hknown, ?_, h.laws.quiet rfl rfl rfl (fun _ hres => nomatch hres)⟩
    intro t ht result hres
    rcases List.mem_append.mp ht with ht | ht
    · exact h.trace_ids t ht result hres
    · rw [List.mem_singleton.mp ht] at hres
      exact nomatch hres
  obtain ⟨htrace, hlaws⟩ := stream_evaluate (t := Run.entry (EngineCall.run P C cfg) w
    (.evaluate env signal flow)) hbus hpub h hclean hfresh
    (evaluate_run P C cfg env signal flow w) rfl rfl
  refine ⟨hknown, ?_, hlaws⟩
  intro t ht result hres
  rcases List.mem_append.mp ht with ht | ht
  · exact h.trace_ids t ht result hres
  · rw [List.mem_singleton.mp ht] at hres ⊢
    rw [htrace result hres]
    simp [EngineCall.drawn, Env.drawn]

end Step

/-- **The execution stream.** In a run in which no call to the outside raises and no id is drawn
twice, the event bus and the publisher hold one event for each freshly confirmed result, in call
order, and the trace store holds the result of every evaluation that was not refused. -/
theorem execution_stream (P : Platform) (C : LedgerBackend σ) (cfg : EngineConfig)
    (hbus : cfg.event_bus = true) (hpub : cfg.execution_publisher = true) (s : σ)
    (calls : List EngineCall) (hclean : ∀ c ∈ calls, c.Clean)
    (hfresh : (calls.flatMap EngineCall.drawn).Nodup) :
    StreamLaws cfg (Run.entries (EngineCall.run P C cfg) (World.init s) calls)
      (Run.final (EngineCall.run P C cfg) (World.init s) calls) := by
  have hinv : StreamInv cfg (Run.entries (EngineCall.run P C cfg) (World.init s) calls)
      (Run.final (EngineCall.run P C cfg) (World.init s) calls) := by
    refine Run.entries_invariant (StreamInv cfg) ?_ ?_
    · refine ⟨known_init _ s, fun _ ht => absurd ht (by simp), rfl, .nil, ?_, ?_⟩
      · exact fun _ ht => absurd ht (by simp)
      · exact fun _ _ ht => absurd ht (by simp)
    · intro pre c post hcs h
      rw [hcs] at hclean hfresh
      refine stream_call hbus hpub h (hclean c (by simp)) ?_
      intro u hu
      exact Run.fresh_of_nodup EngineCall.drawn hfresh hu
  exact hinv.laws

theorem execution_stream_recorded :
    let run := EngineCall.run Recorded.platform LedgerClient.backend (Recorded.config "parallel")
    let calls := Recorded.calls (Recorded.flow none) Recorded.signal
    let w := Run.final run (World.init LedgerClient.init) calls
    w.event_bus.length = 2 ∧ StreamLaws (Recorded.config "parallel")
      (Run.entries run (World.init LedgerClient.init) calls) w := by
  refine ⟨by decide +kernel, execution_stream Recorded.platform LedgerClient.backend
    (Recorded.config "parallel") rfl rfl LedgerClient.init _ ?_ (by decide)⟩
  intro c hc
  simp only [Recorded.calls, List.mem_cons, List.not_mem_nil, or_false] at hc
  rcases hc with rfl | rfl | rfl
  · exact ⟨rfl, rfl, rfl⟩
  · trivial
  · exact ⟨rfl, rfl, rfl⟩

end DecisionRuntime.DecisionRuntimeEngine
