/-
What a strict commit that fails leaves in the ledger.

A commit is one append per event, each on its own: it goes on after an answer that
is not `ACCEPTED`, stops at an append that raises, and takes nothing back. The
ledger is append-only, and there is no operation that would. `Commits` says which
events of a commit took effect, append by append; in strict mode these, and no
others, are what an evaluation adds to the ledger, whether it passes the commit
gate or not (`ledger_of_evaluate`).
-/
import DecisionRuntime.EngineAnswers
import DecisionRuntime.Routes

set_option autoImplicit false

namespace DecisionRuntime

/-! ## Append-only ledgers -/

/-- A ledger of events that are only ever added to. An append that is accepted adds its event, one
that answers anything else adds nothing, and one that raises may have added it or not. -/
structure AppendOnlyLedger (σ : Type) extends LedgerBackend σ where
  events : σ → List LedgerEvent
  append_answered : ∀ event s answer, (append event s).1 = .ok answer →
    events (append event s).2 = events s ++ if answer.status = .accepted then [event] else []
  append_raised : ∀ event s e, (append event s).1 = .error e →
    events (append event s).2 = events s ∨ events (append event s).2 = events s ++ [event]
  read_only : ∀ event_id, Exec.Keeps events (get_by_event_id event_id)
  by_trace_id : ∀ trace_id s, (get_events_by_trace_id trace_id s).1
    = .ok ((events s).filter (fun event => event.trace_id.str = trace_id))

/-- The in-memory client is one. -/
def LedgerClient.append_only : AppendOnlyLedger LedgerClient where
  toLedgerBackend := LedgerClient.backend
  events L := L.events
  append_answered event L answer h := by
    have hanswer : (LedgerClient.append event L).1 = .ok answer := h
    show (LedgerClient.append event L).2.events = _
    by_cases hseen : event.event_id ∈ L.seen_ids
    · rw [LedgerClient.append, dif_pos hseen] at hanswer ⊢
      rw [← Except.ok.inj hanswer]
      exact (List.append_nil L.events).symm
    · rw [LedgerClient.append, dif_neg hseen] at hanswer ⊢
      rw [← Except.ok.inj hanswer]
      rfl
  append_raised event L e h := by
    have hraised : (LedgerClient.append event L).1 = .error e := h
    rw [LedgerClient.append] at hraised
    split_ifs at hraised
  read_only event_id := fun L => rfl
  by_trace_id trace_id L := by
    show (LedgerClient.get_events_by_trace_id trace_id L).1 = _
    rw [LedgerClient.get_events_by_trace_id, L.by_trace_id_eq]

section Commits

variable {σ : Type} (L : AppendOnlyLedger σ)

/-- The appends of these events, made one after the other in `s`, end in `s'`, and `kept` are the
events that took effect. -/
inductive Commits : List LedgerEvent → σ → σ → List LedgerEvent → Prop
  | nil (s : σ) : Commits [] s s []
  | accepted {event : LedgerEvent} {events kept : List LedgerEvent} {s s₁ s' : σ}
      {answer : LedgerAppendResult} (append : L.append event s = (.ok answer, s₁))
      (status : answer.status = .accepted) (rest : Commits events s₁ s' kept) :
      Commits (event :: events) s s' (event :: kept)
  | refused {event : LedgerEvent} {events kept : List LedgerEvent} {s s₁ s' : σ}
      {answer : LedgerAppendResult} (append : L.append event s = (.ok answer, s₁))
      (status : answer.status ≠ .accepted) (rest : Commits events s₁ s' kept) :
      Commits (event :: events) s s' kept
  | raised_before {event : LedgerEvent} {events : List LedgerEvent} {s s' : σ} {e : PyError}
      (append : L.append event s = (.error e, s')) (same : L.events s' = L.events s) :
      Commits (event :: events) s s' []
  | raised_after {event : LedgerEvent} {events : List LedgerEvent} {s s' : σ} {e : PyError}
      (append : L.append event s = (.error e, s'))
      (added : L.events s' = L.events s ++ [event]) :
      Commits (event :: events) s s' [event]

variable {L} {events kept : List LedgerEvent} {s s' : σ}

/-- What took effect is what the ledger has gained. -/
theorem Commits.events_eq (h : Commits L events s s' kept) :
    L.events s' = L.events s ++ kept := by
  induction h with
  | nil s => rw [List.append_nil]
  | @accepted event events kept s s₁ s' answer append status rest ih =>
      have happ := L.append_answered event s answer (congrArg Prod.fst append)
      rw [append, if_pos status] at happ
      rw [ih, happ, List.append_assoc]
      rfl
  | @refused event events kept s s₁ s' answer append status rest ih =>
      have happ := L.append_answered event s answer (congrArg Prod.fst append)
      rw [append, if_neg status, List.append_nil] at happ
      rw [ih, happ]
  | raised_before append same => rw [same, List.append_nil]
  | raised_after append added => exact added

/-- Nothing is added that is not an event of the commit, and nothing out of order. -/
theorem Commits.sublist (h : Commits L events s s' kept) : kept.Sublist events := by
  induction h with
  | nil => exact List.Sublist.refl _
  | accepted append status rest ih => exact ih.cons_cons _
  | refused append status rest ih => exact ih.cons _
  | raised_before => exact List.nil_sublist _
  | raised_after => exact (List.nil_sublist _).cons_cons _

open RuntimeLedgerAdapter

/-- The appends of a commit, told apart. -/
theorem commits_append_all (L : AppendOnlyLedger σ) (events : List LedgerEvent) (s : σ) :
    ∃ kept, Commits L events s (append_all L.toLedgerBackend events s).2 kept := by
  induction events generalizing s with
  | nil => exact ⟨[], .nil s⟩
  | cons event events ih =>
      rw [append_all]
      rcases happ : L.append event s with ⟨e | answer, s₁⟩
      · rw [Exec.run_bind_error _ happ]
        have hraised := L.append_raised event s e (congrArg Prod.fst happ)
        rw [happ] at hraised
        rcases hraised with hsame | hadded
        · exact ⟨[], .raised_before happ hsame⟩
        · exact ⟨[event], .raised_after happ hadded⟩
      · rw [Exec.run_bind_ok _ happ, Exec.run_bind_pure]
        obtain ⟨kept, hrest⟩ := ih s₁
        by_cases hstatus : answer.status = .accepted
        · exact ⟨event :: kept, .accepted happ hstatus hrest⟩
        · exact ⟨kept, .refused happ hstatus hrest⟩

end Commits

namespace DecisionRuntimeEngine

open RuntimeLedgerAdapter

variable {σ : Type} {P : Platform} {cfg : EngineConfig} {env : Env} {signal : Signal}
  {flow : DecisionFlow} {core : DecisionResult} {evaluated_nodes : List PyDict}

/-! ## What an evaluation adds to the ledger -/

section Keeps

variable (L : AppendOnlyLedger σ)

/-- The events in the ledger of a world. -/
def recorded_events (w : World σ) : List LedgerEvent := L.events w.ledger

/-- Past its appends, a strict commit adds nothing to the ledger. -/
theorem recorded_events_strict_commit (hs : cfg.strict) (final : DecisionResult)
    {events : List LedgerEvent}
    (hbuild : build_events P cfg.schema_version
      (commit_trace env signal flow final evaluated_nodes).1
      (commit_trace env signal flow final evaluated_nodes).2 = .ok events) (w : World σ) :
    recorded_events L (strict_commit P L.toLedgerBackend cfg env signal flow final
        evaluated_nodes w).2
      = L.events (append_all L.toLedgerBackend events w.ledger).2 := by
  have hcommit : recorded_events L (commit (client L.toLedgerBackend) P cfg.schema_version
      (commit_trace env signal flow final evaluated_nodes).1
      (commit_trace env signal flow final evaluated_nodes).2 w).2
        = L.events (append_all L.toLedgerBackend events w.ledger).2 := by
    rw [commit_run (client L.toLedgerBackend) hbuild]
    exact congrArg L.events (simulates_append_all events w).2
  rw [← hcommit]
  exact keeps_strict_commit (fun event_id w => L.read_only event_id w.ledger) hs final
    evaluated_nodes w

/-- **What a strict `evaluate` adds to the ledger** is what its appends do. -/
theorem ledger_of_evaluate (hs : cfg.strict)
    (computed : PureEvaluate.pure_evaluate P env.draws signal flow = .ok (core, evaluated_nodes))
    {events : List LedgerEvent}
    (hbuild : build_events P cfg.schema_version
      (commit_trace env signal flow (opened cfg env core) evaluated_nodes).1
      (commit_trace env signal flow (opened cfg env core) evaluated_nodes).2 = .ok events)
    (w : World σ) :
    recorded_events L (evaluate P L.toLedgerBackend cfg env signal flow w).2
      = L.events (append_all L.toLedgerBackend events w.ledger).2 := by
  have hconclude : ∀ answer, Exec.Keeps (recorded_events L)
      (conclude P L.toLedgerBackend cfg env signal flow evaluated_nodes answer) := by
    intro answer w
    exact congrArg L.events (keeps_ledger_conclude hs answer w)
  rw [evaluate_gated computed, Exec.keeps_second hconclude]
  exact recorded_events_strict_commit L hs (opened cfg env core) hbuild (gated cfg env core w)

end Keeps

end DecisionRuntimeEngine

/-! ## Reading it back -/

namespace LedgerProjector

open RuntimeLedgerAdapter

variable {P : Platform} {schema_version : String}

/-- The event validates, wherever it is taken for the summary of a trace. -/
def Readable (P : Platform) (event : LedgerEvent) : Prop :=
  ∀ signal_id created_at, ∃ r, build_result P event signal_id created_at = .ok r

/-- An event that says nothing of a confidence or a selected node is read with the defaults. -/
theorem readable_of_defaults {event : LedgerEvent}
    (hconfidence : PyDict.get event.payload "confidence" = none)
    (hselected : PyDict.get event.payload "selected_node_id" = none) : Readable P event := by
  intro signal_id created_at
  have hconf : confidence_of P event.payload = .ok Confidence.certain := by
    rw [confidence_of, hconfidence]
    show (if h : (0 : ℚ) ≤ 1 ∧ (1 : ℚ) ≤ 1 then
      (.ok ⟨1, h.1, h.2⟩ : Except PyError Confidence)
      else .error (.validationError "DecisionResult")) = .ok Confidence.certain
    exact dif_pos ⟨zero_le_one, le_refl 1⟩
  have hsel : selected_of event.payload = .ok "" := by
    rw [selected_of, hselected]
    rfl
  rw [build_result, hconf, hsel]
  exact ⟨_, rfl⟩

/-- Every event of an evaluation is. -/
theorem readable_events {trace : DecisionTrace} {result : DecisionResult}
    {records : List NodeRecord} (hrecords : trace.evaluated_nodes = records.map NodeRecord.toDict)
    {events : List LedgerEvent} (h : build_events P schema_version trace result = .ok events)
    {event : LedgerEvent} (he : event ∈ events) : Readable P event := by
  obtain rfl := Except.ok.inj ((build_events_records hrecords).symm.trans h)
  simp only [List.mem_append, List.mem_map, List.mem_singleton] at he
  rcases he with ((⟨signal_id, -, rfl⟩ | ⟨record, -, rfl⟩) | ⟨gate, -, rfl⟩) | rfl
  · exact readable_of_defaults rfl rfl
  · exact readable_of_defaults rfl rfl
  · exact readable_of_defaults rfl rfl
  · intro signal_id created_at
    exact (build_result_outcome trace result signal_id created_at).imp (fun _ h => h.1)

/-- The summary that is read is one of the events. -/
theorem outcome_event_of_fold {es : List LedgerEvent} {p : Projection} {event : LedgerEvent}
    (h : (es.foldl Projection.add p).outcome_event = some event) :
    event ∈ es ∨ p.outcome_event = some event := by
  induction es generalizing p with
  | nil => exact Or.inr h
  | cons e es ih =>
      rcases ih h with hmem | hadd
      · exact Or.inl (List.mem_cons_of_mem e hmem)
      · rw [Projection.add] at hadd
        split_ifs at hadd
        · exact Or.inr hadd
        · exact Or.inr hadd
        · obtain rfl := Option.some.inj hadd
          exact Or.inl List.mem_cons_self
        · exact Or.inr hadd

/-- Of readable events there is a projection, unless there are none of them. -/
theorem project_events_of_readable {trace_id : UUID} {es : List LedgerEvent}
    (h : ∀ event ∈ es, Readable P event) :
    es = [] ∧ project_events P trace_id.str es = .ok none ∨
      es ≠ [] ∧ ∃ t, project_events P trace_id.str es = .ok (some t) := by
  rcases es with _ | ⟨first, rest⟩
  · exact Or.inl ⟨rfl, rfl⟩
  · refine Or.inr ⟨List.cons_ne_nil first rest, ?_⟩
    obtain ⟨results, hresults⟩ : ∃ results, results_of P (read first rest) = .ok results := by
      rcases hevent : (read first rest).outcome_event with _ | event
      · rw [results_of, hevent]
        exact ⟨[], rfl⟩
      · have hmem : event ∈ first :: rest := by
          rcases outcome_event_of_fold hevent with hmem | hnone
          · exact hmem
          · cases hnone
        obtain ⟨r, hr⟩ := h event hmem (read first rest).signal_id (read first rest).started_at
        rw [results_of, hevent]
        dsimp only
        rw [hr]
        exact ⟨_, rfl⟩
    exact ⟨_, project_events_eq hresults⟩

end LedgerProjector

/-! ## A commit that fails -/

namespace DecisionRuntimeEngine

open RuntimeLedgerAdapter LedgerProjector

variable {σ : Type} {P : Platform} {cfg : EngineConfig} {env : Env} {signal : Signal}
  {flow : DecisionFlow} {core : DecisionResult} {evaluated_nodes : List PyDict}
  {events : List LedgerEvent}

/-- What is left of an evaluation when the ledger has not accepted its commit and the appends of
`kept` have taken effect. -/
structure Remains (L : AppendOnlyLedger σ) (P : Platform) (cfg : EngineConfig) (env : Env)
    (signal : Signal) (flow : DecisionFlow) (core : DecisionResult) (events kept : List LedgerEvent)
    (w : World σ) : Prop where
  /-- The answer is an `ERROR` or an earlier result, or there is none. -/
  answer : Stopped cfg env signal core w (evaluate P L.toLedgerBackend cfg env signal flow w).1
  /-- The ledger has gained `kept`, which are the appends that took effect, and nothing else. -/
  commits : Commits L events w.ledger (append_all L.toLedgerBackend events w.ledger).2 kept
  ledger : recorded_events L (evaluate P L.toLedgerBackend cfg env signal flow w).2
    = recorded_events L w ++ kept
  /-- Nothing is stored, remembered or dispatched. -/
  trace_store : (evaluate P L.toLedgerBackend cfg env signal flow w).2.trace_store = w.trace_store
  idempotency_store : (evaluate P L.toLedgerBackend cfg env signal flow w).2.idempotency_store
    = w.idempotency_store
  event_bus : (evaluate P L.toLedgerBackend cfg env signal flow w).2.event_bus = w.event_bus
  execution_publisher : (evaluate P L.toLedgerBackend cfg env signal flow w).2.execution_publisher
    = w.execution_publisher

/-- Of a new trace the ledger holds an event, the projector reads it and the route serves it. -/
structure Served (L : AppendOnlyLedger σ) (P : Platform) (trace_id : UUID) (w : World σ) :
    Prop where
  recorded : ∃ e ∈ recorded_events L w, e.trace_id = trace_id
  projected : ∃ t, (project L.toLedgerBackend P trace_id.str w.ledger).1 = .ok (some t)
  route : ∀ settings : Settings, settings.ledger_enabled = true →
    ∃ t, (Routes.get_trace P L.toLedgerBackend settings trace_id.str w).1 = .ok t

/-- The ledger holds no event of the trace, and neither the projector nor the route serves it. -/
structure NotServed (L : AppendOnlyLedger σ) (P : Platform) (trace_id : UUID) (w : World σ) :
    Prop where
  recorded : ∀ e ∈ recorded_events L w, e.trace_id ≠ trace_id
  projected : (project L.toLedgerBackend P trace_id.str w.ledger).1 = .ok none
  route : ∀ settings : Settings, ∃ msg,
    (Routes.get_trace P L.toLedgerBackend settings trace_id.str w).1
      = .error (.httpException 404 msg)

section Reading

variable (L : AppendOnlyLedger σ) (P : Platform)

/-- The projector sees the events of the trace. -/
theorem project_answer (trace_id : UUID) (s : σ) :
    (project L.toLedgerBackend P trace_id.str s).1
      = project_events P trace_id.str ((L.events s).filter (fun e => e.trace_id = trace_id)) := by
  have hread := L.by_trace_id trace_id.str s
  simp only [UUID.str_inj] at hread
  rw [project]
  rcases hget : L.get_events_by_trace_id trace_id.str s with ⟨e | found, s'⟩
  · rw [hget] at hread
    exact nomatch hread
  · rw [hget] at hread
    obtain rfl := Except.ok.inj hread
    rw [Exec.run_bind_ok _ hget]
    rfl

/-- A trace that is not stored is served from the ledger. -/
theorem get_trace_miss (settings : Settings) (hwired : settings.ledger_enabled = true)
    {trace_id : String} {w : World σ} {e : PyError}
    (hmiss : w.trace_store.get trace_id = .error e) :
    (Routes.get_trace P L.toLedgerBackend settings trace_id w).1 =
      match (project L.toLedgerBackend P trace_id w.ledger).1 with
      | .error e => .error e
      | .ok (some t) => .ok t
      | .ok none => .error (.httpException 404 ("Trace '" ++ trace_id ++ "' not found")) := by
  have hsim : Exec.Simulates World.ledger (project (client L.toLedgerBackend) P trace_id)
      (project L.toLedgerBackend P trace_id) :=
    Exec.simulates_bind (fun _ => ⟨rfl, rfl⟩) (fun _ _ => ⟨rfl, rfl⟩)
  rw [Routes.get_trace, Exec.run_get_bind, hmiss, ← (hsim w).1]
  simp only [hwired, if_true]
  rcases hproject : project (client L.toLedgerBackend) P trace_id w with ⟨e | _ | t, w'⟩
  · rw [Exec.run_bind_error _ hproject]
  · rw [Exec.run_bind_ok _ hproject]
    rfl
  · rw [Exec.run_bind_ok _ hproject]
    rfl

/-- Without a projector there is nothing to serve it from. -/
theorem get_trace_cold (settings : Settings) (hwired : settings.ledger_enabled = false)
    {trace_id : String} {w : World σ} {e : PyError}
    (hmiss : w.trace_store.get trace_id = .error e) :
    (Routes.get_trace P L.toLedgerBackend settings trace_id w).1
      = .error (.httpException 404 ("Trace '" ++ trace_id ++ "' not found")) := by
  rw [Routes.get_trace, Exec.run_get_bind, hmiss]
  simp only [hwired, Bool.false_eq_true, if_false]
  rfl

/-- **A new trace is served exactly when one of its events is recorded.** -/
theorem served_iff_recorded {trace_id : UUID} {w : World σ} {e : PyError}
    (hmiss : w.trace_store.get trace_id.str = .error e)
    {kept : List LedgerEvent}
    (hkept : (recorded_events L w).filter (fun e => e.trace_id = trace_id) = kept)
    (hreadable : ∀ event ∈ kept, Readable P event) :
    kept = [] ∧ NotServed L P trace_id w ∨ kept ≠ [] ∧ Served L P trace_id w := by
  have hproject : (project L.toLedgerBackend P trace_id.str w.ledger).1
      = project_events P trace_id.str kept := by
    rw [project_answer, ← hkept]
    rfl
  rcases project_events_of_readable hreadable with ⟨hnil, hnone⟩ | ⟨hne, t, hsome⟩
  · -- nothing recorded: a 404 from the projector, or from a route without one
    rw [hnone] at hproject
    refine Or.inl ⟨hnil, ?_, hproject, ?_⟩
    · intro event hevent htrace
      have hmem : event ∈ kept := by
        rw [← hkept]
        exact List.mem_filter.mpr ⟨hevent, decide_eq_true htrace⟩
      rw [hnil] at hmem
      exact nomatch hmem
    · intro settings
      by_cases hwired : settings.ledger_enabled = true
      · rw [get_trace_miss L P settings hwired hmiss, hproject]
        exact ⟨_, rfl⟩
      · rw [get_trace_cold L P settings (Bool.not_eq_true _ ▸ hwired) hmiss]
        exact ⟨_, rfl⟩
  · rw [hsome] at hproject
    refine Or.inr ⟨hne, ?_, ⟨t, hproject⟩, ?_⟩
    · obtain ⟨event, hevent⟩ := List.exists_mem_of_ne_nil kept hne
      rw [← hkept, List.mem_filter, decide_eq_true_eq] at hevent
      exact ⟨event, hevent⟩
    · intro settings hwired
      rw [get_trace_miss L P settings hwired hmiss, hproject]
      exact ⟨t, rfl⟩

end Reading

/-- The events of an evaluation carry the trace id it drew. -/
theorem trace_id_of_commit
    (computed : PureEvaluate.pure_evaluate P env.draws signal flow = .ok (core, evaluated_nodes))
    (hbuild : build_events P cfg.schema_version
      (commit_trace env signal flow (opened cfg env core) evaluated_nodes).1
      (commit_trace env signal flow (opened cfg env core) evaluated_nodes).2 = .ok events)
    {e : LedgerEvent} (he : e ∈ events) : e.trace_id = env.draws.trace_id := by
  obtain ⟨key, -, htrace, -⟩ := exists_of_forall₂ (build_events_hashes hbuild) he
  have hid : (commit_trace env signal flow (opened cfg env core) evaluated_nodes).1.id
      = (opened cfg env core).trace_id := rfl
  rw [htrace, hid, opened_trace_id, (PureEvaluate.stamped computed).trace_id]

/-- **A strict commit that fails is partial.** When the ledger does not accept every event of an
evaluation, it has gained those whose appends took effect, in order, and nothing is stored,
remembered or dispatched; a trace that was new is served exactly when there is such an append. -/
theorem partial_commit (L : AppendOnlyLedger σ) (hs : cfg.strict) (w : World σ)
    (computed : PureEvaluate.pure_evaluate P env.draws signal flow = .ok (core, evaluated_nodes))
    (hbuild : build_events P cfg.schema_version
      (commit_trace env signal flow (opened cfg env core) evaluated_nodes).1
      (commit_trace env signal flow (opened cfg env core) evaluated_nodes).2 = .ok events)
    (hrefused : ¬ LedgerAccepts L.toLedgerBackend events w.ledger) :
    ∃ kept, Remains L P cfg env signal flow core events kept w ∧
      ((∀ e ∈ recorded_events L w, e.trace_id ≠ env.draws.trace_id) →
        (∀ trace, w.trace_store.get env.draws.trace_id.str ≠ .ok trace) →
        let w' := (evaluate P L.toLedgerBackend cfg env signal flow w).2
        kept = [] ∧ NotServed L P env.draws.trace_id w' ∨
          kept ≠ [] ∧ Served L P env.draws.trace_id w') := by
  obtain ⟨kept, hcommits⟩ := commits_append_all L events w.ledger
  have hledger := ledger_of_evaluate L hs computed hbuild w
  rw [hcommits.events_eq] at hledger
  have hnot : ¬ Accepted P L.toLedgerBackend cfg env signal flow (opened cfg env core)
      evaluated_nodes (gated cfg env core w) := by
    rw [accepted_iff_ledgerAccepts hbuild]
    exact hrefused
  obtain ⟨hframe, hanswer⟩ := evaluate_stopped hs computed hnot
  refine ⟨kept, ⟨hanswer, hcommits, hledger, hframe.trace_store, hframe.idempotency_store,
    hframe.event_bus, hframe.execution_publisher⟩, ?_⟩
  intro hnew hstore w'
  have hsub : ∀ e ∈ kept, e ∈ events := fun e he => hcommits.sublist.subset he
  -- what the ledger holds of the trace is what this commit has added
  have hkept : (recorded_events L w').filter (fun e => e.trace_id = env.draws.trace_id) = kept := by
    have hold : (L.events w.ledger).filter (fun e => e.trace_id = env.draws.trace_id) = [] := by
      rw [List.filter_eq_nil_iff]
      intro e he
      simp [hnew e he]
    have hall : kept.filter (fun e => e.trace_id = env.draws.trace_id) = kept := by
      rw [List.filter_eq_self]
      intro e he
      simp [trace_id_of_commit computed hbuild (hsub e he)]
    rw [hledger, List.filter_append, hold, hall, List.nil_append]
  obtain ⟨e, hmiss⟩ : ∃ e, w'.trace_store.get env.draws.trace_id.str = .error e := by
    have hstore' : w'.trace_store = w.trace_store := hframe.trace_store
    rw [hstore']
    rcases hget : w.trace_store.get env.draws.trace_id.str with e | trace
    · exact ⟨e, rfl⟩
    · exact absurd hget (hstore trace)
  obtain ⟨outcomes, sel, version, brs, -, -, -, -, -, hnodes⟩ :=
    PureEvaluate.pure_evaluate_eq_ok.mp computed
  refine served_iff_recorded L P hmiss hkept ?_
  exact fun event hevent => readable_events hnodes hbuild (hsub event hevent)

end DecisionRuntimeEngine

namespace Recorded

/-- The in-memory ledger, except that it answers the event of the signal with `INVALID`. -/
def refusing_signals : AppendOnlyLedger LedgerClient where
  append event :=
    if event.step_type = StepType.signal.value then
      return { status := .invalid, event_id := event.event_id }
    else LedgerClient.append event
  get_by_event_id := LedgerClient.get_by_event_id
  get_events_by_trace_id := LedgerClient.get_events_by_trace_id
  events L := L.events
  append_answered event L answer h := by
    by_cases hsignal : event.step_type = StepType.signal.value
    · rw [if_pos hsignal] at h ⊢
      rw [← Except.ok.inj h]
      exact (List.append_nil L.events).symm
    · rw [if_neg hsignal] at h ⊢
      exact LedgerClient.append_only.append_answered event L answer h
  append_raised event L e h := by
    by_cases hsignal : event.step_type = StepType.signal.value
    · rw [if_pos hsignal] at h
      cases h
    · rw [if_neg hsignal] at h ⊢
      exact LedgerClient.append_only.append_raised event L e h
  read_only := LedgerClient.append_only.read_only
  by_trace_id := LedgerClient.append_only.by_trace_id

end Recorded

namespace DecisionRuntimeEngine

open RuntimeLedgerAdapter LedgerProjector

theorem refusing_signals_refuses {event : LedgerEvent}
    (hsignal : event.step_type = StepType.signal.value) {events : List LedgerEvent}
    {L : LedgerClient} :
    ¬ LedgerAccepts Recorded.refusing_signals.toLedgerBackend (event :: events) L := by
  rw [ledgerAccepts_cons]
  rintro ⟨answer, L', happ, hacc, -⟩
  have hinvalid : Recorded.refusing_signals.append event L
      = (.ok { status := .invalid, event_id := event.event_id }, L) := by
    simp only [Recorded.refusing_signals, if_pos hsignal]
    rfl
  obtain rfl := Except.ok.inj (congrArg Prod.fst (hinvalid.symm.trans happ))
  cases hacc

/-- The ledger is left with a trace that is read as that of a confirmed decision. -/
theorem refused_signal_served :
    ¬ NotServed Recorded.refusing_signals Recorded.platform (UUID.repeated 0xa)
      (evaluate Recorded.platform Recorded.refusing_signals.toLedgerBackend
        (Recorded.config "strict") (Recorded.env (UUID.repeated 0xa) (UUID.repeated 0xc))
        Recorded.signal (Recorded.flow none) (World.init LedgerClient.init)).2 := by
  have hproject : ((project Recorded.refusing_signals.toLedgerBackend Recorded.platform
      (UUID.repeated 0xa).str
      (evaluate Recorded.platform Recorded.refusing_signals.toLedgerBackend
        (Recorded.config "strict") (Recorded.env (UUID.repeated 0xa) (UUID.repeated 0xc))
        Recorded.signal (Recorded.flow none)
        (World.init LedgerClient.init)).2.ledger).1.toOption.join.map
          (fun t => t.decision_results.map (·.status))) = some [.confirmed] := by
    decide +kernel
  intro h
  rw [h.projected] at hproject
  cases hproject

/-- The event of the signal is refused and `evaluate` answers with an `ERROR`, but the trace is
served. -/
theorem partial_commit_refused_signal :
    let L := Recorded.refusing_signals
    let run := evaluate Recorded.platform L.toLedgerBackend (Recorded.config "strict")
      (Recorded.env (UUID.repeated 0xa) (UUID.repeated 0xc)) Recorded.signal (Recorded.flow none)
      (World.init LedgerClient.init)
    run.1.toOption.map (fun result => (result.status, result.error_message))
        = some (.error, some "Ledger commit failed: failed")
      ∧ (run.2.ledger.events.filter (fun e => e.trace_id = UUID.repeated 0xa)).length = 2
      ∧ ¬ NotServed L Recorded.platform (UUID.repeated 0xa) run.2 :=
  ⟨by decide +kernel, by decide +kernel, refused_signal_served⟩

theorem partial_commit_recorded :
    let w := World.init LedgerClient.init
    let cfg := Recorded.config "strict"
    let env := Recorded.env (UUID.repeated 0xa) (UUID.repeated 0xc)
    ∃ core events kept, kept ≠ []
      ∧ Remains Recorded.refusing_signals Recorded.platform cfg env Recorded.signal
        (Recorded.flow none) core events kept w
      ∧ Served Recorded.refusing_signals Recorded.platform env.draws.trace_id
        (evaluate Recorded.platform Recorded.refusing_signals.toLedgerBackend cfg env
          Recorded.signal (Recorded.flow none) w).2 := by
  intro w cfg env
  obtain ⟨core, evaluated_nodes, computed⟩ : ∃ core evaluated_nodes, PureEvaluate.pure_evaluate
      Recorded.platform env.draws Recorded.signal (Recorded.flow none)
        = .ok (core, evaluated_nodes) := ⟨_, _, Recorded.first.computed⟩
  obtain ⟨events, hbuild⟩ := exists_events cfg computed (opened cfg env core)
  have hrefused : ¬ LedgerAccepts Recorded.refusing_signals.toLedgerBackend events w.ledger := by
    obtain ⟨rest, rfl⟩ := build_events_signal hbuild rfl
    exact refusing_signals_refuses rfl
  obtain ⟨kept, hremains, hserved⟩ :=
    partial_commit Recorded.refusing_signals ⟨rfl, rfl⟩ w computed hbuild hrefused
  refine ⟨core, events, kept, ?_⟩
  rcases hserved (fun _ he => nomatch he) (fun _ ht => nomatch ht) with ⟨-, hnot⟩ | ⟨hne, hyes⟩
  · exact absurd hnot refused_signal_served
  · exact ⟨hne, hremains, hyes⟩

end DecisionRuntimeEngine

end DecisionRuntime
