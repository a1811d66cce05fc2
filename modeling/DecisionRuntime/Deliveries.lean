/-
The hand-over of execution requests when anything may fail.

A confirmed decision is published twice, on the event bus and then to the publisher,
and each of the two may raise before or after it took the event in. `Delivers` is
what one call does to the two streams, and over a run it follows that the publisher
never holds what the bus does not, and that a request left out on the way belongs to
a call that raised (`DeliveryLaws`). No clause asks that nothing fails.

`KafkaExecutionPublisher` hands the stream to its producer, one record for each
event: its filter drops nothing that the engine publishes, and the records with the
key of a flow keep the order of the calls (`ProducerLaws`). What the producer makes of
a record is not known here, nor to the publisher: `send` answers with a future, which
is dropped.
-/
import DecisionRuntime.ExecutionStream
import Mathlib.Data.List.Flatten

set_option autoImplicit false

namespace DecisionRuntime

namespace DecisionRuntimeEngine

variable {σ : Type}

/-! ## What one call does to the two streams -/

/-- What a call does to the two streams: nothing, or the event goes to the bus and from there to the
publisher, unless the call raises in between. -/
inductive Delivers (event : Option RuntimeEvent) (answer : Except PyError DecisionResult)
    (w w' : World σ) : Prop
  | nothing (event_bus : w'.event_bus = w.event_bus)
      (execution_publisher : w'.execution_publisher = w.execution_publisher) :
      Delivers event answer w w'
  | half {e : RuntimeEvent} {exc : PyError} (requested : event = some e)
      (event_bus : w'.event_bus = w.event_bus ++ [e])
      (execution_publisher : w'.execution_publisher = w.execution_publisher)
      (raised : answer = .error exc) : Delivers event answer w w'
  | whole {e : RuntimeEvent} (requested : event = some e)
      (event_bus : w'.event_bus = w.event_bus ++ [e])
      (execution_publisher : w'.execution_publisher = w.execution_publisher ++ [e]) :
      Delivers event answer w w'

section Call

variable {P : Platform} {C : LedgerBackend σ} {cfg : EngineConfig} {env : Env} {signal : Signal}
  {flow : DecisionFlow} {core : DecisionResult} {evaluated_nodes : List PyDict}
  {event : Option RuntimeEvent} {answer answer' : Except PyError DecisionResult}
  {w₀ w w' w'' : World σ}

/-- What comes before and after leaves the streams alone, and a call that has raised stays
raised. -/
theorem Delivers.frame (h : Delivers event answer w w')
    (hbus : w.event_bus = w₀.event_bus)
    (hpub : w.execution_publisher = w₀.execution_publisher)
    (hbus' : w''.event_bus = w'.event_bus)
    (hpub' : w''.execution_publisher = w'.execution_publisher)
    (hraised : ∀ exc, answer = .error exc → ∃ exc', answer' = .error exc') :
    Delivers event answer' w₀ w'' := by
  cases h with
  | nothing hb hp => exact .nothing (by rw [hbus', hb, hbus]) (by rw [hpub', hp, hpub])
  | half hreq hb hp hr =>
      obtain ⟨exc', hr'⟩ := hraised _ hr
      exact .half hreq (by rw [hbus', hb, hbus]) (by rw [hpub', hp, hpub]) hr'
  | whole hreq hb hp => exact .whole hreq (by rw [hbus', hb, hbus]) (by rw [hpub', hp, hpub])

/-- The event that a result asks for, if it is confirmed. -/
def requested_of (env : Env) (final : DecisionResult) : Option RuntimeEvent :=
  if final.status = .confirmed then some (request_event env final) else none

/-- **The dispatch.** -/
theorem dispatch_delivers (hbus : cfg.event_bus = true) (hpub : cfg.execution_publisher = true)
    (env : Env) (final : DecisionResult) (w : World σ) :
    Delivers (requested_of env final) (dispatch cfg env final w).1 w
      (dispatch cfg env final w).2 := by
  unfold requested_of
  by_cases hs : final.status = .confirmed
  swap
  · rw [dispatch, if_neg hs, if_neg hs]
    exact .nothing rfl rfl
  have hrun : dispatch cfg env final w
      = (when_wired cfg.event_bus (publish_event env.event_bus_fault (request_event env final))
        >>= fun _ => when_wired cfg.execution_publisher
          (publish_execution env.execution_publisher_fault (request_event env final))
        >>= fun _ => pure (requested env final)) w := by
    rw [dispatch, if_pos hs]
    rfl
  have hfirst := publish_event_run cfg.event_bus env.event_bus_fault (request_event env final) w
  have hsecond := publish_execution_run cfg.execution_publisher env.execution_publisher_fault
    (request_event env final)
    (event_published cfg.event_bus env.event_bus_fault (request_event env final) w)
  rw [if_pos hs, hrun]
  rw [if_pos hbus] at hfirst
  rw [if_pos hpub] at hsecond
  -- the bus fails before it takes the event in, or after, or not at all
  cases hfault : env.event_bus_fault with
  | before =>
      rw [hfault] at hfirst
      rw [Exec.run_bind_error _ hfirst]
      refine .nothing ?_ rfl
      simp [event_published, taken]
  | after =>
      rw [hfault] at hfirst
      rw [Exec.run_bind_error _ hfirst]
      refine .half rfl ?_ rfl rfl
      simp [event_published, taken, hbus]
  | none =>
      rw [hfault] at hfirst hsecond
      rw [Exec.run_bind_ok _ hfirst]
      cases hfault' : env.execution_publisher_fault with
      | before =>
          rw [hfault'] at hsecond
          rw [Exec.run_bind_error _ hsecond]
          refine .half rfl ?_ ?_ rfl
          · simp [execution_published, event_published, taken, hbus]
          · simp [execution_published, event_published, taken]
      | after =>
          rw [hfault'] at hsecond
          rw [Exec.run_bind_error _ hsecond]
          refine .whole rfl ?_ ?_
          · simp [execution_published, event_published, taken, hbus]
          · simp [execution_published, event_published, taken, hpub]
      | none =>
          rw [hfault'] at hsecond
          rw [Exec.run_bind_ok _ hsecond]
          refine .whole rfl ?_ ?_
          · simp [execution_published, event_published, taken, hbus]
          · simp [execution_published, event_published, taken, hpub]

/-- What follows the commit gate: the streams are written by the dispatch alone. -/
theorem finish_delivers (hbus : cfg.event_bus = true) (hpub : cfg.execution_publisher = true)
    (P : Platform) (C : LedgerBackend σ) (env : Env) (signal : Signal) (flow : DecisionFlow)
    (final : DecisionResult) (evaluated_nodes : List PyDict) (w : World σ) :
    Delivers (requested_of env final) (finish P C cfg env signal flow final evaluated_nodes w).1 w
      (finish P C cfg env signal flow final evaluated_nodes w).2 := by
  have hdispatch := dispatch_delivers hbus hpub env final w
  cases hr : dispatch cfg env final w with
  | mk outcome w₂ =>
  rw [hr] at hdispatch
  cases outcome with
  | error e =>
      rw [finish, Exec.run_bind_error _ hr]
      exact hdispatch
  | ok handed =>
      rw [finish, Exec.run_bind_ok _ hr, Exec.run_bind_ok _ (remember_run handed w₂)]
      -- the trace store may still fail, when the event has been handed over
      by_cases hfault : cfg.trace_store = true ∧ env.trace_store_fault ≠ .none
      · obtain ⟨e, store, hp, -⟩ := persist_raised P C signal flow hfault.1 hfault.2 handed
          evaluated_nodes (remembering cfg signal handed w₂)
        have hp' : persist P C cfg env signal flow handed evaluated_nodes
            { w₂ with idempotency_store := remembered cfg signal handed w₂.idempotency_store }
            = (.error e, { remembering cfg signal handed w₂ with trace_store := store }) := hp
        rw [hp']
        exact hdispatch.frame rfl rfl rfl rfl fun exc hexc => ⟨e, rfl⟩
      · have hsave : cfg.trace_store = true → env.trace_store_fault = .none := by
          intro hw
          by_contra hf
          exact hfault ⟨hw, hf⟩
        rw [persist_run hsave]
        have hframe := ledgerOnly_committed_after P C cfg
          (stored_trace env signal flow handed evaluated_nodes)
          (traced cfg env signal flow handed evaluated_nodes (remembering cfg signal handed w₂))
        refine hdispatch.frame rfl rfl hframe.event_bus hframe.execution_publisher ?_
        intro exc hexc
        cases hexc

/-- The event that the decision of a call asks for. -/
def asked_for (P : Platform) (cfg : EngineConfig) : EngineCall → Option RuntimeEvent
  | .evaluate env signal flow =>
    match PureEvaluate.pure_evaluate P env.draws signal flow with
    | .ok (core, _) => requested_of env (ready cfg env core)
    | .error _ => none
  | _ => none

theorem asked_for_ok (computed : PureEvaluate.pure_evaluate P env.draws signal flow
    = .ok (core, evaluated_nodes)) :
    asked_for P cfg (.evaluate env signal flow) = requested_of env (ready cfg env core) := by
  rw [asked_for, computed]

/-- **One evaluation.** -/
theorem evaluate_delivers (hbus : cfg.event_bus = true) (hpub : cfg.execution_publisher = true)
    (P : Platform) (C : LedgerBackend σ) (env : Env) (signal : Signal) (flow : DecisionFlow)
    (w : World σ) :
    Delivers (asked_for P cfg (.evaluate env signal flow))
      (evaluate P C cfg env signal flow w).1 w (evaluate P C cfg env signal flow w).2 := by
  cases computed : PureEvaluate.pure_evaluate P env.draws signal flow with
  | error e =>
      rw [evaluate, computed]
      exact .nothing rfl rfl
  | ok outcome =>
  obtain ⟨core, evaluated_nodes⟩ := outcome
  rw [asked_for_ok computed]
  rw [evaluate_gated computed]
  by_cases hs : cfg.strict
  swap
  · have hready : ready cfg env core = opened cfg env core := by rw [ready, if_neg hs]
    rw [Exec.run_bind_ok _ (strict_commit_not_strict hs _ _ _), hready]
    exact (finish_delivers hbus hpub P C env signal flow (opened cfg env core) evaluated_nodes
      (gated cfg env core w)).frame rfl rfl rfl rfl fun exc hexc => ⟨exc, hexc⟩
  have hready : ready cfg env core = (opened cfg env core).populate_canonical_fields := by
    rw [ready, if_pos hs]
  -- one of the four answers of the gate lets the evaluation go on
  obtain ⟨hframe, hc⟩ := strict_commit_cases P C env signal flow hs (opened cfg env core)
    evaluated_nodes (gated cfg env core w)
  cases hr : strict_commit P C cfg env signal flow (opened cfg env core) evaluated_nodes
      (gated cfg env core w) with
  | mk answer w₁ =>
  rw [hr] at hframe hc
  dsimp only at hframe hc
  rcases hc with _ | _ | _ | _
  · rw [Exec.run_bind_ok _ hr, hready]
    exact (finish_delivers hbus hpub P C env signal flow _ evaluated_nodes w₁).frame
      hframe.event_bus hframe.execution_publisher rfl rfl fun exc hexc => ⟨exc, hexc⟩
  · rw [Exec.run_bind_ok _ hr]
    exact .nothing hframe.event_bus hframe.execution_publisher
  · rw [Exec.run_bind_ok _ hr]
    exact .nothing hframe.event_bus hframe.execution_publisher
  · rw [Exec.run_bind_error _ hr]
    exact .nothing hframe.event_bus hframe.execution_publisher

/-- **One call.** Only an evaluation writes the streams. -/
theorem call_delivers (hbus : cfg.event_bus = true) (hpub : cfg.execution_publisher = true)
    (P : Platform) (C : LedgerBackend σ) (c : EngineCall) (w : World σ) :
    Delivers (asked_for P cfg c) (c.run P C cfg w).1 w (c.run P C cfg w).2 := by
  cases c with
  | evaluate env signal flow => exact evaluate_delivers hbus hpub P C env signal flow w
  | simulate draws completed_at signal flow => exact .nothing rfl rfl
  | approve now request_id actor_id comment actor_roles => exact .nothing rfl rfl
  | reject now request_id actor_id comment actor_roles => exact .nothing rfl rfl

end Call

/-! ## A whole run -/

section Run

variable {P : Platform} {C : LedgerBackend σ} {cfg : EngineConfig}
  {history : List (EngineEntry σ)} {w w' : World σ} {c : EngineCall}

/-- The events that the decisions of a run ask for, in call order. -/
def asked (P : Platform) (cfg : EngineConfig) (calls : List EngineCall) : List RuntimeEvent :=
  calls.filterMap (asked_for P cfg)

theorem asked_append (P : Platform) (cfg : EngineConfig) (calls : List EngineCall)
    (c : EngineCall) :
    asked P cfg (calls ++ [c]) = asked P cfg calls ++ (asked_for P cfg c).toList :=
  filterMap_concat _ _ _

/-- An event that a call asks for carries what the call drew. -/
theorem asked_for_drawn {event : RuntimeEvent} (h : asked_for P cfg c = some event) :
    event.event_type = .execution_requested ∧ event.trace_id ∈ c.drawn := by
  cases c with
  | simulate | approve | reject => exact nomatch h
  | evaluate env signal flow =>
  cases computed : PureEvaluate.pure_evaluate P env.draws signal flow with
  | error e =>
      rw [asked_for, computed] at h
      exact nomatch h
  | ok outcome =>
  obtain ⟨core, evaluated_nodes⟩ := outcome
  rw [asked_for_ok computed, requested_of] at h
  split_ifs at h
  obtain rfl := Option.some.inj h
  refine ⟨rfl, ?_⟩
  show (ready cfg env core).trace_id ∈ env.drawn
  rw [ready_trace_id, (PureEvaluate.stamped computed).trace_id]
  simp [Env.drawn]

/-- No decision is asked for twice. -/
theorem asked_nodup {calls : List EngineCall} (P : Platform) (cfg : EngineConfig)
    (hfresh : (calls.flatMap EngineCall.drawn).Nodup) :
    ((asked P cfg calls).map (·.trace_id)).Nodup := by
  rw [asked, List.filterMap_eq_flatMap_toList, List.map_flatMap]
  refine List.Nodup.sublist (List.Sublist.flatMap_right calls ?_) hfresh
  intro c _
  cases hasked : asked_for P cfg c with
  | none => simp
  | some event => simpa using (asked_for_drawn hasked).2

/-- What a confirmed answer says about the call: the result was handed over twice. -/
theorem freshly_confirmed_delivers (hpub : cfg.execution_publisher = true)
    (hknown : Known (fun u => ∃ t ∈ history, u ∈ t.call.drawn) w)
    (hnew : ∀ u ∈ c.drawn, ∀ t ∈ history, u ∉ t.call.drawn) {result : DecisionResult}
    (h : freshly_confirmed (Run.entry (EngineCall.run P C cfg) w c) = some result) :
    ∃ event, Carries event result
      ∧ (c.run P C cfg w).2.execution_publisher = w.execution_publisher ++ [event] := by
  rw [freshly_confirmed, Option.filter_eq_some_iff, decide_eq_true_eq] at h
  obtain ⟨hfresh, hconfirmed⟩ := h
  obtain ⟨hanswer, env, signal, flow, hcall, hid⟩ := fresh_eq_some hfresh
  rw [Run.entry_call] at hcall
  subst hcall
  have hanswer' : (evaluate P C cfg env signal flow w).1 = .ok result := hanswer
  have hrun := evaluate_run P C cfg env signal flow w
  show ∃ event, Carries event result
    ∧ (evaluate P C cfg env signal flow w).2.execution_publisher = _
  generalize (evaluate P C cfg env signal flow w).2 = w' at hrun
  rw [hanswer'] at hrun
  cases hrun with
  | stopped computed strict frame not_accepted answered =>
      cases answered with
      | refused status =>
          have herror : DecisionStatus.error = .confirmed := hconfirmed
          exact absurd herror (by decide)
      | recovered hrec =>
          -- a recovered result has the id of an earlier call
          obtain ⟨u, hu, hmem⟩ := hknown.recoverable hrec
          rw [hid] at hmem
          exact absurd hmem (hnew _ (by simp [EngineCall.drawn, Env.drawn]) u hu)
  | @done core final evaluated_nodes w₁ w₂ computed passed hands_over dispatched saved =>
      rw [persisted_status] at hconfirmed
      have hw₂ : (committed_after P C cfg (stored_trace env signal flow final evaluated_nodes)
          (traced cfg env signal flow final evaluated_nodes
            (remembering cfg signal final w₂))).execution_publisher = w₂.execution_publisher :=
        (ledgerOnly_committed_after P C cfg _ _).execution_publisher
      rcases dispatched.result with ⟨rfl, hst, -⟩ | ⟨rfl, -, rfl⟩
      · exact absurd hconfirmed hst
      · refine ⟨_, carries_request_event cfg env (ready cfg env core), ?_⟩
        have hw₁ : w₁.execution_publisher = w.execution_publisher :=
          passed.ledger_only.execution_publisher
        rw [hw₂]
        simp [handed_over, hpub, hw₁]

/-- The ids in the stores come from the calls made so far. -/
theorem known_step (h : Known (fun u => ∃ t ∈ history, u ∈ t.call.drawn) w) :
    Known (fun u => ∃ t ∈ history ++ [Run.entry (EngineCall.run P C cfg) w c],
      u ∈ t.call.drawn) (c.run P C cfg w).2 := by
  refine known_call (h.mono ?_) c ?_
  · rintro u ⟨t, ht, hut⟩
    exact ⟨t, List.mem_append_left _ ht, hut⟩
  · rintro env signal flow core evaluated_nodes w₁ rfl computed -
    refine ⟨_, List.mem_append_right _ (List.mem_singleton_self _), ?_⟩
    rw [(PureEvaluate.stamped computed).id]
    simp [EngineCall.drawn, Env.drawn]

/-- What the two streams of a run hold, whatever fails. -/
structure DeliveryLaws (P : Platform) (cfg : EngineConfig) (history : List (EngineEntry σ))
    (w : World σ) : Prop where
  /-- The publisher never runs ahead of the bus. -/
  handed : w.execution_publisher.Sublist w.event_bus
  /-- The bus holds what the decisions ask for, in call order, with omissions. -/
  in_order : w.event_bus.Sublist (asked P cfg (history.map Entry.call))
  /-- What got lost between the two belongs to a call that raised. -/
  lost : ∀ event ∈ w.event_bus, event ∉ w.execution_publisher →
    ∃ t ∈ history, asked_for P cfg t.call = some event ∧ t.Raised
  /-- A caller that was answered with a confirmed decision can rely on the publisher. -/
  delivered : ∀ t ∈ history, ∀ result, freshly_confirmed t = some result →
    ∃ event ∈ w.execution_publisher, Carries event result

/-- **The step lemma.** -/
theorem DeliveryLaws.step (hbus : cfg.event_bus = true) (hpub : cfg.execution_publisher = true)
    (h : DeliveryLaws P cfg history w)
    (hknown : Known (fun u => ∃ t ∈ history, u ∈ t.call.drawn) w)
    (hnew : ∀ u ∈ c.drawn, ∀ t ∈ history, u ∉ t.call.drawn) :
    DeliveryLaws P cfg (history ++ [Run.entry (EngineCall.run P C cfg) w c])
      (c.run P C cfg w).2 := by
  have hcalls : asked P cfg ((history ++ [Run.entry (EngineCall.run P C cfg) w c]).map Entry.call)
      = asked P cfg (history.map Entry.call) ++ (asked_for P cfg c).toList := by
    rw [List.map_append, List.map_singleton, Run.entry_call, asked_append]
  have hstep := call_delivers hbus hpub P C c w
  -- no call takes anything back, so what was delivered stays delivered
  have hkept : w.execution_publisher.Sublist (c.run P C cfg w).2.execution_publisher := by
    cases hstep with
    | nothing hb hp => rw [hp]
    | half hreq hb hp hr => rw [hp]
    | whole hreq hb hp =>
        rw [hp]
        exact List.sublist_append_left _ _
  have hlost : ∀ event ∈ w.event_bus, event ∉ (c.run P C cfg w).2.execution_publisher →
      ∃ t ∈ history ++ [Run.entry (EngineCall.run P C cfg) w c],
        asked_for P cfg t.call = some event ∧ t.Raised := by
    intro event hmem hnot
    obtain ⟨t, ht, hasked⟩ := h.lost event hmem fun hin => hnot (hkept.subset hin)
    exact ⟨t, List.mem_append_left _ ht, hasked⟩
  have hdelivered : ∀ t ∈ history ++ [Run.entry (EngineCall.run P C cfg) w c], ∀ result,
      freshly_confirmed t = some result →
      ∃ event ∈ (c.run P C cfg w).2.execution_publisher, Carries event result := by
    intro t ht result hres
    rcases List.mem_append.mp ht with ht | ht
    · obtain ⟨event, hmem, hcarries⟩ := h.delivered t ht result hres
      exact ⟨event, hkept.subset hmem, hcarries⟩
    · rw [List.mem_singleton.mp ht] at hres
      obtain ⟨event, hcarries, hp⟩ := freshly_confirmed_delivers hpub hknown hnew hres
      exact ⟨event, by simp [hp], hcarries⟩
  cases hstep with
  | nothing hb hp =>
      refine ⟨by rw [hb, hp]; exact h.handed, ?_, by rwa [hb], hdelivered⟩
      rw [hb, hcalls]
      exact h.in_order.trans (List.sublist_append_left _ _)
  | @half e exc hreq hb hp hr =>
      refine ⟨?_, ?_, ?_, hdelivered⟩
      · rw [hb, hp]
        exact h.handed.trans (List.sublist_append_left _ _)
      · rw [hb, hcalls, hreq]
        exact h.in_order.append (List.Sublist.refl _)
      · intro event hmem hnot
        rw [hb] at hmem
        rcases List.mem_append.mp hmem with hmem | hmem
        · exact hlost event hmem hnot
        · obtain rfl := List.mem_singleton.mp hmem
          exact ⟨_, List.mem_append_right _ (List.mem_singleton_self _), hreq, exc, hr⟩
  | @whole e hreq hb hp =>
      refine ⟨?_, ?_, ?_, hdelivered⟩
      · rw [hb, hp]
        exact h.handed.append (List.Sublist.refl _)
      · rw [hb, hcalls, hreq]
        exact h.in_order.append (List.Sublist.refl _)
      · intro event hmem hnot
        rw [hb] at hmem
        rcases List.mem_append.mp hmem with hmem | hmem
        · exact hlost event hmem hnot
        · rw [hp] at hnot
          exact absurd (List.mem_append_right _ hmem) hnot

/-- **The run lemma.** -/
theorem deliveries (P : Platform) (C : LedgerBackend σ) (cfg : EngineConfig)
    (hbus : cfg.event_bus = true) (hpub : cfg.execution_publisher = true) (s : σ)
    (calls : List EngineCall) (hfresh : (calls.flatMap EngineCall.drawn).Nodup) :
    DeliveryLaws P cfg (Run.entries (EngineCall.run P C cfg) (World.init s) calls)
      (Run.final (EngineCall.run P C cfg) (World.init s) calls) := by
  have hinv : Known (fun u => ∃ t ∈ Run.entries (EngineCall.run P C cfg) (World.init s) calls,
        u ∈ t.call.drawn) (Run.final (EngineCall.run P C cfg) (World.init s) calls)
      ∧ DeliveryLaws P cfg (Run.entries (EngineCall.run P C cfg) (World.init s) calls)
        (Run.final (EngineCall.run P C cfg) (World.init s) calls) := by
    refine Run.entries_invariant (fun history w => Known (fun u => ∃ t ∈ history,
      u ∈ t.call.drawn) w ∧ DeliveryLaws P cfg history w) ?_ ?_
    · refine ⟨known_init _ s, .slnil, .slnil, ?_, ?_⟩
      · exact fun _ hmem => absurd hmem (by simp [World.init])
      · exact fun _ ht => absurd ht (by simp)
    · intro pre c post hcs h
      rw [hcs] at hfresh
      refine ⟨known_step h.1, h.2.step hbus hpub h.1 ?_⟩
      intro u hu
      exact Run.fresh_of_nodup EngineCall.drawn hfresh hu
  exact hinv.2

end Run

end DecisionRuntimeEngine

/-! ## The producer -/

/-- What the producer is handed: the arguments of `send`. -/
structure ProducerRecord where
  topic : String
  key : String
  value : String
  deriving DecidableEq

namespace KafkaExecutionPublisher

/-- The record of an event. The JSON of an event is outside the source. -/
def record (topic : String) (model_dump_json : RuntimeEvent → String) (event : RuntimeEvent) :
    ProducerRecord where
  topic := topic
  key := event.flow_id.str
  value := model_dump_json event

/-- `publish`, on the records that the producer was handed so far. When `send` itself raises, the
record is not among them; when `flush` does, it is. -/
def publish (topic : String) (model_dump_json : RuntimeEvent → String) (event : RuntimeEvent)
    (records : List ProducerRecord) : List ProducerRecord :=
  if event.event_type ≠ .execution_requested then records
  else records ++ [record topic model_dump_json event]

/-- What the producer is handed, given the events that the publisher takes. -/
def handed (topic : String) (model_dump_json : RuntimeEvent → String)
    (events : List RuntimeEvent) : List ProducerRecord :=
  events.foldl (fun records event => publish topic model_dump_json event records) []

variable {topic : String} {model_dump_json : RuntimeEvent → String} {events : List RuntimeEvent}

/-- The filter drops nothing when every event is a request. -/
theorem handed_eq (h : ∀ event ∈ events, event.event_type = .execution_requested) :
    handed topic model_dump_json events = events.map (record topic model_dump_json) := by
  induction events using List.reverseRecOn with
  | nil => rfl
  | append_singleton events event ih =>
      have hevent : event.event_type = .execution_requested := h event (by simp)
      have hrest := ih fun e he => h e (List.mem_append_left _ he)
      rw [handed] at hrest
      rw [handed, List.foldl_append, hrest, List.foldl_cons, List.foldl_nil, publish,
        if_neg (by simpa using hevent), List.map_append, List.map_singleton]

/-- The key of a record tells its flow. -/
theorem filter_key (topic : String) (model_dump_json : RuntimeEvent → String) (flow_id : UUID)
    (events : List RuntimeEvent) :
    (events.map (record topic model_dump_json)).filter (fun r => r.key = flow_id.str)
      = (events.filter fun event => event.flow_id = flow_id).map
        (record topic model_dump_json) := by
  rw [List.filter_map]
  congr 1
  apply List.filter_congr
  intro event _
  simp [record, UUID.str_inj]

end KafkaExecutionPublisher

namespace DecisionRuntimeEngine

open KafkaExecutionPublisher

variable {σ : Type}

/-- What holds of the records that the producer was handed, whatever fails. -/
structure ProducerLaws (P : Platform) (cfg : EngineConfig) (topic : String)
    (model_dump_json : RuntimeEvent → String) (history : List (EngineEntry σ)) (w : World σ) :
    Prop where
  /-- No decision is asked for twice. -/
  once : ((asked P cfg (history.map Entry.call)).map (·.trace_id)).Nodup
  /-- The bus holds what the decisions ask for, in call order, with omissions. -/
  in_order : w.event_bus.Sublist (asked P cfg (history.map Entry.call))
  /-- The producer was handed what is on the bus, with omissions. -/
  handed_order : (handed topic model_dump_json w.execution_publisher).Sublist
    (w.event_bus.map (record topic model_dump_json))
  /-- The records with the key of a flow are requests of its decisions, in call order. -/
  key_order : ∀ flow_id : UUID,
    ((handed topic model_dump_json w.execution_publisher).filter
      (fun r => r.key = flow_id.str)).Sublist
    (((asked P cfg (history.map Entry.call)).filter (fun event => event.flow_id = flow_id)).map
      (record topic model_dump_json))
  /-- A request on the bus that was not handed over is of a call that raised. -/
  lost : ∀ event ∈ w.event_bus,
    record topic model_dump_json event ∉ handed topic model_dump_json w.execution_publisher →
    ∃ t ∈ history, asked_for P cfg t.call = some event ∧ t.Raised
  /-- What a caller was told to be confirmed was handed over. -/
  delivered : ∀ t ∈ history, ∀ result, freshly_confirmed t = some result →
    ∃ event, Carries event result
      ∧ record topic model_dump_json event ∈ handed topic model_dump_json w.execution_publisher

/-- **Deliveries.** In every run of an engine that is wired to a bus and a publisher, whatever these
two, the trace store and the ledger do, the producer is handed what the bus holds, the bus holds
what the decisions ask for, both in call order and nothing twice; what is left out belongs to a call
that raised, and the request of what a caller was told to be confirmed was handed over. -/
theorem deliveries_exact (P : Platform) (C : LedgerBackend σ) (cfg : EngineConfig)
    (topic : String) (model_dump_json : RuntimeEvent → String) (hbus : cfg.event_bus = true)
    (hpub : cfg.execution_publisher = true) (s : σ) (calls : List EngineCall)
    (hfresh : (calls.flatMap EngineCall.drawn).Nodup) :
    ProducerLaws P cfg topic model_dump_json
      (Run.entries (EngineCall.run P C cfg) (World.init s) calls)
      (Run.final (EngineCall.run P C cfg) (World.init s) calls) := by
  have h := deliveries P C cfg hbus hpub s calls hfresh
  -- the publisher drops events of other types, of which there are none
  have hhanded : ∀ events : List RuntimeEvent, events.Sublist (asked P cfg
      ((Run.entries (EngineCall.run P C cfg) (World.init s) calls).map Entry.call)) →
      handed topic model_dump_json events = events.map (record topic model_dump_json) := by
    intro events hsub
    apply handed_eq
    intro event hmem
    obtain ⟨c, -, hasked⟩ := List.mem_filterMap.mp (hsub.subset hmem)
    exact (asked_for_drawn hasked).1
  have hpublished := hhanded _ (h.handed.trans h.in_order)
  refine ⟨?_, h.in_order, ?_, ?_, ?_, ?_⟩
  · rw [Run.map_call_entries]
    exact asked_nodup P cfg hfresh
  · rw [hpublished]
    exact h.handed.map _
  · intro flow_id
    rw [hpublished, filter_key]
    exact ((h.handed.trans h.in_order).filter _).map _
  · intro event hmem hnot
    rw [hpublished] at hnot
    exact h.lost event hmem fun hin => hnot (List.mem_map_of_mem hin)
  · intro t ht result hres
    obtain ⟨event, hmem, hcarries⟩ := h.delivered t ht result hres
    refine ⟨event, hcarries, ?_⟩
    rw [hpublished]
    exact List.mem_map_of_mem hmem

/-- The publisher fails for the second of two evaluations: the bus holds both requests. -/
theorem deliveries_exact_unpublished :
    let run := EngineCall.run Recorded.platform LedgerClient.backend (Recorded.config "parallel")
    let calls : List EngineCall :=
      [.evaluate (Recorded.env (UUID.repeated 0xa) (UUID.repeated 0xc)) Recorded.signal
          (Recorded.flow none),
        .evaluate { Recorded.env (UUID.repeated 0xd) (UUID.repeated 0xe) with
          gate_id := UUID.repeated 6
          execution_id := UUID.repeated 7
          event_id := UUID.repeated 8
          execution_publisher_fault := .before } Recorded.signal (Recorded.flow none)]
    let w := Run.final run (World.init LedgerClient.init) calls
    w.event_bus.length = 2 ∧ w.execution_publisher.length = 1
      ∧ ProducerLaws Recorded.platform (Recorded.config "parallel") "runtime.execution.requested"
        (fun event => event.id.str) (Run.entries run (World.init LedgerClient.init) calls) w :=
  ⟨by decide +kernel, by decide +kernel, deliveries_exact Recorded.platform LedgerClient.backend
    (Recorded.config "parallel") _ _ rfl rfl LedgerClient.init _ (by decide +kernel)⟩

end DecisionRuntimeEngine

end DecisionRuntime
