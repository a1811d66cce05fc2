/-
The commit gate of the strict mode, over any sequence of calls and any ledger.

The ledger is a backend that may answer or raise as it likes. What is carried
along a run is the list of calls the engine has made to the outside: every publish
in it is preceded by the accepted appends of the evaluation it belongs to
(`Justified`), and what the event bus and the publisher hold has been published.
-/
import DecisionRuntime.EngineRuns
import DecisionRuntime.LedgerCommit

set_option autoImplicit false

namespace DecisionRuntime

namespace DecisionRuntimeEngine

open RuntimeLedgerAdapter

variable {σ : Type} {P : Platform} {C : LedgerBackend σ} {cfg : EngineConfig}

/-! ## A publish and its evaluation -/

/-- The commit whose events these are: the trace and the result that the engine commits for one
of the calls. -/
def CommitOf (P : Platform) (cfg : EngineConfig) (calls : List EngineCall)
    (trace : DecisionTrace) (result : DecisionResult) : Prop :=
  ∃ env signal flow core evaluated_nodes, .evaluate env signal flow ∈ calls
    ∧ PureEvaluate.pure_evaluate P env.draws signal flow = .ok (core, evaluated_nodes)
    ∧ (trace, result) = commit_trace env signal flow (opened cfg env core) evaluated_nodes

/-- Among the calls `made`, the ledger has accepted `event`. -/
def AcceptedIn (made : List ExternalCall) (event : LedgerEvent) : Prop :=
  ∃ answer, .append event (.ok answer) ∈ made ∧ answer.status = .accepted

/-- The publish of `event`, made after the calls `made`, belongs to an evaluation all of whose
events have been accepted by then, among them the outcome of a confirmed decision. -/
def Backed (P : Platform) (cfg : EngineConfig) (calls : List EngineCall)
    (made : List ExternalCall) (event : RuntimeEvent) : Prop :=
  ∃ trace result events, CommitOf P cfg calls trace result
    ∧ build_events P cfg.schema_version trace result = .ok events
    ∧ (∀ e ∈ events, AcceptedIn made e)
    ∧ event.trace_id = trace.id ∧ event.decision_id = some result.id
    ∧ ∃ e ∈ events, e.step_type = StepType.outcome.value ∧ e.decision_id = result.id
      ∧ PyDict.get e.payload "decision_id" = some (.str result.id.str)
      ∧ PyDict.get e.payload "status" = some (.str DecisionStatus.confirmed.value)

/-- Every publish is backed by what was called before it. -/
def Justified (P : Platform) (cfg : EngineConfig) (calls : List EngineCall)
    (made : List ExternalCall) : Prop :=
  ∀ pre x post event, made = pre ++ x :: post → x.published = some event →
    event.event_type = .execution_requested ∧ Backed P cfg calls pre event

variable {calls : List EngineCall}

theorem Backed.mono {made more : List ExternalCall} {event : RuntimeEvent}
    (h : Backed P cfg calls made event) : Backed P cfg calls (made ++ more) event := by
  obtain ⟨trace, result, events, hof, hbuild, hacc, hrest⟩ := h
  refine ⟨trace, result, events, hof, hbuild, ?_, hrest⟩
  intro e he
  obtain ⟨answer, hmem, hstatus⟩ := hacc e he
  exact ⟨answer, List.mem_append_left _ hmem, hstatus⟩

/-- The calls go on with publishes that are backed already. -/
theorem Justified.append {made more : List ExternalCall} (h : Justified P cfg calls made)
    (hmore : ∀ x ∈ more, ∀ event, x.published = some event →
      event.event_type = .execution_requested ∧ Backed P cfg calls made event) :
    Justified P cfg calls (made ++ more) := by
  intro pre x post event hsplit hpub
  rcases List.append_eq_append_iff.mp hsplit with ⟨mid, hpre, hrest⟩ | ⟨mid, hmade, hrest⟩
  · -- the publish is one of the new calls
    have hx : x ∈ more := by
      rw [hrest]
      exact List.mem_append_right _ (by simp)
    obtain ⟨htype, hbacked⟩ := hmore x hx event hpub
    rw [hpre]
    exact ⟨htype, hbacked.mono⟩
  · rcases mid with _ | ⟨y, mid⟩
    · have hx : x ∈ more := by
        rw [List.nil_append] at hrest
        rw [← hrest]
        simp
      obtain ⟨htype, hbacked⟩ := hmore x hx event hpub
      rw [List.append_nil] at hmade
      rw [← hmade]
      exact ⟨htype, hbacked⟩
    · obtain ⟨rfl, -⟩ := List.cons_eq_cons.mp hrest
      exact h pre x mid event hmade hpub

/-- Appends justify themselves. -/
theorem Justified.ledger_only {w w' : World σ} (h : Justified P cfg calls w.calls)
    (hw : LedgerOnly w w') : Justified P cfg calls w'.calls := by
  obtain ⟨appends, hcalls, hnone⟩ := hw.calls
  rw [hcalls]
  refine h.append ?_
  intro x hx event hpub
  rw [hnone x hx] at hpub
  exact nomatch hpub

/-! ## The invariant -/

/-- What the event bus and the publisher hold has been published, and every publish is backed. -/
structure Gated (P : Platform) (cfg : EngineConfig) (calls : List EngineCall) (w : World σ) :
    Prop where
  justified : Justified P cfg calls w.calls
  event_bus : ∀ event ∈ w.event_bus, .publish_event event ∈ w.calls
  execution_publisher : ∀ event ∈ w.execution_publisher, .publish_execution event ∈ w.calls

theorem Gated.ledger_only {w w' : World σ} (h : Gated P cfg calls w) (hw : LedgerOnly w w') :
    Gated P cfg calls w' := by
  obtain ⟨appends, hcalls, -⟩ := hw.calls
  refine ⟨h.justified.ledger_only hw, ?_, ?_⟩
  · intro event he
    rw [hw.event_bus] at he
    rw [hcalls]
    exact List.mem_append_left _ (h.event_bus event he)
  · intro event he
    rw [hw.execution_publisher] at he
    rw [hcalls]
    exact List.mem_append_left _ (h.execution_publisher event he)

/-- What was handed out stays handed out, and so does what was added to it. -/
theorem handed_of_append {tag : RuntimeEvent → ExternalCall} {event : RuntimeEvent}
    {before after : List RuntimeEvent} {calls handed : List ExternalCall}
    (hbefore : ∀ e ∈ before, tag e ∈ calls)
    (hafter : after = before ∨ after = before ++ [event] ∧ tag event ∈ calls ++ handed) :
    ∀ e ∈ after, tag e ∈ calls ++ handed := by
  intro e he
  rcases hafter with rfl | ⟨rfl, hmem⟩
  · exact List.mem_append_left _ (hbefore e he)
  · rw [List.mem_append, List.mem_singleton] at he
    rcases he with he | rfl
    · exact List.mem_append_left _ (hbefore e he)
    · exact hmem

theorem Gated.hands_over {event : RuntimeEvent} {w w' : World σ} (h : Gated P cfg calls w)
    (hw : HandsOver event w w') (htype : event.event_type = .execution_requested)
    (hbacked : Backed P cfg calls w.calls event) : Gated P cfg calls w' := by
  obtain ⟨handed, hcalls, hevent⟩ := hw.calls
  refine ⟨?_, ?_, ?_⟩
  · rw [hcalls]
    refine h.justified.append ?_
    intro x hx e hpub
    obtain rfl : event = e := Option.some.inj ((hevent x hx).symm.trans hpub)
    exact ⟨htype, hbacked⟩
  · have hbus := hw.event_bus
    rw [hcalls] at hbus ⊢
    exact handed_of_append h.event_bus hbus
  · have hpublisher := hw.execution_publisher
    rw [hcalls] at hpublisher ⊢
    exact handed_of_append h.execution_publisher hpublisher

/-- A component the invariant does not read may change. -/
theorem Gated.of_eq {w w' : World σ} (h : Gated P cfg calls w) (hcalls : w'.calls = w.calls)
    (hbus : w'.event_bus = w.event_bus)
    (hpub : w'.execution_publisher = w.execution_publisher) : Gated P cfg calls w' := by
  refine ⟨?_, ?_, ?_⟩
  · rw [hcalls]
    exact h.justified
  · rw [hcalls, hbus]
    exact h.event_bus
  · rw [hcalls, hpub]
    exact h.execution_publisher

/-! ## One call -/

/-- Events that were all accepted in one go are among the accepted ones. -/
theorem acceptedIn_of_append_all {events : List LedgerEvent} {answers : List LedgerAppendResult}
    {w w' : World σ} (h : append_all (client C) events w = (.ok answers, w'))
    (hall : ∀ a ∈ answers, a.status = .accepted) {e : LedgerEvent} (he : e ∈ events) :
    AcceptedIn w'.calls e := by
  have hlen := length_append_all (client C) h
  obtain ⟨i, hi, rfl⟩ := List.mem_iff_getElem.mp he
  refine ⟨answers[i], ?_, hall _ (List.getElem_mem _)⟩
  rw [calls_append_all h]
  refine List.mem_append_right _ ?_
  rw [List.mem_iff_getElem]
  refine ⟨i, ?_, ?_⟩
  · rw [List.length_zipWith]
    omega
  · rw [List.getElem_zipWith]

/-- **The gate.** A confirmed decision that passes it is backed. -/
theorem backed_of_passed (hs : cfg.strict) {env : Env} {signal : Signal} {flow : DecisionFlow}
    (hcall : .evaluate env signal flow ∈ calls) {core : DecisionResult}
    {evaluated_nodes : List PyDict}
    (computed : PureEvaluate.pure_evaluate P env.draws signal flow = .ok (core, evaluated_nodes))
    {w w₁ : World σ} (passed : Passed P C cfg env signal flow core evaluated_nodes w w₁)
    (hconfirmed : (ready cfg env core).status = .confirmed) :
    Backed P cfg calls w₁.calls (request_event env (ready cfg env core)) := by
  obtain ⟨-, events, answers, hbuild, happends, hall⟩ := passed.strict hs
  have hready : ready cfg env core
      = (commit_trace env signal flow (opened cfg env core) evaluated_nodes).2 := by
    rw [ready, if_pos hs]
    rfl
  rw [hready] at hconfirmed ⊢
  refine ⟨_, _, events, ⟨env, signal, flow, core, evaluated_nodes, hcall, computed, rfl⟩, hbuild,
    fun e he => acceptedIn_of_append_all happends hall he, rfl, rfl, ?_⟩
  refine ⟨_, outcome_event_mem hbuild, rfl, rfl, rfl, ?_⟩
  rw [← hconfirmed]
  rfl

/-- **The step lemma.** -/
theorem gated_call (hs : cfg.strict) {c : EngineCall} (hc : c ∈ calls) {w : World σ}
    (h : Gated P cfg calls w) : Gated P cfg calls (c.run P C cfg w).2 := by
  rcases c with ⟨env, signal, flow⟩ | _ | _ | _
  case simulate => exact h
  case approve => exact h.of_eq rfl rfl rfl
  case reject => exact h.of_eq rfl rfl rfl
  -- an `evaluate`: the gate is opened, then only the ledger is used until the gate is passed
  have hgated : ∀ core, Gated P cfg calls (gated cfg env core w) := fun core =>
    h.of_eq rfl rfl rfl
  have hdispatched : ∀ {core evaluated_nodes answer} {w₁ w₂ : World σ},
      PureEvaluate.pure_evaluate P env.draws signal flow = .ok (core, evaluated_nodes) →
      Passed P C cfg env signal flow core evaluated_nodes w w₁ →
      (HandsOver (request_event env (ready cfg env core)) w₁ w₂ ∨ w₂ = w₁) →
      Dispatch cfg env (ready cfg env core) w₁ answer w₂ → Gated P cfg calls w₂ := by
    intro core evaluated_nodes answer w₁ w₂ computed passed hands_over dispatched
    have h₁ := (hgated core).ledger_only passed.ledger_only
    have hconfirmed : (ready cfg env core).status = .confirmed →
        HandsOver (request_event env (ready cfg env core)) w₁ w₂ → Gated P cfg calls w₂ :=
      fun hconf hho => h₁.hands_over hho rfl (backed_of_passed hs hc computed passed hconf)
    rcases hands_over with hho | rfl
    · rcases dispatched with _ | hst | ⟨hst⟩
      · exact h₁
      · exact hconfirmed hst hho
      · exact hconfirmed hst hho
    · exact h₁
  show Gated P cfg calls (evaluate P C cfg env signal flow w).2
  have hrun := evaluate_run P C cfg env signal flow w
  generalize (evaluate P C cfg env signal flow w).1 = answer at hrun
  generalize (evaluate P C cfg env signal flow w).2 = w' at hrun ⊢
  rcases hrun with _ | ⟨_, _, hframe⟩ | ⟨computed, passed, hho, hd⟩ | ⟨computed, passed, hho, hd⟩
    | ⟨computed, passed, hho, hd⟩
  case invalid => exact h
  case stopped => exact (hgated _).ledger_only hframe
  case undispatched => exact hdispatched computed passed hho hd
  case unsaved => exact (hdispatched computed passed hho hd).of_eq rfl rfl rfl
  case done =>
    refine Gated.ledger_only ?_ (ledgerOnly_committed_after P C cfg _ _)
    exact (hdispatched computed passed hho hd).of_eq rfl rfl rfl

/-- **The commit gate.** In strict mode, whatever the ledger answers and whichever dependency
fails, every event that the event bus holds or the publisher was handed has been published after
every event of its evaluation was accepted by the ledger. -/
theorem strict_commit_gate (P : Platform) (C : LedgerBackend σ) (cfg : EngineConfig)
    (hs : cfg.strict) (s : σ) (calls : List EngineCall) :
    Gated P cfg calls (Run.final (EngineCall.run P C cfg) (World.init s) calls) := by
  refine Run.invariant (I := Gated P cfg calls) ?_ ?_
  · refine ⟨?_, ?_, ?_⟩
    · intro pre x post event hsplit
      exact absurd hsplit (by simp [World.init])
    · exact fun event he => absurd he (by simp [World.init])
    · exact fun event he => absurd he (by simp [World.init])
  · exact fun c hc w h => gated_call hs hc h

end DecisionRuntimeEngine

theorem DecisionRuntimeEngine.strict_commit_gate_recorded :
    let calls := [EngineCall.evaluate (Recorded.env (UUID.repeated 0xa) (UUID.repeated 0xc))
      Recorded.signal (Recorded.flow none)]
    let w := Run.final (EngineCall.run Recorded.platform LedgerClient.backend
      (Recorded.config "strict")) (World.init LedgerClient.init) calls
    w.event_bus.length = 1
      ∧ DecisionRuntimeEngine.Gated Recorded.platform (Recorded.config "strict") calls w :=
  ⟨by decide +kernel, DecisionRuntimeEngine.strict_commit_gate Recorded.platform
    LedgerClient.backend (Recorded.config "strict") ⟨rfl, rfl⟩ LedgerClient.init _⟩

end DecisionRuntime
