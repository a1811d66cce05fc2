/-
What the views show of a decision whose gate was resolved.

The trace of a decision is stored when the decision is made, with its gate pending,
and resolving the gate writes the manager and the ledger. Every view is read from the
trace store: whichever way the trace of a resolved decision is looked up, it shows the
decision as it was before, and the statistics count it so (`views_never_agree`).
-/
import DecisionRuntime.GateCommitment
import DecisionRuntime.IdempotentResponses
import DecisionRuntime.StoredTraces

set_option autoImplicit false

namespace DecisionRuntime

/-! ## The views -/

/-- The trace shows the decision with the status of `result`, and its gate resolved. -/
def DecisionTrace.Shows (trace : DecisionTrace) (result : DecisionResult) : Prop :=
  (∃ r ∈ trace.decision_results, r.id = result.id ∧ r.status = result.status) ∧
    ∃ gate ∈ trace.human_gate_requests, gate.status = .approved ∨ gate.status = .rejected

namespace Routes

open DecisionRuntimeEngine HumanGateManager

variable {σ : Type} {P : Platform} {C : LedgerBackend σ} {settings : Settings}
  {auth : AuthSettings} {registry : FlowRegistry}

/-- What `get_trace` answers shows the resolved decision. -/
def TraceView (P : Platform) (C : LedgerBackend σ) (settings : Settings) (result : DecisionResult)
    (w : World σ) : Prop :=
  ∃ trace, (get_trace P C settings result.trace_id.str w).1 = .ok trace ∧ trace.Shows result

/-- What `get_by_decision_id` returns does. -/
def DecisionView (result : DecisionResult) (w : World σ) : Prop :=
  ∃ trace, w.trace_store.get_by_decision_id result.id.str = .ok trace ∧ trace.Shows result

/-- One of the results that `get_stats` counts under the status of `result` is that of its
decision. -/
def StatsView (result : DecisionResult) (w : World σ) : Prop :=
  ∃ limit, ∃ r ∈ (w.trace_store.list_recent (min limit 10000)).flatMap
    DecisionTrace.decision_results, r.id = result.id ∧ r.status = result.status

/-- The views agree with the resolution that `result` came from. -/
structure ViewsAgree (P : Platform) (C : LedgerBackend σ) (settings : Settings)
    (result : DecisionResult) (w : World σ) : Prop where
  trace : TraceView P C settings result w
  decision : DecisionView result w
  stats : StatsView result w

/-! ## What a stored trace shows -/

/-- The trace shows the decision `core`, and no gate that is not pending. -/
structure ShowsBefore (core : DecisionResult) (trace : DecisionTrace) : Prop where
  id : trace.id = core.trace_id
  decision_id : trace.decision_id = some core.id
  results : ∀ r ∈ trace.decision_results, r.id = core.id ∧ r.status = core.status
  gates : ∀ gate ∈ trace.human_gate_requests, gate.status = .pending

theorem final_gate {cfg : EngineConfig} {env : Env} {core final : DecisionResult}
    (hcore : core.human_gate = none) (h : Final cfg env core final) {gate : HumanGateRequest}
    (hgate : final.human_gate = some gate) : gate.status = .pending := by
  have hopened : (opened cfg env core).human_gate = some gate := by
    have hready : (ready cfg env core).human_gate = (opened cfg env core).human_gate := by
      unfold ready
      split_ifs <;> rfl
    rcases h with ⟨-, rfl⟩ | ⟨-, rfl⟩
    · exact hready.symm.trans hgate
    · exact hready.symm.trans hgate
  unfold opened at hopened
  split_ifs at hopened
  · rw [← Option.some.inj hopened]
    rfl
  · rw [hcore] at hopened
    cases hopened

/-- A trace shows the decision as it was made. -/
theorem Files.showsBefore {c : EvaluateCall} {trace : DecisionTrace}
    (h : Files P settings registry c trace) :
    ∃ signal flow core nodes, Computed P registry c signal flow core nodes
      ∧ ShowsBefore core trace := by
  obtain ⟨signal, flow, core, nodes, final, hcomputed, hfinal, rfl⟩ := h
  have hids : final.id = core.id ∧ final.trace_id = core.trace_id ∧ final.status = core.status := by
    rcases hfinal with ⟨-, rfl⟩ | ⟨-, rfl⟩
    · exact ⟨ready_id, ready_trace_id, ready_status⟩
    · exact ⟨ready_id, ready_trace_id, ready_status⟩
  refine ⟨signal, flow, core, nodes, hcomputed, hids.2.1, congrArg some hids.1, ?_, ?_⟩
  · intro r hr
    rw [List.mem_singleton.mp hr]
    exact ⟨hids.1, hids.2.2⟩
  · intro gate hgate
    have hsome : final.human_gate = some gate := Option.mem_toList.mp hgate
    exact final_gate (PureEvaluate.stamped hcomputed.computed).human_gate hfinal hsome

/-- Of a decision that was escalated, it does not show the resolution. -/
theorem ShowsBefore.not_shows {core result : DecisionResult} {trace : DecisionTrace}
    (h : ShowsBefore core trace) : ¬ trace.Shows result := by
  rintro ⟨-, gate, hgate, hst⟩
  rw [h.gates gate hgate] at hst
  simp at hst

/-! ## Fresh ids -/

theorem computed_draws {c : EvaluateCall} {signal : Signal} {flow : DecisionFlow}
    {core : DecisionResult} {nodes : List PyDict}
    (h : Computed P registry c signal flow core nodes) :
    core.id ∈ RuntimeCall.drawn (.evaluate c)
      ∧ core.trace_id ∈ RuntimeCall.drawn (.evaluate c) := by
  have hstamped := PureEvaluate.stamped h.computed
  rw [hstamped.id, hstamped.trace_id]
  simp [RuntimeCall.drawn, EvaluateCall.drawn, Env.drawn]

section Run

variable {s : σ} {calls : List RuntimeCall} {result core : DecisionResult} {e : EvaluateCall}
  {signal : Signal} {flow : DecisionFlow} {nodes : List PyDict}

/-- A trace with an id of a decision of the run shows that decision. -/
theorem showsBefore_of_shared (hfresh : (calls.flatMap RuntimeCall.drawn).Nodup)
    (he : .evaluate e ∈ calls) (hcomputed : Computed P registry e signal flow core nodes)
    {trace : DecisionTrace}
    (htrace : ∃ e', .evaluate e' ∈ calls ∧ Files P settings registry e' trace)
    (hshared : trace.id = core.trace_id ∨ trace.decision_id = some core.id) :
    ShowsBefore core trace := by
  obtain ⟨e', he', hfiles⟩ := htrace
  obtain ⟨signal', flow', core', nodes', hcomputed', hshows⟩ := hfiles.showsBefore
  have hdraws := computed_draws hcomputed
  have hdraws' := computed_draws hcomputed'
  have hsame : RuntimeCall.evaluate e = .evaluate e' := by
    rcases hshared with hid | hid
    · have htrace_id : core'.trace_id = core.trace_id := hshows.id.symm.trans hid
      rw [htrace_id] at hdraws'
      exact Run.call_unique RuntimeCall.drawn hfresh he he' hdraws.2 hdraws'.2
    · have hdecision_id : core'.id = core.id :=
        Option.some.inj (hshows.decision_id.symm.trans hid)
      rw [hdecision_id] at hdraws'
      exact Run.call_unique RuntimeCall.drawn hfresh he he' hdraws.1 hdraws'.1
  obtain rfl := RuntimeCall.evaluate.inj hsame
  rwa [hcomputed.unique hcomputed']

/-- What is found by the id of a decision shows that decision. -/
theorem ShowsBefore.of_foundBy {core' : DecisionResult} {trace : DecisionTrace}
    (h : ShowsBefore core' trace) {u : UUID} (hfound : TraceStore.FoundBy trace u.str) :
    trace.decision_id = some u := by
  rcases hfound with ⟨r, hr, hid⟩ | ⟨v, hv, hid⟩
  · rw [h.decision_id, ← (h.results r hr).1, UUID.str_inj.mp hid]
  · rw [hv, UUID.str_inj.mp hid]

theorem showsBefore_of_foundBy (hfresh : (calls.flatMap RuntimeCall.drawn).Nodup)
    (he : .evaluate e ∈ calls) (hcomputed : Computed P registry e signal flow core nodes)
    {trace : DecisionTrace}
    (htrace : ∃ e', .evaluate e' ∈ calls ∧ Files P settings registry e' trace)
    (hfound : TraceStore.FoundBy trace core.id.str) : ShowsBefore core trace := by
  obtain ⟨e', he', hfiles⟩ := htrace
  obtain ⟨_, _, _, _, -, hown⟩ := hfiles.showsBefore
  apply showsBefore_of_shared hfresh he hcomputed ⟨e', he', hfiles⟩
  exact Or.inr (hown.of_foundBy hfound)

end Run

/-! ## Both indexes -/

/-- What is found by a decision id is found by its trace id. -/
def Paired (store : TraceStore) : Prop :=
  ∀ key trace, store.by_decision_id.get key = some trace →
    store.by_trace_id.get trace.id.str = some trace

/-- A trace with a new id does not hide another one. -/
theorem Paired.save {store : TraceStore} (h : Paired store) {trace : DecisionTrace}
    (hnew : ∀ key old, store.by_decision_id.get key = some old → old.id ≠ trace.id) :
    Paired (store.save trace) := by
  intro key found hget
  show (store.by_trace_id.set trace.id.str trace).get found.id.str = some found
  rcases TraceStore.of_by_decision_id_save hget with ⟨rfl, -⟩ | hold
  · exact Dict.get_set_same _ _ _
  · rw [Dict.get_set_other]
    · exact h key found hold
    · exact fun heq => hnew key found hold (UUID.str_inj.mp heq)

section Runs

variable {s : σ} {calls : List RuntimeCall}

theorem paired_run (P : Platform) (C : LedgerBackend σ) (settings : Settings)
    (auth : AuthSettings) (registry : FlowRegistry) (s : σ) {calls : List RuntimeCall}
    (hfresh : (calls.flatMap RuntimeCall.drawn).Nodup) :
    Paired (Run.final (RuntimeCall.run P C settings auth registry) (World.init s)
      calls).trace_store := by
  induction calls using List.reverseRecOn with
  | nil => exact fun _ _ h => nomatch h
  | append_singleton calls c ih =>
      have hprov := RuntimeCall.provenance_run P C settings auth registry s calls
      have hbefore : (calls.flatMap RuntimeCall.drawn).Nodup := by
        rw [List.flatMap_append] at hfresh
        exact hfresh.of_append_left
      rw [Run.final_concat]
      rcases RuntimeCall.trace_store_call P C settings auth registry hprov.held.same_keys c with
        hsame | ⟨e, trace, rfl, hfiles, hsave⟩
      · rw [hsame]
        exact ih hbefore
      · rw [hsave]
        refine (ih hbefore).save ?_
        intro key old hget hid
        -- the old trace was stored by an earlier request, which drew another trace id
        obtain ⟨⟨e', he', hfiles'⟩, -⟩ := hprov.traces.by_decision_id key old hget
        obtain ⟨_, _, core, _, hcomputed, hshows⟩ := hfiles.showsBefore
        obtain ⟨_, _, core', _, hcomputed', hshows'⟩ := hfiles'.showsBefore
        have hdrawn : core.trace_id ∈ RuntimeCall.drawn (.evaluate e') := by
          rw [← hshows.id, ← hid, hshows'.id]
          exact (computed_draws hcomputed').2
        rw [List.flatMap_append, List.nodup_append] at hfresh
        refine hfresh.2.2 core.trace_id (List.mem_flatMap.mpr ⟨_, he', hdrawn⟩) core.trace_id ?_ rfl
        simpa using (computed_draws hcomputed).2

/-- A trace that is found stays found. -/
theorem found_run (P : Platform) (C : LedgerBackend σ) (settings : Settings)
    (auth : AuthSettings) (registry : FlowRegistry) (s : σ) (pre post : List RuntimeCall)
    {key : String}
    (h : (Run.final (RuntimeCall.run P C settings auth registry) (World.init s)
      pre).trace_store.by_decision_id.get key ≠ none) :
    (Run.final (RuntimeCall.run P C settings auth registry) (World.init s)
      (pre ++ post)).trace_store.by_decision_id.get key ≠ none := by
  induction post using List.reverseRecOn with
  | nil => simpa using h
  | append_singleton post c ih =>
      have hprov := RuntimeCall.provenance_run P C settings auth registry s (pre ++ post)
      rw [← List.append_assoc, Run.final_concat]
      rcases RuntimeCall.trace_store_call P C settings auth registry hprov.held.same_keys c with
        hsame | ⟨e, trace, rfl, hfiles, hsave⟩
      · rw [hsame]
        exact ih
      · rw [hsave]
        exact TraceStore.found_save ih trace

/-! ## A decision whose gate was resolved -/

/-- What a request that resolved a gate answers: an escalated decision of the run, no longer
pending. -/
theorem resolved_result {calls : List RuntimeCall} {t : RuntimeEntry σ}
    (ht : t ∈ Run.entries (RuntimeCall.run P C settings auth registry) (World.init s) calls)
    (hgate : t.call.gate_action.isSome) {result : DecisionResult} (hok : t.answer = .ok result) :
    ∃ e signal flow core nodes, .evaluate e ∈ calls
      ∧ Computed P registry e signal flow core nodes ∧ core.status = .pending_human
      ∧ result.id = core.id ∧ result.trace_id = core.trace_id
      ∧ result.status ≠ .pending_human := by
  obtain ⟨pre, c, post, rfl, rfl⟩ := Run.mem_entries.mp ht
  have hprov := RuntimeCall.provenance_run P C settings auth registry s pre
  obtain ⟨⟨action, draws, request⟩, haction⟩ := Option.isSome_iff_exists.mp hgate
  have hanswer : (resolve_gate P C settings auth action draws request
      (Run.final (RuntimeCall.run P C settings auth registry) (World.init s) pre)).1
      = .ok result := by
    rw [← RuntimeCall.run_of_gate_action haction]
    exact hok
  rcases resolve_gate_run P C settings auth action draws request hprov.held.same_keys with
    ⟨e, hrun, -⟩ | ⟨actor, gate, held, hresolves, -, hresult⟩
  · rw [hrun] at hanswer
    cases hanswer
  · obtain ⟨e, he, signal, flow, core, nodes, hcomputed, hst, hid, htrace⟩ :=
      hprov.held.results _ _ hresolves.held
    have hupdate := hresult result hanswer
    refine ⟨e, signal, flow, core, nodes, by simp [he], hcomputed, hst, ?_⟩
    -- either action gives the result its final status
    rcases RuntimeCall.action_cases haction with rfl | rfl
    all_goals
      subst hupdate
      refine ⟨hid, htrace, ?_⟩
      intro hpending
      cases hpending

/-- **The views never agree.** Once the gate of a decision has been resolved whose trace is
stored, no view shows it: not the trace by its id, nor by that of the decision, nor the
statistics, then or at any later point of the run. -/
theorem views_never_agree (P : Platform) (C : LedgerBackend σ) (settings : Settings)
    (auth : AuthSettings) (registry : FlowRegistry) (s : σ) (calls : List RuntimeCall)
    (hfresh : (calls.flatMap RuntimeCall.drawn).Nodup) (t : RuntimeEntry σ)
    (ht : t ∈ Run.entries (RuntimeCall.run P C settings auth registry) (World.init s) calls)
    (hgate : t.call.gate_action.isSome) (result : DecisionResult) (hok : t.answer = .ok result)
    (stored : DecisionTrace)
    (hstored : t.before.trace_store.get_by_decision_id result.id.str = .ok stored) :
    let w := Run.final (RuntimeCall.run P C settings auth registry) (World.init s) calls
    ¬ TraceView P C settings result w ∧ ¬ DecisionView result w ∧ ¬ StatsView result w := by
  intro w
  obtain ⟨e, signal, flow, core, nodes, he, hcomputed, hst, hid, htrace_id, hne⟩ :=
    resolved_result ht hgate hok
  have hprov : RuntimeCall.Provenance P settings registry calls w :=
    RuntimeCall.provenance_run P C settings auth registry s calls
  -- each view looks traces up, and those of the decision show it as it was
  refine ⟨?_, ?_, ?_⟩
  · -- the trace is in the store, so that nothing is projected
    rintro ⟨trace, hget, hresolved⟩
    have hthere : w.trace_store.by_decision_id.get core.id.str ≠ none := by
      obtain ⟨pre, c, post, rfl, rfl⟩ := Run.mem_entries.mp ht
      refine found_run P C settings auth registry s pre (c :: post) ?_
      intro hnone
      rw [hid] at hstored
      unfold TraceStore.get_by_decision_id at hstored
      rw [Run.entry_before, hnone] at hstored
      cases hstored
    obtain ⟨kept, hkept⟩ := Option.ne_none_iff_exists'.mp hthere
    obtain ⟨hfiles, hfoundBy⟩ := hprov.traces.by_decision_id _ _ hkept
    have hkept_shows := showsBefore_of_foundBy hfresh he hcomputed hfiles hfoundBy
    have hindexed := paired_run P C settings auth registry s hfresh _ _ hkept
    rw [hkept_shows.id, ← htrace_id] at hindexed
    have hanswer : (get_trace P C settings result.trace_id.str w).1 = .ok kept := by
      rw [get_trace, Exec.run_get_bind]
      unfold TraceStore.get
      rw [hindexed]
      rfl
    obtain rfl := Except.ok.inj (hanswer.symm.trans hget)
    exact hkept_shows.not_shows hresolved
  · rintro ⟨trace, hget, hresolved⟩
    rw [hid] at hget
    obtain ⟨hfiles, hfoundBy⟩ := hprov.traces.get_by_decision_id hget
    have hshows := showsBefore_of_foundBy hfresh he hcomputed hfiles hfoundBy
    exact hshows.not_shows hresolved
  · rintro ⟨limit, r, hr, hrid, hrst⟩
    obtain ⟨trace, htrace, hmem⟩ := List.mem_flatMap.mp hr
    obtain ⟨⟨e', he', hfiles⟩, -⟩ := hprov.traces.list_recent htrace
    obtain ⟨_, _, _, _, -, hown⟩ := hfiles.showsBefore
    have hshared : trace.decision_id = some core.id := by
      rw [hown.decision_id, ← (hown.results r hmem).1, hrid, hid]
    have hshows := showsBefore_of_shared hfresh he hcomputed ⟨e', he', hfiles⟩ (Or.inr hshared)
    exact hne (hrst.symm.trans ((hshows.results r hmem).2.trans hst))

end Runs

end Routes

namespace Recorded

/-- The registry with the flow that escalates every decision. -/
def escalating_registry : FlowRegistry := FlowRegistry.init.cache escalating

/-- Nobody has to authenticate. -/
def open_access : AuthSettings := ⟨false, Dict.empty⟩

/-- The request to resolve the gate of the evaluation that draws its ids from 10 on. -/
def gate_request : GateRequest where
  request_id := (UUID.ofInt 11).str
  body := { actor_id := some "reviewer" }

/-- An escalated decision. -/
def escalate_call : RuntimeCall :=
  .evaluate ⟨request_draws (UUID.repeated 0xa) (UUID.repeated 0xc) 10, request "first"⟩

/-- The approval of its gate. -/
def approve_call : RuntimeCall := .approve_gate ⟨⟨20, some 0⟩, ⟨21, some 0⟩⟩ gate_request

/-- The service over the in-memory ledger. -/
def service (ledger_mode : String) :
    RuntimeCall → Exec PyError (World LedgerClient) DecisionResult :=
  RuntimeCall.run platform LedgerClient.backend (settings ledger_mode) open_access
    escalating_registry

/-- The approval, in the world that the evaluation leaves. -/
def approval : RuntimeEntry LedgerClient :=
  Run.entry (service "parallel") (service "parallel" escalate_call (World.init LedgerClient.init)).2
    approve_call

end Recorded

namespace Routes

theorem approval_recorded : ∃ result stored, Recorded.approval.answer = .ok result
    ∧ result.id.str = (UUID.repeated 0xc).str
    ∧ Recorded.approval.before.trace_store.get_by_decision_id result.id.str = .ok stored := by
  have hid : Recorded.approval.answer.toOption.map (fun result => result.id.str)
      = some (UUID.repeated 0xc).str := by decide +kernel
  have hfound : (Recorded.approval.before.trace_store.get_by_decision_id
      (UUID.repeated 0xc).str).toOption.isSome = true := by decide +kernel
  obtain ⟨result, hanswer, hresult⟩ := except_of_toOption_map hid
  obtain ⟨stored, hstored⟩ := except_of_isSome hfound
  refine ⟨result, stored, hanswer, hresult, ?_⟩
  rw [hresult, hstored]

/-- The gate is approved, and every view shows a decision that is pending. -/
theorem approved_view_pending :
    let calls := [Recorded.escalate_call, Recorded.approve_call]
    let history := Run.entries (Recorded.service "parallel") (World.init LedgerClient.init) calls
    let w := Run.final (Recorded.service "parallel") (World.init LedgerClient.init) calls
    history.map (fun t => t.answer.toOption.map (fun result => (result.id, result.status)))
        = [some (UUID.repeated 0xc, .pending_human), some (UUID.repeated 0xc, .confirmed)]
      ∧ (get_stats 1000 w.trace_store).pending_human = 1
      ∧ (get_stats 1000 w.trace_store).confirmed = 0
      ∧ ¬ ∀ t ∈ history, t.call.gate_action.isSome → ∀ result, t.answer = .ok result →
        (∃ trace, t.before.trace_store.get_by_decision_id result.id.str = .ok trace) →
          ViewsAgree Recorded.platform LedgerClient.backend (Recorded.settings "parallel") result
            w := by
  intro calls history w
  refine ⟨by decide +kernel, by decide +kernel, by decide +kernel, ?_⟩
  intro hagree
  obtain ⟨result, stored, hanswer, hid, hstored⟩ := approval_recorded
  have hgates : (w.trace_store.get_by_decision_id (UUID.repeated 0xc).str).toOption.map
      (fun trace => trace.human_gate_requests.map HumanGateRequest.status)
        = some [.pending] := by decide +kernel
  have hmem : Recorded.approval ∈ history := Run.second_mem _ _ _
  obtain ⟨trace, hget, -, gate, hgate, hresolved⟩ :=
    (hagree _ hmem rfl result hanswer ⟨stored, hstored⟩).decision
  have hget' : w.trace_store.get_by_decision_id (UUID.repeated 0xc).str = .ok trace := by
    rw [← hid]
    exact hget
  rw [hget'] at hgates
  have hpending : gate.status ∈ [HumanGateStatus.pending] := by
    rw [← Option.some.inj hgates]
    exact List.mem_map_of_mem hgate
  rw [List.mem_singleton.mp hpending] at hresolved
  simp at hresolved

theorem views_never_agree_approved :
    let w := Run.final (Recorded.service "parallel") (World.init LedgerClient.init)
      [Recorded.escalate_call, Recorded.approve_call]
    ∃ result, Recorded.approval.answer = .ok result
      ∧ ¬ TraceView Recorded.platform LedgerClient.backend (Recorded.settings "parallel") result w
      ∧ ¬ DecisionView result w ∧ ¬ StatsView result w := by
  intro w
  obtain ⟨result, stored, hanswer, -, hstored⟩ := approval_recorded
  have hfresh : ([Recorded.escalate_call, Recorded.approve_call].flatMap
      RuntimeCall.drawn).Nodup := by decide +kernel
  have hmem : Recorded.approval ∈ Run.entries (Recorded.service "parallel")
      (World.init LedgerClient.init) [Recorded.escalate_call, Recorded.approve_call] :=
    Run.second_mem _ _ _
  exact ⟨result, hanswer, views_never_agree Recorded.platform LedgerClient.backend
    (Recorded.settings "parallel") Recorded.open_access Recorded.escalating_registry
    LedgerClient.init [Recorded.escalate_call, Recorded.approve_call] hfresh Recorded.approval
    hmem rfl result hanswer stored hstored⟩

end Routes

end DecisionRuntime
