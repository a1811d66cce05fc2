/-
The two statistics of the service.

`GET /stats` counts the results in the trace store, and `decision_evaluate_total` the
results that the engine returned. The two are kept by different code, which does not
know of each other. Where nothing is wired to fail, the store has a trace for every
decision that was counted, but for those that the commit gate of strict mode answered
itself; so the two agree in every other mode, and in strict mode `GET /stats` never
shows more (`statistics_agree`).
-/
import DecisionRuntime.MetricsAccounting
import DecisionRuntime.StoredTraces

set_option autoImplicit false

namespace DecisionRuntime

/-! ## One request -/

namespace DecisionRuntimeEngine

variable {σ : Type} {env : Env}

/-- **An evaluation** in which nothing fails stores the trace of the result that it returns, unless
the commit gate answered. -/
theorem evaluate_stores (P : Platform) (C : LedgerBackend σ) (cfg : EngineConfig)
    (hclean : env.Clean) (hwired : cfg.trace_store = true) (signal : Signal)
    (flow : DecisionFlow) (w : World σ) :
    ((evaluate P C cfg env signal flow w).2.trace_store = w.trace_store
      ∧ (cfg.strict ∨ (evaluate P C cfg env signal flow w).1.toOption = none)) ∨
    ∃ result trace, (evaluate P C cfg env signal flow w).1 = .ok result
      ∧ (evaluate P C cfg env signal flow w).2.trace_store = w.trace_store.save trace
      ∧ trace.id = env.draws.trace_id
      ∧ trace.decision_results.map (·.status) = [result.status] := by
  have hrun := evaluate_run P C cfg env signal flow w
  generalize (evaluate P C cfg env signal flow w).1 = answer at hrun ⊢
  generalize (evaluate P C cfg env signal flow w).2 = w' at hrun ⊢
  cases hrun with
  | invalid computed => exact Or.inl ⟨rfl, Or.inr rfl⟩
  | stopped computed strict frame not_accepted answered =>
      exact Or.inl ⟨frame.trace_store, Or.inl strict⟩
  | undispatched computed passed hands_over dispatched =>
      -- a dispatch fails only where a call to the outside raises
      cases dispatched with
      | raised status why event_bus =>
          cases why with
          | inl hbus => exact absurd hclean.event_bus hbus.2
          | inr hpub => exact absurd hclean.execution_publisher hpub.2
  | unsaved computed passed hands_over dispatched fault store_eq =>
      exact absurd hclean.trace_store fault.2
  | @done core final evaluated_nodes w₁ w₂ computed passed hands_over dispatched saved =>
      right
      have hids : final.trace_id = env.draws.trace_id := by
        rw [dispatched.ids.2.1, ready_trace_id, (PureEvaluate.stamped computed).trace_id]
      have hup := upToDispatch passed hands_over
      refine ⟨persisted cfg final, (stored_trace env signal flow final evaluated_nodes).1, rfl, ?_,
        hids, ?_⟩
      · rw [(ledgerOnly_committed_after P C cfg _ _).trace_store, ← hup.trace_store]
        show (if cfg.trace_store then _ else _) = _
        rw [if_pos hwired]
        rfl
      · rw [persisted_status]
        rfl

end DecisionRuntimeEngine

/-- The number of results of a status that `GET /stats` shows. -/
def RuntimeStats.shown (stats : RuntimeStats) : DecisionStatus → ℕ
  | .confirmed => stats.confirmed
  | .fallback => stats.fallback
  | .blocked => stats.blocked
  | .pending_human => stats.pending_human
  | .rejected => stats.rejected
  | .error => stats.error

/-- The statuses of the results of some traces. -/
def statuses (traces : List DecisionTrace) : List DecisionStatus :=
  traces.flatMap fun trace => trace.decision_results.map (·.status)

theorem statuses_append (traces : List DecisionTrace) (trace : DecisionTrace) :
    statuses (traces ++ [trace]) = statuses traces ++ trace.decision_results.map (·.status) := by
  simp [statuses]

/-- When the limit takes in the whole store, every result in it is counted once. -/
theorem shown_get_stats {limit : ℕ} {store : TraceStore}
    (hlimit : store.by_trace_id.values.length ≤ min limit 10000) (status : DecisionStatus) :
    (Routes.get_stats limit store).shown status
      = (statuses store.by_trace_id.values).count status := by
  have hcount : (Routes.get_stats limit store).shown status
      = ((store.list_recent (min limit 10000)).flatMap DecisionTrace.decision_results).countP
        fun result => result.status = status := by
    cases status <;> rfl
  have hmap : ∀ traces : List DecisionTrace,
      (traces.flatMap DecisionTrace.decision_results).map (·.status) = statuses traces := by
    intro traces
    rw [List.map_flatMap]
    rfl
  -- the listing is the store in another order, and nothing of it is cut off
  have hperm : (store.list_recent (min limit 10000)).Perm store.by_trace_id.values := by
    unfold TraceStore.list_recent
    rw [List.take_of_length_le]
    · exact List.perm_insertionSort _ _
    · rw [(List.perm_insertionSort _ _).length_eq]
      omega
  rw [hcount, ← hmap, List.count_eq_countP, List.countP_map,
    (hperm.flatMap_right DecisionTrace.decision_results).countP_eq]
  apply List.countP_congr
  intro result _
  simp

/-- The rate that is shown lies between 0 and 1. -/
theorem confirmed_rate_mem (limit : ℕ) (store : TraceStore) :
    ∃ rate, (Routes.get_stats limit store).confirmed_rate = .finite rate
      ∧ 0 ≤ rate ∧ rate ≤ 1 := by
  refine ⟨_, rfl, ?_⟩
  unfold Routes.confirmed_rate
  split_ifs with htotal
  · have hle : (Routes.get_stats limit store).confirmed
        ≤ (Routes.get_stats limit store).total := by
      unfold Routes.get_stats
      dsimp only
      omega
    obtain ⟨h0, h1⟩ := SignificantDigits.double_ratio_mem hle
    exact SignificantDigits.round_digits_mem 4 h0 h1
  · exact SignificantDigits.round_digits_mem 4 (le_refl 0) zero_le_one

namespace MeteredCall

open Routes HumanGateManager DecisionRuntimeEngine Metered

variable {σ : Type}

/-- **One request.** The trace store gains the trace of the decision that is counted, if any; in
strict mode it may go without. -/
theorem stores_decision (P : Platform) (C : LedgerBackend σ) (settings : Settings)
    (auth : AuthSettings) (registry : FlowRegistry) {c : MeteredCall} (hclean : c.Clean)
    {w : World σ} (hkeys : SameKeys w.human_gate_manager) :
    ((c.call.run P C settings auth registry w).2.trace_store = w.trace_store
      ∧ (settings.engine.strict
        ∨ c.decision w (c.call.run P C settings auth registry w).1 = none)) ∨
    ∃ result trace, c.decision w (c.call.run P C settings auth registry w).1 = some result
      ∧ (c.call.run P C settings auth registry w).2.trace_store = w.trace_store.save trace
      ∧ trace.id ∈ c.call.drawn ∧ trace.decision_results.map (·.status) = [result.status] := by
  obtain ⟨call, elapsed⟩ := c
  obtain ⟨e, rfl⟩ | ⟨action, draws, request, haction⟩ | ⟨draws, body, rfl⟩ :=
    RuntimeCall.cases_on call
  · have hrun := route_run P C settings registry e.draws e.body w
    show ((Routes.evaluate P C settings registry e.draws e.body w).2.trace_store = w.trace_store
        ∧ (settings.engine.strict ∨ Metered.evaluated e.body w
          (Routes.evaluate P C settings registry e.draws e.body w).1 = none)) ∨
      ∃ result trace, Metered.evaluated e.body w
          (Routes.evaluate P C settings registry e.draws e.body w).1 = some result
        ∧ (Routes.evaluate P C settings registry e.draws e.body w).2.trace_store
          = w.trace_store.save trace
        ∧ trace.id ∈ e.drawn ∧ trace.decision_results.map (·.status) = [result.status]
    generalize (Routes.evaluate P C settings registry e.draws e.body w).1 = answer at hrun ⊢
    generalize (Routes.evaluate P C settings registry e.draws e.body w).2 = w' at hrun ⊢
    cases hrun with
    | cached hit =>
        -- a remembered answer is neither counted nor stored
        refine Or.inl ⟨rfl, Or.inr ?_⟩
        rw [Metered.evaluated, hit]
        rfl
    | unprepared miss prepared =>
        refine Or.inl ⟨rfl, Or.inr ?_⟩
        rw [Metered.evaluated, miss]
        rfl
    | @evaluated signal flow miss prepared answer w₁ hengine =>
        have hstores := evaluate_stores P C settings.engine hclean rfl signal flow w
        rw [hengine] at hstores
        cases answer with
        | error exc =>
            obtain ⟨hsame, -⟩ | ⟨result, trace, hanswer, -⟩ := hstores
            · refine Or.inl ⟨hsame, Or.inr ?_⟩
              rw [Metered.evaluated, miss]
              rfl
            · cases hanswer
        | ok returned =>
            have hstore : (store_result e.body returned w₁).trace_store = w₁.trace_store := by
              unfold store_result
              split <;> rfl
            have hdecision : Metered.evaluated e.body w ((Except.ok returned).mapError http_error)
                = some returned := by
              rw [Metered.evaluated, miss]
              rfl
            -- counted without a trace: only the commit gate answers like that
            obtain ⟨hsame, hnone⟩ | ⟨result, trace, hanswer, hsave, hid, hstatus⟩ := hstores
            · refine Or.inl ⟨hstore.trans hsame, Or.inl (hnone.resolve_right ?_)⟩
              intro h
              cases h
            · obtain rfl : returned = result := Except.ok.inj hanswer
              refine Or.inr ⟨returned, trace, hdecision, hstore.trans hsave, ?_, hstatus⟩
              rw [hid]
              simp [EvaluateCall.drawn, Env.drawn]
  · left
    have hnone : decision ⟨call, elapsed⟩ w (call.run P C settings auth registry w).1 = none := by
      cases call with
      | evaluate e => cases haction
      | approve_gate draws request => rfl
      | reject_gate draws request => rfl
      | simulate draws body => rfl
    refine ⟨?_, Or.inr hnone⟩
    obtain hsame | ⟨e, trace, rfl, -, -⟩ :=
      RuntimeCall.trace_store_call P C settings auth registry hkeys call
    · exact hsame
    · cases haction
  · left
    refine ⟨?_, Or.inr rfl⟩
    rw [RuntimeCall.run_simulate]

/-! ## A run -/

/-- The statuses of the decisions that were counted. -/
def decided (ts : List (MeteredEntry σ)) : List DecisionStatus :=
  (ts.filterMap MeteredEntry.decision).map (·.status)

theorem decided_concat (ts : List (MeteredEntry σ)) (t : MeteredEntry σ) :
    decided (ts ++ [t]) = decided ts ++ (t.decision.map (·.status)).toList := by
  rw [decided, filterMap_concat, List.map_append, Option.toList_map]
  rfl

/-- The store holds one trace for each decision that was counted, or in strict mode for some. -/
structure Tallied (strict : Prop) (ts : List (MeteredEntry σ)) (traces : List DecisionTrace) :
    Prop where
  distinct : (traces.map (·.id)).Nodup
  drawn : ∀ trace ∈ traces, trace.id ∈ (ts.map fun t => t.call.call).flatMap RuntimeCall.drawn
  one : (statuses traces).length = traces.length
  some_of : (statuses traces).Sublist (decided ts)
  all_of : ¬strict → statuses traces = decided ts

theorem drawn_concat {ts : List (MeteredEntry σ)} {u : UUID}
    (h : u ∈ (ts.map fun t => t.call.call).flatMap RuntimeCall.drawn) (t : MeteredEntry σ) :
    u ∈ ((ts ++ [t]).map fun t => t.call.call).flatMap RuntimeCall.drawn := by
  rw [List.map_append, List.flatMap_append]
  exact List.mem_append_left _ h

/-- A request that stores nothing was not counted, but in strict mode. -/
theorem Tallied.skip {strict : Prop} {ts : List (MeteredEntry σ)} {traces : List DecisionTrace}
    (h : Tallied strict ts traces) {t : MeteredEntry σ} (hnone : strict ∨ t.decision = none) :
    Tallied strict (ts ++ [t]) traces where
  distinct := h.distinct
  drawn trace htrace := drawn_concat (h.drawn trace htrace) t
  one := h.one
  some_of := by
    rw [decided_concat]
    exact h.some_of.trans (List.sublist_append_left _ _)
  all_of hstrict := by
    rw [decided_concat, hnone.resolve_left hstrict, h.all_of hstrict]
    exact (List.append_nil _).symm

/-- A request that stores the trace of its decision was counted. -/
theorem Tallied.save {strict : Prop} {ts : List (MeteredEntry σ)} {traces : List DecisionTrace}
    (h : Tallied strict ts traces) {t : MeteredEntry σ} {result : DecisionResult}
    {trace : DecisionTrace} (hdecision : t.decision = some result)
    (hdrawn : trace.id ∈ t.call.call.drawn)
    (hfresh : trace.id ∉ (ts.map fun t => t.call.call).flatMap RuntimeCall.drawn)
    (hstatus : trace.decision_results.map (·.status) = [result.status]) :
    Tallied strict (ts ++ [t]) (traces ++ [trace]) where
  distinct := by
    rw [List.map_append, List.map_singleton, List.nodup_append]
    refine ⟨h.distinct, List.nodup_singleton _, ?_⟩
    intro u hu v hv huv
    rw [List.mem_singleton] at hv
    obtain ⟨other, hother, rfl⟩ := List.mem_map.mp hu
    apply hfresh
    rw [← hv, ← huv]
    exact h.drawn other hother
  drawn other hother := by
    rw [List.mem_append, List.mem_singleton] at hother
    cases hother with
    | inl hother => exact drawn_concat (h.drawn other hother) t
    | inr hother =>
        -- the new id is one that the request drew
        rw [hother, List.map_append, List.flatMap_append]
        apply List.mem_append_right
        simpa using hdrawn
  one := by
    rw [statuses_append, hstatus, List.length_append, List.length_append, h.one]
    rfl
  some_of := by
    rw [statuses_append, decided_concat, hstatus, hdecision]
    exact h.some_of.append (List.Sublist.refl _)
  all_of hstrict := by
    rw [statuses_append, decided_concat, hstatus, hdecision, h.all_of hstrict]
    rfl

/-- **The run lemma.** -/
theorem tallied_run (add : ℚ → ℚ → ℚ) (P : Platform) (C : LedgerBackend σ) (settings : Settings)
    (auth : AuthSettings) (registry : FlowRegistry) (s : σ) {calls : List MeteredCall}
    (hclean : ∀ c ∈ calls, c.Clean) (hfresh : (calls.flatMap fun c => c.call.drawn).Nodup) :
    ∃ traces, (final add P C settings auth registry s calls).world.trace_store
        = TraceStore.holding traces
      ∧ Tallied settings.engine.strict (entries add P C settings auth registry s calls) traces := by
  let H : List (MeteredEntry σ) → Metered σ → Prop := fun ts o =>
    SameKeys o.world.human_gate_manager ∧ ∃ traces,
      o.world.trace_store = TraceStore.holding traces ∧ Tallied settings.engine.strict ts traces
  have h : H (entries add P C settings auth registry s calls)
      (final add P C settings auth registry s calls) := by
    refine Run.entries_invariant H ?_ ?_
    · exact ⟨sameKeys_init, [], rfl, List.nodup_nil, by simp, rfl, .slnil, fun _ => rfl⟩
    rintro pre c post hcalls ⟨hkeys, traces, hstore, htallied⟩
    rw [hcalls] at hclean hfresh
    obtain ⟨hanswer, hafter⟩ := simulates_run add P C settings auth registry c
      (Run.final (run add P C settings auth registry) ⟨World.init s, Metrics.reset⟩ pre)
    refine ⟨?_, ?_⟩
    · rw [hafter]
      exact (RuntimeCall.gate_step P C settings auth registry c.call hkeys).same_keys hkeys
    have hone := stores_decision P C settings auth registry (hclean c (by simp)) hkeys
    rw [← hanswer, ← hafter] at hone
    obtain ⟨hsame, hnone⟩ | ⟨result, trace, hdecision, hsave, hdrawn, hstatus⟩ := hone
    · exact ⟨traces, hsame.trans hstore, htallied.skip hnone⟩
    · refine ⟨traces ++ [trace], ?_, htallied.save hdecision hdrawn ?_ hstatus⟩
      · rw [hsave, hstore, TraceStore.holding_append]
      · intro hmem
        obtain ⟨call, hcall, hu⟩ := List.mem_flatMap.mp hmem
        obtain ⟨t, ht, rfl⟩ := List.mem_map.mp hcall
        exact Run.fresh_of_nodup (fun c : MeteredCall => c.call.drawn) hfresh hdrawn t ht hu
  exact h.2

/-- **The two statistics agree.** In a run in which nothing outside the ledger fails and no id is
drawn twice, as long as the limit takes in the whole trace store, `GET /stats` shows of every status
what `decision_evaluate_total` says; in strict mode, where the commit gate answers some requests
itself, it never shows more. -/
theorem statistics_agree (add : ℚ → ℚ → ℚ) (P : Platform) (C : LedgerBackend σ)
    (settings : Settings) (auth : AuthSettings) (registry : FlowRegistry) (s : σ)
    (calls : List MeteredCall) (hclean : ∀ c ∈ calls, c.Clean)
    (hfresh : (calls.flatMap fun c => c.call.drawn).Nodup) (limit : ℕ)
    (hlimit : (final add P C settings auth registry s
      calls).world.trace_store.by_trace_id.values.length ≤ min limit 10000)
    (status : DecisionStatus) :
    (get_stats limit (final add P C settings auth registry s calls).world.trace_store).shown status
        ≤ (final add P C settings auth registry s calls).metrics.get_counter
          "decision_evaluate_total" (some (label "status" status.value)) ∧
    (¬settings.engine.strict →
      (get_stats limit (final add P C settings auth registry s calls).world.trace_store).shown
          status
        = (final add P C settings auth registry s calls).metrics.get_counter
          "decision_evaluate_total" (some (label "status" status.value))) := by
  obtain ⟨traces, hstore, htallied⟩ := tallied_run add P C settings auth registry s hclean hfresh
  have hcounter := get_counter_decision add P C settings auth registry s calls status
  have hdecided : ((entries add P C settings auth registry s calls).filterMap
      MeteredEntry.decision).countP (fun r => r.status = status)
      = (decided (entries add P C settings auth registry s calls)).count status := by
    rw [decided, List.count_eq_countP, List.countP_map]
    apply List.countP_congr
    intro r _
    simp
  have hvalues := TraceStore.values_holding htallied.distinct
  have hshown := shown_get_stats hlimit status
  rw [hstore] at hlimit hshown ⊢
  rw [hvalues] at hlimit hshown
  rw [hcounter, hdecided, hshown]
  -- the counter is capped, but far above what the store lists
  have hsmall : (statuses traces).count status ≤ 10000 := by
    have hcount : (statuses traces).count status ≤ (statuses traces).length :=
      List.count_le_length
    rw [htallied.one] at hcount
    omega
  have hle := htallied.some_of.count_le status
  constructor
  · omega
  · intro hstrict
    rw [← htallied.all_of hstrict]
    omega

/-- A decision is escalated and approved: both statistics say that one is pending. -/
theorem statistics_agree_approved :
    (get_stats 1000 (final (· + ·) Recorded.platform LedgerClient.backend
        (Recorded.settings "parallel") Recorded.open_access Recorded.escalating_registry
        LedgerClient.init Recorded.metered_calls).world.trace_store).pending_human = 1
      ∧ (final (· + ·) Recorded.platform LedgerClient.backend (Recorded.settings "parallel")
          Recorded.open_access Recorded.escalating_registry LedgerClient.init
          Recorded.metered_calls).metrics.get_counter
        "decision_evaluate_total" (some (label "status" "pending_human")) = 1 := by
  have hagree := statistics_agree (· + ·) Recorded.platform LedgerClient.backend
    (Recorded.settings "parallel") Recorded.open_access Recorded.escalating_registry
    LedgerClient.init Recorded.metered_calls metered_calls_clean (by decide +kernel) 1000
    (by decide +kernel) .pending_human
  have hshown : (get_stats 1000 (final (· + ·) Recorded.platform LedgerClient.backend
      (Recorded.settings "parallel") Recorded.open_access Recorded.escalating_registry
      LedgerClient.init Recorded.metered_calls).world.trace_store).pending_human = 1 := by
    decide +kernel
  refine ⟨hshown, (hagree.2 ?_).symm.trans hshown⟩
  exact fun hstrict => absurd hstrict.2 (by decide)

end MeteredCall

end DecisionRuntime
