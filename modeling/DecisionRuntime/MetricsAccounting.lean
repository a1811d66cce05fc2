/-
What the metrics of the service add up to, over runs.

* `evaluations_counted` -- the counters and the summary of the evaluations are those of
  the decisions that the engine returned, request by request;
* `gate_actions_counted` -- the counters of the gate actions are the numbers of gates
  that are approved and rejected;
* `appends_counted` -- when nothing outside fails, every counted decision and every
  counted gate action has one counted append, and there are no others.
-/
import DecisionRuntime.ExecutionStream
import DecisionRuntime.GateTransitions
import DecisionRuntime.MetricsLog
import DecisionRuntime.ResolutionEvents

set_option autoImplicit false

namespace DecisionRuntime

/-! ## The keys -/

namespace Metered

/-- The key of a counter with one label. -/
theorem label_key (name label_name value : String) :
    (⟨name, some (label label_name value)⟩ : Increment).key
      = name ++ ("\x7b" ++ (label_name ++ "=\"" ++ value ++ "\"") ++ "\x7d") := by
  have hitems : sorted_items (label label_name value) = [(label_name, value)] := rfl
  have hformat : format_labels (label label_name value)
      = "\x7b" ++ (label_name ++ "=\"" ++ value ++ "\"") ++ "\x7d" := by
    unfold format_labels
    rw [hitems]
    rfl
  rw [Increment.key, Increment.label_dict, Option.getD_some, hformat]

/-- The value of the label can be read off the key. -/
theorem label_key_inj {name label_name value value' : String}
    (h : (⟨name, some (label label_name value)⟩ : Increment).key
      = (⟨name, some (label label_name value')⟩ : Increment).key) : value = value' := by
  rw [label_key, label_key, ← String.toList_inj] at h
  simp only [String.toList_append, List.append_assoc, List.append_cancel_left_eq,
    List.append_cancel_right_eq, String.toList_inj] at h
  exact h

theorem decision_counter_name (status : DecisionStatus) :
    (decision_counter status).name = "decision_evaluate_total" := rfl

theorem action_counter_name (word : String) :
    (action_counter word).name = "human_gate_action_total" := rfl

theorem append_counter_name (result : String) :
    (append_counter result).name = "ledger_append_total" := rfl

theorem decision_counter_key_inj {status status' : DecisionStatus}
    (h : (decision_counter status).key = (decision_counter status').key) : status = status' := by
  have hvalue : status.value = status'.value := label_key_inj h
  exact Option.some.inj (by rw [← DecisionStatus.ofValue_value, hvalue,
    DecisionStatus.ofValue_value])

/-- Counters with different names have different keys. -/
theorem key_ne_of_name {c c' : Increment} (h : c.name ∈ counter_names)
    (h' : c'.name ∈ counter_names) (hne : c.name ≠ c'.name) : c.key ≠ c'.key := by
  intro hkey
  rw [← base_key h, ← base_key h', hkey] at hne
  exact hne rfl

end Metered

/-! ## What the entries of a run say -/

/-- One request to the service with its metrics, with the state before and after it. -/
abbrev MeteredEntry (σ : Type) := Entry MeteredCall PyError (Metered σ) DecisionResult

namespace MeteredEntry

variable {σ : Type}

/-- The result of the engine that the request was answered with, if the engine was asked. -/
def decision (t : MeteredEntry σ) : Option DecisionResult :=
  t.call.decision t.before.world t.answer

/-- The word for what the request did to a gate. -/
def action (auth : AuthSettings) (t : MeteredEntry σ) : Option String :=
  t.call.action auth t.before.world

/-- The time that a decision of the engine took. -/
def duration (t : MeteredEntry σ) : Option ℚ := t.decision.map fun _ => t.call.elapsed

/-- A request makes a decision or acts on a gate, and not both. -/
theorem exclusive (auth : AuthSettings) (t : MeteredEntry σ) :
    t.action auth = none ∨ t.decision = none := by
  rcases t with ⟨before, ⟨call, elapsed⟩, answer, after⟩
  cases call with
  | evaluate e => exact Or.inl rfl
  | approve_gate draws request => exact Or.inr rfl
  | reject_gate draws request => exact Or.inr rfl
  | simulate draws body => exact Or.inl rfl

theorem length_toList {α : Type} (a : Option α) :
    a.toList.length = if a.isSome = true then 1 else 0 := by
  cases a with
  | none => rfl
  | some a => rfl

/-- One result that is due for an action or a decision is one for each of them. -/
theorem due_length (auth : AuthSettings) (t : MeteredEntry σ) {enabled : Bool}
    {results : List String} (hlen : results.length ≤ 1)
    (hdue : results.length = 1 ↔
      enabled = true ∧ ((t.action auth).isSome = true ∨ t.decision.isSome = true)) :
    results.length = if enabled then (t.action auth).toList.length + t.decision.toList.length
      else 0 := by
  have hboth : ¬ ((t.action auth).isSome = true ∧ t.decision.isSome = true) := by
    rintro ⟨haction, hdecision⟩
    rcases exclusive auth t with hnone | hnone
    · rw [hnone] at haction
      cases haction
    · rw [hnone] at hdecision
      cases hdecision
  rw [length_toList, length_toList]
  -- only one of the two lengths can be 1
  by_cases hlength : results.length = 1
  · obtain ⟨hon, hsome⟩ := hdue.mp hlength
    rw [if_pos hon, hlength]
    by_cases haction : (t.action auth).isSome = true
    · rw [if_pos haction, if_neg fun hdecision => hboth ⟨haction, hdecision⟩]
    · rw [if_neg haction, if_pos (hsome.resolve_left haction)]
  · have hzero : results.length = 0 := by omega
    rw [hzero]
    by_cases hon : enabled = true
    · have hnone : ¬ ((t.action auth).isSome = true ∨ t.decision.isSome = true) :=
        fun hsome => hlength (hdue.mpr ⟨hon, hsome⟩)
      rw [not_or] at hnone
      rw [if_pos hon, if_neg hnone.1, if_neg hnone.2]
    · rw [if_neg hon]

end MeteredEntry

namespace MeteredCall

open Metered MetricCall

variable {σ : Type} {add : ℚ → ℚ → ℚ} {P : Platform} {C : LedgerBackend σ} {settings : Settings}
  {auth : AuthSettings} {registry : FlowRegistry}

/-- The registry holds what the entries of a run say, and `results.length` commits and appends. -/
structure Accounts (add : ℚ → ℚ → ℚ) (C : LedgerBackend σ) (settings : Settings)
    (auth : AuthSettings) (entries : List (MeteredEntry σ)) (m : Metrics) (log : List MetricCall)
    (results : List String) : Prop where
  metrics : m = Metrics.reset.after add log
  increments : ∀ p, (incremented log).countP p
    = ((entries.filterMap (MeteredEntry.action auth)).map action_counter).countP p
      + (results.map append_counter).countP p
      + ((entries.filterMap MeteredEntry.decision).map fun r => decision_counter r.status).countP p
  observations : observed "decision_evaluate_duration_seconds" log
    = entries.filterMap MeteredEntry.duration
  at_most_one : results.length ≤ entries.length
  one : C.Responds → (∀ t ∈ entries, t.call.Clean) → results.length
    = if settings.ledger_enabled then (entries.filterMap (MeteredEntry.action auth)).length
        + (entries.filterMap MeteredEntry.decision).length
      else 0

theorem incremented_map (counters : List Increment) :
    incremented (counters.map MetricCall.increment) = counters := by
  unfold incremented
  rw [List.filterMap_map]
  exact List.filterMap_some

theorem incremented_recorded (elapsed : ℚ) (result : Option DecisionResult) :
    incremented (recorded elapsed result)
      = result.toList.map fun r => decision_counter r.status := by
  cases result with
  | none => rfl
  | some result => rfl

theorem observed_map (name : String) (counters : List Increment) :
    observed name (counters.map MetricCall.increment) = [] := by
  unfold observed
  rw [List.filterMap_map]
  exact List.filterMap_eq_nil_iff.mpr fun _ _ => rfl

theorem observed_recorded (elapsed : ℚ) (result : Option DecisionResult) :
    observed "decision_evaluate_duration_seconds" (recorded elapsed result)
      = (result.map fun _ => elapsed).toList := by
  cases result with
  | none => rfl
  | some result => rfl

/-- **The step lemma.** -/
theorem Accounts.step {entries : List (MeteredEntry σ)} {o : Metered σ} {log : List MetricCall}
    {results : List String} (h : Accounts add C settings auth entries o.metrics log results)
    (hkeys : HumanGateManager.SameKeys o.world.human_gate_manager) (c : MeteredCall) :
    ∃ log' results', Accounts add C settings auth
      (entries ++ [Run.entry (run add P C settings auth registry) o c])
      (c.run add P C settings auth registry o).2.metrics log' results' := by
  obtain ⟨results', hlen, hlogs, hone⟩ := run_log add P C settings auth registry c hkeys
  let t : MeteredEntry σ := Run.entry (run add P C settings auth registry) o c
  let log' := ((t.action auth).toList.map action_counter
      ++ results'.map append_counter).map MetricCall.increment
    ++ recorded c.elapsed t.decision
  have hmetrics : t.after.metrics = o.metrics.after add log' := by
    have hlog' : log'
        = ((t.action auth).toList.map fun word => MetricCall.increment (action_counter word))
        ++ appends results' ++ recorded c.elapsed t.decision := by
      simp only [log', List.map_append, List.map_map, appends]
      rfl
    rw [hlog']
    exact hlogs
  have hactions := DecisionRuntimeEngine.filterMap_concat (MeteredEntry.action auth) entries t
  have hdecisions := DecisionRuntimeEngine.filterMap_concat MeteredEntry.decision entries t
  -- `log'` counts the action, then the append, then the decision; an observation comes last
  refine ⟨log ++ log', results ++ results', ?_, ?_, ?_, ?_, ?_⟩
  · rw [Metrics.after_append, ← h.metrics]
    exact hmetrics
  · intro p
    rw [incremented_append, incremented_append, incremented_map, incremented_recorded, hactions,
      hdecisions]
    simp only [List.map_append, List.countP_append, h.increments p]
    omega
  · rw [observed_append, observed_append, observed_map, observed_recorded, h.observations,
      DecisionRuntimeEngine.filterMap_concat]
    rfl
  · have hatmost := h.at_most_one
    rw [List.length_append, List.length_append, List.length_singleton]
    omega
  · intro hC hclean
    have hcleans : ∀ t' ∈ entries, t'.call.Clean := fun t' ht' =>
      hclean t' (List.mem_append_left _ ht')
    have hdue := hone hC (hclean t (List.mem_append_right _ (List.mem_singleton_self t)))
    rw [List.length_append, h.one hC hcleans, hactions, hdecisions, List.length_append,
      List.length_append, t.due_length auth hlen hdue]
    split <;> omega

/-! ## Runs -/

/-- The entries of a run of a service that starts with an empty registry. -/
def entries (add : ℚ → ℚ → ℚ) (P : Platform) (C : LedgerBackend σ) (settings : Settings)
    (auth : AuthSettings) (registry : FlowRegistry) (s : σ) (calls : List MeteredCall) :
    List (MeteredEntry σ) :=
  Run.entries (run add P C settings auth registry) ⟨World.init s, Metrics.reset⟩ calls

/-- The service and its registry after the run. -/
def final (add : ℚ → ℚ → ℚ) (P : Platform) (C : LedgerBackend σ) (settings : Settings)
    (auth : AuthSettings) (registry : FlowRegistry) (s : σ) (calls : List MeteredCall) :
    Metered σ :=
  Run.final (run add P C settings auth registry) ⟨World.init s, Metrics.reset⟩ calls

theorem length_entries (add : ℚ → ℚ → ℚ) (P : Platform) (C : LedgerBackend σ) (settings : Settings)
    (auth : AuthSettings) (registry : FlowRegistry) (s : σ) (calls : List MeteredCall) :
    (entries add P C settings auth registry s calls).length = calls.length := by
  have hcalls : (entries add P C settings auth registry s calls).map Entry.call = calls :=
    Run.map_call_entries (⟨World.init s, Metrics.reset⟩ : Metered σ) calls
  rw [← congrArg List.length hcalls, List.length_map]

theorem accounts_nil :
    Accounts add C settings auth ([] : List (MeteredEntry σ)) (Metrics.reset) [] [] := by
  refine ⟨rfl, fun _ => rfl, rfl, le_refl 0, fun _ _ => ?_⟩
  split <;> rfl

/-- **The run lemma.** -/
theorem accounts_run (add : ℚ → ℚ → ℚ) (P : Platform) (C : LedgerBackend σ) (settings : Settings)
    (auth : AuthSettings) (registry : FlowRegistry) (s : σ) (calls : List MeteredCall) :
    ∃ log results, Accounts add C settings auth (entries add P C settings auth registry s calls)
      (final add P C settings auth registry s calls).metrics log results := by
  let H : List (MeteredEntry σ) → Metered σ → Prop := fun entries o =>
    HumanGateManager.SameKeys o.world.human_gate_manager
      ∧ ∃ log results, Accounts add C settings auth entries o.metrics log results
  have h : H (entries add P C settings auth registry s calls)
      (final add P C settings auth registry s calls) := by
    refine Run.entries_invariant H ⟨HumanGateManager.sameKeys_init, [], [], accounts_nil⟩ ?_
    rintro pre c post - ⟨hkeys, log, results, haccounts⟩
    refine ⟨?_, haccounts.step hkeys c⟩
    rw [(simulates_run add P C settings auth registry c _).2]
    exact (RuntimeCall.gate_step P C settings auth registry c.call hkeys).same_keys hkeys
  exact h.2

/-! ### The evaluations -/

/-- Counters with another name do not count for the key. -/
theorem countP_other_name {β : Type} {f : β → Increment} {c : Increment} {name name' : String}
    (hf : ∀ b, (f b).name = name) (hc : c.name = name') (hname : name ∈ counter_names)
    (hname' : name' ∈ counter_names) (hne : name ≠ name') (bs : List β) :
    (bs.map f).countP (fun c' => c'.key = c.key) = 0 := by
  rw [List.countP_eq_zero]
  intro c' hc'
  obtain ⟨b, -, rfl⟩ := List.mem_map.mp hc'
  rw [← hf b] at hname hne
  rw [← hc] at hname' hne
  have hkey : (f b).key ≠ c.key := key_ne_of_name hname hname' hne
  simpa using hkey

theorem counter_names_declared : "decision_evaluate_total" ∈ counter_names
    ∧ "human_gate_action_total" ∈ counter_names ∧ "ledger_append_total" ∈ counter_names := by
  decide

/-- The counter of a status counts the decisions with it. -/
theorem countP_decision_counter (decisions : List DecisionResult) (status : DecisionStatus) :
    (decisions.map fun r => decision_counter r.status).countP
        (fun c => c.key = (decision_counter status).key)
      = decisions.countP fun r => r.status = status := by
  rw [List.countP_map]
  apply List.countP_congr
  intro r _
  simp only [Function.comp_apply, decide_eq_true_eq]
  constructor
  · exact decision_counter_key_inj
  · intro hstatus
    rw [hstatus]

theorem get_counter_decision (add : ℚ → ℚ → ℚ) (P : Platform) (C : LedgerBackend σ)
    (settings : Settings) (auth : AuthSettings) (registry : FlowRegistry) (s : σ)
    (calls : List MeteredCall) (status : DecisionStatus) :
    (final add P C settings auth registry s calls).metrics.get_counter
        "decision_evaluate_total" (some (label "status" status.value))
      = min (((entries add P C settings auth registry s calls).filterMap
          MeteredEntry.decision).countP fun r => r.status = status) (2 ^ 53) := by
  obtain ⟨log, results, haccounts⟩ := accounts_run add P C settings auth registry s calls
  have hget := Metrics.get_counter_after add log (decision_counter status)
  rw [haccounts.metrics]
  refine hget.trans ?_
  obtain ⟨hdecision, haction, happend⟩ := counter_names_declared
  have hactions := countP_other_name action_counter_name (decision_counter_name status) haction
    hdecision (by decide)
  have happends := countP_other_name append_counter_name (decision_counter_name status) happend
    hdecision (by decide)
  rw [haccounts.increments, hactions, happends, countP_decision_counter, Nat.zero_add]

/-- **The evaluations, counted.** After any run, `decision_evaluate_total` of a status is the number
of requests that the engine answered with this status, and the summary has their number and, added
up in the order of the requests, their durations: a request that is answered from the idempotency
store, and one that fails, is not counted. -/
theorem evaluations_counted (add : ℚ → ℚ → ℚ) (P : Platform) (C : LedgerBackend σ)
    (settings : Settings) (auth : AuthSettings) (registry : FlowRegistry) (s : σ)
    (calls : List MeteredCall) :
    (∀ status : DecisionStatus,
        (final add P C settings auth registry s calls).metrics.get_counter
            "decision_evaluate_total" (some (label "status" status.value))
          = min (((entries add P C settings auth registry s calls).filterMap
              MeteredEntry.decision).countP fun r => r.status = status) (2 ^ 53))
      ∧ (final add P C settings auth registry s calls).metrics.get_summary
            "decision_evaluate_duration_seconds"
          = ⟨min ((entries add P C settings auth registry s calls).filterMap
                MeteredEntry.decision).length (2 ^ 53),
              ((entries add P C settings auth registry s calls).filterMap
                MeteredEntry.duration).foldl add 0⟩ := by
  obtain ⟨log, results, haccounts⟩ := accounts_run add P C settings auth registry s calls
  constructor
  · exact get_counter_decision add P C settings auth registry s calls
  · rw [haccounts.metrics, Metrics.get_summary_after, haccounts.observations]
    have hlength : ∀ ts : List (MeteredEntry σ), (ts.filterMap MeteredEntry.duration).length
        = (ts.filterMap MeteredEntry.decision).length := by
      intro ts
      rw [List.length_filterMap_eq_countP, List.length_filterMap_eq_countP]
      apply List.countP_congr
      intro t _
      rw [MeteredEntry.duration, Option.isSome_map]
    rw [hlength]

/-! ### The gate actions -/

/-- How many gates have a status. -/
def gates_with (status : HumanGateStatus) (m : HumanGateManager) : ℕ :=
  m.store.values.countP fun gate => gate.status = status

/-- How often the manager was asked successfully to do this to a gate. -/
def actions_with (auth : AuthSettings) (word : String) (ts : List (MeteredEntry σ)) : ℕ :=
  (ts.filterMap (MeteredEntry.action auth)).countP fun word' => word' = word

theorem gates_with_set_new {m : HumanGateManager} {key : String}
    (hnew : m.store.get key = none) (gate : HumanGateRequest) (status : HumanGateStatus)
    (results : Dict String DecisionResult) :
    gates_with status ⟨m.store.set key gate, results⟩
      = gates_with status m + if gate.status = status then 1 else 0 := by
  unfold gates_with
  rw [Dict.countP_values, Dict.countP_values, Dict.total_set_new _ hnew]
  simp

theorem gates_with_set_old {m : HumanGateManager} {key : String} {old : HumanGateRequest}
    (hold : m.store.get key = some old) (gate : HumanGateRequest) (status : HumanGateStatus)
    (results : Dict String DecisionResult) :
    gates_with status ⟨m.store.set key gate, results⟩ + (if old.status = status then 1 else 0)
      = gates_with status m + if gate.status = status then 1 else 0 := by
  unfold gates_with
  rw [Dict.countP_values, Dict.countP_values]
  have hset := Dict.total_set_old
    (fun _ gate => if decide (gate.status = status) = true then 1 else 0) hold gate
  simpa using hset

open Routes HumanGateManager

/-- The manager is asked successfully exactly when the request resolves a gate. -/
theorem acted_eq_some_iff {action : GateAction} {draws : GateDraws} {request : GateRequest}
    {m : HumanGateManager} (hkeys : SameKeys m) {word : String} :
    acted auth action draws request m = some word ↔
      action.word = word ∧ ∃ actor gate held, Resolves auth request m actor gate held := by
  unfold acted
  rcases hactor : get_actor auth request.api_key with e | actor
  · refine iff_of_false (by simp) ?_
    rintro ⟨-, actor, gate, held, hresolves⟩
    cases hactor.symm.trans hresolves.authenticated
  dsimp only
  rcases resolve_run action.resolution draws.now request.request_id request.body.comment
      (actor.map Actor.roles) hkeys with
    ⟨e, hrun⟩ | ⟨gate, held, hgate, hheld, hpending, hallowed, hrun⟩
  · rw [hrun]
    refine iff_of_false (by simp [Except.map, Except.toOption]) ?_
    rintro ⟨-, actor', gate, held, hresolves⟩
    obtain rfl := Except.ok.inj (hactor.symm.trans hresolves.authenticated)
    rw [resolve_success action.resolution draws.now request.body.comment hresolves.stored
      hresolves.held hresolves.pending hresolves.allowed] at hrun
    cases congrArg Prod.fst hrun
  · rw [hrun]
    have hresolves : Resolves auth request m actor gate held :=
      ⟨hactor, hgate, hheld, hpending, hallowed⟩
    show some action.word = some word ↔ _
    rw [Option.some.injEq]
    constructor
    · exact fun hword => ⟨hword, actor, gate, held, hresolves⟩
    · exact And.left

/-- The gates with the status that an action gives are as many as the actions, for either of the
two. -/
structure GatesCounted (auth : AuthSettings) (ts : List (MeteredEntry σ)) (m : HumanGateManager) :
    Prop where
  same_keys : SameKeys m
  drawn : RuntimeCall.GatesDrawn (ts.map fun t => t.call.call) m
  counted : ∀ action, action = approve_action ∨ action = reject_action →
    gates_with action.resolution.status m = actions_with auth action.word ts

theorem actions_with_concat (word : String) (ts : List (MeteredEntry σ)) (t : MeteredEntry σ) :
    actions_with auth word (ts ++ [t])
      = actions_with auth word ts + if t.action auth = some word then 1 else 0 := by
  unfold actions_with
  rw [DecisionRuntimeEngine.filterMap_concat, List.countP_append]
  congr 1
  rcases t.action auth with _ | word'
  · rfl
  · simp

/-- What a request does to a gate, from the request. -/
theorem action_eq_some_iff {c : MeteredCall} {w : World σ} (hkeys : SameKeys w.human_gate_manager)
    {word : String} : c.action auth w = some word ↔
      ∃ action draws request, c.call.gate_action = some (action, draws, request)
        ∧ action.word = word
        ∧ ∃ actor gate held, Resolves auth request w.human_gate_manager actor gate held := by
  unfold MeteredCall.action
  rcases hcall : c.call.gate_action with _ | ⟨action, draws, request⟩
  · simp
  · dsimp only
    rw [acted_eq_some_iff hkeys]
    simp

/-- An action changes the number of gates with the status it gives, and a request that is none
changes no such number. -/
theorem gates_with_step {c : MeteredCall} {w : World σ} {m' : HumanGateManager}
    (hkeys : SameKeys w.human_gate_manager)
    (hstep : RuntimeCall.GateStep auth c.call w.human_gate_manager m')
    (hnew : ∀ e, c.call = .evaluate e →
      w.human_gate_manager.store.get e.draws.env.gate_id.str = none)
    {action : GateAction} (haction : action = approve_action ∨ action = reject_action) :
    gates_with action.resolution.status m'
      = gates_with action.resolution.status w.human_gate_manager
        + if c.action auth w = some action.word then 1 else 0 := by
  have hpending : HumanGateStatus.pending ≠ action.resolution.status := by
    rcases haction with rfl | rfl <;> decide
  rcases hstep with ⟨idle⟩ | @⟨e, held, hcall⟩ | @⟨action', draws, request, actor, gate, held,
    hcall, hresolves⟩
  · -- no gate is touched
    rw [if_neg, Nat.add_zero]
    rw [action_eq_some_iff hkeys]
    rintro ⟨action', draws, request, hcall, -, actor, gate, held, hresolves⟩
    exact idle action' draws request hcall actor gate held hresolves
  · -- a gate is opened, which is pending
    have hnone : ¬ c.action auth w = some action.word := by
      rw [action_eq_some_iff hkeys, hcall]
      rintro ⟨_, _, _, h, -⟩
      cases h
    rw [if_neg hnone]
    unfold created
    rw [gates_with_set_new (hnew e hcall)]
    exact congrArg _ (if_neg hpending)
  · -- a pending gate is resolved, the way the action says
    have hset := gates_with_set_old hresolves.stored
      (action'.resolution.gate draws.now request.body.comment gate) action.resolution.status
      (w.human_gate_manager.results.set request.request_id
        (action'.resolution.update draws.now held))
    rw [hresolves.pending, if_neg hpending, Nat.add_zero] at hset
    unfold HumanGateManager.resolved
    rw [hset]
    have hsome : c.action auth w = some action'.word := by
      rw [action_eq_some_iff hkeys]
      exact ⟨action', draws, request, hcall, rfl, actor, gate, held, hresolves⟩
    have hsame : action'.resolution.status = action.resolution.status
        ↔ some action'.word = some action.word := by
      rcases RuntimeCall.action_cases hcall with rfl | rfl <;>
        rcases haction with rfl | rfl <;> decide
    rw [hsome]
    exact congrArg _ (if_congr hsame rfl rfl)

/-- The step lemma. -/
theorem GatesCounted.step {ts : List (MeteredEntry σ)} {t : MeteredEntry σ}
    (h : GatesCounted auth ts t.before.world.human_gate_manager)
    (hstep : RuntimeCall.GateStep auth t.call.call t.before.world.human_gate_manager
      t.after.world.human_gate_manager)
    (hfresh : ∀ e, t.call.call = .evaluate e → e.draws.env.gate_id
      ∉ (ts.map fun t => t.call.call).flatMap RuntimeCall.drawn) :
    GatesCounted auth (ts ++ [t]) t.after.world.human_gate_manager := by
  refine ⟨hstep.same_keys h.same_keys, ?_, ?_⟩
  · rw [List.map_append]
    exact hstep.gates_drawn h.drawn
  · intro action haction
    rw [actions_with_concat, ← h.counted action haction]
    exact gates_with_step h.same_keys hstep (fun e he => h.drawn.fresh (hfresh e he)) haction

/-- The run lemma. -/
theorem gatesCounted_run (add : ℚ → ℚ → ℚ) (P : Platform) (C : LedgerBackend σ)
    (settings : Settings) (auth : AuthSettings) (registry : FlowRegistry) (s : σ)
    {calls : List MeteredCall} (hfresh : (calls.flatMap fun c => c.call.drawn).Nodup) :
    GatesCounted auth (entries add P C settings auth registry s calls)
      (final add P C settings auth registry s calls).world.human_gate_manager := by
  let H : List (MeteredEntry σ) → Metered σ → Prop := fun ts o =>
    GatesCounted auth ts o.world.human_gate_manager
  have h : H (entries add P C settings auth registry s calls)
      (final add P C settings auth registry s calls) := by
    refine Run.entries_invariant H ⟨sameKeys_init, (fun _ _ h => nomatch h), fun _ _ => rfl⟩ ?_
    rintro pre c post hcalls hpre
    refine GatesCounted.step (t := Run.entry _ _ c) hpre ?_ ?_
    · -- what the metered request does to the gates, the request does
      have hstep := RuntimeCall.gate_step P C settings auth registry c.call hpre.same_keys
      rw [← (simulates_run add P C settings auth registry c _).2] at hstep
      exact hstep
    · intro e he hmem
      obtain ⟨call, hcall, hdrawn⟩ := List.mem_flatMap.mp hmem
      obtain ⟨t, ht, rfl⟩ := List.mem_map.mp hcall
      rw [hcalls] at hfresh
      refine Run.fresh_of_nodup (fun c : MeteredCall => c.call.drawn) hfresh ?_ t ht hdrawn
      have he' : c.call = .evaluate e := he
      rw [he']
      simp [RuntimeCall.drawn, EvaluateCall.drawn, Env.drawn]
  exact h

/-- The counter of a word counts the actions with it. -/
theorem countP_action_counter (words : List String) (word : String) :
    (words.map action_counter).countP (fun c => c.key = (action_counter word).key)
      = words.countP fun word' => word' = word := by
  rw [List.countP_map]
  apply List.countP_congr
  intro word' _
  simp only [Function.comp_apply, decide_eq_true_eq]
  constructor
  · exact label_key_inj
  · intro hword
    rw [hword]

theorem get_counter_action (add : ℚ → ℚ → ℚ) (P : Platform) (C : LedgerBackend σ)
    (settings : Settings) (auth : AuthSettings) (registry : FlowRegistry) (s : σ)
    (calls : List MeteredCall) (word : String) :
    (final add P C settings auth registry s calls).metrics.get_counter
        "human_gate_action_total" (some (label "action" word))
      = min (actions_with auth word (entries add P C settings auth registry s calls))
          (2 ^ 53) := by
  obtain ⟨log, results, haccounts⟩ := accounts_run add P C settings auth registry s calls
  obtain ⟨hdecision, haction, happend⟩ := counter_names_declared
  have hget := Metrics.get_counter_after add log (action_counter word)
  have happends := countP_other_name append_counter_name (action_counter_name word) happend
    haction (by decide) results
  have hdecisions := countP_other_name (f := fun r : DecisionResult => decision_counter r.status)
    (fun r => decision_counter_name r.status) (action_counter_name word) hdecision haction
    (by decide)
  rw [haccounts.metrics]
  refine hget.trans ?_
  rw [haccounts.increments, happends, hdecisions, countP_action_counter]
  rfl

/-- **The gate actions, counted.** After any run in which no id is drawn twice,
`human_gate_action_total` of approvals is the number of gates that are approved, and that of
rejections the number of gates that are rejected, up to the 2^53 that a float counts to: an action
that the manager, or the look-up of the actor, refuses is not counted, and one whose ledger event
fails is. -/
theorem gate_actions_counted (add : ℚ → ℚ → ℚ) (P : Platform) (C : LedgerBackend σ)
    (settings : Settings) (auth : AuthSettings) (registry : FlowRegistry) (s : σ)
    (calls : List MeteredCall) (hfresh : (calls.flatMap fun c => c.call.drawn).Nodup) :
    (final add P C settings auth registry s calls).metrics.get_counter
          "human_gate_action_total" (some (label "action" "approve"))
        = min (gates_with .approved
            (final add P C settings auth registry s calls).world.human_gate_manager) (2 ^ 53)
      ∧ (final add P C settings auth registry s calls).metrics.get_counter
          "human_gate_action_total" (some (label "action" "reject"))
        = min (gates_with .rejected
            (final add P C settings auth registry s calls).world.human_gate_manager)
            (2 ^ 53) := by
  have hcounted := gatesCounted_run add P C settings auth registry s hfresh
  constructor
  · rw [get_counter_action]
    exact congrArg (min · _) (hcounted.counted approve_action (Or.inl rfl)).symm
  · rw [get_counter_action]
    exact congrArg (min · _) (hcounted.counted reject_action (Or.inr rfl)).symm

/-! ### The appends -/

/-- What the counters with a name add up to. -/
def counter_total (name : String) (m : Metrics) : ℕ :=
  m.counters.total fun key n => if base key = name then n else 0

/-- As long as floats count, the counters with a name add up to the increments with it. -/
theorem counter_total_counted {counters : List Increment} {name : String}
    (hfew : counters.length ≤ 2 ^ 53) :
    counter_total name (counted Dict.empty counters)
      = counters.countP fun c => base c.key = name := by
  induction counters using List.reverseRecOn with
  | nil => rfl
  | append_singleton counters c ih =>
      rw [List.length_append, List.length_singleton] at hfew
      let before := (counted Dict.empty counters).counters
      let weight : String → ℕ → ℕ := fun key n => if base key = name then n else 0
      -- the float under the key is exact, and there is a next one
      have hcount : (before.get c.key).getD 0
          = min (counters.countP fun c' => c'.key = c.key) (2 ^ 53) := get_counted c.key
      have hle : (counters.countP fun c' => c'.key = c.key) ≤ counters.length :=
        List.countP_le_length
      have hnext : add_one ((before.get c.key).getD 0) = (before.get c.key).getD 0 + 1 := by
        rw [add_one, if_pos (by omega)]
      have hset := Dict.total_set weight before c.key (add_one ((before.get c.key).getD 0))
      have hold : ((before.get c.key).map (weight c.key)).getD 0
          = weight c.key ((before.get c.key).getD 0) := by
        rcases before.get c.key with _ | n
        · simp [weight]
        · rfl
      have hafter : counter_total name (counted Dict.empty (counters ++ [c]))
          = (before.set c.key (add_one ((before.get c.key).getD 0))).total weight := by
        rw [counted_append]
        rfl
      have hbefore : before.total weight = counters.countP fun c => base c.key = name :=
        ih (by omega)
      rw [hafter, List.countP_append, ← hbefore, hnext]
      rw [hold, hnext] at hset
      by_cases hbase : base c.key = name
      · have hone : [c].countP (fun c => base c.key = name) = 1 := by simp [hbase]
        have hweight : ∀ n, weight c.key n = n := fun n => if_pos hbase
        rw [hweight, hweight] at hset
        rw [hone]
        omega
      · have hzero : [c].countP (fun c => base c.key = name) = 0 := by simp [hbase]
        have hweight : ∀ n, weight c.key n = 0 := fun n => if_neg hbase
        rw [hweight, hweight] at hset
        rw [hzero]
        omega

/-- The increments for these, by the name of their counter. -/
theorem countP_base {β : Type} {f : β → Increment} {name : String} (hf : ∀ b, (f b).name = name)
    (hname : name ∈ counter_names) (name' : String) (bs : List β) :
    (bs.map f).countP (fun c => base c.key = name') = if name = name' then bs.length else 0 := by
  have hbase : ∀ b, base (f b).key = name := by
    intro b
    rw [base_key ((hf b).symm ▸ hname), hf]
  rw [List.countP_map]
  by_cases hsame : name = name'
  · rw [if_pos hsame, List.countP_eq_length]
    intro b _
    simp [hbase, hsame]
  · rw [if_neg hsame, List.countP_eq_zero]
    intro b _
    simp [hbase, hsame]

/-- What the three counters add up to. -/
theorem Accounts.totals {ts : List (MeteredEntry σ)} {m : Metrics} {log : List MetricCall}
    {results : List String} (h : Accounts add C settings auth ts m log results)
    (hfew : 3 * ts.length ≤ 2 ^ 53) :
    counter_total "decision_evaluate_total" m = (ts.filterMap MeteredEntry.decision).length
      ∧ counter_total "human_gate_action_total" m
        = (ts.filterMap (MeteredEntry.action auth)).length
      ∧ counter_total "ledger_append_total" m = results.length := by
  have hactions : (ts.filterMap (MeteredEntry.action auth)).length ≤ ts.length :=
    List.length_filterMap_le _ _
  have hdecisions : (ts.filterMap MeteredEntry.decision).length ≤ ts.length :=
    List.length_filterMap_le _ _
  have hresults := h.at_most_one
  have hlength : (incremented log).length ≤ 2 ^ 53 := by
    have hall := h.increments (fun _ => true)
    simp only [List.countP_true, List.length_map] at hall
    omega
  obtain ⟨hdecision, haction, happend⟩ := counter_names_declared
  -- each of the three logs of increments counts for its own name only
  have htotal : ∀ name, counter_total name m
      = (if "human_gate_action_total" = name then
          (ts.filterMap (MeteredEntry.action auth)).length else 0)
        + (if "ledger_append_total" = name then results.length else 0)
        + if "decision_evaluate_total" = name then
            (ts.filterMap MeteredEntry.decision).length else 0 := by
    intro name
    have hcounters : counter_total name m
        = counter_total name (counted Dict.empty (incremented log)) := by
      unfold counter_total
      rw [h.metrics, Metrics.counters_after]
    rw [hcounters, counter_total_counted hlength, h.increments,
      countP_base action_counter_name haction, countP_base append_counter_name happend,
      countP_base (f := fun r : DecisionResult => decision_counter r.status)
        (fun r => decision_counter_name r.status) hdecision]
  refine ⟨?_, ?_, ?_⟩
  · simp [htotal]
  · simp [htotal]
  · simp [htotal]

/-- **The appends, counted.** When nothing outside fails, the answers that `ledger_append_total`
counts are, after any run of at most a third of 2^53 requests, one for each decision that was
counted and one for each gate action that was, in either mode, and none when the ledger is disabled:
a commit counts once, however many events it appends. -/
theorem appends_counted (add : ℚ → ℚ → ℚ) (P : Platform) {C : LedgerBackend σ}
    (hC : C.Responds) (settings : Settings) (auth : AuthSettings) (registry : FlowRegistry) (s : σ)
    (calls : List MeteredCall) (hclean : ∀ c ∈ calls, c.Clean)
    (hfew : 3 * calls.length ≤ 2 ^ 53) :
    counter_total "ledger_append_total" (final add P C settings auth registry s calls).metrics
      = if settings.ledger_enabled then
          counter_total "decision_evaluate_total"
            (final add P C settings auth registry s calls).metrics
          + counter_total "human_gate_action_total"
            (final add P C settings auth registry s calls).metrics
        else 0 := by
  obtain ⟨log, results, haccounts⟩ := accounts_run add P C settings auth registry s calls
  have hcleans : ∀ t ∈ entries add P C settings auth registry s calls, t.call.Clean :=
    fun t ht => hclean t.call (Run.call_mem ht)
  rw [← length_entries add P C settings auth registry s calls] at hfew
  obtain ⟨hdecisions, hactions, happends⟩ := haccounts.totals hfew
  rw [happends, hdecisions, hactions, haccounts.one hC hcleans, Nat.add_comm]

end MeteredCall

/-! ## A run -/

/-- The in-memory ledger answers every call. -/
theorem LedgerClient.responds : LedgerClient.backend.Responds := by
  constructor
  · intro event L
    show ∃ answer s', LedgerClient.append event L = (.ok answer, s')
    unfold LedgerClient.append
    split
    · exact ⟨_, _, rfl⟩
    · exact ⟨_, _, rfl⟩
  · intro event_id L
    exact ⟨_, _, rfl⟩

namespace Recorded

/-- An escalated decision, and the approval of its gate. -/
def metered_calls : List MeteredCall :=
  [⟨recorded_call, 3⟩, ⟨.approve_gate resolution_draws resolution_request, 0⟩]

end Recorded

namespace MeteredCall

open Metered

theorem gate_actions_counted_approved :
    (final (· + ·) Recorded.platform LedgerClient.backend (Recorded.settings "parallel")
          Recorded.open_access Recorded.escalating_registry LedgerClient.init
          Recorded.metered_calls).metrics.get_counter
        "human_gate_action_total" (some (label "action" "approve")) = 1
      ∧ (final (· + ·) Recorded.platform LedgerClient.backend (Recorded.settings "parallel")
          Recorded.open_access Recorded.escalating_registry LedgerClient.init
          Recorded.metered_calls).metrics.get_counter
        "human_gate_action_total" (some (label "action" "reject")) = 0 := by
  have hcounted := gate_actions_counted (· + ·) Recorded.platform LedgerClient.backend
    (Recorded.settings "parallel") Recorded.open_access Recorded.escalating_registry
    LedgerClient.init Recorded.metered_calls (by decide +kernel)
  rw [hcounted.1, hcounted.2]
  exact ⟨by decide +kernel, by decide +kernel⟩

theorem metered_calls_clean : ∀ c ∈ Recorded.metered_calls, c.Clean := by
  intro c hc
  rcases List.mem_cons.mp hc with rfl | hc
  · exact ⟨rfl, rfl, rfl⟩
  · rw [List.mem_singleton.mp hc]
    trivial

theorem appends_counted_approved :
    counter_total "ledger_append_total" (final (· + ·) Recorded.platform LedgerClient.backend
        (Recorded.settings "parallel") Recorded.open_access Recorded.escalating_registry
        LedgerClient.init Recorded.metered_calls).metrics
      = counter_total "decision_evaluate_total" (final (· + ·) Recorded.platform
          LedgerClient.backend (Recorded.settings "parallel") Recorded.open_access
          Recorded.escalating_registry LedgerClient.init Recorded.metered_calls).metrics
        + counter_total "human_gate_action_total" (final (· + ·) Recorded.platform
          LedgerClient.backend (Recorded.settings "parallel") Recorded.open_access
          Recorded.escalating_registry LedgerClient.init Recorded.metered_calls).metrics := by
  have hcounted := appends_counted (· + ·) Recorded.platform LedgerClient.responds
    (Recorded.settings "parallel") Recorded.open_access Recorded.escalating_registry
    LedgerClient.init Recorded.metered_calls metered_calls_clean (by decide)
  have hon : (Recorded.settings "parallel").ledger_enabled = true := rfl
  rw [hon, if_pos rfl] at hcounted
  exact hcounted

end MeteredCall

end DecisionRuntime
