/-
Committing evaluations to the in-memory ledger.

An event id is the hash of a name, and a name is a trace id and a step key. As far
as the hash does not collide on the names in use, the ledger is a deduplicating
log whose identifiers are the pairs (trace, step), and the laws of such a log are
the laws of `commit`: a first commit appends the events of the trace, a second one
appends nothing, and one after an interrupted commit completes it.

No function with finitely many values is injective, so nothing is assumed about
`uuid5` but that it is injective on a set `names`, and every statement says which
names have to be in it.
-/
import DecisionRuntime.History
import DecisionRuntime.PureEvaluate
import DecisionRuntime.RuntimeLedgerAdapter
import DecisionRuntime.Stores

set_option autoImplicit false

namespace DecisionRuntime

open RuntimeLedgerAdapter

/-! ## Evaluations and their traces -/

/-- An evaluation that returned: what it drew and was given, what the pure core computed of it,
and what the engine attached before the commit. -/
structure Evaluation (P : Platform) where
  draws : Draws
  signal : Signal
  flow : DecisionFlow
  core : DecisionResult
  evaluated_nodes : List PyDict
  computed : PureEvaluate.pure_evaluate P draws signal flow = .ok (core, evaluated_nodes)
  human_gate : Option HumanGateRequest
  execution_id : Option String
  completed_at : Datetime

namespace Evaluation

variable {P : Platform} (ev : Evaluation P)

/-- The result that is committed. -/
def result : DecisionResult :=
  { ev.core with human_gate := ev.human_gate, execution_id := ev.execution_id }

/-- The trace that is committed. -/
def trace : DecisionTrace :=
  (create_trace ev.completed_at ev.signal ev.flow ev.result ev.evaluated_nodes).1

/-- The evaluated nodes are records of the engine, with distinct ids when the flow has. -/
theorem records : ∃ rs : List NodeRecord, ev.evaluated_nodes = rs.map NodeRecord.toDict
    ∧ ((ev.flow.nodes.map (·.id)).Nodup → (rs.map (·.node_id)).Nodup) := by
  obtain ⟨outcomes, sel, version, brs, houtcomes, hsel, -, hbrs, -, hnodes⟩ :=
    PureEvaluate.pure_evaluate_eq_ok.mp ev.computed
  exact ⟨_, hnodes, fun hflow => PureEvaluate.nodup_node_ids hflow houtcomes hsel hbrs⟩

/-- The step keys of an evaluation, family by family. -/
theorem step_keys_eq {rs : List NodeRecord} (h : ev.evaluated_nodes = rs.map NodeRecord.toDict) :
    step_keys ev.trace ev.result = .signal ev.signal.id :: (rs.map (fun r => .node r.node_id)
      ++ (ev.human_gate.toList.map (fun gate => .human gate.id) ++ [.outcome ev.result.id])) := by
  have hnodes : ev.trace.evaluated_nodes = rs.map NodeRecord.toDict := h
  have hmap : ∀ rs : List NodeRecord, (rs.map NodeRecord.toDict).filterMap node_key
      = rs.map (fun r => .node r.node_id) := by
    intro rs
    induction rs with
    | nil => rfl
    | cons r rs ih =>
        rw [List.map_cons, List.filterMap_cons, List.map_cons, ← ih]
        rfl
  rw [step_keys, hnodes, hmap, List.append_assoc, List.append_assoc]
  rfl

/-- Of a flow with distinct node ids, no two events have one step key. -/
theorem nodup_step_keys (hflow : (ev.flow.nodes.map (·.id)).Nodup) :
    (step_keys ev.trace ev.result).Nodup := by
  obtain ⟨rs, hrs, hnd⟩ := ev.records
  have hnode : (rs.map (fun r => StepKey.node r.node_id)).Nodup := by
    have hcomp : rs.map (fun r => StepKey.node r.node_id)
        = (rs.map (·.node_id)).map StepKey.node := by
      rw [List.map_map]
      rfl
    rw [hcomp]
    refine (hnd hflow).map ?_
    intro a b hab
    simpa using hab
  have hgate : (ev.human_gate.toList.map (fun gate => StepKey.human gate.id)).Nodup := by
    rcases ev.human_gate with _ | gate
    · simp
    · simp
  -- keys of different families differ
  rw [ev.step_keys_eq hrs, List.nodup_cons, List.nodup_append, List.nodup_append]
  refine ⟨by simp, hnode, ⟨hgate, by simp, ?_⟩, ?_⟩
  · simp only [List.mem_map, List.mem_singleton]
    rintro a ⟨gate, -, rfl⟩ b rfl
    simp
  · simp only [List.mem_append, List.mem_map, List.mem_singleton]
    rintro a ⟨r, -, rfl⟩ b (⟨gate, -, rfl⟩ | rfl)
    · simp
    · simp

/-- The events of an evaluation. -/
def events (schema_version : String) (rs : List NodeRecord) : List LedgerEvent :=
  [signal_event P schema_version ev.trace ev.result ev.signal.id]
    ++ rs.map (record_event P schema_version ev.trace ev.result)
    ++ ev.human_gate.toList.map (gate_event P schema_version ev.trace ev.result)
    ++ [outcome_event P schema_version ev.trace ev.result]

theorem build_events_eq (schema_version : String) {rs : List NodeRecord}
    (h : ev.evaluated_nodes = rs.map NodeRecord.toDict) :
    build_events P schema_version ev.trace ev.result = .ok (ev.events schema_version rs) :=
  build_events_records h

end Evaluation

/-! ## The appends of a commit, on the in-memory client -/

section Client

variable {events : List LedgerEvent} {L : LedgerClient}

/-- Appending a batch answers as the deduplicating log does. -/
theorem append_all_run (events : List LedgerEvent) (L : LedgerClient) :
    ∃ answers L', append_all LedgerClient.backend events L = (.ok answers, L')
      ∧ answers.map (·.status) = (L.log.answers events).map LedgerClient.answer_of
      ∧ answers.map (·.event_id) = events.map LedgerEvent.event_id
      ∧ L'.log = L.log.appendAll events := by
  induction events generalizing L with
  | nil => exact ⟨[], L, rfl, rfl, rfl, rfl⟩
  | cons event events ih =>
      obtain ⟨L₁, happ, hlog₁, -⟩ := LedgerClient.append_run event L
      obtain ⟨answers, L₂, hall, hstatus, hids, hlog₂⟩ := ih (L := L₁)
      refine ⟨_, L₂, append_all_cons LedgerClient.backend happ hall, ?_, ?_, ?_⟩
      · rw [List.map_cons, hstatus, DedupLog.answers, List.map_cons, hlog₁]
      · rw [List.map_cons, hids, List.map_cons]
      · rw [hlog₂, hlog₁, DedupLog.appendAll_cons]

/-- A batch whose ids are all there is answered `DUPLICATE` throughout, and the client is the
one before. -/
theorem append_all_of_subset (h : ∀ e ∈ events, e.event_id ∈ L.log.keys) :
    ∃ answers, append_all LedgerClient.backend events L = (.ok answers, L)
      ∧ ∀ a ∈ answers, a.status = .duplicate := by
  induction events with
  | nil => exact ⟨[], rfl, by simp⟩
  | cons event events ih =>
      have hmem : event.event_id ∈ L.log.keys := h event (by simp)
      obtain ⟨L₁, happ, -, hsame⟩ := LedgerClient.append_run event L
      rw [hsame hmem] at happ
      obtain ⟨answers, hall, hdup⟩ := ih (fun e he => h e (List.mem_cons_of_mem _ he))
      refine ⟨_, append_all_cons LedgerClient.backend happ hall, ?_⟩
      intro a ha
      rcases List.mem_cons.mp ha with rfl | ha
      · simp [LedgerClient.answer_of, hmem]
      · exact hdup a ha

/-- Clients with the same log hold the same events. -/
theorem events_of_log {L M : LedgerClient} (h : L.log = M.log) : L.events = M.events :=
  congrArg DedupLog.entries h

/-- The events of a trace are those of the log with its id. -/
theorem events_by_trace_id (L : LedgerClient) (trace_id : UUID) :
    LedgerClient.get_events_by_trace_id trace_id.str L
      = (.ok (L.events.filter (fun e => e.trace_id = trace_id)), L) := by
  rw [LedgerClient.get_events_by_trace_id, L.by_trace_id_eq]
  simp only [UUID.str_inj]

end Client

/-! ## The calls that write to the ledger -/

/-- A member of the left list is related to a member of the right one. -/
theorem exists_of_forall₂ {α β : Type} {R : α → β → Prop} {as : List α} {bs : List β}
    (h : List.Forall₂ R as bs) {a : α} (ha : a ∈ as) : ∃ b ∈ bs, R a b := by
  induction h with
  | nil => simp at ha
  | cons hab _ ih =>
      rcases List.mem_cons.mp ha with rfl | ha
      · exact ⟨_, by simp, hab⟩
      · obtain ⟨b, hb, hR⟩ := ih ha
        exact ⟨b, List.mem_cons_of_mem _ hb, hR⟩

/-- A use of the adapter. `interrupted_commit` is a commit whose client raised after `stop`
appends. -/
inductive AdapterCall
  | commit (trace : DecisionTrace) (result : DecisionResult)
  | interrupted_commit (trace : DecisionTrace) (result : DecisionResult) (stop : ℕ)
  | append_human_gate_event (gate_request : HumanGateRequest) (result : DecisionResult)
      (actor_id action : String) (occurred_at : Datetime) (actor_roles : Option (List String))
      (comment : Option String)

namespace AdapterCall

/-- The events the call may append. -/
def events (P : Platform) (schema_version : String) :
    AdapterCall → Except PyError (List LedgerEvent)
  | .commit trace result => build_events P schema_version trace result
  | .interrupted_commit trace result stop => do
    let events ← build_events P schema_version trace result
    return events.take stop
  | .append_human_gate_event gate_request result actor_id action occurred_at actor_roles comment =>
    .ok [human_action_event P schema_version gate_request result actor_id action occurred_at
      actor_roles comment]

/-- The names the call hashes. -/
def names : AdapterCall → List String
  | .commit trace result | .interrupted_commit trace result _ =>
    (step_keys trace result).map (fun key => event_name trace.id key.text)
  | .append_human_gate_event gate_request result _ action _ _ _ =>
    [event_name (gate_request.trace_id.getD result.trace_id)
      (StepKey.human_action gate_request.id action).text]

/-- The call is about a human action. -/
def IsHumanAction : AdapterCall → Prop
  | .append_human_gate_event _ _ _ _ _ _ _ => True
  | _ => False

/-- The call, on the in-memory ledger. -/
def run (P : Platform) (schema_version : String) : AdapterCall → Exec PyError LedgerClient Unit
  | .commit trace result => do
    let _ ← RuntimeLedgerAdapter.commit LedgerClient.backend P schema_version trace result
    return ()
  | .interrupted_commit trace result stop => do
    let events ← Exec.lift (build_events P schema_version trace result)
    let _ ← commit_loop LedgerClient.backend (events.take stop) {}
    Exec.raise (.external "append failed")
  | .append_human_gate_event gate_request result actor_id action occurred_at actor_roles
      comment => do
    let _ ← RuntimeLedgerAdapter.append_human_gate_event LedgerClient.backend P schema_version
      gate_request result actor_id action occurred_at actor_roles comment
    return ()

variable {P : Platform} (schema_version : String)

/-- Every call is the append of its events, or of none when they cannot be built. -/
theorem run_log (c : AdapterCall) (L : LedgerClient) :
    (∃ e, c.events P schema_version = .error e ∧ (c.run P schema_version L).2 = L) ∨
    ∃ events, c.events P schema_version = .ok events
      ∧ (c.run P schema_version L).2.log = L.log.appendAll events := by
  rcases c with ⟨trace, result⟩ | ⟨trace, result, stop⟩ |
    ⟨gate, result, actor, action, t, roles, note⟩
  · rcases hb : build_events P schema_version trace result with e | events
    · left
      refine ⟨e, hb, ?_⟩
      rw [run, RuntimeLedgerAdapter.commit, hb]
      rfl
    · right
      obtain ⟨answers, L', hall, -, -, hlog⟩ := append_all_run events L
      refine ⟨events, hb, ?_⟩
      have hc : RuntimeLedgerAdapter.commit LedgerClient.backend P schema_version trace result L
          = (.ok (totals {} events answers).result, L') := by
        rw [commit_run _ hb, hall]
        rfl
      rw [run, Exec.run_bind_ok _ hc, ← hlog]
      rfl
  · -- a commit that breaks off has appended a part of its events
    rcases hb : build_events P schema_version trace result with e | events
    · left
      refine ⟨e, ?_, ?_⟩
      · rw [AdapterCall.events, hb]
        rfl
      · rw [run, hb]
        rfl
    · right
      obtain ⟨answers, L', hall, -, -, hlog⟩ := append_all_run (events.take stop) L
      refine ⟨events.take stop, ?_, ?_⟩
      · rw [AdapterCall.events, hb]
        rfl
      · have hc : commit_loop LedgerClient.backend (events.take stop) {} L
            = (.ok (totals {} (events.take stop) answers), L') := by
          rw [commit_loop_eq, Exec.run_map, hall]
          rfl
        rw [run, hb, Exec.run_lift_bind_ok, Exec.run_bind_ok _ hc, ← hlog]
        rfl
  · right
    obtain ⟨L', happ, hlog, -⟩ := LedgerClient.append_run
      (human_action_event P schema_version gate result actor action t roles note) L
    refine ⟨_, rfl, ?_⟩
    have hc : RuntimeLedgerAdapter.append_human_gate_event LedgerClient.backend P schema_version
        gate result actor action t roles note L = _ := happ
    rw [run, Exec.run_bind_ok _ hc]
    exact hlog

variable {schema_version}

/-- An event of a call is the hash of one of its names, and of a human action only if the call
is one. -/
theorem events_hash {c : AdapterCall} {events : List LedgerEvent}
    (h : c.events P schema_version = .ok events) {e : LedgerEvent} (he : e ∈ events) :
    ∃ key, Hashes P e.trace_id e key ∧ event_name e.trace_id key.text ∈ c.names
      ∧ (c.IsHumanAction → ∃ gate_id action, key = .human_action gate_id action) := by
  have hbuild : ∀ {trace : DecisionTrace} {result : DecisionResult} {es : List LedgerEvent},
      build_events P schema_version trace result = .ok es → e ∈ es →
      ∃ key, Hashes P e.trace_id e key ∧ event_name e.trace_id key.text
        ∈ (step_keys trace result).map (fun key => event_name trace.id key.text) := by
    intro trace result es hes hmem
    obtain ⟨key, hkey, htrace, hid⟩ := exists_of_forall₂ (build_events_hashes hes) hmem
    refine ⟨key, ⟨rfl, ?_⟩, ?_⟩
    · rw [hid, htrace]
    · rw [htrace]
      exact List.mem_map_of_mem hkey
  rcases c with ⟨trace, result⟩ | ⟨trace, result, stop⟩ |
    ⟨gate, result, actor, action, t, roles, note⟩
  · obtain ⟨key, hhash, hname⟩ := hbuild h he
    exact ⟨key, hhash, hname, fun hf => hf.elim⟩
  · rw [AdapterCall.events, except_bind_eq_ok] at h
    obtain ⟨es, hes, h⟩ := h
    have htake := Except.ok.inj h
    rw [← htake] at he
    obtain ⟨key, hhash, hname⟩ := hbuild hes (List.mem_of_mem_take he)
    exact ⟨key, hhash, hname, fun hf => hf.elim⟩
  · have hone := Except.ok.inj h
    rw [← hone, List.mem_singleton] at he
    subst he
    exact ⟨.human_action gate.id action, ⟨rfl, rfl⟩, List.mem_singleton_self _,
      fun _ => ⟨_, _, rfl⟩⟩

end AdapterCall

/-! ## The laws of `commit` -/

section Laws

variable {P : Platform} {schema_version : String} {names : Set String}

/-- Every event of the ledger is the hash of a name in use. -/
def Named (P : Platform) (names : Set String) (L : LedgerClient) : Prop :=
  ∀ e ∈ L.events, ∃ key, Hashes P e.trace_id e key ∧ event_name e.trace_id key.text ∈ names

theorem named_init : Named P names LedgerClient.init := by
  intro e he
  simp [LedgerClient.init] at he

theorem preserves_named {c : AdapterCall} (hc : ∀ n ∈ c.names, n ∈ names) :
    Exec.Preserves (Named P names) (c.run P schema_version) := by
  intro L hL e he
  rcases c.run_log schema_version L with ⟨_, -, hrun⟩ | ⟨events, hevents, hlog⟩
  · rw [hrun] at he
    exact hL e he
  · have hmem : e ∈ (c.run P schema_version L).2.log.entries := he
    rw [hlog] at hmem
    rcases DedupLog.mem_entries_appendAll hmem with hmem | hmem
    · exact hL e hmem
    · obtain ⟨key, hhash, hname, -⟩ := AdapterCall.events_hash hevents hmem
      exact ⟨key, hhash, hc _ hname⟩

/-- Events with one id are the same step of the same trace. -/
theorem hashes_inj (hinj : Set.InjOn (P.uuid5 (LEDGER_NS P)) names) {e e' : LedgerEvent}
    {k k' : StepKey} (he : Hashes P e.trace_id e k) (hn : event_name e.trace_id k.text ∈ names)
    (he' : Hashes P e'.trace_id e' k') (hn' : event_name e'.trace_id k'.text ∈ names)
    (hid : e.event_id = e'.event_id) : e.trace_id = e'.trace_id ∧ k = k' := by
  have hhash : P.uuid5 (LEDGER_NS P) (event_name e.trace_id k.text)
      = P.uuid5 (LEDGER_NS P) (event_name e'.trace_id k'.text) := by
    have h := hid
    rw [he.2, he'.2] at h
    exact h
  obtain ⟨htrace, htext⟩ := event_name_inj (hinj hn hn' hhash)
  exact ⟨htrace, StepKey.text_injective htext⟩

/-- What holds of the commits of one evaluation, whose events are `events`, to the ledger `L`. -/
structure CommitLaws (P : Platform) (schema_version : String) (names : Set String)
    (L : LedgerClient) (ev : Evaluation P) (events : List LedgerEvent) : Prop where
  /-- They are what the adapter builds. -/
  built : build_events P schema_version ev.trace ev.result = .ok events
  /-- The signal, then the evaluated nodes in order, then the gates, then the outcome. -/
  order : ∃ node_events, List.Forall₂
      (fun d e => node_event P schema_version ev.trace ev.result d = .ok e)
      ev.evaluated_nodes node_events
    ∧ events = [signal_event P schema_version ev.trace ev.result ev.signal.id] ++ node_events
      ++ ev.human_gate.toList.map (gate_event P schema_version ev.trace ev.result)
      ++ [outcome_event P schema_version ev.trace ev.result]
  /-- Their ids are distinct. -/
  distinct : (events.map (·.event_id)).Nodup
  /-- No other trace and no human action has one of the ids. -/
  apart : ∀ (c : AdapterCall) (es : List LedgerEvent), (∀ n ∈ c.names, n ∈ names) →
    c.events P schema_version = .ok es → ∀ e ∈ es,
    e.trace_id ≠ ev.trace.id ∨ c.IsHumanAction → e.event_id ∉ events.map (·.event_id)
  /-- A first commit is accepted, and the events of the trace are exactly these. -/
  first : ∃ r L₁, commit LedgerClient.backend P schema_version ev.trace ev.result L = (.ok r, L₁)
    ∧ r.status = .accepted ∧ L₁.events = L.events ++ events
    ∧ LedgerClient.get_events_by_trace_id ev.trace.id.str L₁ = (.ok events, L₁)
  /-- A second commit is a duplicate, and changes nothing. -/
  second : ∀ r L₁, commit LedgerClient.backend P schema_version ev.trace ev.result L = (.ok r, L₁) →
    ∃ r', commit LedgerClient.backend P schema_version ev.trace ev.result L₁ = (.ok r', L₁)
      ∧ r'.status = .duplicate
  /-- A commit after one that stopped anywhere leaves what one uninterrupted commit leaves. -/
  resumed : ∀ stop, ∃ r L₂,
    commit LedgerClient.backend P schema_version ev.trace ev.result
      ((AdapterCall.interrupted_commit ev.trace ev.result stop).run P schema_version L).2
        = (.ok r, L₂)
    ∧ L₂.events = L.events ++ events
    ∧ ∀ t, (LedgerClient.get_events_by_trace_id t L₂).1
      = (LedgerClient.get_events_by_trace_id t
          (commit LedgerClient.backend P schema_version ev.trace ev.result L).2).1

/-- A commit appends the batch of its events. -/
theorem commit_log {trace : DecisionTrace} {result : DecisionResult} {events : List LedgerEvent}
    (h : build_events P schema_version trace result = .ok events) (L : LedgerClient) :
    ∃ answers L₁, commit LedgerClient.backend P schema_version trace result L
        = (.ok (totals {} events answers).result, L₁)
      ∧ answers.length = events.length
      ∧ answers.map (·.status) = (L.log.answers events).map LedgerClient.answer_of
      ∧ L₁.log = L.log.appendAll events := by
  obtain ⟨answers, L₁, hall, hstatus, -, hlog⟩ := append_all_run events L
  refine ⟨answers, L₁, ?_, length_append_all _ hall, hstatus, hlog⟩
  rw [commit_run _ h, hall]
  rfl

section Evaluated

variable {ev : Evaluation P} {events : List LedgerEvent} {L : LedgerClient}

/-- The events of an evaluation are hashes of its step keys, under its trace id. -/
theorem events_named (hbuilt : build_events P schema_version ev.trace ev.result = .ok events)
    (hev : ∀ n ∈ (AdapterCall.commit ev.trace ev.result).names, n ∈ names)
    {e : LedgerEvent} (he : e ∈ events) : e.trace_id = ev.trace.id ∧
      ∃ key ∈ step_keys ev.trace ev.result, Hashes P e.trace_id e key
        ∧ event_name e.trace_id key.text ∈ names := by
  obtain ⟨key, hkey, htrace, hid⟩ := exists_of_forall₂ (build_events_hashes hbuilt) he
  refine ⟨htrace, key, hkey, ⟨rfl, ?_⟩, ?_⟩
  · rw [hid, htrace]
  · rw [htrace]
    exact hev _ (List.mem_map_of_mem hkey)

theorem distinct_ids (hflow : (ev.flow.nodes.map (·.id)).Nodup)
    (hinj : Set.InjOn (P.uuid5 (LEDGER_NS P)) names)
    (hbuilt : build_events P schema_version ev.trace ev.result = .ok events)
    (hev : ∀ n ∈ (AdapterCall.commit ev.trace ev.result).names, n ∈ names) :
    (events.map (·.event_id)).Nodup := by
  rw [build_events_ids hbuilt]
  refine List.Nodup.map_on ?_ (ev.nodup_step_keys hflow)
  intro k hk k' hk' hid
  have hname := hinj (hev _ (List.mem_map_of_mem hk)) (hev _ (List.mem_map_of_mem hk')) hid
  exact StepKey.text_injective (event_name_inj hname).2

/-- Of a trace the ledger does not know, it knows none of the ids. -/
theorem fresh_ids (hinj : Set.InjOn (P.uuid5 (LEDGER_NS P)) names)
    (hbuilt : build_events P schema_version ev.trace ev.result = .ok events)
    (hev : ∀ n ∈ (AdapterCall.commit ev.trace ev.result).names, n ∈ names)
    (hnamed : Named P names L) (hnew : ∀ e ∈ L.events, e.trace_id ≠ ev.trace.id) :
    ∀ e ∈ events, e.event_id ∉ L.log.keys := by
  intro e he hmem
  obtain ⟨e', he', hid⟩ := List.mem_map.mp hmem
  obtain ⟨htrace, k, -, hh, hn⟩ := events_named hbuilt hev he
  obtain ⟨k', hh', hn'⟩ := hnamed e' he'
  have hsame := (hashes_inj hinj hh' hn' hh hn hid).1
  exact hnew e' he' (hsame.trans htrace)

theorem apart_ids (hinj : Set.InjOn (P.uuid5 (LEDGER_NS P)) names)
    (hbuilt : build_events P schema_version ev.trace ev.result = .ok events)
    (hev : ∀ n ∈ (AdapterCall.commit ev.trace ev.result).names, n ∈ names)
    {c : AdapterCall} {es : List LedgerEvent} (hc : ∀ n ∈ c.names, n ∈ names)
    (hes : c.events P schema_version = .ok es) {e : LedgerEvent} (he : e ∈ es)
    (hother : e.trace_id ≠ ev.trace.id ∨ c.IsHumanAction) :
    e.event_id ∉ events.map (·.event_id) := by
  intro hmem
  obtain ⟨e', he', hid⟩ := List.mem_map.mp hmem
  obtain ⟨htrace, k', hk', hh', hn'⟩ := events_named hbuilt hev he'
  obtain ⟨k, hh, hn, hhuman⟩ := AdapterCall.events_hash hes he
  obtain ⟨hsame, hkey⟩ := hashes_inj hinj hh' hn' hh (hc _ hn) hid
  rcases hother with hne | hact
  · exact hne (hsame.symm.trans htrace)
  · obtain ⟨gate_id, action, hk⟩ := hhuman hact
    exact step_keys_not_human_action hk' gate_id action (hkey.trans hk)

theorem first_commit (hbuilt : build_events P schema_version ev.trace ev.result = .ok events)
    (hdistinct : (events.map (·.event_id)).Nodup) (hfresh : ∀ e ∈ events, e.event_id ∉ L.log.keys)
    (htrace : ∀ e ∈ events, e.trace_id = ev.trace.id)
    (hnew : ∀ e ∈ L.events, e.trace_id ≠ ev.trace.id) :
    ∃ r L₁, commit LedgerClient.backend P schema_version ev.trace ev.result L = (.ok r, L₁)
      ∧ r.status = .accepted ∧ L₁.events = L.events ++ events
      ∧ LedgerClient.get_events_by_trace_id ev.trace.id.str L₁ = (.ok events, L₁) := by
  obtain ⟨answers, L₁, hcommit, hlen, hstatus, hlog⟩ := commit_log hbuilt L
  obtain ⟨hentries, hanswers⟩ := DedupLog.appendAll_fresh hdistinct hfresh
  have hevents : L₁.events = L.events ++ events := by
    have h : L₁.log.entries = L.log.entries ++ events := by rw [hlog, hentries]
    exact h
  have haccepted : ∀ a ∈ answers, a.status = .accepted := by
    intro a ha
    have hmem : a.status ∈ answers.map (·.status) := List.mem_map_of_mem ha
    rw [hstatus, hanswers, List.map_replicate] at hmem
    exact List.eq_of_mem_replicate hmem
  refine ⟨_, L₁, hcommit, (accepted_iff hlen).mpr haccepted, hevents, ?_⟩
  have hold : L.events.filter (fun e => e.trace_id = ev.trace.id) = [] := by
    rw [List.filter_eq_nil_iff]
    intro e he
    simp [hnew e he]
  have hall : events.filter (fun e => e.trace_id = ev.trace.id) = events := by
    rw [List.filter_eq_self]
    intro e he
    simp [htrace e he]
  rw [events_by_trace_id, hevents, List.filter_append, hold, hall, List.nil_append]

theorem second_commit (hbuilt : build_events P schema_version ev.trace ev.result = .ok events)
    (hne : events ≠ []) {r : LedgerCommitResult} {L₁ : LedgerClient}
    (hfirst : commit LedgerClient.backend P schema_version ev.trace ev.result L = (.ok r, L₁)) :
    ∃ r', commit LedgerClient.backend P schema_version ev.trace ev.result L₁ = (.ok r', L₁)
      ∧ r'.status = .duplicate := by
  obtain ⟨answers, L', hcommit, -, -, hlog⟩ := commit_log hbuilt L
  have hL : L' = L₁ := congrArg Prod.snd (hcommit.symm.trans hfirst)
  subst hL
  have hmem : ∀ e ∈ events, e.event_id ∈ L'.log.keys := by
    intro e he
    rw [hlog, DedupLog.mem_keys_appendAll]
    exact Or.inr (List.mem_map_of_mem he)
  obtain ⟨again, hall, hdup⟩ := append_all_of_subset hmem
  have hlen := length_append_all _ hall
  have hagain : again ≠ [] := by
    rintro rfl
    exact hne (List.length_eq_zero_iff.mp hlen.symm)
  refine ⟨_, ?_, (duplicate_iff hlen).mpr ⟨hagain, hdup⟩⟩
  rw [commit_run _ hbuilt, hall]
  rfl

theorem resumed_commit (hbuilt : build_events P schema_version ev.trace ev.result = .ok events)
    (stop : ℕ) : ∃ r L₂, commit LedgerClient.backend P schema_version ev.trace ev.result
        ((AdapterCall.interrupted_commit ev.trace ev.result stop).run P schema_version L).2
          = (.ok r, L₂)
      ∧ L₂.log = L.log.appendAll events := by
  have hstop : (AdapterCall.interrupted_commit ev.trace ev.result stop).events P schema_version
      = .ok (events.take stop) := by
    rw [AdapterCall.events, hbuilt]
    rfl
  rcases (AdapterCall.interrupted_commit ev.trace ev.result stop).run_log
      schema_version L with ⟨e, he, -⟩ | ⟨done, hdone, hlogs⟩
  · rw [hstop] at he
    cases he
  · obtain rfl : events.take stop = done := Except.ok.inj (hstop.symm.trans hdone)
    obtain ⟨answers, L₂, hcommit, -, -, hlog⟩ := commit_log hbuilt
      ((AdapterCall.interrupted_commit ev.trace ev.result stop).run P schema_version L).2
    refine ⟨_, L₂, hcommit, ?_⟩
    have hresume := DedupLog.appendAll_resume L.log (events.take stop) (events.drop stop)
    rw [List.take_append_drop] at hresume
    rw [hlog, hlogs, hresume]

end Evaluated

/-- **Commit is faithful and idempotent**, on any ledger the adapter has written: of a flow with
distinct node ids, for every evaluation whose trace id is new, as far as `uuid5` does not collide
on the names in use. -/
theorem commit_faithful (cs : List AdapterCall) (ev : Evaluation P)
    (hflow : (ev.flow.nodes.map (·.id)).Nodup)
    (hinj : Set.InjOn (P.uuid5 (LEDGER_NS P)) names)
    (hcs : ∀ c ∈ cs, ∀ n ∈ c.names, n ∈ names)
    (hev : ∀ n ∈ (AdapterCall.commit ev.trace ev.result).names, n ∈ names)
    (hnew : ∀ e ∈ (Run.final (AdapterCall.run P schema_version) LedgerClient.init cs).events,
      e.trace_id ≠ ev.trace.id) :
    ∃ events, CommitLaws P schema_version names
      (Run.final (AdapterCall.run P schema_version) LedgerClient.init cs) ev events := by
  obtain ⟨rs, hrs, -⟩ := ev.records
  have hbuilt := ev.build_events_eq schema_version hrs
  have hnamed : Named P names (Run.final (AdapterCall.run P schema_version) LedgerClient.init cs) :=
    Run.invariant named_init (fun c hc => preserves_named (hcs c hc))
  generalize Run.final (AdapterCall.run P schema_version) LedgerClient.init cs = L at hnew hnamed ⊢
  have htrace : ∀ e ∈ ev.events schema_version rs, e.trace_id = ev.trace.id := fun e he =>
    (events_named hbuilt hev he).1
  have hdistinct := distinct_ids hflow hinj hbuilt hev
  have hfresh := fresh_ids hinj hbuilt hev hnamed hnew
  obtain ⟨r, L₁, hcommit, haccepted, hevents, htraced⟩ :=
    first_commit hbuilt hdistinct hfresh htrace hnew
  refine ⟨ev.events schema_version rs, hbuilt, ?_, hdistinct, ?_, ?_, ?_, ?_⟩
  · refine ⟨rs.map (record_event P schema_version ev.trace ev.result), ?_, rfl⟩
    rw [hrs, List.forall₂_map_left_iff, List.forall₂_map_right_iff, List.forall₂_same]
    intro r hr
    rfl
  · intro c es hc hes e he hother
    exact apart_ids hinj hbuilt hev hc hes he hother
  · exact ⟨r, L₁, hcommit, haccepted, hevents, htraced⟩
  · intro r' L' hfirst
    exact second_commit hbuilt (by simp [Evaluation.events]) hfirst
  · -- after a commit that broke off, the second one leaves what one commit leaves
    intro stop
    obtain ⟨r₂, L₂, hcommit₂, hlog₂⟩ := resumed_commit (L := L) hbuilt stop
    obtain ⟨answers, L', hcommit', -, -, hlog'⟩ := commit_log hbuilt L
    have hL : L' = L₁ := congrArg Prod.snd (hcommit'.symm.trans hcommit)
    have hsame : L₂.events = L₁.events := by
      rw [← hL]
      exact events_of_log (hlog₂.trans hlog'.symm)
    refine ⟨r₂, L₂, hcommit₂, hsame.trans hevents, ?_⟩
    intro t
    rw [hcommit, LedgerClient.get_events_by_trace_id, LedgerClient.get_events_by_trace_id,
      L₂.by_trace_id_eq, L₁.by_trace_id_eq, hsame]

end Laws

/-! ## A recorded run

Two evaluations of one flow and one signal, with the values the libraries return on the texts that
occur in them. -/

namespace Recorded

/-- `uuid5` on the recorded names. -/
def uuid5 (_ : UUID) (name : String) : UUID :=
  UUID.ofInt (([
    ("decision-runtime-core:ledger:v1", 0x1a32818ca38b56edaae89795cf927193),
    ("aaaaaaaa-aaaa-aaaa-aaaa-aaaaaaaaaaaa:signal:bbbbbbbb-bbbb-bbbb-bbbb-bbbbbbbbbbbb",
      0x8ce5a0656a59556e851a1e39921d76a0),
    ("aaaaaaaa-aaaa-aaaa-aaaa-aaaaaaaaaaaa:node:small_amount",
      0x612fea6513905046890b8691cf0c6b07),
    ("aaaaaaaa-aaaa-aaaa-aaaa-aaaaaaaaaaaa:node:manual",
      0xd886c8dbae235a0f9b02844a2c53d492),
    ("aaaaaaaa-aaaa-aaaa-aaaa-aaaaaaaaaaaa:node:amount_limit",
      0x4669393f8e705330a8e74f680466c687),
    ("aaaaaaaa-aaaa-aaaa-aaaa-aaaaaaaaaaaa:human:11111111-1111-1111-1111-111111111111",
      0xd4360417b0525abc92d75ce0a01ca08d),
    ("aaaaaaaa-aaaa-aaaa-aaaa-aaaaaaaaaaaa:outcome:cccccccc-cccc-cccc-cccc-cccccccccccc",
      0x058ae7d9bdb85fae8f7a04811901d75d),
    ("dddddddd-dddd-dddd-dddd-dddddddddddd:signal:bbbbbbbb-bbbb-bbbb-bbbb-bbbbbbbbbbbb",
      0xd1f5608136c9596c99e62b26ae31c559),
    ("dddddddd-dddd-dddd-dddd-dddddddddddd:node:small_amount",
      0x8525993df371589085f5b1e6dd367f10),
    ("dddddddd-dddd-dddd-dddd-dddddddddddd:outcome:eeeeeeee-eeee-eeee-eeee-eeeeeeeeeeee",
      0x5da833c6f0e75eb3a3ee492800740fa2),
    ("44444444-4444-4444-4444-444444444444:signal:bbbbbbbb-bbbb-bbbb-bbbb-bbbbbbbbbbbb",
      0x33637755a60f5512af22a35c4686e592),
    ("44444444-4444-4444-4444-444444444444:node:small_amount",
      0x8dfc6646a6075dbbaab9e7aa5a39bebe),
    ("44444444-4444-4444-4444-444444444444:outcome:55555555-5555-5555-5555-555555555555",
      0xab172610e1d958e58c62afea426ffe16)].lookup name).getD 0)

def platform : Platform where
  ast_parse text :=
    if text = "False" then .ok (.constant (.bool false)) else .error "invalid syntax"
  uuid5 := uuid5
  sha256_hexdigest _ := ""
  float _ := none
  repr text := "'" ++ text ++ "'"
  isalnum _ := false
  decimal _ := none

def signal : Signal where
  id := UUID.repeated 0xb
  name := "payment"
  type := "payment_request"
  confidence := Confidence.certain
  payload := [("amount", .int 20)]
  source := "shop"
  timestamp := ⟨0, some 0⟩
  idempotency_key := none

/-- The contract the nodes declare. -/
def contract : PyDict := [("contract_type", .str "payment"), ("contract_version", .str "1.0.0")]

/-- One decision node, and the fallback. -/
def flow (condition : Option String) : DecisionFlow where
  id := UUID.repeated 0xf
  flow_id := "payment"
  version := "1.0.0"
  entry_node_id := "small_amount"
  nodes :=
    [{ id := "small_amount", node_type := .decision, condition := condition,
       action := some [("type", .str "pay")], config := contract },
      { id := "manual", node_type := .fallback, config := contract }]

/-- What an evaluation under these ids draws. -/
def draws (trace_id decision_id : UUID) : Draws :=
  { trace_id := trace_id, decision_id := decision_id, now := ⟨10, some 0⟩ }

/-- An evaluation in which the decision node matches. -/
def matching (trace_id decision_id : UUID) : Evaluation platform where
  draws := draws trace_id decision_id
  signal := signal
  flow := flow none
  core := _
  evaluated_nodes := _
  computed := rfl
  human_gate := none
  execution_id := none
  completed_at := ⟨20, some 0⟩

/-- An evaluation in which it does not. -/
def falling_back (trace_id decision_id : UUID) : Evaluation platform where
  draws := draws trace_id decision_id
  signal := signal
  flow := flow (some "False")
  core := _
  evaluated_nodes := _
  computed := rfl
  human_gate := none
  execution_id := none
  completed_at := ⟨20, some 0⟩

def first : Evaluation platform := matching (UUID.repeated 0xa) (UUID.repeated 0xc)

def second : Evaluation platform := matching (UUID.repeated 0xd) (UUID.repeated 0xe)

/-- The ledger after a commit of the evaluation that stopped after `stop` appends. -/
def ledger (ev : Evaluation platform) (stop : ℕ) : LedgerClient :=
  ((AdapterCall.interrupted_commit ev.trace ev.result stop).run platform "1.0"
    LedgerClient.init).2

/-- The ledger after a commit of the evaluation. -/
def committed (ev : Evaluation platform) : LedgerClient :=
  (commit LedgerClient.backend platform "1.0" ev.trace ev.result LedgerClient.init).2

/-- The names the two commits hash. -/
def names : List String :=
  (AdapterCall.commit first.trace first.result).names
    ++ (AdapterCall.commit second.trace second.result).names

/-- The ids of the recorded names are distinct, so `uuid5` is injective on them. -/
theorem injOn_names : Set.InjOn (platform.uuid5 (LEDGER_NS platform)) {n | n ∈ names} := by
  have hnd : (names.map (uuid5 (LEDGER_NS platform))).Nodup := by decide +kernel
  intro m hm n hn h
  exact List.inj_on_of_nodup_map hnd hm hn h

end Recorded

theorem commit_faithful_recorded : ∃ events, CommitLaws Recorded.platform "1.0"
    {n | n ∈ Recorded.names} (Run.final (AdapterCall.run Recorded.platform "1.0")
      LedgerClient.init [.commit Recorded.first.trace Recorded.first.result])
    Recorded.second events := by
  refine commit_faithful _ Recorded.second (by decide) Recorded.injOn_names ?_ ?_
    (by decide +kernel)
  · intro c hc n hn
    rw [List.mem_singleton] at hc
    subst hc
    exact List.mem_append_left _ hn
  · intro n hn
    exact List.mem_append_right _ hn

end DecisionRuntime
