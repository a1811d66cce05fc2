/-
The ledger: the interface the runtime calls and the in-memory client of
`backend/app/integrations/ledger_client.py`.

`LedgerBackend` is the interface, over any state. A call may raise and may change
the state as it raises, so a backend ranges over the in-memory client, a database
and a client that answers `INVALID` or fails whenever it likes.

The in-memory client keeps the events four times over: a list, a set of ids, and
two dictionaries. The four views agreeing is part of the type, so `append` is
where the agreement is proved and no reader has to assume it. Forgetting the
indexes, the client is a `DedupLog` under `event_id`.
-/
import DecisionRuntime.DedupLog
import DecisionRuntime.Dict
import DecisionRuntime.Exec
import DecisionRuntime.Models

set_option autoImplicit false

namespace DecisionRuntime

/-- What the runtime calls on a ledger client. -/
structure LedgerBackend (σ : Type) where
  append : LedgerEvent → Exec PyError σ LedgerAppendResult
  get_by_event_id : UUID → Exec PyError σ (Option LedgerEvent)
  get_events_by_trace_id : String → Exec PyError σ (List LedgerEvent)

/-- `LedgerClient`: the events and the three indexes over them. -/
structure LedgerClient where
  events : List LedgerEvent
  seen_ids : List UUID
  by_event_id : Dict UUID LedgerEvent
  by_trace_id : Dict String (List LedgerEvent)
  nodup : (events.map LedgerEvent.event_id).Nodup
  seen_ids_eq : seen_ids = events.map LedgerEvent.event_id
  by_event_id_eq : ∀ u, by_event_id.get u = events.find? (fun e => e.event_id = u)
  by_trace_id_eq : ∀ t, (by_trace_id.get t).getD [] = events.filter (fun e => e.trace_id.str = t)

namespace LedgerClient

/-- A client that holds nothing. -/
def init : LedgerClient where
  events := []
  seen_ids := []
  by_event_id := Dict.empty
  by_trace_id := Dict.empty
  nodup := by simp
  seen_ids_eq := rfl
  by_event_id_eq _ := rfl
  by_trace_id_eq _ := rfl

/-- The client after an event with a new id: every view gains the event. -/
def push (L : LedgerClient) (event : LedgerEvent) (h : event.event_id ∉ L.seen_ids) :
    LedgerClient where
  events := L.events ++ [event]
  seen_ids := L.seen_ids ++ [event.event_id]
  by_event_id := L.by_event_id.set event.event_id event
  by_trace_id := L.by_trace_id.set event.trace_id.str
    ((L.by_trace_id.get event.trace_id.str).getD [] ++ [event])
  nodup := by
    rw [L.seen_ids_eq] at h
    rw [List.map_append, List.nodup_append]
    refine ⟨L.nodup, by simp, ?_⟩
    intro a ha b hb
    rw [List.map_singleton, List.mem_singleton] at hb
    rintro rfl
    exact h (hb ▸ ha)
  seen_ids_eq := by
    rw [L.seen_ids_eq, List.map_append]
    rfl
  by_event_id_eq u := by
    rw [Dict.get_set, List.find?_append, ← L.by_event_id_eq]
    by_cases hu : u = event.event_id
    · -- the id is new, so no earlier event answers the look-up
      have hnone : L.by_event_id.get u = none := by
        rw [L.by_event_id_eq, List.find?_eq_none]
        intro e he
        rw [decide_eq_true_eq, hu]
        intro heq
        exact h (L.seen_ids_eq ▸ heq ▸ List.mem_map_of_mem he)
      rw [if_pos hu, hnone]
      simp [hu]
    · rw [if_neg hu]
      rcases L.by_event_id.get u with _ | e
      · simp [Ne.symm hu]
      · rfl
  by_trace_id_eq t := by
    rw [Dict.get_set, List.filter_append, ← L.by_trace_id_eq t]
    by_cases ht : t = event.trace_id.str
    · rw [if_pos ht, ht]
      simp
    · rw [if_neg ht]
      simp [Ne.symm ht]

/-- `append`. -/
def append (event : LedgerEvent) : Exec PyError LedgerClient LedgerAppendResult := fun L =>
  if h : event.event_id ∈ L.seen_ids then
    (.ok { status := .duplicate, event_id := event.event_id }, L)
  else (.ok { status := .accepted, event_id := event.event_id }, L.push event h)

/-- `get_by_event_id`. -/
def get_by_event_id (event_id : UUID) : Exec PyError LedgerClient (Option LedgerEvent) := fun L =>
  (.ok (L.by_event_id.get event_id), L)

/-- `get_events_by_trace_id`. -/
def get_events_by_trace_id (trace_id : String) : Exec PyError LedgerClient (List LedgerEvent) :=
  fun L => (.ok ((L.by_trace_id.get trace_id).getD []), L)

/-- `get_events`. -/
def get_events : Exec PyError LedgerClient (List LedgerEvent) := fun L => (.ok L.events, L)

/-- The in-memory client as a ledger. -/
def backend : LedgerBackend LedgerClient where
  append := append
  get_by_event_id := get_by_event_id
  get_events_by_trace_id := get_events_by_trace_id

/-! ## The client is a deduplicating log -/

/-- The events, as a log under their ids. -/
def log (L : LedgerClient) : DedupLog LedgerEvent.event_id := ⟨L.events, L.nodup⟩

theorem mem_seen_ids {L : LedgerClient} {u : UUID} : u ∈ L.seen_ids ↔ u ∈ L.log.keys := by
  rw [L.seen_ids_eq]
  rfl

/-- The status that says whether an event was new. -/
def answer_of (new : Bool) : LedgerAppendStatus := if new then .accepted else .duplicate

/-- An append answers whether the id is new, and the log is the abstract one. -/
theorem append_run (event : LedgerEvent) (L : LedgerClient) :
    ∃ L', append event L = (.ok { status := answer_of (decide (event.event_id ∉ L.log.keys))
                                  event_id := event.event_id }, L')
      ∧ L'.log = L.log.append event ∧ (event.event_id ∈ L.log.keys → L' = L) := by
  by_cases h : event.event_id ∈ L.seen_ids
  · have hk := mem_seen_ids.mp h
    refine ⟨L, ?_, (DedupLog.append_of_mem hk).symm, fun _ => rfl⟩
    rw [append, dif_pos h, decide_eq_false (not_not.mpr hk)]
    rfl
  · have hk : event.event_id ∉ L.log.keys := fun hk => h (mem_seen_ids.mpr hk)
    refine ⟨L.push event h, ?_, ?_, fun hk' => absurd hk' hk⟩
    · rw [append, dif_neg h, decide_eq_true hk]
      rfl
    · have he : (L.push event h).log.entries = (L.log.append event).entries := by
        rw [DedupLog.entries_append_of_not_mem hk]
        rfl
      rcases hA : L.log.append event with ⟨es, hes⟩
      rw [hA] at he
      rcases hB : (L.push event h).log with ⟨fs, hfs⟩
      rw [hB] at he
      dsimp only at he
      subst he
      rfl

end LedgerClient

/-! ## Deduplicating ledgers -/

/-- A ledger that answers an append by the event, and by whether its id is recorded. -/
structure DeduplicatingLedger (σ : Type) extends LedgerBackend σ where
  recorded : σ → UUID → Prop
  /-- The events that are recorded when they are appended. -/
  records : LedgerEvent → Prop
  new_answer : LedgerEvent → Except PyError LedgerAppendResult
  known_answer : LedgerEvent → Except PyError LedgerAppendResult
  append_new : ∀ event s, ¬ recorded s event.event_id → (append event s).1 = new_answer event
  append_known : ∀ event s, recorded s event.event_id → (append event s).1 = known_answer event
  recorded_append : ∀ event s u, recorded (append event s).2 u ↔
    recorded s u ∨ records event ∧ u = event.event_id
  new_not_duplicate : ∀ event answer, new_answer event = .ok answer → answer.status ≠ .duplicate

namespace LedgerClient

/-- The in-memory client is one. -/
def deduplicating : DeduplicatingLedger LedgerClient where
  toLedgerBackend := backend
  recorded L u := u ∈ L.log.keys
  records _ := True
  new_answer event := .ok { status := .accepted, event_id := event.event_id }
  known_answer event := .ok { status := .duplicate, event_id := event.event_id }
  append_new event L hnew := by
    obtain ⟨L', hrun, -, -⟩ := append_run event L
    show (append event L).1 = _
    rw [hrun, decide_eq_true hnew]
    rfl
  append_known event L hknown := by
    obtain ⟨L', hrun, -, -⟩ := append_run event L
    show (append event L).1 = _
    rw [hrun, decide_eq_false (not_not.mpr hknown)]
    rfl
  recorded_append event L u := by
    obtain ⟨L', hrun, hlog, -⟩ := append_run event L
    show u ∈ (append event L).2.log.keys ↔ _
    rw [hrun, hlog, DedupLog.mem_keys_append, true_and]
  new_not_duplicate event answer h := by
    rw [← Except.ok.inj h]
    exact fun hdup => nomatch hdup

/-- A client that has appended nothing has recorded nothing. -/
theorem not_recorded_init (event_id : UUID) : ¬ deduplicating.recorded init event_id := by
  simp [deduplicating, init, log, DedupLog.keys]

end LedgerClient

end DecisionRuntime
