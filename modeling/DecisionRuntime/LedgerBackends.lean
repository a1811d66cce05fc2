/-
The two ledger backends side by side.

`LedgerClient` keeps its events in memory, under four indexes;
`PostgresLedgerClient` keeps them in one table, numbers them in a transaction of
four statements and rebuilds an event from the columns the driver hands over. Run
one transaction at a time they cannot be told apart: `Related` says that the table
and the client hold the same events in the same order, every call keeps it, and
related states give the same answers (`backends_interchangeable`).

A stored row is stamped with its `created_at`. What the driver hands over for a
column is its own affair, within `Driver.Faithful`.
-/
import DecisionRuntime.ChainHead
import DecisionRuntime.History
import DecisionRuntime.LedgerClient

set_option autoImplicit false

namespace DecisionRuntime

namespace LedgerBackends

open HashChain ReadCommitted PostgresLedgerClient

/-! ## JSON values -/

mutual

/-- A value that a JSON document can hold. -/
def is_json : Value → Bool
  | .none | .bool _ | .int _ | .float (.finite _) | .str _ => true
  | .list xs => is_json_item xs
  | .dict kvs => is_json_member kvs
  | .float _ | .complex _ | .bytes _ | .ellipsis | .datetime _ => false

/-- The same, of every item of a list. -/
def is_json_item : List Value → Bool
  | [] => true
  | x :: xs => is_json x && is_json_item xs

/-- The same, of every value of a dictionary. -/
def is_json_member : List (String × Value) → Bool
  | [] => true
  | (_, x) :: rest => is_json x && is_json_member rest

end

mutual

/-- `json.dumps` refuses no JSON value. -/
theorem unserializable_eq_none {v : Value} (h : is_json v) : unserializable v = none := by
  cases v with
  | none => rfl
  | bool b => rfl
  | int i => rfl
  | float f => rfl
  | str s => rfl
  | list xs =>
      rw [is_json] at h
      rw [unserializable]
      exact unserializable_item_eq_none h
  | dict kvs =>
      rw [is_json] at h
      rw [unserializable]
      exact unserializable_member_eq_none h
  | complex f => simp [is_json] at h
  | bytes b => simp [is_json] at h
  | ellipsis => simp [is_json] at h
  | datetime d => simp [is_json] at h

theorem unserializable_item_eq_none {xs : List Value} (h : is_json_item xs) :
    unserializable_item xs = none := by
  cases xs with
  | nil => rfl
  | cons x xs =>
      rw [is_json_item, Bool.and_eq_true] at h
      rw [unserializable_item, unserializable_eq_none h.1, unserializable_item_eq_none h.2]
      rfl

theorem unserializable_member_eq_none {kvs : List (String × Value)} (h : is_json_member kvs) :
    unserializable_member kvs = none := by
  cases kvs with
  | nil => rfl
  | cons kv rest =>
      rw [is_json_member, Bool.and_eq_true] at h
      rw [unserializable_member, unserializable_eq_none h.1, unserializable_member_eq_none h.2]
      rfl

end

/-! ## What the driver hands over -/

/-- A UUID column: psycopg2 returns either, depending on configuration. -/
inductive UuidColumn
  | uuid (u : UUID)
  | text (s : String)

/-- A JSONB column. -/
inductive JsonColumn
  | null
  | dict (payload : PyDict)
  | text (s : String)

/-- A TIMESTAMPTZ column. -/
inductive TimeColumn
  | datetime (d : Datetime)
  | text (s : String)

/-- A row of `_SELECT_COLS`. -/
structure SelectedRow where
  event_id : UuidColumn
  trace_id : UuidColumn
  decision_id : UuidColumn
  flow_id : UuidColumn
  flow_version : String
  step_type : String
  step_id : String
  payload : JsonColumn
  occurred_at : TimeColumn
  schema_version : String

/-- The database and its driver: how a text is read as a UUID, what a `SELECT` returns for a
stored row, and the two library functions that read a column returned as text. -/
structure Driver where
  uuid_in : String → Option UUID
  fetch : LedgerRow → SelectedRow
  json_loads : String → Except PyError Value
  fromisoformat : String → Except PyError Datetime

/-! ## The decoder -/

/-- `_uuid`. -/
def as_uuid : UuidColumn → Except PyError UUID
  | .uuid u => .ok u
  | .text s =>
    match UUID.parse s with
    | some u => .ok u
    | none => .error (.valueError "badly formed hexadecimal UUID string")

section Decoder

variable (D : Driver)

/-- The payload, which `LedgerEvent` requires to be a dictionary. -/
def as_payload : JsonColumn → Except PyError PyDict
  | .null => .ok []
  | .dict payload => .ok payload
  | .text s => do
    match ← D.json_loads s with
    | .dict payload => .ok payload
    | _ => .error (.validationError "LedgerEvent")

/-- The time; a text is taken to be in UTC. -/
def as_datetime : TimeColumn → Except PyError Datetime
  | .datetime d => .ok d
  | .text s => do
    let d ← D.fromisoformat s
    return { d with utcoffset := some 0 }

/-- `_row_to_event`. -/
def row_to_event (row : SelectedRow) : Except PyError LedgerEvent := do
  let payload ← as_payload D row.payload
  let occurred_at ← as_datetime D row.occurred_at
  let event_id ← as_uuid row.event_id
  let trace_id ← as_uuid row.trace_id
  let decision_id ← as_uuid row.decision_id
  let flow_id ← as_uuid row.flow_id
  return {
    event_id := event_id
    schema_version := row.schema_version
    trace_id := trace_id
    decision_id := decision_id
    flow_id := flow_id
    flow_version := row.flow_version
    step_type := row.step_type
    step_id := row.step_id
    payload := payload
    occurred_at := occurred_at }

/-- The columns come back as they were stored: a UUID as itself or as its canonical text, a JSON
payload as itself or as a text of it, a time as itself or as a text of it in UTC. -/
structure Driver.Faithful : Prop where
  uuid_in : ∀ u : UUID, D.uuid_in u.str = some u
  event_id : ∀ r, (D.fetch r).event_id = .uuid r.event.event_id
    ∨ (D.fetch r).event_id = .text r.event.event_id.str
  trace_id : ∀ r, (D.fetch r).trace_id = .uuid r.event.trace_id
    ∨ (D.fetch r).trace_id = .text r.event.trace_id.str
  decision_id : ∀ r, (D.fetch r).decision_id = .uuid r.event.decision_id
    ∨ (D.fetch r).decision_id = .text r.event.decision_id.str
  flow_id : ∀ r, (D.fetch r).flow_id = .uuid r.event.flow_id
    ∨ (D.fetch r).flow_id = .text r.event.flow_id.str
  flow_version : ∀ r, (D.fetch r).flow_version = r.event.flow_version
  step_type : ∀ r, (D.fetch r).step_type = r.event.step_type
  step_id : ∀ r, (D.fetch r).step_id = r.event.step_id
  payload : ∀ r, is_json (.dict r.event.payload) →
    (D.fetch r).payload = .dict r.event.payload
      ∨ ∃ s, (D.fetch r).payload = .text s ∧ D.json_loads s = .ok (.dict r.event.payload)
  occurred_at : ∀ r, (D.fetch r).occurred_at = .datetime r.event.occurred_at
    ∨ ∃ s d, (D.fetch r).occurred_at = .text s ∧ D.fromisoformat s = .ok d
      ∧ r.event.occurred_at = { d with utcoffset := some 0 }
  schema_version : ∀ r, (D.fetch r).schema_version = r.event.schema_version

end Decoder

theorem as_uuid_of_faithful {c : UuidColumn} {u : UUID} (h : c = .uuid u ∨ c = .text u.str) :
    as_uuid c = .ok u := by
  rcases h with rfl | rfl
  · rfl
  · rw [as_uuid, UUID.parse_str]

/-- **The decoder.** It rebuilds the event that was stored. -/
theorem row_to_event_fetch {D : Driver} (hD : D.Faithful) {r : LedgerRow}
    (hjson : is_json (.dict r.event.payload)) : row_to_event D (D.fetch r) = .ok r.event := by
  have hpayload : as_payload D (D.fetch r).payload = .ok r.event.payload := by
    rcases hD.payload r hjson with h | ⟨s, h, hloads⟩
    · rw [h, as_payload]
    · rw [h, as_payload, hloads]
      rfl
  have htime : as_datetime D (D.fetch r).occurred_at = .ok r.event.occurred_at := by
    rcases hD.occurred_at r with h | ⟨s, d, h, hiso, hd⟩
    · rw [h, as_datetime]
    · rw [h, as_datetime, hiso, hd]
      rfl
  rw [row_to_event, hpayload, htime, as_uuid_of_faithful (hD.event_id r),
    as_uuid_of_faithful (hD.trace_id r), as_uuid_of_faithful (hD.decision_id r),
    as_uuid_of_faithful (hD.flow_id r), hD.flow_version, hD.step_type, hD.step_id,
    hD.schema_version]
  rfl

/-! ## The table, one transaction at a time -/

/-- A row and its `created_at`. -/
structure StoredRow where
  created_at : ℕ
  row : LedgerRow

/-- The rows in the order they were committed. -/
abbrev Table := List StoredRow

/-- The rows without their stamps. -/
def ledger_rows (table : Table) : List LedgerRow := table.map StoredRow.row

instance : DecidableRel conflict := fun a b =>
  inferInstanceAs (Decidable (a.event.event_id = b.event.event_id ∨
    (a.event.trace_id = b.event.trace_id ∧ a.sequence_no = b.sequence_no)))

section Table

variable (P : Platform) (D : Driver)

/-- The statements of `append`, run with no other client; the rows it commits get the stamp
`now`. -/
def append_at (now : ℕ) (event : LedgerEvent) : Exec PyError Table LedgerAppendResult :=
  fun table =>
    let ran := (append P event).run_alone conflict (.external "UniqueViolation")
      (ledger_rows table) []
    (ran.1, table ++ (ran.2.drop table.length).map (StoredRow.mk now))

/-- `get_by_event_id`. -/
def get_by_event_id (event_id : UUID) : Exec PyError Table (Option LedgerEvent) := fun table =>
  match (ledger_rows table).find? (fun r => r.event.event_id = event_id) with
  | some r => ((row_to_event D (D.fetch r)).map some, table)
  | none => (.ok none, table)

/-- `get_events_by_trace_id`. -/
def get_events_by_trace_id (trace_id : String) : Exec PyError Table (List LedgerEvent) :=
  fun table =>
    match D.uuid_in trace_id with
    | some u =>
      ((trace_rows u (ledger_rows table)).mapM (fun r => row_to_event D (D.fetch r)), table)
    | none => (.error (.external "InvalidTextRepresentation"), table)

/-- `get_events`: `ORDER BY created_at ASC`. -/
def get_events : Exec PyError Table (List LedgerEvent) := fun table =>
  ((table.mergeSort (fun a b => a.created_at ≤ b.created_at)).mapM
    (fun s => row_to_event D (D.fetch s.row)), table)

end Table

/-! ## The calls -/

/-- A call of a ledger client. The database stamps an append with the time `now`. -/
inductive LedgerCall
  | append (now : ℕ) (event : LedgerEvent)
  | get_by_event_id (event_id : UUID)
  | get_events_by_trace_id (trace_id : String)
  | get_events

/-- What a call returns. -/
inductive LedgerAnswer
  | appended (result : LedgerAppendResult)
  | found (event : Option LedgerEvent)
  | listed (events : List LedgerEvent)

/-- The payloads are JSON, and a trace is asked for by the canonical text of its id. -/
def LedgerCall.WellFormed : LedgerCall → Prop
  | .append _ event => is_json (.dict event.payload)
  | .get_events_by_trace_id trace_id => ∃ u : UUID, trace_id = u.str
  | .get_by_event_id _ | .get_events => True

/-- A call of `LedgerClient`. -/
def in_memory : LedgerCall → Exec PyError LedgerClient LedgerAnswer
  | .append _ event => LedgerAnswer.appended <$> LedgerClient.append event
  | .get_by_event_id event_id => LedgerAnswer.found <$> LedgerClient.get_by_event_id event_id
  | .get_events_by_trace_id trace_id =>
    LedgerAnswer.listed <$> LedgerClient.get_events_by_trace_id trace_id
  | .get_events => LedgerAnswer.listed <$> LedgerClient.get_events

/-- A call of `PostgresLedgerClient`. -/
def in_postgres (P : Platform) (D : Driver) : LedgerCall → Exec PyError Table LedgerAnswer
  | .append now event => LedgerAnswer.appended <$> append_at P now event
  | .get_by_event_id event_id => LedgerAnswer.found <$> get_by_event_id D event_id
  | .get_events_by_trace_id trace_id =>
    LedgerAnswer.listed <$> get_events_by_trace_id D trace_id
  | .get_events => LedgerAnswer.listed <$> get_events D

/-! ## The relation -/

/-- The client and the table hold the same events in the same order, every trace of the table is
a chain, and the payloads are JSON. -/
structure Related (P : Platform) (L : LedgerClient) (table : Table) : Prop where
  events : (ledger_rows table).map Row.event = L.events
  chain : ∀ t, Chain (compute_event_hash P) (of_trace t (ledger_rows table))
  json : ∀ r ∈ ledger_rows table, is_json (.dict r.event.payload)

variable {P : Platform} {D : Driver} {L : LedgerClient} {table : Table}

theorem related_init : Related P LedgerClient.init [] where
  events := rfl
  chain _ := chain_nil
  json _ h := absurd h (by simp [ledger_rows])

/-- An id is in the table exactly when the client has seen it. -/
theorem Related.mem_seen_ids (h : Related P L table) (u : UUID) :
    u ∈ L.seen_ids ↔ (ledger_rows table).any (fun r => r.event.event_id = u) := by
  rw [L.seen_ids_eq, ← h.events, List.map_map, List.any_eq_true]
  simp [eq_comm]

/-! ### The append -/

section Append

variable {event : LedgerEvent} {rows : List LedgerRow}

/-- An append that runs alone and finds its event. -/
theorem run_append_known (hknown : rows.any (fun r => r.event.event_id = event.event_id)) :
    (append P event).run_alone conflict (.external "UniqueViolation") rows []
      = (.ok (duplicate event), rows) := by
  simp only [append, Txn.run_alone, List.append_nil, if_pos hknown]

/-- The row of a new event breaks no constraint. -/
theorem next_row_free (hc : ∀ t, Chain (compute_event_hash P) (of_trace t rows))
    (hnew : ¬ rows.any (fun r => r.event.event_id = event.event_id)) :
    ¬ ∃ r ∈ rows, conflict (next_row P event rows) r := by
  rintro ⟨r, hr, hid | ⟨htrace, hno⟩⟩
  · apply hnew
    rw [List.any_eq_true]
    exact ⟨r, hr, decide_eq_true hid.symm⟩
  · -- the numbers of the trace end before the next one
    have hmem : r ∈ of_trace event.trace_id rows := mem_of_trace.mpr ⟨hr, htrace.symm⟩
    have hnum : r.sequence_no ∈ (of_trace event.trace_id rows).map Row.sequence_no :=
      List.mem_map_of_mem hmem
    rw [(hc event.trace_id).numbered, List.mem_range'_1] at hnum
    have hnext : (of_trace event.trace_id rows).length + 1 = r.sequence_no := hno
    omega

/-- An append that runs alone, of a new event. -/
theorem run_append_new (hc : ∀ t, Chain (compute_event_hash P) (of_trace t rows))
    (hjson : is_json (.dict event.payload))
    (hnew : ¬ rows.any (fun r => r.event.event_id = event.event_id)) :
    (append P event).run_alone conflict (.external "UniqueViolation") rows []
      = (.ok (accepted event), rows ++ [next_row P event rows]) := by
  simp only [append, Txn.run_alone, List.append_nil, if_neg hnew, read_sequence_no,
    read_prev_hash, insert_event, unserializable_eq_none hjson]
  rw [max_sequence_no (hc event.trace_id), last_event_hash (hc event.trace_id)]
  show (if ∃ r ∈ rows, conflict (next_row P event rows) r then _ else _) = _
  rw [if_neg (next_row_free hc hnew)]
  rfl

end Append

theorem length_ledger_rows (table : Table) : (ledger_rows table).length = table.length :=
  List.length_map _

/-- **The append keeps the relation**, and the clients answer alike. -/
theorem Related.append (h : Related P L table) (now : ℕ) {event : LedgerEvent}
    (hjson : is_json (.dict event.payload)) :
    (LedgerClient.append event L).1 = (append_at P now event table).1
      ∧ Related P (LedgerClient.append event L).2 (append_at P now event table).2 := by
  by_cases hknown : (ledger_rows table).any (fun r => r.event.event_id = event.event_id)
  -- a duplicate: neither ledger takes it
  · have hrun := run_append_known (P := P) hknown
    rw [append_at, hrun, LedgerClient.append, dif_pos ((h.mem_seen_ids _).mpr hknown)]
    refine ⟨rfl, ?_⟩
    rw [List.drop_of_length_le (by rw [length_ledger_rows]), List.map_nil, List.append_nil]
    exact h
  -- a new event: both take it, and the table appends one row
  · have hrun := run_append_new h.chain hjson hknown
    have hdrop : (ledger_rows table ++ [next_row P event (ledger_rows table)]).drop table.length
        = [next_row P event (ledger_rows table)] := by
      rw [← length_ledger_rows, List.drop_left]
    have hseen : event.event_id ∉ L.seen_ids := fun hmem => hknown ((h.mem_seen_ids _).mp hmem)
    rw [append_at, hrun, LedgerClient.append, dif_neg hseen]
    refine ⟨rfl, ?_⟩
    have hrows : ledger_rows (table
        ++ [next_row P event (ledger_rows table)].map (StoredRow.mk now))
        = ledger_rows table ++ [next_row P event (ledger_rows table)] := by
      rw [ledger_rows, List.map_append]
      rfl
    dsimp only
    rw [hdrop]
    constructor
    · rw [hrows, List.map_append, h.events]
      rfl
    · intro t
      rw [hrows, of_trace_append, of_trace_next_row]
      by_cases ht : event.trace_id = t
      · subst ht
        rw [if_pos rfl]
        exact chain_concat (h.chain _) rfl rfl rfl
      · rw [if_neg ht, List.append_nil]
        exact h.chain t
    · intro r hr
      rw [hrows, List.mem_append, List.mem_singleton] at hr
      rcases hr with hr | rfl
      · exact h.json r hr
      · exact hjson

/-! ### The reads -/

section Reads

variable (hD : D.Faithful) (h : Related P L table)

include hD h

theorem Related.get_by_event_id (event_id : UUID) :
    (LedgerClient.get_by_event_id event_id L).1
      = (LedgerBackends.get_by_event_id D event_id table).1 := by
  have hfind : L.by_event_id.get event_id
      = ((ledger_rows table).find? (fun r => r.event.event_id = event_id)).map Row.event := by
    rw [L.by_event_id_eq, ← h.events, List.find?_map]
    rfl
  rw [LedgerClient.get_by_event_id, hfind, LedgerBackends.get_by_event_id]
  rcases hr : (ledger_rows table).find? (fun r => r.event.event_id = event_id) with _ | r
  · simp only [hr, Option.map_none]
  · simp only [hr, row_to_event_fetch hD (h.json r (List.mem_of_find?_eq_some hr)),
      Option.map_some, Except.map]

theorem Related.get_events_by_trace_id (u : UUID) :
    (LedgerClient.get_events_by_trace_id u.str L).1
      = (LedgerBackends.get_events_by_trace_id D u.str table).1 := by
  have hfilter : (L.by_trace_id.get u.str).getD []
      = (of_trace u (ledger_rows table)).map Row.event := by
    rw [L.by_trace_id_eq, ← h.events, List.filter_map, of_trace]
    congr 1
    apply List.filter_congr
    intro r _
    simp
  rw [LedgerClient.get_events_by_trace_id, hfilter, LedgerBackends.get_events_by_trace_id,
    hD.uuid_in]
  dsimp only
  rw [trace_rows_eq (h.chain u)]
  refine (except_mapM_eq_map ?_).symm
  intro r hr
  exact row_to_event_fetch hD (h.json r (mem_of_trace.mp hr).1)

/-- The rows are stored in the order of their stamps, so sorting them changes nothing. -/
theorem Related.get_events
    (hclock : table.Pairwise (fun a b => a.created_at < b.created_at)) :
    (LedgerClient.get_events L).1 = (LedgerBackends.get_events D table).1 := by
  have hsorted : table.mergeSort (fun a b => a.created_at ≤ b.created_at) = table := by
    apply List.mergeSort_of_pairwise
    refine hclock.imp ?_
    intro a b hab
    exact decide_eq_true hab.le
  rw [LedgerClient.get_events, ← h.events, LedgerBackends.get_events, hsorted, ledger_rows,
    List.map_map]
  refine (except_mapM_eq_map ?_).symm
  intro s hs
  exact row_to_event_fetch hD (h.json s.row (List.mem_map_of_mem hs))

end Reads

/-! ## Runs -/

/-- A read leaves the table alone. -/
theorem in_postgres_read {c : LedgerCall} (hread : ∀ now event, c ≠ .append now event) :
    (in_postgres P D c table).2 = table := by
  cases c with
  | append now event => exact absurd rfl (hread now event)
  | get_by_event_id event_id =>
      simp only [in_postgres, Exec.run_map, LedgerBackends.get_by_event_id]
      split <;> rfl
  | get_events_by_trace_id trace_id =>
      simp only [in_postgres, Exec.run_map, LedgerBackends.get_events_by_trace_id]
      split <;> rfl
  | get_events => simp only [in_postgres, Exec.run_map, LedgerBackends.get_events]

/-- **The step lemma.** -/
theorem Related.call (hD : D.Faithful) (h : Related P L table)
    (hclock : table.Pairwise (fun a b => a.created_at < b.created_at)) {c : LedgerCall}
    (hc : c.WellFormed) :
    (in_memory c L).1 = (in_postgres P D c table).1
      ∧ Related P (in_memory c L).2 (in_postgres P D c table).2 := by
  cases c with
  | append now event =>
      obtain ⟨hanswer, hrel⟩ := h.append now hc
      simp only [in_memory, in_postgres, Exec.run_map, hanswer]
      exact ⟨trivial, hrel⟩
  | get_by_event_id event_id =>
      rw [in_postgres_read (by simp)]
      simp only [in_memory, in_postgres, Exec.run_map, h.get_by_event_id hD]
      exact ⟨trivial, h⟩
  | get_events_by_trace_id trace_id =>
      obtain ⟨u, rfl⟩ := hc
      rw [in_postgres_read (by simp)]
      simp only [in_memory, in_postgres, Exec.run_map, h.get_events_by_trace_id hD]
      exact ⟨trivial, h⟩
  | get_events =>
      rw [in_postgres_read (by simp)]
      simp only [in_memory, in_postgres, Exec.run_map, h.get_events hD hclock]
      exact ⟨trivial, h⟩

/-- Rows are only ever added at the end. -/
theorem prefix_call (c : LedgerCall) (table : Table) :
    table <+: (in_postgres P D c table).2 := by
  by_cases hread : ∀ now event, c ≠ .append now event
  · rw [in_postgres_read hread]
  · simp only [not_forall, not_not] at hread
    obtain ⟨now, event, rfl⟩ := hread
    simp only [in_postgres, Exec.run_map, append_at]
    exact List.prefix_append _ _

theorem prefix_final (calls : List LedgerCall) (table : Table) :
    table <+: Run.final (in_postgres P D) table calls := by
  induction calls generalizing table with
  | nil => exact List.prefix_rfl
  | cons c calls ih => exact (prefix_call c table).trans (ih _)

/-- From related states on, the clients answer alike. -/
theorem Related.answers (hD : D.Faithful) (calls : List LedgerCall)
    (hwf : ∀ c ∈ calls, c.WellFormed) (h : Related P L table)
    (hclock : (Run.final (in_postgres P D) table calls).Pairwise
      (fun a b => a.created_at < b.created_at)) :
    (Run.entries in_memory L calls).map Entry.answer
      = (Run.entries (in_postgres P D) table calls).map Entry.answer := by
  induction calls generalizing L table with
  | nil => rfl
  | cons c calls ih =>
      rw [List.forall_mem_cons] at hwf
      -- the table so far is a prefix of the table at the end
      have hnow := hclock.sublist (prefix_final (c :: calls) table).sublist
      obtain ⟨hanswer, hrel⟩ := h.call hD hnow hwf.1
      rw [Run.entries, Run.entries, List.map_cons, List.map_cons, ih hwf.2 hrel hclock]
      exact congrArg (· :: _) hanswer

/-- **The backends are interchangeable.** -/
theorem backends_interchangeable (P : Platform) (D : Driver) (hD : D.Faithful)
    (calls : List LedgerCall) (hwf : ∀ c ∈ calls, c.WellFormed)
    (hclock : (Run.final (in_postgres P D) [] calls).Pairwise
      (fun a b => a.created_at < b.created_at)) :
    (Run.entries in_memory LedgerClient.init calls).map Entry.answer
      = (Run.entries (in_postgres P D) [] calls).map Entry.answer :=
  related_init.answers hD calls hwf hclock

/-! Two events of a trace, the first of them again under another trace, and every read. -/

namespace Interchange

/-- A driver that decodes every column. -/
def driver : Driver where
  uuid_in := UUID.parse
  fetch r :=
    { event_id := .uuid r.event.event_id
      trace_id := .uuid r.event.trace_id
      decision_id := .text r.event.decision_id.str
      flow_id := .text r.event.flow_id.str
      flow_version := r.event.flow_version
      step_type := r.event.step_type
      step_id := r.event.step_id
      payload := .dict r.event.payload
      occurred_at := .datetime r.event.occurred_at
      schema_version := r.event.schema_version }
  json_loads _ := .error (.valueError "Expecting value: line 1 column 1 (char 0)")
  fromisoformat _ := .error (.valueError "Invalid isoformat string")

theorem driver_faithful : driver.Faithful := by
  constructor
  · intro u
    simp only [driver]
    rw [UUID.parse_str]
  all_goals
    intro r
    unfold driver
    simp

def calls : List LedgerCall :=
  [.append 1 Sealing.signal, .append 2 (Sealing.outcome "approved"),
    .append 3 { Sealing.signal with trace_id := UUID.repeated 0xe }, .get_events,
    .get_events_by_trace_id (UUID.repeated 0xc).str, .get_by_event_id (UUID.repeated 0xa)]

theorem wellFormed_calls : ∀ c ∈ calls, c.WellFormed := by
  simp [calls, LedgerCall.WellFormed, Sealing.signal, Sealing.outcome, Race.events, is_json,
    is_json_member]

end Interchange

theorem backends_interchangeable_duplicate :
    (Run.entries in_memory LedgerClient.init Interchange.calls).map Entry.answer
      = (Run.entries (in_postgres Race.platform Interchange.driver) [] Interchange.calls).map
        Entry.answer := by
  apply backends_interchangeable Race.platform Interchange.driver Interchange.driver_faithful
  · exact Interchange.wellFormed_calls
  · have hreads : Run.final (in_postgres Race.platform Interchange.driver) [] Interchange.calls
        = Run.final (in_postgres Race.platform Interchange.driver) []
          (Interchange.calls.take 3) := by
      simp [Interchange.calls, Run.final, in_postgres_read]
    have hstamps : (Run.final (in_postgres Race.platform Interchange.driver) []
        (Interchange.calls.take 3)).map StoredRow.created_at = [1, 2] := by
      decide +kernel
    rw [← List.pairwise_map (f := StoredRow.created_at) (R := fun a b => a < b), hreads,
      hstamps]
    decide

end LedgerBackends

end DecisionRuntime
