/-
The PostgreSQL ledger of `backend/app/integrations/postgres_ledger_client.py`,
under concurrent appends.

`append` is a transaction of four statements: the duplicate check, the read of the
greatest `sequence_no`, the read of the last `event_hash`, and the `INSERT`. At
READ COMMITTED another client may commit between any two of them, so the number
and the hash an append is about to write may be out of date, and may be out of
date differently. `At` says how: the number is one more than a length the trace
had, the hash is the one before a position that is at least that length, and
neither is ahead of the table.

What makes the chain right is the constraint on `(trace_id, sequence_no)`. A
number that is out of date is taken, so the `INSERT` that goes through has the
current number; the hash, read later, is then the current one; and while its row
is pending nobody else can add to the trace, since they would need the same number.

The rows keep the columns an event is rebuilt from, `sequence_no` and the two
hashes; the other columns are constants or copies of these.
-/
import DecisionRuntime.HashChain
import DecisionRuntime.Models
import DecisionRuntime.ReadCommitted
import Mathlib.Tactic.FinCases

set_option autoImplicit false

namespace DecisionRuntime

namespace PostgresLedgerClient

open HashChain ReadCommitted

/-! ## The hash of an event -/

/-- Four hexadecimal digits, in lower case. -/
def hex4 (n : ℕ) : List Char :=
  let digits := Nat.toDigits 16 n
  List.replicate (4 - digits.length) '0' ++ digits

/-- A character in a JSON string with `ensure_ascii`: beyond the basic plane a surrogate pair. -/
def json_char (c : Char) : List Char :=
  let n := c.val.toNat
  if c = '"' then ['\\', '"']
  else if c = '\\' then ['\\', '\\']
  else if c = '\n' then ['\\', 'n']
  else if c = '\r' then ['\\', 'r']
  else if c = '\t' then ['\\', 't']
  else if n = 0x0c then ['\\', 'f']
  else if n = 0x08 then ['\\', 'b']
  else if 0x20 ≤ n ∧ n ≤ 0x7e then [c]
  else if n < 0x10000 then '\\' :: 'u' :: hex4 n
  else
    let v := n - 0x10000
    ('\\' :: 'u' :: hex4 (0xd800 + v / 0x400)) ++ ('\\' :: 'u' :: hex4 (0xdc00 + v % 0x400))

/-- `json.dumps` of a string. -/
def json_str (s : String) : String :=
  "\"" ++ String.ofList (s.toList.flatMap json_char) ++ "\""

/-- `json.dumps` of a string or `None`. -/
def json_opt : Option String → String
  | none => "null"
  | some s => json_str s

/-- `json.dumps(canonical, sort_keys=True, separators=(",", ":"))`. -/
def serialised (event : LedgerEvent) (sequence_no : ℕ) (prev_hash : Option String) : String :=
  let members :=
    [("decision_id", json_str event.decision_id.str), ("event_id", json_str event.event_id.str),
      ("prev_hash", json_opt prev_hash), ("sequence_no", toString sequence_no),
      ("step_id", json_str event.step_id), ("step_type", json_str event.step_type),
      ("trace_id", json_str event.trace_id.str)]
  "\x7b" ++ ",".intercalate (members.map (fun m => json_str m.1 ++ ":" ++ m.2)) ++ "\x7d"

/-- `compute_event_hash`. -/
def compute_event_hash (P : Platform) (event : LedgerEvent) (sequence_no : ℕ)
    (prev_hash : Option String) : String :=
  P.sha256_hexdigest (serialised event sequence_no prev_hash)

/-! ## The payload column -/

mutual

/-- The type name of the first value `json.dumps` refuses. -/
def unserializable : Value → Option String
  | .complex _ => some "complex"
  | .bytes _ => some "bytes"
  | .ellipsis => some "ellipsis"
  | .datetime _ => some "datetime"
  | .list xs => unserializable_item xs
  | .dict kvs => unserializable_member kvs
  | .none | .bool _ | .int _ | .float _ | .str _ => none

/-- The same, over the items of a list. -/
def unserializable_item : List Value → Option String
  | [] => none
  | x :: xs => (unserializable x).or (unserializable_item xs)

/-- The same, over the values of a dictionary. -/
def unserializable_member : List (String × Value) → Option String
  | [] => none
  | (_, x) :: rest => (unserializable x).or (unserializable_member rest)

end

/-! ## The transaction -/

/-- A row of `ledger_events`. -/
abbrev LedgerRow := Row LedgerEvent String

/-- The rows of one trace. -/
def of_trace (trace_id : UUID) (rows : List LedgerRow) : List LedgerRow :=
  rows.filter (fun r => r.event.trace_id = trace_id)

/-- The row an append inserts. -/
def new_row (P : Platform) (event : LedgerEvent) (sequence_no : ℕ) (prev_hash : Option String) :
    LedgerRow where
  event := event
  sequence_no := sequence_no
  prev_hash := prev_hash
  event_hash := compute_event_hash P event sequence_no prev_hash

/-- What an append that inserted its row returns. -/
def accepted (event : LedgerEvent) : LedgerAppendResult :=
  { status := .accepted, event_id := event.event_id }

/-- What an append that found its `event_id` returns. -/
def duplicate (event : LedgerEvent) : LedgerAppendResult :=
  { status := .duplicate, event_id := event.event_id }

section Append

variable (P : Platform) (event : LedgerEvent)

/-- Steps 4 and 5: the hash, the `INSERT` and the `COMMIT`. -/
def insert_event (sequence_no : ℕ) (prev_hash : Option String) :
    Txn PyError LedgerRow LedgerAppendResult :=
  match unserializable (.dict event.payload) with
  | some type_name =>
    .rollback (.error (.typeError
      ("Object of type " ++ type_name ++ " is not JSON serializable")))
  | none => .insert (new_row P event sequence_no prev_hash) (.commit (accepted event))

/-- Step 3: `SELECT event_hash … ORDER BY sequence_no DESC LIMIT 1`. -/
def read_prev_hash (sequence_no : ℕ) : Txn PyError LedgerRow LedgerAppendResult :=
  .select (fun rows =>
    insert_event P event sequence_no
      (((of_trace event.trace_id rows).argmax Row.sequence_no).map Row.event_hash))

/-- Step 2: `SELECT COALESCE(MAX(sequence_no), 0) + 1`. -/
def read_sequence_no : Txn PyError LedgerRow LedgerAppendResult :=
  .select (fun rows =>
    read_prev_hash P event
      (((of_trace event.trace_id rows).map Row.sequence_no).max?.getD 0 + 1))

/-- `append`. Step 1 is the duplicate check. -/
def append : Txn PyError LedgerRow LedgerAppendResult :=
  .select (fun rows =>
    if rows.any (fun r => r.event.event_id = event.event_id) then
      .rollback (.ok (duplicate event))
    else read_sequence_no P event)

end Append

/-- `PRIMARY KEY (event_id)` and `UNIQUE (trace_id, sequence_no)`. -/
def conflict (a b : LedgerRow) : Prop :=
  a.event.event_id = b.event.event_id ∨
    (a.event.trace_id = b.event.trace_id ∧ a.sequence_no = b.sequence_no)

/-- Any number of clients, each appending one event. A client that appends again is one more
index that begins later. -/
def system {ι : Type} (P : Platform) (events : ι → LedgerEvent) :
    System ι PyError LedgerRow LedgerAppendResult where
  program i := append P (events i)
  conflict := conflict
  conflict_symm a b := by
    rintro (h | ⟨ht, hs⟩)
    · exact Or.inl h.symm
    · exact Or.inr ⟨ht.symm, hs.symm⟩
  violation := .external "UniqueViolation"

section Invariant

variable {ι : Type} [DecidableEq ι] {P : Platform} {events : ι → LedgerEvent}

/-! ## How far an open append can lag behind the table -/

/-- The row that continues the trace of `event`. -/
def next_row (P : Platform) (event : LedgerEvent) (rows : List LedgerRow) : LedgerRow :=
  new_row P event ((of_trace event.trace_id rows).length + 1)
    (hash_before (of_trace event.trace_id rows) (of_trace event.trace_id rows).length)

/-- The position of an append that has the rows `pending` and the statements `rest` to go, when
the committed rows are `rows`. -/
inductive At (P : Platform) (event : LedgerEvent) (rows : List LedgerRow) :
    List LedgerRow → Txn PyError LedgerRow LedgerAppendResult → Prop
  | started : At P event rows [] (append P event)
  | found (h : ∃ r ∈ rows, r.event.event_id = event.event_id) :
      At P event rows [] (.rollback (.ok (duplicate event)))
  | fresh : At P event rows [] (read_sequence_no P event)
  | numbered {k : ℕ} (hk : k ≤ (of_trace event.trace_id rows).length) :
      At P event rows [] (read_prev_hash P event (k + 1))
  | linked {k j : ℕ} (hkj : k ≤ j) (hj : j ≤ (of_trace event.trace_id rows).length) :
      At P event rows []
        (insert_event P event (k + 1) (hash_before (of_trace event.trace_id rows) j))
  | inserted : At P event rows [next_row P event rows] (.commit (accepted event))

theorem of_trace_append (t : UUID) (rows more : List LedgerRow) :
    of_trace t (rows ++ more) = of_trace t rows ++ of_trace t more :=
  List.filter_append ..

theorem mem_of_trace {t : UUID} {rows : List LedgerRow} {r : LedgerRow} :
    r ∈ of_trace t rows ↔ r ∈ rows ∧ r.event.trace_id = t := by
  rw [of_trace, List.mem_filter, decide_eq_true_eq]

/-- An append keeps its position while the table grows, as long as nobody adds to the trace of a
row it has already inserted. -/
theorem At.grow {event : LedgerEvent} {rows pending : List LedgerRow}
    {rest : Txn PyError LedgerRow LedgerAppendResult} (h : At P event rows pending rest)
    (more : List LedgerRow) (hmore : pending ≠ [] → of_trace event.trace_id more = []) :
    At P event (rows ++ more) pending rest := by
  have hlen : (of_trace event.trace_id rows).length
      ≤ (of_trace event.trace_id (rows ++ more)).length := by
    rw [of_trace_append, List.length_append]
    omega
  rcases h with _ | ⟨r, hr, hid⟩ | _ | hk | ⟨hkj, hj⟩ | _
  · exact At.started
  · exact At.found ⟨r, List.mem_append_left _ hr, hid⟩
  · exact At.fresh
  · exact At.numbered (hk.trans hlen)
  · rw [← hash_before_append hj (of_trace event.trace_id more), ← of_trace_append]
    exact At.linked hkj (hj.trans hlen)
  · have hsame : of_trace event.trace_id (rows ++ more) = of_trace event.trace_id rows := by
      rw [of_trace_append, hmore (by simp), List.append_nil]
    have hnext : next_row P event (rows ++ more) = next_row P event rows := by
      rw [next_row, hsame, next_row]
    rw [← hnext]
    exact At.inserted

section Inversion

variable {event : LedgerEvent} {rows pending : List LedgerRow}

/-! What an open append has done when its next statement is of a given kind. -/

theorem insert_event_cases (P : Platform) (event : LedgerEvent) (sequence_no : ℕ)
    (prev_hash : Option String) :
    (∃ e, insert_event P event sequence_no prev_hash = .rollback (.error e)) ∨
      insert_event P event sequence_no prev_hash
        = .insert (new_row P event sequence_no prev_hash) (.commit (accepted event)) := by
  unfold insert_event
  rcases unserializable (.dict event.payload) with _ | type_name
  · exact Or.inr rfl
  · exact Or.inl ⟨_, rfl⟩

/-- A read leads to a position of the table it read. -/
theorem At.of_select {next : List LedgerRow → Txn PyError LedgerRow LedgerAppendResult}
    (hc : Chain (compute_event_hash P) (of_trace event.trace_id rows))
    (h : At P event rows pending (.select next)) :
    pending = [] ∧ At P event rows [] (next rows) := by
  generalize hrest : Txn.select next = rest at h
  rcases h with _ | _ | _ | hk | @⟨k, j, -, -⟩ | _
  case started =>
    obtain rfl := Txn.select.inj hrest
    refine ⟨rfl, ?_⟩
    beta_reduce
    by_cases hany : rows.any (fun r => r.event.event_id = event.event_id)
    · rw [if_pos hany]
      obtain ⟨r, hr, hid⟩ := List.any_eq_true.mp hany
      exact At.found ⟨r, hr, of_decide_eq_true hid⟩
    · rw [if_neg hany]
      exact At.fresh
  case fresh =>
    -- the rows of the trace are numbered from 1 on, so the maximum is their number
    obtain rfl := Txn.select.inj hrest
    refine ⟨rfl, ?_⟩
    beta_reduce
    rw [max_sequence_no hc]
    exact At.numbered le_rfl
  case numbered =>
    obtain rfl := Txn.select.inj hrest
    refine ⟨rfl, ?_⟩
    beta_reduce
    rw [last_event_hash hc]
    exact At.linked hk le_rfl
  case linked =>
    rcases insert_event_cases P event (k + 1)
      (hash_before (of_trace event.trace_id rows) j) with ⟨e, he⟩ | he
    · exact nomatch hrest.trans he
    · exact nomatch hrest.trans he
  all_goals exact nomatch hrest

/-- The row an append is about to insert, and how far its two reads may lag. -/
theorem At.of_insert {row : LedgerRow} {next : Txn PyError LedgerRow LedgerAppendResult}
    (h : At P event rows pending (.insert row next)) :
    pending = [] ∧ next = .commit (accepted event) ∧
      ∃ k j, k ≤ j ∧ j ≤ (of_trace event.trace_id rows).length
        ∧ row = new_row P event (k + 1) (hash_before (of_trace event.trace_id rows) j) := by
  generalize hrest : Txn.insert row next = rest at h
  rcases h with _ | _ | _ | _ | @⟨k, j, hkj, hj⟩ | _
  case linked =>
    rcases insert_event_cases P event (k + 1)
      (hash_before (of_trace event.trace_id rows) j) with ⟨e, he⟩ | he
    · exact nomatch hrest.trans he
    · obtain ⟨rfl, rfl⟩ := Txn.insert.inj (hrest.trans he)
      exact ⟨rfl, rfl, k, j, hkj, hj, rfl⟩
  all_goals exact nomatch hrest

/-- An append that commits has inserted its row, and answers `ACCEPTED`. -/
theorem At.of_commit {result : LedgerAppendResult}
    (h : At P event rows pending (.commit result)) :
    result = accepted event ∧ pending ≠ [] := by
  generalize hrest : Txn.commit result = rest at h
  rcases h with _ | _ | _ | _ | @⟨k, j, -, -⟩ | _
  case linked =>
    rcases insert_event_cases P event (k + 1)
      (hash_before (of_trace event.trace_id rows) j) with ⟨e, he⟩ | he
    · exact nomatch hrest.trans he
    · exact nomatch hrest.trans he
  case inserted =>
    obtain rfl := Txn.commit.inj hrest
    exact ⟨rfl, List.cons_ne_nil _ _⟩
  all_goals exact nomatch hrest

/-- An append that rolls back by itself raises, or has found its `event_id`. -/
theorem At.of_rollback {answer : Except PyError LedgerAppendResult}
    (h : At P event rows pending (.rollback answer)) :
    (∃ e, answer = .error e) ∨
      answer = .ok (duplicate event) ∧ ∃ r ∈ rows, r.event.event_id = event.event_id := by
  generalize hrest : Txn.rollback answer = rest at h
  rcases h with _ | hfound | _ | _ | @⟨k, j, -, -⟩ | _
  case found =>
    obtain rfl := Txn.rollback.inj hrest
    exact Or.inr ⟨rfl, hfound⟩
  case linked =>
    rcases insert_event_cases P event (k + 1)
      (hash_before (of_trace event.trace_id rows) j) with ⟨e, he⟩ | he
    · obtain rfl := Txn.rollback.inj (hrest.trans he)
      exact Or.inl ⟨e, rfl⟩
    · exact nomatch hrest.trans he
  all_goals exact nomatch hrest

/-- The pending row of an open append has the next number and the last hash. -/
theorem At.of_pending {rest : Txn PyError LedgerRow LedgerAppendResult}
    (h : At P event rows pending rest) (hp : pending ≠ []) :
    pending = [next_row P event rows] := by
  rcases h with _ | _ | _ | _ | _ | _
  case inserted => rfl
  all_goals exact absurd rfl hp

end Inversion

/-! ## The invariant -/

/-- The chain of every trace, the position of every open append, and what every append that
returned has written. -/
structure Inv (P : Platform) (events : ι → LedgerEvent)
    (db : Db ι PyError LedgerRow LedgerAppendResult) : Prop where
  chain : ∀ t, Chain (compute_event_hash P) (of_trace t db.rows)
  position : ∀ i pending rest, db.sessions i = .running pending rest →
    At P (events i) db.rows pending rest
  returned : ∀ i result, db.sessions i = .closed (.ok result) →
    (result = accepted (events i) ∧ (db.written i).map Row.event = [events i]) ∨
      (result = duplicate (events i) ∧ db.written i = []
        ∧ ∃ r ∈ db.rows, r.event.event_id = (events i).event_id)

theorem inv_init : Inv P events Db.init where
  chain _ := chain_nil
  position _ _ _ h := nomatch h
  returned _ _ h := nomatch h

section Step

variable {db db' : Db ι PyError LedgerRow LedgerAppendResult} {i : ι}

/-- A step that leaves the table alone keeps the invariant, when the append it moves is at a
position again or has closed. -/
theorem inv_move (hinv : Inv P events db) (s : Session PyError LedgerRow LedgerAppendResult)
    (hposition : ∀ pending rest, s = .running pending rest →
      At P (events i) db.rows pending rest)
    (hreturned : ∀ result, s = .closed (.ok result) →
      result = duplicate (events i) ∧ db.written i = []
        ∧ ∃ r ∈ db.rows, r.event.event_id = (events i).event_id) :
    Inv P events (db.move i s) where
  chain := hinv.chain
  position j pending rest h := by
    by_cases hj : j = i
    · subst hj
      rw [Db.sessions_move_same] at h
      exact hposition pending rest h
    · rw [Db.sessions_move_other db i s hj] at h
      exact hinv.position j pending rest h
  returned j result h := by
    by_cases hj : j = i
    · subst hj
      rw [Db.sessions_move_same] at h
      exact Or.inr (hreturned result h)
    · rw [Db.sessions_move_other db i s hj] at h
      exact hinv.returned j result h

/-- **The insert.** The constraint lets only an up-to-date row through: a number that lags is
taken, so number and hash are those of the end of the trace. -/
theorem inserted_of_seen {event : LedgerEvent} {rows : List LedgerRow} {k j : ℕ}
    (hc : Chain (compute_event_hash P) (of_trace event.trace_id rows)) (hkj : k ≤ j)
    (hj : j ≤ (of_trace event.trace_id rows).length)
    (seen : ∀ r ∈ rows,
      ¬ conflict (new_row P event (k + 1) (hash_before (of_trace event.trace_id rows) j)) r) :
    k = (of_trace event.trace_id rows).length ∧ j = (of_trace event.trace_id rows).length := by
  have hk : ¬ k < (of_trace event.trace_id rows).length := by
    -- a number that has been given out is the number of a row in the table
    intro hlt
    obtain ⟨r, hr, hseq⟩ := exists_sequence_no hc hlt
    obtain ⟨hmem, ht⟩ := mem_of_trace.mp hr
    exact seen r hmem (Or.inr ⟨ht.symm, hseq.symm⟩)
  omega

@[simp] theorem next_row_event (event : LedgerEvent) (rows : List LedgerRow) :
    (next_row P event rows).event = event := rfl

theorem of_trace_next_row (t : UUID) (event : LedgerEvent) (rows : List LedgerRow) :
    of_trace t [next_row P event rows]
      = if event.trace_id = t then [next_row P event rows] else [] := by
  by_cases ht : event.trace_id = t
  · simp [of_trace, ht]
  · simp [of_trace, ht]

/-- Two appends to one trace would insert the same number. -/
theorem conflict_next_row {a b : LedgerEvent} (rows : List LedgerRow)
    (h : a.trace_id = b.trace_id) : conflict (next_row P a rows) (next_row P b rows) := by
  refine Or.inr ⟨h, ?_⟩
  show (of_trace a.trace_id rows).length + 1 = (of_trace b.trace_id rows).length + 1
  rw [h]

theorem chain_publish (hinv : Inv P events db) (event : LedgerEvent) (t : UUID) :
    Chain (compute_event_hash P) (of_trace t (db.rows ++ [next_row P event db.rows])) := by
  rw [of_trace_append, of_trace_next_row]
  by_cases ht : event.trace_id = t
  · subst ht
    rw [if_pos rfl]
    exact chain_concat (hinv.chain _) rfl rfl rfl
  · rw [if_neg ht, List.append_nil]
    exact hinv.chain t

/-- **The commit.** The row extends the chain of its trace, and no other append has a row of
that trace pending. -/
theorem inv_publish (hinv : Inv P events db) (hcf : ConflictFree (system P events) db)
    (hwritten : db.written i = []) {pending : List LedgerRow} {result : LedgerAppendResult}
    (h : db.sessions i = .running pending (.commit result)) :
    Inv P events (db.publish i pending result) := by
  have hat := hinv.position i pending _ h
  obtain ⟨rfl, hne⟩ := hat.of_commit
  obtain rfl := hat.of_pending hne
  constructor
  · intro t
    rw [Db.rows_publish]
    exact chain_publish hinv (events i) t
  · intro j pending' rest' hj'
    have hji : j ≠ i := by
      rintro rfl
      rw [Db.sessions_publish_same] at hj'
      exact nomatch hj'
    rw [Db.sessions_publish_other db i _ _ hji] at hj'
    have hatj := hinv.position j pending' rest' hj'
    rw [Db.rows_publish]
    refine hatj.grow _ ?_
    intro hne'
    obtain rfl := hatj.of_pending hne'
    rw [of_trace_next_row]
    refine if_neg ?_
    intro ht
    have hpi : (db.sessions i).pending = [next_row P (events i) db.rows] := by
      rw [h]
      rfl
    have hpj : (db.sessions j).pending = [next_row P (events j) db.rows] := by
      rw [hj']
      rfl
    -- two pending rows of one trace would have the same number
    have hfree := hcf.across i j (Ne.symm hji) (next_row P (events i) db.rows) (by simp [hpi])
      (next_row P (events j) db.rows) (by simp [hpj])
    exact hfree (conflict_next_row db.rows ht)
  · intro j result' hj'
    rw [Db.rows_publish]
    by_cases hji : j = i
    · subst hji
      rw [Db.sessions_publish_same] at hj'
      obtain rfl : accepted (events j) = result' := by simpa using hj'
      refine Or.inl ⟨rfl, ?_⟩
      rw [Db.written_publish_same, hwritten]
      rfl
    · rw [Db.sessions_publish_other db i _ _ hji] at hj'
      rw [Db.written_publish_other db i _ _ hji]
      rcases hinv.returned j result' hj' with hacc | ⟨hdup, hw, r, hr, hid⟩
      · exact Or.inl hacc
      · exact Or.inr ⟨hdup, hw, r, List.mem_append_left _ hr, hid⟩

/-- **The step lemma.** -/
theorem inv_step (hr : Reachable (system P events) db) (hinv : Inv P events db)
    (hs : Step (system P events) i db db') : Inv P events db' := by
  have hcf := reachable_conflictFree hr
  have hwritten : (∀ answer, db.sessions i ≠ .closed answer) → db.written i = [] := by
    intro hopen
    rcases reachable_written hr i with hnil | ⟨result, hcl⟩
    · exact hnil
    · exact absurd hcl (hopen _)
  have hnil := hwritten hs.not_closed
  rcases hs with h | h | ⟨h, seen, others⟩ | h | h | h | ⟨e, h⟩
  case begin =>
    refine inv_move hinv _ ?_ ?_
    · intro pending rest hrun
      obtain ⟨rfl, rfl⟩ := Session.running.inj hrun
      exact At.started
    · exact fun _ hcl => nomatch hcl
  case select =>
    obtain ⟨rfl, hnext⟩ := (hinv.position i _ _ h).of_select (hinv.chain _)
    refine inv_move hinv _ ?_ ?_
    · intro pending rest hrun
      obtain ⟨rfl, rfl⟩ := Session.running.inj hrun
      rw [List.append_nil]
      exact hnext
    · exact fun _ hcl => nomatch hcl
  case insert =>
    obtain ⟨rfl, rfl, k, j, hkj, hj, rfl⟩ := (hinv.position i _ _ h).of_insert
    rw [List.append_nil] at seen
    -- the row got past the constraint, so neither read was stale
    obtain ⟨rfl, hjn⟩ := inserted_of_seen (hinv.chain _) hkj hj seen
    refine inv_move hinv _ ?_ ?_
    · intro pending rest hrun
      obtain ⟨rfl, rfl⟩ := Session.running.inj hrun
      rw [hjn]
      exact At.inserted
    · exact fun _ hcl => nomatch hcl
  case commit => exact inv_publish hinv hcf hnil h
  case rollback =>
    refine inv_move hinv _ (fun _ _ hrun => nomatch hrun) ?_
    intro result hcl
    rcases (hinv.position i _ _ h).of_rollback with ⟨e, rfl⟩ | ⟨rfl, hfound⟩
    · exact nomatch hcl
    · obtain rfl : duplicate (events i) = result := by simpa using hcl
      exact ⟨rfl, hnil, hfound⟩
  all_goals
    refine inv_move hinv _ (fun _ _ hrun => nomatch hrun) ?_
    exact fun _ hcl => nomatch hcl

theorem reachable_inv (h : Reachable (system P events) db) : Inv P events db := by
  induction h with
  | init => exact inv_init
  | step hr hs ih => exact inv_step hr ih hs

end Step

/-! ## What every interleaving keeps -/

/-- The rules of the table, of the appends that have ended and of the statements that can come
next. -/
structure LedgerLaws (P : Platform) (events : ι → LedgerEvent)
    (db : Db ι PyError LedgerRow LedgerAppendResult) : Prop where
  /-- The chain of every trace. -/
  chain : ∀ t, Chain (compute_event_hash P) (of_trace t db.rows)
  /-- The ids are unique. -/
  event_ids : (db.rows.map (fun r => r.event.event_id)).Nodup
  /-- An append that answered `ACCEPTED` has written its event, once. -/
  wrote_once : ∀ i, db.sessions i = .closed (.ok (accepted (events i))) →
    (db.written i).map Row.event = [events i]
  /-- Any other append has written nothing, in particular one that raised. -/
  wrote_nothing : ∀ i, db.sessions i ≠ .closed (.ok (accepted (events i))) → db.written i = []
  /-- A statement that ends an append with an exception leaves the table as it is. -/
  raises : ∀ i db' e, Step (system P events) i db db' → db'.sessions i = .closed (.error e) →
    db'.committed = db.committed

/-- **Hash-chain integrity.** However the statements of the appends interleave, every trace in
the committed table is a chain, and an append that raises has not touched the table. -/
theorem hash_chain_integrity (P : Platform) (events : ι → LedgerEvent)
    {db : Db ι PyError LedgerRow LedgerAppendResult} (h : Reachable (system P events) db) :
    LedgerLaws P events db := by
  have hinv := reachable_inv h
  constructor
  · exact hinv.chain
  · have hrows := (reachable_conflictFree h).rows
    rw [List.Nodup, List.pairwise_map]
    refine hrows.imp ?_
    intro a b hab hid
    exact hab (Or.inl hid)
  · intro i hi
    rcases hinv.returned i _ hi with ⟨-, hw⟩ | ⟨hdup, -⟩
    · exact hw
    · exact absurd (congrArg LedgerAppendResult.status hdup) (by simp [duplicate, accepted])
  · intro i hi
    rcases reachable_written h i with hnil | ⟨result, hcl⟩
    · exact hnil
    · rcases hinv.returned i result hcl with ⟨rfl, -⟩ | ⟨-, hw, -⟩
      · exact absurd hcl hi
      · exact hw
  · intro i db' e hs hcl
    rcases hs.table with htab | ⟨pending, result, -, rfl⟩
    · exact htab
    · rw [Db.sessions_publish_same] at hcl
      exact nomatch hcl

end Invariant

/-! Two clients append to one trace at the same time. Both read that the next number is 1; the
first commits before the second has read the last hash, so the second is about to write the
number 1 with the hash of row 1. -/

namespace Race

def platform : Platform where
  ast_parse _ := .error "invalid syntax"
  uuid5 namespace_ _ := namespace_
  sha256_hexdigest text :=
    if text = "\x7b\"decision_id\":\"dddddddd-dddd-dddd-dddd-dddddddddddd\","
      ++ "\"event_id\":\"aaaaaaaa-aaaa-aaaa-aaaa-aaaaaaaaaaaa\",\"prev_hash\":null,"
      ++ "\"sequence_no\":1,\"step_id\":\"s\",\"step_type\":\"signal\","
      ++ "\"trace_id\":\"cccccccc-cccc-cccc-cccc-cccccccccccc\"\x7d" then
      "6634ab2791b7cee5109be4af0a115165b18c4af1b94ece25005dc3938c04c7e8"
    else ""
  float _ := none
  repr text := "'" ++ text ++ "'"
  isalnum _ := false
  decimal _ := none

/-- The events of the two clients. -/
def events (i : Fin 2) : LedgerEvent where
  event_id := UUID.repeated (if i = 0 then 0xa else 0xb)
  schema_version := "1.0"
  trace_id := UUID.repeated 0xc
  decision_id := UUID.repeated 0xd
  flow_id := UUID.repeated 0xf
  flow_version := "1.0.0"
  step_type := "signal"
  step_id := "s"
  payload := []
  occurred_at := ⟨0, some 0⟩

end Race

theorem hash_chain_integrity_race : ∃ db,
    Reachable (system Race.platform Race.events) db
      ∧ db.rows.map Row.event_hash
          = ["6634ab2791b7cee5109be4af0a115165b18c4af1b94ece25005dc3938c04c7e8"]
      ∧ (∃ e, db.sessions 1 = .closed (.error e))
      ∧ LedgerLaws Race.platform Race.events db := by
  have h0 := Reachable.init (S := system Race.platform Race.events)
  have h1 := h0.step (Step.begin (i := 0) rfl)
  have h2 := h1.step (Step.begin (i := 1) rfl)
  have h3 := h2.step (Step.select (i := 0) rfl)
  have h4 := h3.step (Step.select (i := 0) rfl)
  have h5 := h4.step (Step.select (i := 1) rfl)
  have h6 := h5.step (Step.select (i := 1) rfl)
  have h7 := h6.step (Step.select (i := 0) rfl)
  have h8 := h7.step (Step.insert (i := 0) rfl (fun r hr => nomatch hr) (fun j _ r hr => by
    fin_cases j <;> exact nomatch hr))
  have h9 := h8.step (Step.commit (i := 0) rfl)
  have h10 := h9.step (Step.select (i := 1) rfl)
  let row (i : Fin 2) := new_row Race.platform (Race.events i) 1
  have hlate : conflict (row 1 (some (row 0 none).event_hash)) (row 0 none) := Or.inr ⟨rfl, rfl⟩
  have h11 := h10.step (Step.violate (i := 1) rfl ⟨row 0 none, List.mem_cons_self, hlate⟩)
  refine ⟨_, h11, ?_, ⟨_, rfl⟩, hash_chain_integrity Race.platform Race.events h11⟩
  show [(row 0 none).event_hash] = _
  decide +kernel

end PostgresLedgerClient

end DecisionRuntime
