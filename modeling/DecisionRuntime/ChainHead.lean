/-
What the hash chain of a trace vouches for.

The rows of a trace are read in the order of `sequence_no`. The hash of an event
covers its identity and its place (`Sealed`), by the injectivity of the canonical
text, so the last hash of a trace fixes the identity and the place of every event
before it (`chain_head_fixes_order`). It covers nothing else: an event altered in
its payload, its flow or its time still has the hash of its row
(`altered_events_detected_iff`).
-/
import DecisionRuntime.CanonicalJson

set_option autoImplicit false

namespace DecisionRuntime

namespace PostgresLedgerClient

open HashChain

/-! ## A trace of a table -/

/-- `SELECT … WHERE trace_id = %s ORDER BY sequence_no ASC`. -/
def trace_rows (trace_id : UUID) (rows : List LedgerRow) : List LedgerRow :=
  (of_trace trace_id rows).mergeSort (fun a b => a.sequence_no ≤ b.sequence_no)

/-- The chain rules hold of the rows of a trace. -/
def ChainValid (P : Platform) (trace_id : UUID) (rows : List LedgerRow) : Prop :=
  Chain (compute_event_hash P) (trace_rows trace_id rows)

/-- The last `event_hash` of a trace. -/
def chain_head (trace_id : UUID) (rows : List LedgerRow) : Option String :=
  (trace_rows trace_id rows).getLast?.map Row.event_hash

/-- The texts that were hashed for the rows. -/
def hash_inputs (rows : List LedgerRow) : Set String :=
  {text | ∃ r ∈ rows, text = serialised r.event r.sequence_no r.prev_hash}

theorem mem_trace_rows {t : UUID} {rows : List LedgerRow} {r : LedgerRow} :
    r ∈ trace_rows t rows ↔ r ∈ of_trace t rows := by
  rw [trace_rows, List.mem_mergeSort]

/-- The rows of a trace were committed in the order of their numbers. -/
theorem trace_rows_eq {P : Platform} {t : UUID} {rows : List LedgerRow}
    (hc : Chain (compute_event_hash P) (of_trace t rows)) :
    trace_rows t rows = of_trace t rows := by
  have hsorted : ((of_trace t rows).map Row.sequence_no).Pairwise (· ≤ ·) := by
    rw [hc.numbered]
    exact List.pairwise_le_range'
  apply List.mergeSort_of_pairwise
  rw [List.pairwise_map] at hsorted
  simpa using hsorted

/-- However the appends interleave, every trace of the table is chain-valid. -/
theorem chainValid_of_reachable {ι : Type} [DecidableEq ι] {P : Platform}
    {events : ι → LedgerEvent} {db : ReadCommitted.Db ι PyError LedgerRow LedgerAppendResult}
    (h : ReadCommitted.Reachable (system P events) db) (t : UUID) : ChainValid P t db.rows := by
  have hc := (reachable_inv h).chain t
  rw [ChainValid, trace_rows_eq hc]
  exact hc

theorem chain_head_eq (t : UUID) (rows : List LedgerRow) :
    chain_head t rows = hash_before (trace_rows t rows) (trace_rows t rows).length := by
  rw [hash_before, List.take_length, chain_head]

/-- Without a collision, rows of one hash have the same sealed facts. -/
theorem sealed_of_compute_event_hash {P : Platform} {texts : Set String}
    (hsha : Set.InjOn P.sha256_hexdigest texts) {e f : LedgerEvent} {m n : ℕ}
    {p q : Option String} (he : serialised e m p ∈ texts) (hf : serialised f n q ∈ texts)
    (h : compute_event_hash P e m p = compute_event_hash P f n q) : sealed e m p = sealed f n q :=
  serialised_inj.mp (hsha he hf h)

/-! ## The head of the chain -/

/-- The rows agree on the identity and the place of their events. -/
structure SameStep (r s : LedgerRow) : Prop where
  event_id : r.event.event_id = s.event.event_id
  decision_id : r.event.decision_id = s.event.decision_id
  step_type : r.event.step_type = s.event.step_type
  step_id : r.event.step_id = s.event.step_id
  sequence_no : r.sequence_no = s.sequence_no

theorem sameStep_of_sealed {r s : LedgerRow} (h : r.covered sealed = s.covered sealed) :
    SameStep r s := by
  simp only [Row.covered, sealed, Sealed.mk.injEq] at h
  obtain ⟨hdecision, hevent, -, hno, hstep, htype, -⟩ := h
  exact ⟨hevent, hdecision, htype, hstep, hno⟩

/-- **The chain head fixes the order of a trace.** -/
theorem chain_head_fixes_order (P : Platform) (trace_id : UUID) (a b : List LedgerRow)
    (ha : ChainValid P trace_id a) (hb : ChainValid P trace_id b)
    (hsha : Set.InjOn P.sha256_hexdigest
      (hash_inputs (trace_rows trace_id a) ∪ hash_inputs (trace_rows trace_id b)))
    (hhead : chain_head trace_id a = chain_head trace_id b) :
    (trace_rows trace_id a).length = (trace_rows trace_id b).length ∧
      ∀ (k : ℕ) (r s : LedgerRow), (trace_rows trace_id a)[k]? = some r →
        (trace_rows trace_id b)[k]? = some s → SameStep r s := by
  rw [chain_head_eq, chain_head_eq] at hhead
  have hcovered : (trace_rows trace_id a).map (Row.covered sealed)
      = (trace_rows trace_id b).map (Row.covered sealed) := by
    apply covered_of_head sealed ha hb
    · intro r hr s hs h
      exact sealed_of_compute_event_hash hsha (Or.inl ⟨r, hr, rfl⟩) (Or.inr ⟨s, hs, rfl⟩) h
    · intro r s h
      simp only [Row.covered, sealed, Sealed.mk.injEq] at h
      exact h.2.2.1
    · exact hhead
  constructor
  · simpa using congrArg List.length hcovered
  · intro k r s hr hs
    apply sameStep_of_sealed
    have hk := congrArg (·[k]?) hcovered
    simpa [hr, hs] using hk

/-! A hash function without collisions, and a decision that was recorded as approved. -/

namespace Sealing

def platform : Platform := { Race.platform with sha256_hexdigest := fun text => text }

def signal : LedgerEvent := Race.events ⟨0, Nat.two_pos⟩

def outcome (status : String) : LedgerEvent :=
  { Race.events ⟨1, Nat.one_lt_two⟩ with
    step_type := "outcome"
    payload := [("status", .str status)] }

def first : LedgerRow := new_row platform signal 1 none

def second (status : String) : LedgerRow :=
  new_row platform (outcome status) 2 (some first.event_hash)

/-- The table after the two appends. -/
def table (status : String) : List LedgerRow := [first, second status]

theorem chain_table (status : String) :
    Chain (compute_event_hash platform) (of_trace signal.trace_id (table status)) := by
  have hfirst : Chain (compute_event_hash platform) [first] := chain_concat chain_nil rfl rfl rfl
  have hof : of_trace signal.trace_id (table status) = [first] ++ [second status] := rfl
  rw [hof]
  exact chain_concat hfirst rfl rfl rfl

theorem chainValid_table (status : String) :
    ChainValid platform signal.trace_id (table status) := by
  rw [ChainValid, trace_rows_eq (chain_table status)]
  exact chain_table status

theorem sha256_injOn (texts : Set String) : Set.InjOn platform.sha256_hexdigest texts :=
  Function.injective_id.injOn

end Sealing

theorem chain_head_fixes_order_outcome :
    (trace_rows Sealing.signal.trace_id (Sealing.table "approved")).length
        = (trace_rows Sealing.signal.trace_id (Sealing.table "rejected")).length ∧
      ∀ (k : ℕ) (r s : LedgerRow),
        (trace_rows Sealing.signal.trace_id (Sealing.table "approved"))[k]? = some r →
        (trace_rows Sealing.signal.trace_id (Sealing.table "rejected"))[k]? = some s →
        SameStep r s := by
  apply chain_head_fixes_order Sealing.platform Sealing.signal.trace_id
  · exact Sealing.chainValid_table "approved"
  · exact Sealing.chainValid_table "rejected"
  · exact Sealing.sha256_injOn _
  · rw [chain_head, chain_head, trace_rows_eq (Sealing.chain_table "approved"),
      trace_rows_eq (Sealing.chain_table "rejected")]
    rfl

/-! ## Altered events -/

/-- The event keeps what its hash covers, apart from its place. -/
structure SameIdentity (e f : LedgerEvent) : Prop where
  event_id : e.event_id = f.event_id
  decision_id : e.decision_id = f.decision_id
  step_type : e.step_type = f.step_type
  step_id : e.step_id = f.step_id

theorem sealed_eq_iff {e f : LedgerEvent} (ht : e.trace_id = f.trace_id) (n : ℕ)
    (p : Option String) : sealed e n p = sealed f n p ↔ SameIdentity e f := by
  simp only [sealed, Sealed.mk.injEq, ht, and_true, true_and]
  constructor
  · rintro ⟨hdecision, hevent, hstep, htype⟩
    exact ⟨hevent, hdecision, htype, hstep⟩
  · intro h
    exact ⟨h.decision_id, h.event_id, h.step_id, h.step_type⟩

section Alter

variable {t : UUID} {rows : List LedgerRow} {edit : LedgerRow → LedgerEvent}

/-- Altering events within their trace commutes with reading the trace. -/
theorem trace_rows_alter (htrace : ∀ r ∈ rows, (edit r).trace_id = r.event.trace_id) :
    trace_rows t (rows.map (Row.alter edit)) = (trace_rows t rows).map (Row.alter edit) := by
  have hof : of_trace t (rows.map (Row.alter edit)) = (of_trace t rows).map (Row.alter edit) := by
    rw [of_trace, of_trace, List.filter_map]
    congr 1
    apply List.filter_congr
    intro r hr
    simp only [Function.comp_apply, Row.alter, htrace r hr]
  rw [trace_rows, hof, trace_rows, List.map_mergeSort]
  intro a _ b _
  rfl

end Alter

/-- **What an alteration in place does to the chain.** It goes unnoticed when every event of the
trace keeps its identity; otherwise the hash of some row is no longer the hash of its event. -/
theorem altered_events_detected_iff (P : Platform) (trace_id : UUID) (rows : List LedgerRow)
    (hvalid : ChainValid P trace_id rows) (edit : LedgerRow → LedgerEvent)
    (htrace : ∀ r ∈ rows, (edit r).trace_id = r.event.trace_id) :
    ((∀ r ∈ of_trace trace_id rows, SameIdentity (edit r) r.event) →
        ChainValid P trace_id (rows.map (Row.alter edit))) ∧
      (Set.InjOn P.sha256_hexdigest
          (hash_inputs rows ∪ hash_inputs (rows.map (Row.alter edit))) →
        (∃ r ∈ of_trace trace_id rows, ¬ SameIdentity (edit r) r.event) →
        ∃ s ∈ of_trace trace_id (rows.map (Row.alter edit)),
          s.event_hash ≠ compute_event_hash P s.event s.sequence_no s.prev_hash) := by
  have halter := trace_rows_alter (t := trace_id) htrace
  have hsame : ∀ r ∈ rows, sealed (edit r) r.sequence_no r.prev_hash
      = sealed r.event r.sequence_no r.prev_hash ↔ SameIdentity (edit r) r.event :=
    fun r hr => sealed_eq_iff (htrace r hr) _ _
  constructor
  · intro hid
    -- the hash of a row is that of its sealed facts, and those are the same
    rw [ChainValid, halter, chain_alter_iff hvalid]
    intro r hr
    have hr' := mem_trace_rows.mp hr
    have hseal := (hsame r (mem_of_trace.mp hr').1).mpr (hid r hr')
    rw [compute_event_hash, serialised_inj.mpr hseal, compute_event_hash]
  · rintro hsha ⟨r, hr, hdiff⟩
    have hmem := (mem_of_trace.mp hr).1
    have hr' : r.alter edit ∈ trace_rows trace_id (rows.map (Row.alter edit)) := by
      rw [halter]
      exact List.mem_map_of_mem (mem_trace_rows.mpr hr)
    refine ⟨r.alter edit, mem_trace_rows.mp hr', ?_⟩
    intro hhash
    apply hdiff
    apply (hsame r hmem).mp
    -- the row keeps its hash, so the facts sealed by it would be the old ones
    have hold := hvalid.sealed r (mem_trace_rows.mpr hr)
    exact sealed_of_compute_event_hash hsha (Or.inr ⟨_, List.mem_map_of_mem hmem, rfl⟩)
      (Or.inl ⟨r, hmem, rfl⟩) (hhash.symm.trans hold)

namespace Sealing

/-- The recorded status becomes `rejected`. -/
def falsify (r : LedgerRow) : LedgerEvent :=
  if r.event.step_type = "outcome" then outcome "rejected" else r.event

/-- The recorded outcome is filed under another step. -/
def refile (r : LedgerRow) : LedgerEvent := { r.event with step_id := "other" }

end Sealing

/-- The status of a recorded outcome is changed, no hash column is, and the chain is valid. -/
theorem altered_payload_undetected :
    Function.Injective Sealing.platform.sha256_hexdigest ∧
      ChainValid Sealing.platform Sealing.signal.trace_id (Sealing.table "approved") ∧
      (∃ r ∈ of_trace Sealing.signal.trace_id (Sealing.table "approved"),
        (r.alter Sealing.falsify).event.payload ≠ r.event.payload) ∧
      ChainValid Sealing.platform Sealing.signal.trace_id
        ((Sealing.table "approved").map (Row.alter Sealing.falsify)) := by
  have htable : (Sealing.table "approved").map (Row.alter Sealing.falsify)
      = Sealing.table "rejected" := rfl
  rw [htable]
  have hsecond : Sealing.second "approved"
      ∈ of_trace Sealing.signal.trace_id (Sealing.table "approved") :=
    List.mem_cons_of_mem _ List.mem_cons_self
  refine ⟨Function.injective_id, Sealing.chainValid_table _, ⟨_, hsecond, ?_⟩,
    Sealing.chainValid_table _⟩
  intro h
  have hpayload : [("status", Value.str "rejected")] = [("status", Value.str "approved")] := h
  simp at hpayload

theorem altered_events_detected_iff_refiled :
    ∃ s ∈ of_trace Sealing.signal.trace_id
        ((Sealing.table "approved").map (Row.alter Sealing.refile)),
      s.event_hash ≠ compute_event_hash Sealing.platform s.event s.sequence_no s.prev_hash := by
  have hfirst : Sealing.first ∈ of_trace Sealing.signal.trace_id (Sealing.table "approved") :=
    List.mem_cons_self
  refine (altered_events_detected_iff Sealing.platform Sealing.signal.trace_id
    (Sealing.table "approved") (Sealing.chainValid_table "approved") Sealing.refile
    (fun r _ => rfl)).2 (Sealing.sha256_injOn _) ⟨Sealing.first, hfirst, ?_⟩
  intro h
  exact absurd h.step_id (by decide)

end PostgresLedgerClient

end DecisionRuntime
