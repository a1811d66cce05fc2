/-
Concurrent appends as operations.

However the statements of the appends interleave, and whichever of them fail, the
appends that have answered look like calls of the in-memory client, one after the
other (`appends_linearizable`): `ACCEPTED` takes effect with the `COMMIT`, and
`DUPLICATE` with the `ROLLBACK`. An append that raises is not there at all.

What the constraints cost is the second half. As long as the database itself does not
fail, an append can only wait or raise because of another open append to its trace:
when the appends of a trace do not overlap, each of them takes its six statements
without ever waiting and answers `ACCEPTED`, whatever is appended to the other traces
meanwhile (`exclusive_traces_wait_free`).
-/
import DecisionRuntime.LedgerBackends
import DecisionRuntime.Linearization
import Mathlib.Tactic.IntervalCases

set_option autoImplicit false

namespace DecisionRuntime

namespace PostgresLedgerClient

open HashChain ReadCommitted

section Appends

variable {ι : Type} [DecidableEq ι] {P : Platform} {events : ι → LedgerEvent}
  {db db' : Db ι PyError LedgerRow LedgerAppendResult} {i : ι}

/-! ## The appends, one after the other -/

/-- The table holds the events of the in-memory client, in its order. -/
def SameEvents (L : LedgerClient) (rows : List LedgerRow) : Prop :=
  L.events = rows.map Row.event

omit [DecidableEq ι] in
theorem SameEvents.mem_seen_ids {L : LedgerClient} {rows : List LedgerRow}
    (h : SameEvents L rows) (u : UUID) : u ∈ L.seen_ids ↔ ∃ r ∈ rows, r.event.event_id = u := by
  rw [L.seen_ids_eq, h, List.map_map, List.mem_map]
  rfl

/-- The append takes effect with its last statement. -/
theorem linearizes_append (P : Platform) (events : ι → LedgerEvent) :
    Linearizes (system P events) (fun i => LedgerClient.append (events i)) SameEvents := by
  intro db i db' L a hr hsame hs ha
  have hinv := reachable_inv hr
  rcases hs with _ | _ | _ | _ | h | h | ⟨e, _⟩
  case commit =>
    have hat := hinv.position i _ _ h
    obtain ⟨rfl, hne⟩ := hat.of_commit
    obtain rfl := hat.of_pending hne
    rw [Db.sessions_publish_same] at ha
    obtain rfl : accepted (events i) = a := by simpa using ha
    -- the constraint has let the row through, so the id is new
    have hpair := (reachable_conflictFree hr).pending i
    rw [h] at hpair
    have hnew : (events i).event_id ∉ L.seen_ids := by
      rw [hsame.mem_seen_ids]
      rintro ⟨r, hrow, hid⟩
      exact (List.pairwise_append.mp hpair).2.2 r hrow _ (List.mem_singleton_self _) (Or.inl hid)
    refine ⟨L.push (events i) hnew, ?_, ?_⟩
    · show LedgerClient.append (events i) L = _
      rw [LedgerClient.append, dif_neg hnew]
      rfl
    · rw [Db.rows_publish, SameEvents, List.map_append]
      exact congrArg (· ++ [events i]) hsame
  case rollback =>
    rw [Db.sessions_move_same] at ha
    rcases (hinv.position i _ _ h).of_rollback with ⟨e, rfl⟩ | ⟨rfl, hfound⟩
    · cases ha
    · obtain rfl : duplicate (events i) = a := by simpa using ha
      refine ⟨L, ?_, hsame⟩
      show LedgerClient.append (events i) L = _
      rw [LedgerClient.append, dif_pos ((hsame.mem_seen_ids _).mpr hfound)]
      rfl
  all_goals
    rw [Db.sessions_move_same] at ha
    cases ha

/-- **Linearizability.** However the statements of the appends interleave, the appends that have
answered can be put in an order in which the in-memory client gives each the same answer and ends
with the events of the table; the appends that have not answered have left nothing. Whatever
happens next, this order only grows at its end. -/
theorem appends_linearizable (P : Platform) (events : ι → LedgerEvent)
    (h : Reachable (system P events) db) :
    ∃ order, Linearized (fun i => LedgerClient.append (events i)) LedgerClient.init SameEvents
        db order
      ∧ ∀ db', Steps (system P events) db db' →
        ∃ more, Linearized (fun i => LedgerClient.append (events i)) LedgerClient.init SameEvents
          db' (order ++ more) := by
  have hinit : SameEvents LedgerClient.init [] := rfl
  obtain ⟨order, horder⟩ := linearized_reachable (linearizes_append P events) hinit h
  exact ⟨order, horder, fun db' hsteps => horder.grows (linearizes_append P events) h hsteps⟩

/-- The race for one trace: the second client has raised, and the order is that of the first. -/
theorem appends_linearizable_race : ∃ db : Db (Fin 2) PyError LedgerRow LedgerAppendResult,
    db.sessions 1 = .closed (.error (.external "UniqueViolation"))
      ∧ ∃ order, Linearized (fun i => LedgerClient.append (Race.events i)) LedgerClient.init
          SameEvents db order
        ∧ ∀ db', Steps (system Race.platform Race.events) db db' →
          ∃ more, Linearized (fun i => LedgerClient.append (Race.events i)) LedgerClient.init
            SameEvents db' (order ++ more) := by
  have h0 := Reachable.init (S := system Race.platform Race.events)
  have h1 := h0.step (Step.begin (i := 0) rfl)
  have h2 := h1.step (Step.begin (i := 1) rfl)
  have h3 := h2.step (Step.select (i := 0) rfl)
  have h4 := h3.step (Step.select (i := 0) rfl)
  have h5 := h4.step (Step.select (i := 1) rfl)
  have h6 := h5.step (Step.select (i := 1) rfl)
  have h7 := h6.step (Step.select (i := 0) rfl)
  have h8 := h7.step (Step.insert (i := 0) rfl (fun r hr => nomatch hr) (fun j _ r hr => by
    fin_cases j <;> exact nomatch hr))
  have h9 := h8.step (Step.commit (i := 0) rfl)
  have h10 := h9.step (Step.select (i := 1) rfl)
  let row (i : Fin 2) := new_row Race.platform (Race.events i) 1
  have hlate : conflict (row 1 (some (row 0 none).event_hash)) (row 0 none) := Or.inr ⟨rfl, rfl⟩
  have h11 := h10.step (Step.violate (i := 1) rfl ⟨row 0 none, List.mem_cons_self, hlate⟩)
  exact ⟨_, rfl, appends_linearizable Race.platform Race.events h11⟩

/-! ## One open append for each trace -/

/-- No two appends to one trace are open at the same time. -/
def Exclusive (events : ι → LedgerEvent) (db : Db ι PyError LedgerRow LedgerAppendResult) : Prop :=
  ∀ i j, i ≠ j → (events i).trace_id = (events j).trace_id →
    ∀ pending rest pending' rest', db.sessions i = .running pending rest →
      db.sessions j ≠ .running pending' rest'

/-- How many statements of the append have run. -/
def taken (ts : List (Transition ι PyError LedgerRow LedgerAppendResult)) (i : ι) : ℕ :=
  ts.countP fun t => t.who = i

/-- Where an append is that nobody has disturbed, after so many of its statements. -/
def place (P : Platform) (event : LedgerEvent) (rows : List LedgerRow) :
    ℕ → Session PyError LedgerRow LedgerAppendResult
  | 0 => .waiting
  | 1 => .running [] (append P event)
  | 2 => .running [] (read_sequence_no P event)
  | 3 => .running [] (read_prev_hash P event ((of_trace event.trace_id rows).length + 1))
  | 4 => .running [] (.insert (next_row P event rows) (.commit (accepted event)))
  | 5 => .running [next_row P event rows] (.commit (accepted event))
  | _ => .closed (.ok (accepted event))

/-- Rows of other traces do not move an append, and no row moves one that is not open. -/
theorem place_append {event : LedgerEvent} {rows more : List LedgerRow} {n : ℕ}
    (h : of_trace event.trace_id more = []
      ∨ ∀ pending rest, place P event rows n ≠ .running pending rest) :
    place P event (rows ++ more) n = place P event rows n := by
  rcases h with hnone | hclosed
  · have hsame : of_trace event.trace_id (rows ++ more) = of_trace event.trace_id rows := by
      rw [of_trace_append, hnone, List.append_nil]
    unfold place next_row
    rw [hsame]
  · match n with
    | 0 => rfl
    | 1 => exact absurd rfl (hclosed _ _)
    | 2 => exact absurd rfl (hclosed _ _)
    | 3 => exact absurd rfl (hclosed _ _)
    | 4 => exact absurd rfl (hclosed _ _)
    | 5 => exact absurd rfl (hclosed _ _)
    | n + 6 => rfl

/-- An append has a row pending only after its insert. -/
theorem place_pending {event : LedgerEvent} {rows : List LedgerRow} {n : ℕ} {r : LedgerRow}
    (hr : r ∈ (place P event rows n).pending) : n = 5 ∧ r = next_row P event rows := by
  match n with
  | 0 => exact absurd hr List.not_mem_nil
  | 1 => exact absurd hr List.not_mem_nil
  | 2 => exact absurd hr List.not_mem_nil
  | 3 => exact absurd hr List.not_mem_nil
  | 4 => exact absurd hr List.not_mem_nil
  | 5 => exact ⟨rfl, List.mem_singleton.mp hr⟩
  | n + 6 => exact absurd hr List.not_mem_nil

/-- Where every append is, and where the rows come from. -/
structure Undisturbed (P : Platform) (events : ι → LedgerEvent)
    (ts : List (Transition ι PyError LedgerRow LedgerAppendResult))
    (db : Db ι PyError LedgerRow LedgerAppendResult) : Prop where
  at_place : ∀ i, db.sessions i = place P (events i) db.rows (taken ts i)
  at_most : ∀ i, taken ts i ≤ 6
  source : ∀ r ∈ db.rows, ∃ i, r.event = events i ∧ taken ts i = 6

variable {ts : List (Transition ι PyError LedgerRow LedgerAppendResult)}

theorem taken_concat (t : Transition ι PyError LedgerRow LedgerAppendResult) (j : ι) :
    taken (ts ++ [t]) j = taken ts j + if t.who = j then 1 else 0 := by
  rw [taken, List.countP_append, List.countP_singleton]
  simp only [decide_eq_true_eq]
  rfl

theorem taken_same {db' : Db ι PyError LedgerRow LedgerAppendResult} :
    taken (ts ++ [⟨i, db, db'⟩]) i = taken ts i + 1 := by
  rw [taken_concat, if_pos rfl]

theorem taken_other {db' : Db ι PyError LedgerRow LedgerAppendResult} {j : ι} (hj : j ≠ i) :
    taken (ts ++ [⟨i, db, db'⟩]) j = taken ts j := by
  rw [taken_concat, if_neg (Ne.symm hj), Nat.add_zero]

namespace Undisturbed

/-- The id of an append that has not answered is not in the table. -/
theorem new_id (h : Undisturbed P events ts db)
    (hids : Function.Injective fun i => (events i).event_id) (hopen : taken ts i < 6) :
    ¬ db.rows.any (fun r => r.event.event_id = (events i).event_id) := by
  intro hany
  obtain ⟨r, hr, hid⟩ := List.any_eq_true.mp hany
  obtain ⟨j, hj, hdone⟩ := h.source r hr
  rw [decide_eq_true_eq, hj] at hid
  rw [hids hid] at hdone
  omega

/-- A statement that leaves the table alone, and moves its append to the next place. -/
theorem move (h : Undisturbed P events ts db) (hopen : taken ts i < 5)
    {s : Session PyError LedgerRow LedgerAppendResult}
    (hs : s = place P (events i) db.rows (taken ts i + 1)) :
    Undisturbed P events (ts ++ [⟨i, db, db.move i s⟩]) (db.move i s) := by
  constructor
  · intro j
    by_cases hj : j = i
    · rw [hj, Db.sessions_move_same, taken_same, hs]
      rfl
    · rw [Db.sessions_move_other db i s hj, taken_other hj]
      exact h.at_place j
  · intro j
    by_cases hj : j = i
    · rw [hj, taken_same]
      omega
    · rw [taken_other hj]
      exact h.at_most j
  · intro r hr
    obtain ⟨j, hj, hdone⟩ := h.source r hr
    refine ⟨j, hj, ?_⟩
    rw [taken_other]
    · exact hdone
    · rintro rfl
      omega

/-- The commit moves no other append: those of the same trace are not open. -/
theorem publish (h : Undisturbed P events ts db) (hexcl : Exclusive events db)
    (htaken : taken ts i = 5) :
    Undisturbed P events
      (ts ++ [⟨i, db, db.publish i [next_row P (events i) db.rows] (accepted (events i))⟩])
      (db.publish i [next_row P (events i) db.rows] (accepted (events i))) := by
  have hplace := h.at_place i
  rw [htaken] at hplace
  constructor
  · intro j
    rw [Db.rows_publish]
    by_cases hj : j = i
    · rw [hj, Db.sessions_publish_same, taken_same, htaken]
      rfl
    · rw [Db.sessions_publish_other db i _ _ hj, taken_other hj, h.at_place j]
      refine (place_append ?_).symm
      -- an append of another trace reads nothing that the new row changes
      by_cases ht : (events i).trace_id = (events j).trace_id
      · refine Or.inr fun pending rest hrun => ?_
        rw [← h.at_place j] at hrun
        exact hexcl i j (Ne.symm hj) ht _ _ pending rest hplace hrun
      · refine Or.inl ?_
        rw [of_trace_next_row, if_neg ht]
  · intro j
    by_cases hj : j = i
    · rw [hj, taken_same]
      omega
    · rw [taken_other hj]
      exact h.at_most j
  · intro r hr
    rw [Db.rows_publish, List.mem_append, List.mem_singleton] at hr
    rcases hr with hr | rfl
    · obtain ⟨j, hj, hdone⟩ := h.source r hr
      refine ⟨j, hj, ?_⟩
      rw [taken_other]
      · exact hdone
      · rintro rfl
        omega
    · refine ⟨i, rfl, ?_⟩
      rw [taken_same, htaken]

/-- The insert breaks no constraint. -/
theorem insert_free (h : Undisturbed P events ts db) (hr : Reachable (system P events) db)
    (hids : Function.Injective fun i => (events i).event_id) (hopen : taken ts i < 6) :
    ¬ ∃ r ∈ db.rows, conflict (next_row P (events i) db.rows) r :=
  LedgerBackends.next_row_free (reachable_inv hr).chain (h.new_id hids hopen)

/-- **The step lemma.** -/
theorem step (h : Undisturbed P events ts db) (hr : Reachable (system P events) db)
    (hexcl : Exclusive events db) (hids : Function.Injective fun i => (events i).event_id)
    (hjson : ∀ i, unserializable (.dict (events i).payload) = none)
    (hs : Statement (system P events) i db db') :
    Undisturbed P events (ts ++ [⟨i, db, db'⟩]) db' := by
  have hplace := h.at_place i
  have hmost := h.at_most i
  have hchain := (reachable_inv hr).chain (events i).trace_id
  generalize htaken : taken ts i = n at hplace hmost
  have hmove : ∀ s, n < 5 → s = place P (events i) db.rows (n + 1) →
      Undisturbed P events (ts ++ [⟨i, db, db.move i s⟩]) (db.move i s) :=
    fun s hn hs' => h.move (by omega) (by rw [htaken]; exact hs')
  interval_cases n
  · obtain rfl := hs.of_waiting hplace
    exact hmove _ (by omega) rfl
  · obtain rfl := hs.of_select hplace
    apply hmove _ (by omega)
    -- the duplicate check finds nothing
    rw [List.append_nil, if_neg (h.new_id hids (by omega))]
    rfl
  · obtain rfl := hs.of_select hplace
    apply hmove _ (by omega)
    -- the chain of the trace has no gaps, so its length is its last number
    rw [List.append_nil, max_sequence_no hchain]
    rfl
  · obtain rfl := hs.of_select hplace
    apply hmove _ (by omega)
    simp only [List.append_nil, last_event_hash hchain, insert_event, hjson i]
    rfl
  · rcases hs.of_insert hplace with rfl | ⟨hseen, -⟩
    · exact hmove _ (by omega) rfl
    · rw [List.append_nil] at hseen
      exact absurd hseen (h.insert_free hr hids (by omega))
  · obtain rfl := hs.of_commit hplace
    exact h.publish hexcl htaken
  · exact absurd hplace (hs.step.not_closed _)

/-- Nothing keeps an append from its next statement. -/
theorem next_statement (h : Undisturbed P events ts db) (hr : Reachable (system P events) db)
    (hexcl : Exclusive events db) (hids : Function.Injective fun i => (events i).event_id)
    (hopen : taken ts i < 6) : ∃ db', Statement (system P events) i db db' := by
  have hplace := h.at_place i
  have hfree := h.insert_free hr hids hopen
  generalize taken ts i = n at hplace hopen
  have hok : ∀ {pending rest}, ∀ e, (db.move i (.running pending rest)).sessions i
      ≠ .closed (.error e) := by
    intro pending rest e
    rw [Db.sessions_move_same]
    simp
  interval_cases n
  · exact ⟨_, Statement.of_ok (Step.begin hplace) hok⟩
  · exact ⟨_, Statement.of_ok (Step.select hplace) hok⟩
  · exact ⟨_, Statement.of_ok (Step.select hplace) hok⟩
  · exact ⟨_, Statement.of_ok (Step.select hplace) hok⟩
  · refine ⟨_, Statement.of_ok (Step.insert hplace ?_ ?_) hok⟩
    · intro r hr hconflict
      rw [List.append_nil] at hr
      exact hfree ⟨r, hr, hconflict⟩
    · -- an append with a pending row of this trace would be open at the same time
      intro j hj r hpending hconflict
      rw [h.at_place j] at hpending
      obtain ⟨hfive, rfl⟩ := place_pending hpending
      rcases hconflict with hid | ⟨ht, -⟩
      · exact hj (hids hid).symm
      · have hrun := h.at_place j
        rw [hfive] at hrun
        exact hexcl i j (Ne.symm hj) ht _ _ _ _ hplace hrun
  · refine ⟨_, Statement.of_ok (Step.commit hplace) ?_⟩
    intro e
    rw [Db.sessions_publish_same]
    simp

end Undisturbed

theorem undisturbed_init : Undisturbed P events [] Db.init where
  at_place _ := rfl
  at_most _ := Nat.zero_le 6
  source _ hr := absurd hr List.not_mem_nil

omit [DecidableEq ι] in
theorem exclusive_init : Exclusive events Db.init := by
  intro i j _ _ pending rest pending' rest' hrun
  cases hrun

/-- The states of a run in which the appends of a trace do not overlap. -/
theorem undisturbed_run (hids : Function.Injective fun i => (events i).event_id)
    (hjson : ∀ i, unserializable (.dict (events i).payload) = none)
    (hrun : Interleaving (system P events) Db.init ts db)
    (hexcl : ∀ t ∈ ts, Exclusive events t.after) :
    Reachable (system P events) db ∧ Exclusive events db ∧ Undisturbed P events ts db := by
  induction hrun with
  | nil => exact ⟨Reachable.init, exclusive_init, undisturbed_init⟩
  | step _ hs ih =>
      obtain ⟨hr, hbefore, h⟩ := ih fun t ht => hexcl t (List.mem_append_left _ ht)
      refine ⟨hr.step hs.step, ?_, h.step hr hbefore hids hjson hs⟩
      exact hexcl _ (List.mem_append_right _ (List.mem_singleton_self _))

/-- **Wait-freedom.** The database itself does not fail, and takes every payload as `JSONB`. In
every run in which the appends of a trace do not overlap, and every event is new and can be
serialised, an append never raises and never waits: its next statement can always run, whatever the
others are doing, and after six statements it has answered `ACCEPTED`. -/
theorem exclusive_traces_wait_free (P : Platform) (events : ι → LedgerEvent)
    (hids : Function.Injective fun i => (events i).event_id)
    (hjson : ∀ i, unserializable (.dict (events i).payload) = none)
    (hrun : Interleaving (system P events) Db.init ts db)
    (hexcl : ∀ t ∈ ts, Exclusive events t.after) (i : ι) :
    taken ts i ≤ 6
      ∧ (taken ts i = 6 ↔ db.sessions i = .closed (.ok (accepted (events i))))
      ∧ (∀ e, db.sessions i ≠ .closed (.error e))
      ∧ (taken ts i < 6 → ∃ db', Statement (system P events) i db db') := by
  obtain ⟨hr, hnow, h⟩ := undisturbed_run hids hjson hrun hexcl
  have hplace := h.at_place i
  have hmost := h.at_most i
  refine ⟨hmost, ?_, ?_, h.next_statement hr hnow hids⟩
  · rw [hplace]
    generalize taken ts i = n at hmost
    interval_cases n <;> simp [place]
  · intro e
    rw [hplace]
    generalize taken ts i = n at hmost
    interval_cases n <;> simp [place]

end Appends

/-! Two clients append to two traces. The first has inserted its row and not committed it when the
second inserts its own. -/

namespace Lanes

def events (i : Fin 2) : LedgerEvent :=
  { Race.events i with trace_id := (Race.events i).event_id }

theorem exclusive (db : Db (Fin 2) PyError LedgerRow LedgerAppendResult) :
    Exclusive events db := by
  have htraces : Function.Injective fun i => (events i).trace_id := by decide
  intro i j hij ht
  exact absurd (htraces ht) hij

end Lanes

theorem exclusive_traces_wait_free_lanes : ∃ ts db,
    Interleaving (system Race.platform Lanes.events) Db.init ts db
      ∧ taken ts 0 = 5 ∧ taken ts 1 = 4
      ∧ ∃ db', Statement (system Race.platform Lanes.events) 1 db db' := by
  have h0 : Interleaving (system Race.platform Lanes.events) Db.init [] Db.init :=
    Interleaving.nil
  have h1 := h0.step (Statement.of_ok (Step.begin (i := 0) rfl) (by simp))
  have h2 := h1.step (Statement.of_ok (Step.begin (i := 1) rfl) (by simp))
  have h3 := h2.step (Statement.of_ok (Step.select (i := 0) rfl) (by simp))
  have h4 := h3.step (Statement.of_ok (Step.select (i := 1) rfl) (by simp))
  have h5 := h4.step (Statement.of_ok (Step.select (i := 0) rfl) (by simp))
  have h6 := h5.step (Statement.of_ok (Step.select (i := 1) rfl) (by simp))
  have h7 := h6.step (Statement.of_ok (Step.select (i := 0) rfl) (by simp))
  have h8 := h7.step (Statement.of_ok (Step.select (i := 1) rfl) (by simp))
  have h9 := h8.step (Statement.of_ok (Step.insert (i := 0) rfl (fun r hr => nomatch hr)
    (fun j _ r hr => by fin_cases j <;> exact nomatch hr)) (by simp))
  obtain ⟨-, -, -, hnext⟩ := exclusive_traces_wait_free Race.platform Lanes.events (by decide)
    (fun _ => rfl) h9 (fun t _ => Lanes.exclusive t.after) 1
  exact ⟨_, _, h9, rfl, rfl, hnext (by decide)⟩

end PostgresLedgerClient

end DecisionRuntime
