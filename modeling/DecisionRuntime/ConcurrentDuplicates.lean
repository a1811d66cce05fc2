/-
Clients that append the same event at the same time.

The duplicate check and the `INSERT` are separate statements, so two appends of one
event can both find it missing before either has committed it. The first to insert
then wins, and the others do not answer `DUPLICATE`: their `INSERT` violates the
primary key and raises. The appends stay idempotent exactly when only one of them
finds the event missing (`duplicates_idempotent_iff`).

`Unmissed` and `Missed` are the places an append of the event can be, before and
after its check has found the event missing; `Inv` says that every append is at one
of them, and what the table has to do with it. An append that missed can only raise
when another one missed too.
-/
import DecisionRuntime.PostgresLedgerClient

set_option autoImplicit false

namespace DecisionRuntime

namespace PostgresLedgerClient

open HashChain ReadCommitted

/-! ## The setting -/

/-- The event is in the table. -/
def recorded (event : LedgerEvent) (rows : List LedgerRow) : Prop :=
  ∃ r ∈ rows, r.event.event_id = event.event_id

/-- The clients in `dup` append `event`, to a trace and with an id that no other client uses.
Nobody has begun, and the event is new. -/
structure QuietTrace {ι : Type} (events : ι → LedgerEvent) (event : LedgerEvent) (dup : Set ι)
    (db₀ : Db ι PyError LedgerRow LedgerAppendResult) : Prop where
  same : ∀ i ∈ dup, events i = event
  other_id : ∀ i ∉ dup, (events i).event_id ≠ event.event_id
  other_trace : ∀ i ∉ dup, (events i).trace_id ≠ event.trace_id
  waiting : ∀ i, db₀.sessions i = .waiting
  new : ¬ recorded event db₀.rows

/-- Every append of the event has answered `ACCEPTED` or `DUPLICATE`, exactly one of them
`ACCEPTED`. -/
structure Idempotent {ι : Type} (event : LedgerEvent) (dup : Set ι)
    (db : Db ι PyError LedgerRow LedgerAppendResult) : Prop where
  answered : ∀ i ∈ dup, db.sessions i = .closed (.ok (accepted event))
    ∨ db.sessions i = .closed (.ok (duplicate event))
  accepted_once : ∃! i, i ∈ dup ∧ db.sessions i = .closed (.ok (accepted event))

section Duplicates

variable {ι : Type} [DecidableEq ι] (P : Platform) (event : LedgerEvent) (dup : Set ι)

/-- The statement is the duplicate check of an append of the event, and finds it missing. -/
structure Misses (t : Transition ι PyError LedgerRow LedgerAppendResult) : Prop where
  who : t.who ∈ dup
  checks : t.before.sessions t.who = .running [] (append P event)
  missing : ¬ recorded event t.before.rows

/-- An append of client `i` has found the event missing. -/
def missed (ts : List (Transition ι PyError LedgerRow LedgerAppendResult)) (i : ι) : Prop :=
  ∃ t ∈ ts, Misses P event dup t ∧ t.who = i

/-- The number of the next row of the trace. -/
def next_no (rows : List LedgerRow) : ℕ :=
  ((of_trace event.trace_id rows).map Row.sequence_no).max?.getD 0 + 1

/-! ## The places of an append -/

/-- The append has not found the event missing. `known` says that the event is recorded. -/
inductive Unmissed (known : Prop) : Session PyError LedgerRow LedgerAppendResult → Prop
  | waiting : Unmissed known .waiting
  | started : Unmissed known (.running [] (append P event))
  | found (h : known) : Unmissed known (.running [] (.rollback (.ok (duplicate event))))
  | answered (h : known) : Unmissed known (.closed (.ok (duplicate event)))

/-- The append has found the event missing. As long as the event is not recorded, its number is
the number `n` it was bound to get; it raises when the payload cannot be stored, or because of
a rival. -/
inductive Missed (n : ℕ) (known rivals : Prop) :
    Session PyError LedgerRow LedgerAppendResult → Prop
  | fresh : Missed n known rivals (.running [] (read_sequence_no P event))
  | numbered {k : ℕ} (hk : ¬ known → k = n) :
      Missed n known rivals (.running [] (read_prev_hash P event k))
  | linked {k : ℕ} {p : Option String} (hk : ¬ known → k = n) :
      Missed n known rivals (.running [] (insert_event P event k p))
  | inserted {row : LedgerRow} (hrow : row.event = event)
      (hser : unserializable (.dict event.payload) = none) :
      Missed n known rivals (.running [row] (.commit (accepted event)))
  | accepted (hser : unserializable (.dict event.payload) = none) :
      Missed n known rivals (.closed (.ok (accepted event)))
  | raised {e : PyError} (h : unserializable (.dict event.payload) ≠ none ∨ rivals) :
      Missed n known rivals (.closed (.error e))

/-- The table and the appends after the statements `ts` of a run from `db₀`. -/
structure DuplicateInv (events : ι → LedgerEvent)
    (db₀ : Db ι PyError LedgerRow LedgerAppendResult)
    (ts : List (Transition ι PyError LedgerRow LedgerAppendResult))
    (db : Db ι PyError LedgerRow LedgerAppendResult) : Prop where
  /-- The event comes from an append that missed it. -/
  source : recorded event db.rows →
    ∃ w, missed P event dup ts w ∧ db.sessions w = .closed (.ok (accepted event))
  /-- Until then nothing is added to its trace. -/
  quiet : ¬ recorded event db.rows →
    of_trace event.trace_id db.rows = of_trace event.trace_id db₀.rows
  others : ∀ i ∉ dup, (db.sessions i).Inserts (fun r => r.event = events i)
  early : ∀ i ∈ dup, ¬ missed P event dup ts i →
    Unmissed P event (recorded event db.rows) (db.sessions i)
  late : ∀ i ∈ dup, missed P event dup ts i →
    Missed P event (next_no event db₀.rows) (recorded event db.rows)
      (∃ j, j ≠ i ∧ missed P event dup ts j) (db.sessions i)

end Duplicates

section Steps

variable {ι : Type} [DecidableEq ι] {P : Platform} {events : ι → LedgerEvent} {event : LedgerEvent}
  {dup : Set ι} {db₀ db db' : Db ι PyError LedgerRow LedgerAppendResult} {i : ι}
  {ts : List (Transition ι PyError LedgerRow LedgerAppendResult)}

omit [DecidableEq ι] in
theorem missed_concat {t : Transition ι PyError LedgerRow LedgerAppendResult} {j : ι} :
    missed P event dup (ts ++ [t]) j ↔
      missed P event dup ts j ∨ Misses P event dup t ∧ t.who = j := by
  simp only [missed, List.mem_append, List.mem_singleton, or_and_right, exists_or, exists_eq_left]

omit [DecidableEq ι] in
theorem mem_dup_of_missed {j : ι} (h : missed P event dup ts j) : j ∈ dup := by
  obtain ⟨t, -, ht, rfl⟩ := h
  exact ht.who

theorem Unmissed.mono {known known' : Prop} (h : known → known')
    {s : Session PyError LedgerRow LedgerAppendResult} (hs : Unmissed P event known s) :
    Unmissed P event known' s := by
  rcases hs with _ | _ | hk | hk
  · exact Unmissed.waiting
  · exact Unmissed.started
  · exact Unmissed.found (h hk)
  · exact Unmissed.answered (h hk)

theorem Missed.mono {n : ℕ} {known known' rivals rivals' : Prop} (h : known → known')
    (hr : rivals → rivals') {s : Session PyError LedgerRow LedgerAppendResult}
    (hs : Missed P event n known rivals s) : Missed P event n known' rivals' s := by
  rcases hs with _ | hk | hk | ⟨hrow, hser⟩ | hser | hraise
  · exact Missed.fresh
  · exact Missed.numbered (fun hk' => hk (fun hkn => hk' (h hkn)))
  · exact Missed.linked (fun hk' => hk (fun hkn => hk' (h hkn)))
  · exact Missed.inserted hrow hser
  · exact Missed.accepted hser
  · exact Missed.raised (hraise.imp id hr)

theorem append_inserts (P : Platform) (event : LedgerEvent) :
    (append P event).Inserts (fun r => r.event = event) := by
  intro rows
  beta_reduce
  split
  · trivial
  · intro rows₂ rows₃
    beta_reduce
    unfold insert_event
    split
    · trivial
    · exact ⟨rfl, trivial⟩

/-- The number of the next row is not taken. -/
theorem next_no_free {rows : List LedgerRow} {r : LedgerRow}
    (hr : r ∈ of_trace event.trace_id rows) : r.sequence_no < next_no event rows := by
  have hmem : r.sequence_no ∈ (of_trace event.trace_id rows).map Row.sequence_no :=
    List.mem_map_of_mem hr
  rw [next_no]
  rcases hmax : ((of_trace event.trace_id rows).map Row.sequence_no).max? with _ | m
  · rw [List.max?_eq_none_iff] at hmax
    rw [hmax] at hmem
    exact absurd hmem List.not_mem_nil
  · have hle := (List.max?_eq_some_iff.mp hmax).2 _ hmem
    rw [Option.getD_some]
    omega

/-! ## One statement -/

/-- A client that appends something else. -/
theorem duplicateInv_other (hq : QuietTrace events event dup db₀) (hi : i ∉ dup)
    (hs : Statement (system P events) i db db') (hinv : DuplicateInv P event dup events db₀ ts db) :
    DuplicateInv P event dup events db₀ (ts ++ [⟨i, db, db'⟩]) db' := by
  have hmissed : ∀ j, missed P event dup (ts ++ [⟨i, db, db'⟩]) j ↔ missed P event dup ts j := by
    intro j
    rw [missed_concat, or_iff_left]
    exact fun h => hi h.1.who
  -- what the client adds to the table belongs to another trace and has another id
  obtain ⟨more, hrows, hmore⟩ : ∃ more, db'.rows = db.rows ++ more
      ∧ ∀ r ∈ more, r.event = events i := by
    rcases hs.step.table with htab | ⟨pending, result, hrun, rfl⟩
    · refine ⟨[], ?_, by simp⟩
      rw [List.append_nil, Db.rows, htab]
      rfl
    · have hown := hinv.others i hi
      rw [hrun] at hown
      exact ⟨pending, Db.rows_publish db i pending result, hown.1⟩
  have hknown : recorded event db'.rows ↔ recorded event db.rows := by
    simp only [recorded, hrows, List.mem_append, or_and_right, exists_or]
    rw [or_iff_left]
    rintro ⟨r, hr, hid⟩
    rw [hmore r hr] at hid
    exact hq.other_id i hi hid
  have htrace : of_trace event.trace_id db'.rows = of_trace event.trace_id db.rows := by
    have hnone : of_trace event.trace_id more = [] := by
      rw [of_trace, List.filter_eq_nil_iff]
      intro r hr
      simpa [hmore r hr] using hq.other_trace i hi
    rw [hrows, of_trace_append, hnone, List.append_nil]
  have hother : ∀ j ∈ dup, db'.sessions j = db.sessions j := by
    intro j hj
    exact hs.step.other (fun hji => hi (hji ▸ hj))
  constructor
  · intro h
    obtain ⟨w, hw, hacc⟩ := hinv.source (hknown.mp h)
    exact ⟨w, (hmissed w).mpr hw, by rw [hother w (mem_dup_of_missed hw), hacc]⟩
  · intro h
    rw [htrace]
    exact hinv.quiet (fun hk => h (hknown.mpr hk))
  · intro j hj
    by_cases hji : j = i
    · subst hji
      exact hs.step.inserts (append_inserts P (events j)) (hinv.others j hj)
    · rw [hs.step.other hji]
      exact hinv.others j hj
  · intro j hj hnot
    rw [hother j hj]
    exact (hinv.early j hj (fun h => hnot ((hmissed j).mpr h))).mono hknown.mpr
  · intro j hj h
    rw [hother j hj]
    apply (hinv.late j hj ((hmissed j).mp h)).mono hknown.mpr
    rintro ⟨k, hk, hkm⟩
    exact ⟨k, hk, (hmissed k).mpr hkm⟩

/-- A client of the event that leaves the table alone: it has to be at a place again. -/
theorem duplicateInv_move (hi : i ∈ dup) {s : Session PyError LedgerRow LedgerAppendResult}
    (hinv : DuplicateInv P event dup events db₀ ts db)
    (hopen : ∀ answer, db.sessions i ≠ .closed answer)
    (hunmissed : ¬ missed P event dup (ts ++ [⟨i, db, db.move i s⟩]) i →
      Unmissed P event (recorded event db.rows) s)
    (hmissed : missed P event dup (ts ++ [⟨i, db, db.move i s⟩]) i →
      Missed P event (next_no event db₀.rows) (recorded event db.rows)
        (∃ j, j ≠ i ∧ missed P event dup ts j) s) :
    DuplicateInv P event dup events db₀ (ts ++ [⟨i, db, db.move i s⟩]) (db.move i s) := by
  have hkeep : ∀ j, missed P event dup ts j →
      missed P event dup (ts ++ [⟨i, db, db.move i s⟩]) j :=
    fun j h => missed_concat.mpr (Or.inl h)
  have hback : ∀ j, j ≠ i → missed P event dup (ts ++ [⟨i, db, db.move i s⟩]) j →
      missed P event dup ts j := by
    intro j hj h
    rcases missed_concat.mp h with h | ⟨-, hji⟩
    · exact h
    · exact absurd hji.symm hj
  constructor
  · -- the client that wrote the row is closed, so it is another one
    intro h
    obtain ⟨w, hw, hacc⟩ := hinv.source h
    refine ⟨w, hkeep w hw, ?_⟩
    rw [Db.sessions_move_other db i s, hacc]
    rintro rfl
    exact hopen _ hacc
  · exact hinv.quiet
  · intro j hj
    have hji : j ≠ i := fun h => hj (h ▸ hi)
    rw [Db.sessions_move_other db i s hji]
    exact hinv.others j hj
  · intro j hj hnot
    by_cases hji : j = i
    · subst hji
      rw [Db.sessions_move_same]
      exact hunmissed hnot
    · rw [Db.sessions_move_other db i s hji]
      exact hinv.early j hj (fun h => hnot (hkeep j h))
  · intro j hj h
    by_cases hji : j = i
    · subst hji
      rw [Db.sessions_move_same]
      apply (hmissed h).mono id
      rintro ⟨k, hk, hkm⟩
      exact ⟨k, hk, hkeep k hkm⟩
    · rw [Db.sessions_move_other db i s hji]
      apply (hinv.late j hj (hback j hji h)).mono id
      rintro ⟨k, hk, hkm⟩
      exact ⟨k, hk, hkeep k hkm⟩

omit [DecidableEq ι] in
/-- A statement whose client is past its check changes nothing about who missed. -/
theorem missed_past (hpast : db.sessions i ≠ .running [] (append P event)) {j : ι} :
    missed P event dup (ts ++ [⟨i, db, db'⟩]) j ↔ missed P event dup ts j := by
  rw [missed_concat, or_iff_left]
  exact fun h => hpast h.1.checks

/-- A client of the event that has not found it missing. -/
theorem duplicateInv_unmissed (hq : QuietTrace events event dup db₀) (hi : i ∈ dup)
    (hs : Statement (system P events) i db db') (hinv : DuplicateInv P event dup events db₀ ts db)
    (hnot : ¬ missed P event dup ts i) :
    DuplicateInv P event dup events db₀ (ts ++ [⟨i, db, db'⟩]) db' := by
  have hplace := hinv.early i hi hnot
  generalize hsession : db.sessions i = session at hplace
  rcases hplace with _ | _ | hk | hk
  case waiting =>
    obtain rfl := hs.of_waiting hsession
    have hpast : db.sessions i ≠ .running [] (append P event) := by simp [hsession]
    apply duplicateInv_move hi hinv (by simp [hsession])
    · intro _
      show Unmissed P event _ (.running [] (append P (events i)))
      rw [hq.same i hi]
      exact Unmissed.started
    · exact fun h => absurd ((missed_past hpast).mp h) hnot
  case started =>
    obtain rfl := hs.of_select hsession
    apply duplicateInv_move hi hinv (by simp [hsession])
    · intro hfound
      -- the check has found the event
      have hk : recorded event db.rows := by
        by_contra hk
        exact hfound (missed_concat.mpr (Or.inr ⟨⟨hi, hsession, hk⟩, rfl⟩))
      rw [if_pos (by simpa [recorded] using hk)]
      exact Unmissed.found hk
    · intro h
      rcases missed_concat.mp h with h | ⟨h, -⟩
      · exact absurd h hnot
      · rw [if_neg (by simpa [recorded] using h.missing)]
        exact Missed.fresh
  case found =>
    obtain rfl := hs.of_rollback hsession
    have hpast : db.sessions i ≠ .running [] (append P event) := by simp [hsession, append]
    apply duplicateInv_move hi hinv (by simp [hsession])
    · exact fun _ => Unmissed.answered hk
    · exact fun h => absurd ((missed_past hpast).mp h) hnot
  case answered => exact absurd hsession (hs.step.not_closed _)

omit [DecidableEq ι] in
/-- The only row that the number of an append that missed can clash with comes from a rival. -/
theorem rival_of_conflict (hinv : DuplicateInv P event dup events db₀ ts db)
    (hopen : ∀ answer, db.sessions i ≠ .closed answer) {k : ℕ} {p : Option String}
    (hk : ¬ recorded event db.rows → k = next_no event db₀.rows) {r : LedgerRow} (hr : r ∈ db.rows)
    (hconflict : conflict (new_row P event k p) r) : ∃ j, j ≠ i ∧ missed P event dup ts j := by
  have hknown : recorded event db.rows := by
    by_contra hnew
    rcases hconflict with hid | ⟨htrace, hno⟩
    · exact hnew ⟨r, hr, hid.symm⟩
    · have hmem : r ∈ of_trace event.trace_id db₀.rows := by
        rw [← hinv.quiet hnew]
        exact mem_of_trace.mpr ⟨hr, htrace.symm⟩
      have hlt := next_no_free hmem
      have heq : k = r.sequence_no := hno
      have hkn := hk hnew
      omega
  obtain ⟨w, hw, hacc⟩ := hinv.source hknown
  refine ⟨w, ?_, hw⟩
  rintro rfl
  exact hopen _ hacc

/-- A client of the event that commits the row that it has inserted. -/
theorem duplicateInv_publish (hi : i ∈ dup)
    (hinv : DuplicateInv P event dup events db₀ ts db) (hmiss : missed P event dup ts i)
    {row : LedgerRow} (hrow : row.event = event)
    (hser : unserializable (.dict event.payload) = none)
    (hpast : db.sessions i ≠ .running [] (append P event)) :
    DuplicateInv P event dup events db₀ (ts ++ [⟨i, db, db.publish i [row] (accepted event)⟩])
      (db.publish i [row] (accepted event)) := by
  have hknown : recorded event (db.publish i [row] (accepted event)).rows := by
    rw [Db.rows_publish]
    exact ⟨row, by simp, by rw [hrow]⟩
  have hother : ∀ j, j ≠ i →
      (db.publish i [row] (accepted event)).sessions j = db.sessions j :=
    fun j hj => Db.sessions_publish_other db i _ _ hj
  -- from now on the row is there, which is more than the other clients rely on
  constructor
  · exact fun _ => ⟨i, (missed_past hpast).mpr hmiss, Db.sessions_publish_same db i _ _⟩
  · exact fun hnew => absurd hknown hnew
  · intro j hj
    have hji : j ≠ i := fun h => hj (h ▸ hi)
    rw [hother j hji]
    exact hinv.others j hj
  · intro j hj hnot
    rw [missed_past hpast] at hnot
    have hji : j ≠ i := by
      rintro rfl
      exact hnot hmiss
    rw [hother j hji]
    exact (hinv.early j hj hnot).mono (fun _ => hknown)
  · intro j hj h
    simp only [missed_past hpast] at h ⊢
    by_cases hji : j = i
    · subst hji
      rw [Db.sessions_publish_same]
      exact Missed.accepted hser
    · rw [hother j hji]
      exact (hinv.late j hj h).mono (fun _ => hknown) id

/-- A client of the event that has found it missing. -/
theorem duplicateInv_missed (hi : i ∈ dup) (hs : Statement (system P events) i db db')
    (hinv : DuplicateInv P event dup events db₀ ts db) (hmiss : missed P event dup ts i) :
    DuplicateInv P event dup events db₀ (ts ++ [⟨i, db, db'⟩]) db' := by
  have hplace := hinv.late i hi hmiss
  have hkeep : missed P event dup (ts ++ [⟨i, db, db'⟩]) i := missed_concat.mpr (Or.inl hmiss)
  generalize hsession : db.sessions i = session at hplace
  rcases hplace with _ | @⟨k, hk⟩ | @⟨k, p, hk⟩ | @⟨row, hrow, hser⟩ | hser | hraise
  case fresh =>
    obtain rfl := hs.of_select hsession
    apply duplicateInv_move hi hinv (by simp [hsession])
    · exact fun h => absurd hkeep h
    · intro _
      apply Missed.numbered
      intro hnew
      rw [List.append_nil, hinv.quiet hnew, next_no]
  case numbered =>
    obtain rfl := hs.of_select hsession
    apply duplicateInv_move hi hinv (by simp [hsession])
    · exact fun h => absurd hkeep h
    · exact fun _ => Missed.linked hk
  case linked =>
    rcases hu : unserializable (.dict event.payload) with _ | type_name
    · have hins : db.sessions i = .running [] (.insert (new_row P event k p)
          (.commit (accepted event))) := by
        rw [hsession, insert_event, hu]
      -- the row is inserted, or it clashes with one that a rival has committed
      rcases hs.of_insert hins with rfl | ⟨⟨r, hr, hconflict⟩, rfl⟩
      · apply duplicateInv_move hi hinv (by simp [hsession])
        · exact fun h => absurd hkeep h
        · exact fun _ => Missed.inserted rfl hu
      · rw [List.append_nil] at hr
        have hrival := rival_of_conflict (i := i) hinv (by simp [hsession]) hk hr hconflict
        apply duplicateInv_move hi hinv (by simp [hsession])
        · exact fun h => absurd hkeep h
        · exact fun _ => Missed.raised (Or.inr hrival)
    · have hroll : db.sessions i = .running [] (.rollback (.error (.typeError
          ("Object of type " ++ type_name ++ " is not JSON serializable")))) := by
        rw [hsession, insert_event, hu]
      obtain rfl := hs.of_rollback hroll
      apply duplicateInv_move hi hinv (by simp [hsession])
      · exact fun h => absurd hkeep h
      · exact fun _ => Missed.raised (Or.inl (by simp [hu]))
  case inserted =>
    obtain rfl := hs.of_commit hsession
    exact duplicateInv_publish hi hinv hmiss hrow hser (by simp [hsession])
  case accepted => exact absurd hsession (hs.step.not_closed _)
  case raised => exact absurd hsession (hs.step.not_closed _)

/-- **The step lemma.** -/
theorem duplicateInv_step (hq : QuietTrace events event dup db₀)
    (hs : Statement (system P events) i db db') (hinv : DuplicateInv P event dup events db₀ ts db) :
    DuplicateInv P event dup events db₀ (ts ++ [⟨i, db, db'⟩]) db' := by
  by_cases hi : i ∈ dup
  · by_cases hmiss : missed P event dup ts i
    · exact duplicateInv_missed hi hs hinv hmiss
    · exact duplicateInv_unmissed hq hi hs hinv hmiss
  · exact duplicateInv_other hq hi hs hinv

/-- **The run lemma.** -/
theorem duplicateInv_run (hq : QuietTrace events event dup db₀)
    (h : Interleaving (system P events) db₀ ts db) :
    DuplicateInv P event dup events db₀ ts db := by
  induction h with
  | nil =>
      constructor
      · exact fun h => absurd h hq.new
      · exact fun _ => rfl
      · intro i _
        rw [hq.waiting i]
        trivial
      · intro i _ _
        rw [hq.waiting i]
        exact Unmissed.waiting
      · rintro i _ ⟨t, ht, -⟩
        exact absurd ht List.not_mem_nil
  | step _ hs ih => exact duplicateInv_step hq hs ih

/-! ## Complete runs -/

omit [DecidableEq ι]

theorem accepted_ne_duplicate (event : LedgerEvent) : accepted event ≠ duplicate event := by
  simp [accepted, duplicate]

/-- An append that answered `ACCEPTED` had found the event missing, and its payload is JSON. -/
theorem DuplicateInv.of_accepted (hinv : DuplicateInv P event dup events db₀ ts db) (hi : i ∈ dup)
    (h : db.sessions i = .closed (.ok (accepted event))) :
    missed P event dup ts i ∧ unserializable (.dict event.payload) = none := by
  have hmiss : missed P event dup ts i := by
    by_contra hnot
    have hplace := hinv.early i hi hnot
    generalize hs : db.sessions i = session at hplace
    rw [h] at hs
    rcases hplace with _ | _ | _ | _
    case answered =>
      simp only [Session.closed.injEq, Except.ok.injEq] at hs
      exact accepted_ne_duplicate event hs
    all_goals cases hs
  refine ⟨hmiss, ?_⟩
  have hplace := hinv.late i hi hmiss
  generalize hs : db.sessions i = session at hplace
  rw [h] at hs
  rcases hplace with _ | _ | _ | _ | hser | _
  case accepted => exact hser
  all_goals cases hs

/-- An append that has ended without finding the event missing has answered `DUPLICATE`. -/
theorem DuplicateInv.of_unmissed (hinv : DuplicateInv P event dup events db₀ ts db) (hi : i ∈ dup)
    (hnot : ¬ missed P event dup ts i) {answer : Except PyError LedgerAppendResult}
    (h : db.sessions i = .closed answer) :
    db.sessions i = .closed (.ok (duplicate event)) ∧ recorded event db.rows := by
  have hplace := hinv.early i hi hnot
  generalize hs : db.sessions i = session at hplace
  rw [h] at hs
  rcases hplace with _ | _ | _ | hk
  case answered => exact ⟨rfl, hk⟩
  all_goals cases hs

/-- An append that has ended after finding the event missing has answered `ACCEPTED`, or raised. -/
theorem DuplicateInv.of_missed (hinv : DuplicateInv P event dup events db₀ ts db)
    (hmiss : missed P event dup ts i) {answer : Except PyError LedgerAppendResult}
    (h : db.sessions i = .closed answer) :
    db.sessions i = .closed (.ok (accepted event)) ∨
      (∃ e, db.sessions i = .closed (.error e))
        ∧ (unserializable (.dict event.payload) ≠ none ∨ ∃ j, j ≠ i ∧ missed P event dup ts j) := by
  have hplace := hinv.late i (mem_dup_of_missed hmiss) hmiss
  generalize hs : db.sessions i = session at hplace
  rw [h] at hs
  rcases hplace with _ | _ | _ | _ | _ | hraise
  case accepted => exact Or.inl rfl
  case raised => exact Or.inr ⟨⟨_, rfl⟩, hraise⟩
  all_goals cases hs

end Steps

/-- **When concurrent duplicates stay idempotent.** In a complete run of the appends of one event,
all of them answer and exactly one `ACCEPTED`, if and only if the payload can be stored and at
most one client runs its duplicate check while the event is not in the table. -/
theorem duplicates_idempotent_iff {ι : Type} [DecidableEq ι] (P : Platform)
    (events : ι → LedgerEvent) (event : LedgerEvent) (dup : Set ι) (hdup : dup.Nonempty)
    (db₀ db : Db ι PyError LedgerRow LedgerAppendResult) (hq : QuietTrace events event dup db₀)
    (ts : List (Transition ι PyError LedgerRow LedgerAppendResult))
    (hrun : Interleaving (system P events) db₀ ts db)
    (hdone : ∀ i ∈ dup, ∃ answer, db.sessions i = .closed answer) :
    Idempotent event dup db ↔
      unserializable (.dict event.payload) = none ∧
        ∀ s ∈ ts, ∀ t ∈ ts, Misses P event dup s → Misses P event dup t → s.who = t.who := by
  have hinv := duplicateInv_run hq hrun
  constructor
  · intro h
    obtain ⟨i, ⟨hi, hacc⟩, hunique⟩ := h.accepted_once
    refine ⟨(hinv.of_accepted hi hacc).2, ?_⟩
    -- a client that missed can only have been accepted
    have hmissed : ∀ t ∈ ts, Misses P event dup t → t.who = i := by
      intro t ht hmiss
      obtain ⟨answer, hclosed⟩ := hdone _ hmiss.who
      apply hunique
      refine ⟨hmiss.who, ?_⟩
      rcases hinv.of_missed ⟨t, ht, hmiss, rfl⟩ hclosed with hacc | ⟨⟨e, herr⟩, -⟩
      · exact hacc
      · rcases h.answered _ hmiss.who with hans | hans
        · exact hans
        · rw [herr] at hans
          cases hans
    intro s hs t ht hsm htm
    rw [hmissed s hs hsm, hmissed t ht htm]
  · rintro ⟨hser, hone⟩
    have hunique : ∀ i j, missed P event dup ts i → missed P event dup ts j → i = j := by
      rintro i j ⟨s, hs, hsm, rfl⟩ ⟨t, ht, htm, rfl⟩
      exact hone s hs t ht hsm htm
    have hmissed : ∀ i, missed P event dup ts i →
        db.sessions i = .closed (.ok (accepted event)) := by
      intro i hmiss
      obtain ⟨answer, hclosed⟩ := hdone i (mem_dup_of_missed hmiss)
      rcases hinv.of_missed hmiss hclosed with hacc | ⟨-, hnot | ⟨j, hj, hjm⟩⟩
      · exact hacc
      · exact absurd hser hnot
      · exact absurd (hunique j i hjm hmiss) hj
    constructor
    · intro i hi
      by_cases hmiss : missed P event dup ts i
      · exact Or.inl (hmissed i hmiss)
      · obtain ⟨answer, hclosed⟩ := hdone i hi
        exact Or.inr (hinv.of_unmissed hi hmiss hclosed).1
    · obtain ⟨w, hw, hacc⟩ : ∃ w, missed P event dup ts w
          ∧ db.sessions w = .closed (.ok (accepted event)) := by
        obtain ⟨i, hi⟩ := hdup
        by_cases hmiss : missed P event dup ts i
        · exact ⟨i, hmiss, hmissed i hmiss⟩
        · -- a client that found the event found what a rival had written
          obtain ⟨answer, hclosed⟩ := hdone i hi
          exact hinv.source (hinv.of_unmissed hi hmiss hclosed).2
      refine ⟨w, ⟨mem_dup_of_missed hw, hacc⟩, ?_⟩
      rintro j ⟨hj, hjacc⟩
      exact hunique j w (hinv.of_accepted hj hjacc).1 hw

/-! Two clients append one event to an empty table. -/

namespace Twice

def events (_ : Fin 2) : LedgerEvent := Race.events ⟨0, Nat.two_pos⟩

theorem quiet : QuietTrace events (Race.events 0) Set.univ Db.init where
  same _ _ := rfl
  other_id i h := absurd (Set.mem_univ i) h
  other_trace i h := absurd (Set.mem_univ i) h
  waiting _ := rfl
  new := by
    rintro ⟨r, hr, -⟩
    exact absurd hr List.not_mem_nil

end Twice

/-- Both clients check before either commits: the second one raises. -/
theorem duplicates_race : ∃ ts db,
    Interleaving (system Race.platform Twice.events) Db.init ts db
      ∧ QuietTrace Twice.events (Race.events 0) Set.univ
        (Db.init : Db (Fin 2) PyError LedgerRow LedgerAppendResult)
      ∧ (∀ i, ∃ answer, db.sessions i = .closed answer)
      ∧ db.sessions 1 = .closed (.error (.external "UniqueViolation"))
      ∧ ¬ Idempotent (Race.events 0) Set.univ db := by
  have h0 : Interleaving (system Race.platform Twice.events) Db.init [] Db.init :=
    Interleaving.nil
  have h1 := h0.step (Statement.of_ok (Step.begin (i := 0) rfl) (by simp))
  have h2 := h1.step (Statement.of_ok (Step.begin (i := 1) rfl) (by simp))
  have h3 := h2.step (Statement.of_ok (Step.select (i := 0) rfl) (by simp))
  have h4 := h3.step (Statement.of_ok (Step.select (i := 1) rfl) (by simp))
  have h5 := h4.step (Statement.of_ok (Step.select (i := 0) rfl) (by simp))
  have h6 := h5.step (Statement.of_ok (Step.select (i := 0) rfl) (by simp))
  have h7 := h6.step (Statement.of_ok (Step.insert (i := 0) rfl (fun r hr => nomatch hr)
    (fun j _ r hr => by fin_cases j <;> exact nomatch hr)) (by simp))
  have h8 := h7.step (Statement.of_ok (Step.commit (i := 0) rfl) (by simp))
  have h9 := h8.step (Statement.of_ok (Step.select (i := 1) rfl) (by simp))
  have h10 := h9.step (Statement.of_ok (Step.select (i := 1) rfl) (by simp))
  have h11 := h10.step (Statement.of_violation (i := 1) rfl
    ⟨_, List.mem_cons_self, Or.inl rfl⟩)
  refine ⟨_, _, h11, Twice.quiet, ?_, rfl, ?_⟩
  · intro i
    fin_cases i
    · exact ⟨_, rfl⟩
    · exact ⟨_, rfl⟩
  · intro h
    rcases h.answered 1 (Set.mem_univ 1) with hacc | hdup
    · cases hacc
    · cases hdup

/-- The second client begins after the first has committed: one append is accepted, the other is a
duplicate, and only one of the two has found the event missing. -/
theorem duplicates_idempotent_iff_serial : ∃ ts db,
    Interleaving (system Race.platform Twice.events) Db.init ts db
      ∧ db.sessions 1 = .closed (.ok (duplicate (Race.events 0)))
      ∧ Idempotent (Race.events 0) Set.univ db
      ∧ ∀ s ∈ ts, ∀ t ∈ ts, Misses Race.platform (Race.events 0) Set.univ s →
        Misses Race.platform (Race.events 0) Set.univ t → s.who = t.who := by
  have h0 : Interleaving (system Race.platform Twice.events) Db.init [] Db.init :=
    Interleaving.nil
  have h1 := h0.step (Statement.of_ok (Step.begin (i := 0) rfl) (by simp))
  have h2 := h1.step (Statement.of_ok (Step.select (i := 0) rfl) (by simp))
  have h3 := h2.step (Statement.of_ok (Step.select (i := 0) rfl) (by simp))
  have h4 := h3.step (Statement.of_ok (Step.select (i := 0) rfl) (by simp))
  have h5 := h4.step (Statement.of_ok (Step.insert (i := 0) rfl (fun r hr => nomatch hr)
    (fun j _ r hr => by fin_cases j <;> exact nomatch hr)) (by simp))
  have h6 := h5.step (Statement.of_ok (Step.commit (i := 0) rfl) (by simp))
  have h7 := h6.step (Statement.of_ok (Step.begin (i := 1) rfl) (by simp))
  have h8 := h7.step (Statement.of_ok (Step.select (i := 1) rfl) (by simp))
  have h9 := h8.step (Statement.of_ok (Step.rollback (i := 1) rfl) (by simp))
  refine ⟨_, _, h9, rfl, ?_⟩
  have hiff := duplicates_idempotent_iff Race.platform Twice.events (Race.events 0) Set.univ
    ⟨0, Set.mem_univ 0⟩ Db.init _ Twice.quiet _ h9 (by
      intro i _
      fin_cases i
      · exact ⟨_, rfl⟩
      · exact ⟨_, rfl⟩)
  refine (and_iff_left_of_imp fun hserial => (hiff.mp hserial).2).mpr ?_
  constructor
  · intro i _
    fin_cases i
    · exact Or.inl rfl
    · exact Or.inr rfl
  · refine ⟨0, ⟨Set.mem_univ 0, rfl⟩, ?_⟩
    rintro i ⟨-, hi⟩
    fin_cases i
    · rfl
    · cases hi

end PostgresLedgerClient

end DecisionRuntime
