/-
What the status of a commit says of the appends it made.

A strict evaluation looks at one value of a commit, its status. The status comes out of
three counters and a chain of conditions, the counters out of the answers of the client.
`commit_status` ties the two ends together for any client.

The appends are read from a transcript of the client. That they are the events, in order
and one append each, is therefore said of the calls a commit makes, and no order is put
into the hypotheses.
-/
import DecisionRuntime.LedgerCommit
import DecisionRuntime.Transcript

set_option autoImplicit false

namespace DecisionRuntime

namespace RuntimeLedgerAdapter

open Exec (Call Transcript)

/-- One append, and the answer to it. -/
abbrev AppendCall : Type := Call PyError LedgerEvent LedgerAppendResult

/-- What the report of a commit of these events says of these answers. -/
structure Reports (events : List LedgerEvent) (answers : List LedgerAppendResult)
    (report : LedgerCommitResult) : Prop where
  accepted : report.status = .accepted ↔ ∀ a ∈ answers, a.status = .accepted
  duplicate : report.status = .duplicate ↔ ∀ a ∈ answers, a.status = .duplicate
  failed : report.status = .failed ↔ ∃ a ∈ answers, a.status = .invalid
  partial_ : report.status = .partial_ ↔
    (¬ ∀ a ∈ answers, a.status = .accepted) ∧ (¬ ∀ a ∈ answers, a.status = .duplicate)
      ∧ ¬ ∃ a ∈ answers, a.status = .invalid
  total : report.appended + report.duplicates + report.errors.length = events.length
  event_ids : report.event_ids = answers.map (·.event_id)

/-- The accumulators of the loop report on the answers, as soon as there is an event. -/
theorem reports_totals {events : List LedgerEvent} {answers : List LedgerAppendResult}
    (h : answers.length = events.length) (hne : events ≠ []) :
    Reports events answers (totals {} events answers).result := by
  have hne' : answers ≠ [] := by
    rw [← List.length_pos_iff] at hne ⊢
    omega
  have hduplicate : (totals {} events answers).result.status = .duplicate ↔
      ∀ a ∈ answers, a.status = .duplicate := by
    rw [duplicate_iff h, and_iff_right hne']
  refine ⟨accepted_iff h, hduplicate, failed_iff h, ?_, totals_sum h, (totals_spec h).2.2.1⟩
  rw [← accepted_iff h, ← hduplicate, ← failed_iff h]
  -- there is no fifth status
  rcases (totals {} events answers).result.status with _ | _ | _ | _ <;> simp

section Client

variable {σ : Type} (C : LedgerBackend σ)

/-- The client, writing down the appends it is asked for. -/
def recording : LedgerBackend (σ × List AppendCall) where
  append := Exec.transcribed C.append
  get_by_event_id event_id := Exec.zoom Prod.fst (fun s t => (s, t.2)) (C.get_by_event_id event_id)
  get_events_by_trace_id trace_id :=
    Exec.zoom Prod.fst (fun s t => (s, t.2)) (C.get_events_by_trace_id trace_id)

/-- The appends a commit makes, from the first to the last. -/
def appends_made (P : Platform) (schema_version : String) (trace : DecisionTrace)
    (result : DecisionResult) (s : σ) : List AppendCall :=
  (commit (recording C) P schema_version trace result (s, [])).2.2

theorem append_all_eq_mapM (events : List LedgerEvent) :
    append_all C events = events.mapM C.append := by
  induction events with
  | nil => rfl
  | cons event events ih => rw [append_all, List.mapM_cons, ih]

variable {P : Platform} {schema_version : String} {trace : DecisionTrace} {result : DecisionResult}
  {events : List LedgerEvent} {answers : List LedgerAppendResult}

/-- The appends are the transcript of the loop over the events. -/
theorem transcript_appends_made (hbuild : build_events P schema_version trace result = .ok events)
    (s : σ) : Transcript events (append_all C events s).1
      (appends_made C P schema_version trace result s) := by
  obtain ⟨calls, hrun, hcalls⟩ := Exec.mapM_transcribed C.append events s []
  have hmade : appends_made C P schema_version trace result s = calls := by
    rw [appends_made, commit_run (recording C) hbuild, append_all_eq_mapM]
    exact congrArg (fun p => p.2.2) hrun
  rw [hmade, append_all_eq_mapM]
  exact hcalls

/-- Writing the appends down changes nothing else. -/
theorem simulates_recording :
    Exec.Simulates Prod.fst (commit (recording C) P schema_version trace result)
      (commit C P schema_version trace result) := by
  rintro ⟨s, made⟩
  rcases hbuild : build_events P schema_version trace result with e | events
  · rw [commit, commit, hbuild]
    exact ⟨rfl, rfl⟩
  · obtain ⟨calls, hrun, -⟩ := Exec.mapM_transcribed C.append events s made
    have hall : append_all (recording C) events (s, made)
        = ((append_all C events s).1, (append_all C events s).2, made ++ calls) := by
      rw [append_all_eq_mapM, append_all_eq_mapM]
      exact hrun
    rw [commit_run (recording C) hbuild, commit_run C hbuild, hall]
    exact ⟨rfl, rfl⟩

/-- A commit that builds no events appends none. -/
theorem appends_made_unbuilt {e : PyError}
    (hbuild : build_events P schema_version trace result = .error e) (s : σ) :
    appends_made C P schema_version trace result s = [] := by
  rw [appends_made, commit, hbuild]
  rfl

/-- Whatever the client answers or raises, no event is appended twice or before an earlier one. -/
theorem appends_made_in_order (hbuild : build_events P schema_version trace result = .ok events)
    (s : σ) : (appends_made C P schema_version trace result s).map Call.input <+: events :=
  (transcript_appends_made C hbuild s).inputs_in_order

/-- **The status of a commit.** When every append of a commit is answered, the appends are the
events of the trace, and the report of the commit says what the answers were. -/
theorem commit_status (hbuild : build_events P schema_version trace result = .ok events) {s : σ}
    (hanswers : (appends_made C P schema_version trace result s).map Call.outcome
      = answers.map .ok) :
    (appends_made C P schema_version trace result s).map Call.input = events
    ∧ ∃ report s', commit C P schema_version trace result s = (.ok report, s')
      ∧ Reports events answers report := by
  have htranscript := transcript_appends_made C hbuild s
  have hall : (append_all C events s).1 = .ok answers := htranscript.eq_ok_iff.mpr hanswers
  refine ⟨htranscript.inputs_of_ok hall, (totals {} events answers).result,
    (append_all C events s).2, ?_, ?_⟩
  · rw [commit_run C hbuild, hall]
    rfl
  · have hlen : answers.length = events.length :=
      length_append_all C (Prod.ext hall rfl : append_all C events s = (.ok answers, _))
    exact reports_totals hlen (List.ne_nil_of_mem (outcome_event_mem hbuild))

end Client

/-! ## Clients that answer anything -/

/-- A client that gives the answers it is left with, one after the other. -/
def scripted_client : LedgerBackend (List LedgerAppendResult) where
  append := Exec.scripted (.external "no answer left")
  get_by_event_id _ := return none
  get_events_by_trace_id _ := return []

/-- Every list with an answer for each event is what some client answers. -/
theorem appends_made_scripted {P : Platform} {schema_version : String} {trace : DecisionTrace}
    {result : DecisionResult} {events : List LedgerEvent} {answers : List LedgerAppendResult}
    (hbuild : build_events P schema_version trace result = .ok events)
    (h : answers.length = events.length) :
    (appends_made scripted_client P schema_version trace result answers).map Call.outcome
      = answers.map .ok := by
  have hall : (append_all scripted_client events answers).1 = .ok answers := by
    rw [append_all_eq_mapM]
    exact congrArg Prod.fst (Exec.mapM_scripted (PyError.external "no answer left") h)
  exact (transcript_appends_made scripted_client hbuild answers).eq_ok_iff.mp hall

/-- A client that has the second of three events already. -/
def mixed_answers : List LedgerAppendResult :=
  [{ status := .accepted, event_id := UUID.repeated 1 },
    { status := .duplicate, event_id := UUID.repeated 2 },
    { status := .accepted, event_id := UUID.repeated 3 }]

theorem commit_status_mixed : ∃ events,
    (appends_made scripted_client Recorded.platform "1.0" Recorded.first.trace
      Recorded.first.result mixed_answers).map Call.input = events
    ∧ ∃ report s', commit scripted_client Recorded.platform "1.0" Recorded.first.trace
        Recorded.first.result mixed_answers = (.ok report, s')
      ∧ Reports events mixed_answers report ∧ report.status = .partial_ := by
  obtain ⟨events, hbuild, hlen⟩ : ∃ events,
      build_events Recorded.platform "1.0" Recorded.first.trace Recorded.first.result = .ok events
      ∧ mixed_answers.length = events.length := ⟨_, rfl, rfl⟩
  obtain ⟨hinputs, report, s', hrun, hreports⟩ :=
    commit_status scripted_client hbuild (appends_made_scripted hbuild hlen)
  refine ⟨events, hinputs, report, s', hrun, hreports, ?_⟩
  rw [hreports.partial_]
  decide

end RuntimeLedgerAdapter

end DecisionRuntime
