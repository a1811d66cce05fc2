/-
`GET /traces`: the pages of the trace store.

The route asks the store for its `limit + offset` newest traces and takes the
window out of those, but the store has a cap of its own: `list_recent` never
returns more than 10000 traces. Past the cap a page is short, or empty.

* `Page` -- the page is what it should be: the summaries of the window of all
  stored traces, newest first;
* `traces_listing_iff` -- exactly when a page is, and when a walk over the pages
  reads the whole store.

`TraceSummary` declares the type of the action as a string, and the actions of a
flow are not checked for that: a trace whose action has another type makes every
page it is on fail.
-/
import DecisionRuntime.OffsetPaging
import DecisionRuntime.StableOrder
import DecisionRuntime.Stores

set_option autoImplicit false

namespace DecisionRuntime

namespace Value

/-- A value as an `Optional[str]` field of a model: bytes are decoded, and `none` is the
`ValidationError`. -/
def optional_str : Value → Option (Option String)
  | .none => some Option.none
  | .str s => some (some s)
  | .bytes b => (String.fromUTF8? ⟨(b.map UInt8.ofNat).toArray⟩).map some
  | _ => Option.none

end Value

/-- `TraceSummary`. -/
structure TraceSummary where
  trace_id : String
  decision_id : Option String
  flow_id : String
  status : Option String
  outcome : Option String
  action_type : Option String
  confidence : Option Confidence
  created_at : Datetime
  committed_at : Option Datetime

namespace DecisionTrace

/-- `primary.action.get("type")`, where there is a primary result with an action. -/
def primary_action_type (trace : DecisionTrace) : Value :=
  (((trace.decision_results.head?).bind (·.action)).bind (·.get "type")).getD .none

/-- The summary that `list_traces` builds of a trace. -/
def summary (trace : DecisionTrace) : Except PyError TraceSummary :=
  let primary := trace.decision_results.head?
  match trace.primary_action_type.optional_str with
  | none => .error (.validationError "TraceSummary")
  | some action_type =>
    .ok
      { trace_id := trace.id.str
        decision_id :=
          match primary with
          | some result => some result.id.str
          | none => trace.decision_id.map UUID.str
        flow_id := trace.flow_id.str
        status := primary.map (·.status.value)
        outcome := primary.map (·.outcome.value)
        action_type := action_type
        confidence := primary.map (·.confidence)
        created_at := trace.started_at
        committed_at := trace.completed_at }

/-- The type of the action is one that a summary can show. -/
def Listable (trace : DecisionTrace) : Prop :=
  trace.primary_action_type.optional_str.isSome = true

theorem summary_returns_iff (trace : DecisionTrace) :
    (∃ s, trace.summary = .ok s) ↔ trace.Listable := by
  unfold summary Listable
  cases trace.primary_action_type.optional_str with
  | none => simp
  | some action_type => simp

end DecisionTrace

/-- `list_traces`, for a limit and an offset that the route has checked. -/
def Routes.list_traces (limit offset : ℕ) (s : TraceStore) : Except PyError (List TraceSummary) :=
  let effective_limit := min limit 1000
  let all_traces := s.list_recent (effective_limit + offset)
  ((all_traces.drop offset).take effective_limit).mapM DecisionTrace.summary

/-! ## The order of the listing -/

/-- The stored traces, newest first, and of two that started together the one stored first. -/
def NewestFirst (s : TraceStore) (traces : List DecisionTrace) : Prop :=
  Descending (fun trace => trace.started_at.instant) s.by_trace_id.values traces

/-- The store lists the newest traces up to its cap. -/
theorem list_recent_eq {s : TraceStore} {traces : List DecisionTrace} (h : NewestFirst s traces)
    (limit : ℕ) : s.list_recent limit = traces.take (min limit 10000) := by
  have hsort := descending_insertionSort (fun trace : DecisionTrace => trace.started_at.instant)
    s.by_trace_id.values
  rw [TraceStore.list_recent, hsort.unique h]

/-- A page is a window of the traces that the cap leaves. -/
theorem list_traces_eq {s : TraceStore} {traces : List DecisionTrace} (h : NewestFirst s traces)
    {limit : ℕ} (hlimit : limit ≤ 1000) (offset : ℕ) :
    Routes.list_traces limit offset s
      = (window limit offset (traces.take 10000)).mapM DecisionTrace.summary := by
  have heffective : min limit 1000 = limit := by omega
  rw [Routes.list_traces, heffective, list_recent_eq h, ← window_take_cap]
  rfl

/-! ## When the pages are right -/

/-- The page is the summaries of the window of all stored traces. -/
def Page (s : TraceStore) (limit offset : ℕ) (traces : List DecisionTrace) : Prop :=
  ∃ page, Routes.list_traces limit offset s = .ok page
    ∧ List.Forall₂ (fun trace summary => trace.summary = .ok summary)
      (window limit offset traces) page

/-- The walk over the pages reads every stored trace once, in order. -/
def WalkReadsAll (s : TraceStore) (limit : ℕ) (traces : List DecisionTrace) : Prop :=
  ∃ read, Walk (fun offset => Routes.list_traces limit offset s) limit 0 read
    ∧ List.Forall₂ (fun trace summary => trace.summary = .ok summary) traces read

/-- Summaries can be built of all traces of a list or of none. -/
theorem summaries_iff (traces : List DecisionTrace) :
    (∃ summaries, List.Forall₂ (fun trace summary => trace.summary = .ok summary) traces summaries)
      ↔ ∀ trace ∈ traces, trace.Listable := by
  simp only [← except_mapM_eq_ok, except_mapM_returns_iff, DecisionTrace.summary_returns_iff]

section Listing

variable {s : TraceStore} {traces : List DecisionTrace} {limit : ℕ}

/-- A page is right when the cap does not reach into it and its traces can be shown. -/
theorem page_iff (h : NewestFirst s traces) (hlimit : limit ≤ 1000) (hpos : 1 ≤ limit)
    (offset : ℕ) :
    Page s limit offset traces ↔
      (traces.length ≤ offset ∨ min traces.length (offset + limit) ≤ 10000)
        ∧ ∀ trace ∈ window limit offset traces, trace.Listable := by
  unfold Page
  rw [list_traces_eq h hlimit, ← summaries_iff]
  simp only [except_mapM_eq_ok]
  constructor
  · rintro ⟨page, hcut, hwhole⟩
    -- the two windows have a summary each, so they are equally long
    have hlength := hcut.length_eq.trans hwhole.length_eq.symm
    rw [length_window, length_window, List.length_take] at hlength
    refine ⟨?_, page, hwhole⟩
    omega
  · rintro ⟨hreach, page, hpage⟩
    have hsame : window limit offset (traces.take 10000) = window limit offset traces := by
      rw [window_take, window]
      apply List.take_eq_take_iff.mpr
      rw [List.length_drop]
      omega
    rw [hsame]
    exact ⟨page, hpage, hpage⟩

/-- A walk reads the store when the cap is not reached and every trace can be shown. -/
theorem walk_reads_all_iff (h : NewestFirst s traces) (hlimit : limit ≤ 1000) (hpos : 1 ≤ limit) :
    WalkReadsAll s limit traces ↔
      traces.length ≤ 10000 ∧ ∀ trace ∈ traces, trace.Listable := by
  unfold WalkReadsAll
  simp only [walk_iff hpos (list_traces_eq h hlimit), except_mapM_eq_ok, List.drop_zero,
    ← summaries_iff]
  constructor
  · rintro ⟨read, hcut, hwhole⟩
    have hlength := hcut.length_eq.trans hwhole.length_eq.symm
    rw [List.length_take] at hlength
    refine ⟨?_, read, hwhole⟩
    omega
  · rintro ⟨hcap, read, hread⟩
    rw [List.take_of_length_le hcap]
    exact ⟨read, hread, hread⟩

end Listing

/-- **Paging through the traces.** A page is the window of all stored traces exactly when its end
lies within the cap of the store and each of its traces has an action type that can be shown, and a
walk over the pages reads the store exactly when that holds of all stored traces. -/
theorem traces_listing_iff {s : TraceStore} {traces : List DecisionTrace}
    (h : NewestFirst s traces) {limit : ℕ} (hpos : 1 ≤ limit) (hlimit : limit ≤ 1000) :
    (∀ offset, Page s limit offset traces ↔
      (traces.length ≤ offset ∨ min traces.length (offset + limit) ≤ 10000)
        ∧ ∀ trace ∈ window limit offset traces, trace.Listable) ∧
    (WalkReadsAll s limit traces ↔ traces.length ≤ 10000 ∧ ∀ trace ∈ traces, trace.Listable) :=
  ⟨page_iff h hlimit hpos, walk_reads_all_iff h hlimit hpos⟩

namespace Recorded

/-- A trace without a result. -/
def bare_trace (n : ℕ) : DecisionTrace where
  id := UUID.ofInt n
  flow_id := UUID.ofInt 1
  flow_version := "1.0.0"
  state := .completed
  decision_id := none
  signal_id := none
  started_at := ⟨0, some 0⟩
  completed_at := none

/-- One trace more than the store lists. -/
def uncapped : List DecisionTrace := (List.range 10001).map bare_trace

theorem uncapped_ids : (uncapped.map (·.id)).Nodup := by
  rw [uncapped, List.map_map]
  apply List.Nodup.map_on
  · intro m hm n hn hid
    rw [List.mem_range] at hm hn
    exact UUID.ofInt_inj (by omega) (by omega) hid
  · exact List.nodup_range

/-- The traces of a list that started together are listed as they were saved. -/
theorem newest_first_of_tied {traces : List DecisionTrace} (hids : (traces.map (·.id)).Nodup)
    (htied : ∀ a ∈ traces, ∀ b ∈ traces, a.started_at = b.started_at) :
    NewestFirst (TraceStore.holding traces) traces := by
  unfold NewestFirst
  rw [TraceStore.values_holding hids]
  refine ⟨List.Perm.refl traces, ?_, fun _ => rfl⟩
  apply List.Pairwise.imp_of_mem _ (List.pairwise_of_forall (R := fun _ _ => True) (by simp))
  intro a b ha hb _
  rw [htied a ha b hb]

end Recorded

/-- A trace that is stored and that no page shows. -/
theorem traces_listing_short :
    NewestFirst (TraceStore.holding Recorded.uncapped) Recorded.uncapped ∧
      (∀ trace ∈ Recorded.uncapped, trace.Listable) ∧
      ¬ Page (TraceStore.holding Recorded.uncapped) 1 10000 Recorded.uncapped ∧
      ¬ WalkReadsAll (TraceStore.holding Recorded.uncapped) 1 Recorded.uncapped := by
  have horder : NewestFirst (TraceStore.holding Recorded.uncapped) Recorded.uncapped := by
    apply Recorded.newest_first_of_tied Recorded.uncapped_ids
    intro a ha b hb
    obtain ⟨m, -, rfl⟩ := List.mem_map.mp ha
    obtain ⟨n, -, rfl⟩ := List.mem_map.mp hb
    rfl
  have hlength : Recorded.uncapped.length = 10001 := by
    rw [Recorded.uncapped, List.length_map, List.length_range]
  refine ⟨horder, ?_, ?_, ?_⟩
  · intro trace htrace
    obtain ⟨n, -, rfl⟩ := List.mem_map.mp htrace
    rfl
  · rw [page_iff horder (by omega) (by omega), hlength]
    omega
  · rw [walk_reads_all_iff horder (by omega) (by omega), hlength]
    omega

/-- Two traces, a page each: every page is there, and the walk reads both. -/
theorem traces_listing_two :
    (∀ offset, Page (TraceStore.holding [Recorded.bare_trace 3, Recorded.bare_trace 4]) 1 offset
      [Recorded.bare_trace 3, Recorded.bare_trace 4]) ∧
    WalkReadsAll (TraceStore.holding [Recorded.bare_trace 3, Recorded.bare_trace 4]) 1
      [Recorded.bare_trace 3, Recorded.bare_trace 4] := by
  have hids : ([Recorded.bare_trace 3, Recorded.bare_trace 4].map (·.id)).Nodup := by decide
  have htied : ∀ a ∈ [Recorded.bare_trace 3, Recorded.bare_trace 4],
      ∀ b ∈ [Recorded.bare_trace 3, Recorded.bare_trace 4], a.started_at = b.started_at := by
    intro a ha b hb
    simp only [List.mem_cons, List.not_mem_nil, or_false] at ha hb
    rcases ha with rfl | rfl <;> rcases hb with rfl | rfl <;> rfl
  have hlistable : ∀ trace ∈ [Recorded.bare_trace 3, Recorded.bare_trace 4], trace.Listable :=
    List.forall_mem_cons.mpr ⟨rfl, List.forall_mem_singleton.mpr rfl⟩
  obtain ⟨hpages, hwalk⟩ := traces_listing_iff (Recorded.newest_first_of_tied hids htied)
    (show 1 ≤ 1 by omega) (by omega)
  constructor
  · intro offset
    refine (hpages offset).mpr ⟨Or.inr ?_, ?_⟩
    · rw [List.length_cons, List.length_singleton]
      omega
    · exact fun trace htrace => hlistable trace (List.mem_of_mem_drop (List.mem_of_mem_take htrace))
  · exact hwalk.mpr ⟨by decide, hlistable⟩

end DecisionRuntime
