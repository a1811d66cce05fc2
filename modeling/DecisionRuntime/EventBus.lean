/-
`backend/app/integrations/event_bus.py` and `redis_event_bus.py`: events that are
published, and read page by page.

The two buses have different cursors. In memory it is the id of an event, found by a
search from the start; in Redis it is the id that `XADD` gave the entry, which the bus
writes into the metadata of each event it returns. Both serve a `CursorLog`
(`serves_memory`, `serves_redis`), so a reader that pages through either receives what
was published before its last call, once and in order.

Redis and the JSON of an event are outside the source. `Redis` is what the bus calls of
them, and `RedisStream` what is relied on: entries are appended with greater ids, a range
that excludes its start is what comes after it, and a dumped event validates to itself.
-/
import DecisionRuntime.CursorLog
import DecisionRuntime.Dict
import DecisionRuntime.Exec
import DecisionRuntime.Models
import DecisionRuntime.ValueEquality

set_option autoImplicit false

namespace DecisionRuntime

open CursorLog

/-- `_MAX_LIMIT`. -/
def MAX_LIMIT : ℕ := 1000

/-! ## In memory -/

namespace EventBus

/-- `publish`, on the list of the events. -/
def publish (event : RuntimeEvent) (events : List RuntimeEvent) : List RuntimeEvent :=
  events ++ [event]

/-- `get_events`. The loop over `enumerate(events)` finds the first event with the id. -/
def get_events (since_id : Option String) (limit : Option ℕ) (events : List RuntimeEvent) :
    List RuntimeEvent :=
  let events :=
    match since_id with
    | none => events
    | some since_id =>
      match events.findIdx? (fun ev => ev.id.str = since_id) with
      | some idx => events.drop (idx + 1)
      | none => events
  match limit with
  | some limit => events.take (min limit MAX_LIMIT)
  | none => events

end EventBus

/-- The bus in memory, read with pages of `limit`. -/
def memory_bus (limit : ℕ) :
    Server (List RuntimeEvent) RuntimeEvent RuntimeEvent String PyError where
  publish := EventBus.publish
  get since_id events := .ok (EventBus.get_events since_id (some limit) events)
  cursor event := some event.id.str

section Memory

/-- After the last event of a prefix comes the rest, when no two events have one id. -/
theorem get_events_after {seen rest : List RuntimeEvent} {limit : ℕ}
    (hnodup : ((seen ++ rest).map (·.id)).Nodup) :
    EventBus.get_events (since (memory_bus limit) seen) (some limit) (seen ++ rest)
      = rest.take (min limit MAX_LIMIT) := by
  induction seen using List.reverseRecOn with
  | nil => rfl
  | append_singleton seen event _ =>
      have hsince : since (memory_bus limit) (seen ++ [event]) = some event.id.str := by
        rw [since, List.getLast?_concat]
        rfl
      -- the search stops at the event itself: those before it have other ids
      have hfind : (seen ++ [event] ++ rest).findIdx? (fun ev => ev.id.str = event.id.str)
          = some seen.length := by
        have hnone : seen.findIdx? (fun ev => ev.id.str = event.id.str) = none := by
          rw [List.findIdx?_eq_none_iff]
          intro ev hev
          rw [decide_eq_false_iff_not, UUID.str_inj]
          rw [List.append_assoc, List.map_append, List.nodup_append] at hnodup
          exact hnodup.2.2 _ (List.mem_map_of_mem hev) _ (by simp)
        rw [List.append_assoc, List.findIdx?_append, hnone, List.singleton_append,
          List.findIdx?_cons]
        simp
      have hdrop : (seen ++ [event] ++ rest).drop (seen.length + 1) = rest := by
        rw [List.drop_left']
        simp
      rw [hsince, EventBus.get_events, hfind]
      show ((seen ++ [event] ++ rest).drop (seen.length + 1)).take (min limit MAX_LIMIT) = _
      rw [hdrop]

/-- **The bus in memory** serves its log, as long as the ids of the events are distinct. -/
theorem serves_memory (limit : ℕ) : Serves (memory_bus limit) id Eq
    (fun events others => ((events ++ others).map (·.id)).Nodup) (min limit MAX_LIMIT) where
  appends := by
    intro e es events _
    exact ⟨e, rfl, rfl⟩
  keeps := by
    intro e es events h
    show ((events ++ [e] ++ es).map (·.id)).Nodup
    rwa [List.append_assoc]
  page := by
    intro es events seen rest h hsplit
    have hevents : events = seen ++ rest := hsplit
    subst hevents
    rw [List.map_append, List.nodup_append] at h
    exact congrArg Except.ok (get_events_after h.1)

end Memory

/-! ## In Redis -/

/-- What the bus calls: a Redis client that decodes responses, and the JSON of an event. `δ` is
what the server draws for the id of a new entry. -/
structure Redis (σ δ : Type) where
  xadd : δ → List (String × String) → σ → σ
  xrange : String → Option ℕ → σ → List (String × List (String × String))
  model_dump_json : RuntimeEvent → String
  model_validate_json : String → Except PyError RuntimeEvent

namespace RedisEventBus

variable {σ δ : Type} (R : Redis σ δ)

/-- The fields of the entry of an event. -/
def event_fields (event : RuntimeEvent) : List (String × String) :=
  [("event_json", R.model_dump_json event)]

/-- `publish`. -/
def publish (draw : δ) (event : RuntimeEvent) (s : σ) : σ := R.xadd draw (event_fields R event) s

/-- The event with the id of its entry in the metadata. -/
def stamp (entry_id : String) (event : RuntimeEvent) : RuntimeEvent :=
  { event with metadata := Dict.put "redis_entry_id" (.str entry_id) event.metadata }

/-- The loop of `get_events` over the entries. -/
def decode : List (String × List (String × String)) → Except PyError (List RuntimeEvent)
  | [] => .ok []
  | (entry_id, fields) :: entries => do
    let raw := (Dict.lookup "event_json" fields).getD ""
    if raw ≠ "" then
      let event ← R.model_validate_json raw
      let result ← decode entries
      return stamp entry_id event :: result
    else decode entries

/-- `get_events`. -/
def get_events (since_id : Option String) (limit : Option ℕ) (s : σ) :
    Except PyError (List RuntimeEvent) :=
  let start :=
    match since_id with
    | none => "-"
    | some since_id => "(" ++ since_id
  decode R (R.xrange start (limit.map (min · MAX_LIMIT)) s)

end RedisEventBus

open RedisEventBus

/-- The bus in Redis, read with pages of `limit`. The cursor is taken from the metadata. -/
def redis_bus {σ δ : Type} (R : Redis σ δ) (limit : ℕ) :
    Server σ (RuntimeEvent × δ) RuntimeEvent String PyError where
  publish e := RedisEventBus.publish R e.2 e.1
  get since_id s := RedisEventBus.get_events R since_id (some limit) s
  cursor event :=
    match PyDict.get event.metadata "redis_entry_id" with
    | some (.str entry_id) => some entry_id
    | _ => none

/-- What is relied on: the stream is a list of entries, to which `XADD` appends one with a greater
id; a range from `-` is its beginning, and one from `(id` the beginning of what has greater ids. -/
structure RedisStream {σ δ : Type} (R : Redis σ δ)
    (entries : σ → List (String × List (String × String))) (before : String → String → Bool) :
    Prop where
  irrefl : ∀ id, before id id = false
  trans : ∀ a b c, before a b = true → before b c = true → before a c = true
  xadd : ∀ draw fields s, ∃ id, entries (R.xadd draw fields s) = entries s ++ [(id, fields)]
    ∧ ∀ entry ∈ entries s, before entry.1 id = true
  from_start : ∀ count s, R.xrange "-" (some count) s = (entries s).take count
  from_after : ∀ id count s, R.xrange ("(" ++ id) (some count) s
    = ((entries s).filter (fun entry => before id entry.1)).take count

/-- The event comes back from its JSON, which is not empty. -/
structure RoundTrips {σ δ : Type} (R : Redis σ δ) (event : RuntimeEvent) : Prop where
  dump_ne_empty : R.model_dump_json event ≠ ""
  validate_dump : R.model_validate_json (R.model_dump_json event) = .ok event

section Redis

variable {σ δ : Type} {R : Redis σ δ} {entries : σ → List (String × List (String × String))}
  {before : String → String → Bool}

/-- The entry of an event, and the event it is read as. -/
def entry (R : Redis σ δ) (w : String × RuntimeEvent) : String × List (String × String) :=
  (w.1, event_fields R w.2)

def shown (w : String × RuntimeEvent) : RuntimeEvent := stamp w.1 w.2

/-- The events that are read from the stream. -/
def stream_events (R : Redis σ δ) (entries : σ → List (String × List (String × String))) (s : σ) :
    List RuntimeEvent :=
  match decode R (entries s) with
  | .ok events => events
  | .error _ => []

/-- The stream holds entries of events, with greater and greater ids. -/
structure Written (R : Redis σ δ) (entries : σ → List (String × List (String × String)))
    (before : String → String → Bool) (s : σ) (written : List (String × RuntimeEvent)) : Prop where
  entries : entries s = written.map (entry R)
  sorted : written.Pairwise (fun a b => before a.1 b.1 = true)
  events : ∀ w ∈ written, RoundTrips R w.2

theorem decode_written {written : List (String × RuntimeEvent)}
    (h : ∀ w ∈ written, RoundTrips R w.2) :
    decode R (written.map (entry R)) = .ok (written.map shown) := by
  induction written with
  | nil => rfl
  | cons w written ih =>
      rw [List.forall_mem_cons] at h
      rw [List.map_cons, List.map_cons, entry, decode]
      have hraw : (Dict.lookup "event_json" (event_fields R w.2)).getD ""
          = R.model_dump_json w.2 := rfl
      simp only [hraw]
      rw [if_pos h.1.dump_ne_empty, h.1.validate_dump, except_ok_bind, ih h.2]
      rfl

theorem stream_events_written {s : σ} {written : List (String × RuntimeEvent)}
    (h : Written R entries before s written) : stream_events R entries s = written.map shown := by
  rw [stream_events, h.entries, decode_written h.events]

/-- After an entry come those with greater ids. -/
theorem filter_after (hredis : RedisStream R entries before) {w : String × RuntimeEvent}
    {seen rest : List (String × RuntimeEvent)}
    (h : (seen ++ w :: rest).Pairwise (fun a b => before a.1 b.1 = true)) :
    ((seen ++ w :: rest).map (entry R)).filter (fun e => before w.1 e.1) = rest.map (entry R) := by
  rw [List.pairwise_append, List.pairwise_cons] at h
  obtain ⟨-, ⟨hrest, -⟩, hseen⟩ := h
  -- what is not greater is an entry before, or the entry itself
  have hbefore : (seen.map (entry R)).filter (fun e => before w.1 e.1) = [] := by
    rw [List.filter_eq_nil_iff]
    intro e he hgreater
    obtain ⟨v, hv, rfl⟩ := List.mem_map.mp he
    have hloop : before v.1 v.1 = true :=
      hredis.trans _ _ _ (hseen v hv w List.mem_cons_self) hgreater
    simp [hredis.irrefl] at hloop
  have hafter : (rest.map (entry R)).filter (fun e => before w.1 e.1) = rest.map (entry R) := by
    rw [List.filter_eq_self]
    intro e he
    obtain ⟨v, hv, rfl⟩ := List.mem_map.mp he
    exact hrest v hv
  have hself : before w.1 (entry R w).1 = false := hredis.irrefl w.1
  rw [List.map_append, List.map_cons, List.filter_append, hbefore, List.nil_append,
    List.filter_cons, hself, hafter]
  simp

/-- The cursor of an event that was read is the id of its entry. -/
theorem cursor_shown (R : Redis σ δ) (limit : ℕ) (w : String × RuntimeEvent) :
    (redis_bus R limit).cursor (shown w) = some w.1 := by
  unfold redis_bus shown stamp
  simp only [PyDict.get_eq_lookup, Dict.lookup_put_same]

/-- Publishing writes one more entry. -/
theorem written_publish (hredis : RedisStream R entries before) {s : σ}
    {written : List (String × RuntimeEvent)} (h : Written R entries before s written) (draw : δ)
    {event : RuntimeEvent} (hevent : RoundTrips R event) : ∃ id,
      Written R entries before (RedisEventBus.publish R draw event s)
        (written ++ [(id, event)]) := by
  obtain ⟨id, hentries, hgreater⟩ := hredis.xadd draw (event_fields R event) s
  refine ⟨id, ?_, ?_, ?_⟩
  · rw [RedisEventBus.publish, hentries, h.entries, List.map_append]
    rfl
  · rw [List.pairwise_append]
    refine ⟨h.sorted, List.pairwise_singleton _ _, ?_⟩
    intro w hw v hv
    rw [List.mem_singleton.mp hv]
    apply hgreater (entry R w)
    rw [h.entries]
    exact List.mem_map_of_mem hw
  · rw [List.forall_mem_append, List.forall_mem_singleton]
    exact ⟨h.events, hevent⟩

/-- **The bus in Redis** serves its log. -/
theorem serves_redis (hredis : RedisStream R entries before) (limit : ℕ) :
    Serves (redis_bus R limit) (stream_events R entries)
      (fun e event => ∃ id, event = stamp id e.1)
      (fun s others => (∃ written, Written R entries before s written)
        ∧ ∀ e ∈ others, RoundTrips R e.1)
      (min limit MAX_LIMIT) where
  appends := by
    rintro ⟨event, draw⟩ es s ⟨⟨written, hwritten⟩, hothers⟩
    obtain ⟨id, hpublished⟩ :=
      written_publish hredis hwritten draw (hothers (event, draw) List.mem_cons_self)
    refine ⟨stamp id event, ⟨id, rfl⟩, ?_⟩
    show stream_events R entries (RedisEventBus.publish R draw event s) = _
    rw [stream_events_written hpublished, stream_events_written hwritten, List.map_append]
    rfl
  keeps := by
    rintro ⟨event, draw⟩ es s ⟨⟨written, hwritten⟩, hothers⟩
    rw [List.forall_mem_cons] at hothers
    obtain ⟨id, hpublished⟩ := written_publish hredis hwritten draw hothers.1
    exact ⟨⟨_, hpublished⟩, hothers.2⟩
  page := by
    rintro es s seen rest ⟨⟨written, hwritten⟩, -⟩ hsplit
    -- the entries are split where the events are
    rw [stream_events_written hwritten, List.map_eq_append_iff] at hsplit
    obtain ⟨seen, rest, rfl, rfl, rfl⟩ := hsplit
    obtain ⟨hentries, hsorted, hevents⟩ := hwritten
    have hpage : Except.ok ((rest.map shown).take (min limit MAX_LIMIT))
        = decode R ((rest.map (entry R)).take (min limit MAX_LIMIT)) := by
      rw [← List.map_take, ← List.map_take, decode_written]
      intro w hw
      exact hevents w (List.mem_append_right seen (List.mem_of_mem_take hw))
    rw [hpage]
    show RedisEventBus.get_events R _ (some limit) s = _
    induction seen using List.reverseRecOn with
    | nil =>
        show decode R (R.xrange "-" (some (min limit MAX_LIMIT)) s) = _
        rw [hredis.from_start, hentries]
        rfl
    | append_singleton seen w _ =>
        have hsince : since (redis_bus R limit) ((seen ++ [w]).map shown) = some w.1 := by
          rw [since, List.map_append, List.map_singleton, List.getLast?_concat, Option.bind_some,
            cursor_shown]
        rw [hsince]
        show decode R (R.xrange ("(" ++ w.1) (some (min limit MAX_LIMIT)) s) = _
        rw [List.append_assoc, List.singleton_append] at hentries hsorted
        rw [hredis.from_after, hentries, filter_after hredis hsorted]

end Redis

/-! ## Pages -/

/-- `list_events`, which passes its parameters to the bus. -/
def Routes.list_events {α : Type} (get_events : Option String → Option ℕ → α)
    (since_id : Option String) (limit : ℕ) : α := get_events since_id (some (min limit 1000))

/-- The route and the bus have the same limit. -/
theorem limit_of_route (limit : ℕ) : min (min limit 1000) MAX_LIMIT = min limit MAX_LIMIT := by
  rw [MAX_LIMIT]
  omega

theorem list_events_memory (since_id : Option String) (limit : ℕ) (events : List RuntimeEvent) :
    Except.ok (Routes.list_events (EventBus.get_events · · events) since_id limit)
      = (memory_bus limit).get since_id events := by
  unfold Routes.list_events memory_bus EventBus.get_events
  simp only [limit_of_route]

theorem list_events_redis {σ δ : Type} (R : Redis σ δ) (since_id : Option String) (limit : ℕ)
    (s : σ) : Routes.list_events (RedisEventBus.get_events R · · s) since_id limit
      = (redis_bus R limit).get since_id s := by
  unfold Routes.list_events redis_bus RedisEventBus.get_events
  simp only [Option.map_some, limit_of_route]

/-- **Cursor pagination.** Whatever is published between its calls, a reader of either bus that
goes on calling when publishing has stopped comes to an empty page. By then it has received the
events that were published before its last call, each once and in order; those of Redis have the
ids of their entries in the metadata. -/
theorem pagination_complete {limit : ℕ} (hlimit : 1 ≤ limit) :
    (∀ (moves : List (Move RuntimeEvent)) (n : ℕ), ((published moves).map (·.id)).Nodup →
      (published moves).length < n →
      ∃ pre, StoppedAfter (memory_bus limit) [] (moves ++ List.replicate n .call) pre
        ∧ (run (memory_bus limit) (Session.start []) (moves ++ List.replicate n .call)).received
          = published pre) ∧
    ∀ {σ δ : Type} (R : Redis σ δ) (entries : σ → List (String × List (String × String)))
      (before : String → String → Bool) (s : σ) (moves : List (Move (RuntimeEvent × δ))) (n : ℕ),
      RedisStream R entries before → entries s = [] →
      (∀ e ∈ published moves, RoundTrips R e.1) → (published moves).length < n →
      ∃ pre, StoppedAfter (redis_bus R limit) s (moves ++ List.replicate n .call) pre
        ∧ List.Forall₂ (fun e event => ∃ id, event = stamp id e.1) (published pre)
          (run (redis_bus R limit) (Session.start s)
            (moves ++ List.replicate n .call)).received := by
  have hpage : 1 ≤ min limit MAX_LIMIT := by
    rw [MAX_LIMIT]
    omega
  constructor
  · intro moves n hnodup hn
    obtain ⟨pre, hstopped, hshows⟩ := read_all (serves_memory limit) hpage rfl hnodup hn
    refine ⟨pre, hstopped, ?_⟩
    exact (List.forall₂_eq_eq_eq ▸ hshows).symm
  · intro σ δ R entries before s moves n hredis hempty hevents hn
    have hwritten : Written R entries before s [] :=
      ⟨hempty, List.Pairwise.nil, fun _ hw => absurd hw List.not_mem_nil⟩
    exact read_all (serves_redis hredis limit) hpage (stream_events_written hwritten)
      ⟨⟨[], hwritten⟩, hevents⟩ hn

namespace Recorded

/-- An event with this id. -/
def event (n : ℕ) : RuntimeEvent where
  id := UUID.ofInt n
  event_type := .decision_made
  flow_id := UUID.ofInt 1
  trace_id := UUID.ofInt 2
  decision_id := none
  timestamp := ⟨0, some 0⟩
  payload := []

/-- The id of the `n`-th entry of a stream, and the number of such an id. -/
def stream_id (n : ℕ) : String := String.ofList (Nat.toDigits 10 n ++ ['-', '0'])

def id_number (id : String) : ℕ := Nat.ofDigitChars 10 (id.toList.takeWhile Char.isDigit) 0

theorem id_number_stream_id (n : ℕ) : id_number (stream_id n) = n := by
  have htake : (Nat.toDigits 10 n ++ ['-', '0']).takeWhile Char.isDigit = Nat.toDigits 10 n := by
    rw [List.takeWhile_append_of_pos]
    · simp
    · intro c hc
      exact Nat.isDigit_of_mem_toDigits (by decide) (by decide) hc
  rw [id_number, stream_id, String.toList_ofList, htake, Nat.ofDigitChars_ten_toDigits]

def stream_entries (s : List (List (String × String))) : List (String × List (String × String)) :=
  s.mapIdx (fun n fields => (stream_id n, fields))

/-- A stream that numbers its entries, and events that are written as their ids. -/
def redis : Redis (List (List (String × String))) Unit where
  xadd _ fields s := s ++ [fields]
  xrange start count s :=
    let entries :=
      if start.toList.head? = some '(' then
        (stream_entries s).filter (fun entry =>
          id_number (String.ofList start.toList.tail) < id_number entry.1)
      else stream_entries s
    match count with
    | some count => entries.take count
    | none => entries
  model_dump_json event := event.id.str
  model_validate_json raw :=
    if raw = (event 7).id.str then .ok (event 7)
    else if raw = (event 8).id.str then .ok (event 8)
    else .error (.validationError "RuntimeEvent")

theorem redis_stream : RedisStream redis stream_entries
    (fun a b => id_number a < id_number b) where
  irrefl id := by simp
  trans a b c := by
    simp only [decide_eq_true_eq]
    exact lt_trans
  xadd draw fields s := by
    refine ⟨stream_id s.length, ?_, ?_⟩
    · rw [stream_entries, redis, List.mapIdx_concat]
      rfl
    · intro entry hentry
      obtain ⟨n, hn, rfl⟩ := List.mem_mapIdx.mp hentry
      simpa [id_number_stream_id] using hn
  from_start count s := rfl
  from_after id count s := by
    have hstart : ("(" ++ id).toList = '(' :: id.toList := by simp
    simp only [redis, hstart, List.head?_cons, List.tail_cons, String.ofList_toList, if_pos]

/-- Two events, of which one is published between two calls. -/
def two_events {δ : Type} (tag : RuntimeEvent → δ) : List (Move δ) :=
  [.publish (tag (event 7)), .call, .publish (tag (event 8))]

end Recorded

/-- Pages of one event each, of both buses. -/
theorem pagination_complete_two_events :
    (∃ pre, StoppedAfter (memory_bus 1) [] (Recorded.two_events id ++ List.replicate 3 .call) pre
      ∧ (run (memory_bus 1) (Session.start [])
          (Recorded.two_events id ++ List.replicate 3 .call)).received = published pre) ∧
    ∃ pre, StoppedAfter (redis_bus Recorded.redis 1) []
        (Recorded.two_events (fun event => (event, ())) ++ List.replicate 3 .call) pre
      ∧ List.Forall₂ (fun e event => ∃ id, event = stamp id e.1) (published pre)
        (run (redis_bus Recorded.redis 1) (Session.start [])
          (Recorded.two_events (fun event => (event, ())) ++ List.replicate 3 .call)).received := by
  have hdump : ∀ e ∈ published (Recorded.two_events (fun event => (event, ()))),
      RoundTrips Recorded.redis e.1 := by
    intro e he
    have hcases : e.1 = Recorded.event 7 ∨ e.1 = Recorded.event 8 := by
      simp only [Recorded.two_events, published, List.mem_cons, List.not_mem_nil, or_false] at he
      obtain rfl | rfl := he
      · exact Or.inl rfl
      · exact Or.inr rfl
    obtain h | h := hcases
    · rw [h]
      exact ⟨by decide, rfl⟩
    · rw [h]
      have hother : (Recorded.event 8).id.str ≠ (Recorded.event 7).id.str := by decide
      refine ⟨by decide, ?_⟩
      simp only [Recorded.redis, if_neg hother, if_pos]
  refine ⟨?_, ?_⟩
  · exact (pagination_complete (le_refl 1)).1 (Recorded.two_events id) 3 (by decide) (by decide)
  · exact (pagination_complete (le_refl 1)).2 Recorded.redis Recorded.stream_entries
      (fun a b => Recorded.id_number a < Recorded.id_number b) []
      (Recorded.two_events (fun event => (event, ()))) 3 Recorded.redis_stream rfl hdump
      (by decide)

end DecisionRuntime
