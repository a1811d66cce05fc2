/-
`backend/app/observability/metrics.py`: the counters, and the text they are
scraped from.

A counter is kept under one text, which is made of its name and its labels, and is
counted in floats.

* `get_counter_counted` -- what the registry holds after any calls of `increment`;
* `key_inj` -- labels whose texts have no quote are told apart by the key.
-/
import DecisionRuntime.Dict
import DecisionRuntime.SignificantDigits
import DecisionRuntime.Splitting
import DecisionRuntime.StableOrder
import DecisionRuntime.Value
import Mathlib.Data.Prod.Lex

set_option autoImplicit false

namespace DecisionRuntime

open SignificantDigits

/-! ## Numbers -/

/-- `n + 1.0`, where `n` is a float: from `2 ** 53` on there is none between. -/
def add_one (n : ℕ) : ℕ := if n < 2 ^ 53 then n + 1 else n

/-- `f"{n:g}"`. -/
def format_g (n : ℕ) : String := String.ofList (general 6 n)

/-- `f"{q:.6f}"`. -/
def format_6f (q : ℚ) : String :=
  let millionths := round_half_even (q.num.natAbs * 10 ^ 6) q.den
  (if q < 0 then "-" else "") ++ String.ofList (digits (millionths / 10 ^ 6)) ++ "."
    ++ Datetime.pad 6 (millionths % 10 ^ 6)

/-! ## The registry -/

/-- The labels of a counter. -/
abbrev Labels := Dict String String

/-- `sorted(labels.items())`. -/
def sorted_items (labels : Labels) : List (String × String) :=
  labels.entries.insertionSort (fun a b => toLex a ≤ toLex b)

/-- `_format_labels`. -/
def format_labels (labels : Labels) : String :=
  if labels.entries.isEmpty then ""
  else
    let parts := (sorted_items labels).map fun kv => kv.1 ++ "=\"" ++ kv.2 ++ "\""
    "\x7b" ++ ",".intercalate parts ++ "\x7d"

/-- The values of a summary. -/
structure Summary where
  count : ℕ
  sum : ℚ

/-- `_counters` and `_summaries`. -/
structure Metrics where
  counters : Dict String ℕ
  summaries : Dict String Summary

/-- `increment`. -/
def Metrics.increment (name : String) (labels : Option Labels) (m : Metrics) : Metrics :=
  let key := name ++ format_labels (labels.getD Dict.empty)
  { m with counters := m.counters.set key (add_one ((m.counters.get key).getD 0)) }

/-- `get_counter`. -/
def Metrics.get_counter (name : String) (labels : Option Labels) (m : Metrics) : ℕ :=
  (m.counters.get (name ++ format_labels (labels.getD Dict.empty))).getD 0

/-- The types of metrics. -/
inductive MetricType
  | counter
  | summary
  deriving DecidableEq

def MetricType.value : MetricType → String
  | .counter => "counter"
  | .summary => "summary"

/-- An entry of `_declarations`. -/
structure Declaration where
  metric_name : String
  type : MetricType
  help_text : String

/-- `_declarations`. -/
def declarations : List Declaration :=
  [⟨"decision_evaluate_total", .counter, "Total decision evaluations by outcome status"⟩,
    ⟨"decision_evaluate_duration_seconds", .summary, "Duration of decision evaluations in seconds"⟩,
    ⟨"human_gate_action_total", .counter, "Human gate approve and reject actions"⟩,
    ⟨"ledger_append_total", .counter, "Ledger append operations by result status"⟩]

/-- `key.split("{")[0]`. -/
def base (key : String) : String := String.ofList (key.toList.takeWhile (· ≠ '{'))

/-- The keys and the numbers of the lines of a metric. -/
def Metrics.samples (m : Metrics) (d : Declaration) : List (String × String) :=
  match d.type with
  | .counter =>
    ((sorted m.counters.keys).filter (fun key => base key = d.metric_name)).map fun key =>
      (key, format_g ((m.counters.get key).getD 0))
  | .summary =>
    let data := (m.summaries.get d.metric_name).getD ⟨0, 0⟩
    [(d.metric_name ++ "_count", format_g data.count),
      (d.metric_name ++ "_sum", format_6f data.sum)]

/-- The lines that `prometheus_text` appends for a metric. -/
def Metrics.lines (m : Metrics) (d : Declaration) : List String :=
  ["# HELP " ++ d.metric_name ++ " " ++ d.help_text,
    "# TYPE " ++ d.metric_name ++ " " ++ d.type.value]
    ++ (m.samples d).map fun sample => sample.1 ++ " " ++ sample.2

/-- `prometheus_text`. -/
def Metrics.prometheus_text (m : Metrics) : String :=
  let lines := declarations.flatMap m.lines
  if lines.isEmpty then "\n" else "\n".intercalate lines ++ "\n"

/-! ## Increments -/

/-- A call of `increment`. -/
structure Increment where
  name : String
  labels : Option Labels := none

namespace Increment

/-- `labels or {}`. -/
def label_dict (c : Increment) : Labels := c.labels.getD Dict.empty

/-- The key that is incremented. -/
def key (c : Increment) : String := c.name ++ format_labels c.label_dict

/-- Two calls increment one counter: they have one name and one set of labels. -/
def SamePair (c c' : Increment) : Prop :=
  c.name = c'.name ∧ sorted_items c.label_dict = sorted_items c'.label_dict

instance decidableSamePair (c c' : Increment) : Decidable (SamePair c c') :=
  inferInstanceAs (Decidable (_ ∧ _))

/-- How often the counter of a call was incremented. -/
def count (calls : List Increment) (c : Increment) : ℕ := calls.countP (fun c' => SamePair c c')

end Increment

/-- The registry after the calls; nothing is known about its summaries. -/
def counted (summaries : Dict String Summary) (calls : List Increment) : Metrics :=
  calls.foldl (fun m c => m.increment c.name c.labels) ⟨Dict.empty, summaries⟩

/-- The names of the counters that are declared. -/
def counter_names : List String :=
  (declarations.filter (fun d => d.type = .counter)).map (·.metric_name)

theorem sorted_items_perm (labels : Labels) : (sorted_items labels).Perm labels.entries :=
  List.perm_insertionSort _ labels.entries

/-- Labels are sorted to one list when they are equal as sets of labels. -/
theorem sorted_items_eq_iff {labels labels' : Labels} :
    sorted_items labels = sorted_items labels' ↔ ∀ k, labels.get k = labels'.get k := by
  constructor
  · intro h k
    have hperm : labels.entries.Perm labels'.entries :=
      (sorted_items_perm labels).symm.trans (h ▸ sorted_items_perm labels')
    ext v
    constructor
    · intro hget
      exact Dict.get_of_mem (hperm.mem_iff.mp (Dict.mem_of_get hget))
    · intro hget
      exact Dict.get_of_mem (hperm.mem_iff.mpr (Dict.mem_of_get hget))
  · intro h
    have hperm : labels.entries.Perm labels'.entries := by
      refine (List.perm_ext_iff_of_nodup labels.nodup.of_map labels'.nodup.of_map).mpr ?_
      rintro ⟨k, v⟩
      constructor
      · intro hkv
        exact Dict.mem_of_get ((h k).symm.trans (Dict.get_of_mem hkv))
      · intro hkv
        exact Dict.mem_of_get ((h k).trans (Dict.get_of_mem hkv))
    -- as a list of pairs in the order of `Prod.Lex`, there is one sorted list
    have hmap : ∀ items : List (String × String),
        (items.insertionSort fun a b => toLex a ≤ toLex b).map toLex
          = (items.map toLex).insertionSort (· ≤ ·) := by
      intro items
      exact List.map_insertionSort _ _ toLex items fun _ _ _ _ => Iff.rfl
    apply List.map_injective_iff.mpr toLex.injective
    rw [sorted_items, sorted_items, hmap, hmap]
    apply List.Perm.eq_of_pairwise' (List.pairwise_insertionSort _ _)
      (List.pairwise_insertionSort _ _)
    exact (List.perm_insertionSort _ _).trans
      ((hperm.map toLex).trans (List.perm_insertionSort _ _).symm)

/-! ## What the registry counts -/

section Counted

variable {summaries : Dict String Summary} {calls : List Increment}

theorem counted_append (calls : List Increment) (c : Increment) :
    counted summaries (calls ++ [c]) = (counted summaries calls).increment c.name c.labels := by
  simp only [counted, List.foldl_append, List.foldl_cons, List.foldl_nil]

/-- A counter is found under a key when the key was incremented. -/
theorem mem_keys_counted {key : String} :
    key ∈ (counted summaries calls).counters.keys ↔ ∃ c ∈ calls, c.key = key := by
  induction calls using List.reverseRecOn with
  | nil => simp [counted]
  | append_singleton calls c ih =>
      rw [counted_append, Metrics.increment, Dict.mem_keys_set, ih]
      simp [Increment.key, Increment.label_dict, or_comm, eq_comm]

/-- The number under a key is how often it was incremented, up to the greatest float that still
counts. -/
theorem get_counted (key : String) :
    ((counted summaries calls).counters.get key).getD 0
      = min (calls.countP (fun c => c.key = key)) (2 ^ 53) := by
  induction calls using List.reverseRecOn with
  | nil => simp [counted]
  | append_singleton calls c ih =>
      rw [counted_append, Metrics.increment, Dict.get_set, List.countP_append]
      have hkey : c.name ++ format_labels (c.labels.getD Dict.empty) = c.key := rfl
      rw [hkey]
      by_cases h : key = c.key
      · -- one more, or as many as before when there is no greater float
        rw [if_pos h, ← h, Option.getD_some, ih, add_one]
        simp only [List.countP_cons, List.countP_nil, h, decide_true, if_true]
        split <;> omega
      · rw [if_neg h, ih]
        simp [Ne.symm h]

/-- What `get_counter` answers is how often the key of the counter was incremented. -/
theorem get_counter_counted (c : Increment) :
    (counted summaries calls).get_counter c.name c.labels
      = min (calls.countP fun c' => c'.key = c.key) (2 ^ 53) :=
  get_counted c.key

end Counted

/-! ## Declared counters -/

/-- The names of the counters, as texts: they do not start like a comment, and have neither a
brace nor a line end. -/
theorem counter_name_chars : ∀ name ∈ counter_names, name.toList.head? ≠ some '#'
    ∧ name.toList ≠ [] ∧ '{' ∉ name.toList ∧ '\n' ∉ name.toList := by
  decide

/-- What `_format_labels` writes after the opening brace. -/
def labels_text (items : List (String × String)) : List Char :=
  [','].intercalate (items.map fun kv => (kv.1 ++ "=\"" ++ kv.2 ++ "\"").toList) ++ ['}']

theorem sorted_items_eq_nil {labels : Labels} : sorted_items labels = [] ↔ labels.entries = [] := by
  have hlength := List.length_insertionSort (r := fun a b : String × String => toLex a ≤ toLex b)
    labels.entries
  rw [← List.length_eq_zero_iff, ← List.length_eq_zero_iff, sorted_items, hlength]

theorem format_labels_toList (labels : Labels) :
    (format_labels labels).toList
      = if sorted_items labels = [] then [] else '{' :: labels_text (sorted_items labels) := by
  unfold format_labels
  by_cases h : labels.entries = []
  · rw [if_pos (sorted_items_eq_nil.mpr h), h]
    rfl
  · have hempty : ¬labels.entries.isEmpty = true := by simpa using h
    rw [if_neg hempty, if_neg (mt sorted_items_eq_nil.mp h)]
    simp only [String.toList_append, String.toList_intercalate, List.map_map, labels_text,
      Function.comp_def]
    rfl

/-- The name can be read off the key. -/
theorem base_key {c : Increment} (h : c.name ∈ counter_names) : base c.key = c.name := by
  obtain ⟨-, -, hbrace, -⟩ := counter_name_chars c.name h
  have hname : ∀ ch ∈ c.name.toList, decide (ch ≠ '{') = true := by
    intro ch hch
    rw [decide_eq_true_eq]
    rintro rfl
    exact hbrace hch
  rw [base, Increment.key, String.toList_append, List.takeWhile_append_of_pos hname]
  have hlabels : (format_labels c.label_dict).toList.takeWhile (fun ch => decide (ch ≠ '{'))
      = [] := by
    rw [format_labels_toList]
    split
    · rfl
    · exact List.takeWhile_cons_of_neg (by decide)
  rw [hlabels, List.append_nil, String.ofList_toList]

/-- A line that starts with a key is not a comment. -/
theorem key_head {c : Increment} (h : c.name ∈ counter_names) : c.key.toList.head? ≠ some '#' := by
  obtain ⟨hhead, hne, -⟩ := counter_name_chars c.name h
  rw [Increment.key, String.toList_append, List.head?_append_of_ne_nil _ hne]
  exact hhead

/-! ## The key tells the labels apart -/

/-- The text of a label, and what follows it. -/
theorem labels_text_cons (kv : String × String) (items : List (String × String)) :
    labels_text (kv :: items) = kv.1.toList ++ ['='] ++ '"' :: (kv.2.toList ++ '"' ::
      if items = [] then ['}'] else ',' :: labels_text items) := by
  have hpart : (kv.1 ++ "=\"" ++ kv.2 ++ "\"").toList
      = kv.1.toList ++ ['='] ++ '"' :: (kv.2.toList ++ ['"']) := by
    simp only [String.toList_append]
    simp
  by_cases hnil : items = []
  · simp [labels_text, hnil]
  · have hmap : items.map (fun kv => (kv.1 ++ "=\"" ++ kv.2 ++ "\"").toList) ≠ [] := by
      simpa using hnil
    rw [labels_text, List.map_cons, List.intercalate_cons_of_ne_nil hmap, hpart, if_neg hnil,
      labels_text]
    simp

/-- Neither the names nor the values of the labels contain the character. -/
def FreeOf (ch : Char) (items : List (String × String)) : Prop :=
  ∀ kv ∈ items, ch ∉ kv.1.toList ∧ ch ∉ kv.2.toList

/-- Labels without quotes are read back from their text: the first two quotes enclose the first
value. -/
theorem labels_text_inj {items items' : List (String × String)} (h : FreeOf '"' items)
    (h' : FreeOf '"' items') (htext : labels_text items = labels_text items') : items = items' := by
  induction items generalizing items' with
  | nil =>
      cases items' with
      | nil => rfl
      | cons kv' items' =>
          rw [labels_text_cons] at htext
          have hquote : '"' ∈ labels_text [] := by simp [htext]
          exact absurd hquote (by decide)
  | cons kv items ih =>
      cases items' with
      | nil =>
          rw [labels_text_cons] at htext
          have hquote : '"' ∈ labels_text [] := by simp [← htext]
          exact absurd hquote (by decide)
      | cons kv' items' =>
          obtain ⟨⟨hname, hvalue⟩, hitems⟩ := List.forall_mem_cons.mp h
          obtain ⟨⟨hname', hvalue'⟩, hitems'⟩ := List.forall_mem_cons.mp h'
          rw [labels_text_cons, labels_text_cons] at htext
          obtain ⟨hfirst, hrest⟩ :=
            first_separator_inj (by simpa using hname) (by simpa using hname') htext
          obtain ⟨hsecond, htail⟩ := first_separator_inj hvalue hvalue' hrest
          have hkv : kv = kv' :=
            Prod.ext (String.toList_inj.mp (List.append_cancel_right hfirst))
              (String.toList_inj.mp hsecond)
          rw [hkv]
          congr 1
          -- after the second quote comes a comma, and the next label, or the closing brace
          by_cases hnil : items = []
          · by_cases hnil' : items' = []
            · rw [hnil, hnil']
            · rw [if_pos hnil, if_neg hnil'] at htail
              exact absurd (List.cons.inj htail).1 (by decide)
          · by_cases hnil' : items' = []
            · rw [if_neg hnil, if_pos hnil'] at htail
              exact absurd (List.cons.inj htail).1 (by decide)
            · rw [if_neg hnil, if_neg hnil'] at htail
              exact ih hitems hitems' (List.cons.inj htail).2

/-- The text of the labels has their characters, and those between them. -/
theorem not_mem_labels_text {ch : Char} {items : List (String × String)} (h : FreeOf ch items)
    (hch : ch ∉ ['=', '"', ',', '}']) : ch ∉ labels_text items := by
  simp only [List.mem_cons, List.not_mem_nil, or_false, not_or] at hch
  induction items with
  | nil => simpa [labels_text] using hch.2.2.2
  | cons kv items ih =>
      obtain ⟨⟨hname, hvalue⟩, hitems⟩ := List.forall_mem_cons.mp h
      rw [labels_text_cons]
      by_cases hnil : items = []
      · simp [hnil, hname, hvalue, hch]
      · simp [hnil, hname, hvalue, hch, ih hitems]

/-- Without line ends in the labels, the key is a part of a line. -/
theorem key_line {c : Increment} (hdeclared : c.name ∈ counter_names)
    (h : FreeOf '\n' (sorted_items c.label_dict)) : '\n' ∉ c.key.toList := by
  obtain ⟨-, -, -, hname⟩ := counter_name_chars c.name hdeclared
  rw [Increment.key, String.toList_append, List.mem_append, not_or]
  refine ⟨hname, ?_⟩
  rw [format_labels_toList]
  split
  · exact List.not_mem_nil
  · rw [List.mem_cons, not_or]
    exact ⟨by decide, not_mem_labels_text h (by decide)⟩

/-- One pair has one key. -/
theorem key_of_samePair {c c' : Increment} (h : Increment.SamePair c c') : c.key = c'.key := by
  obtain ⟨hname, hlabels⟩ := h
  have hformat : format_labels c.label_dict = format_labels c'.label_dict := by
    rw [← String.toList_inj, format_labels_toList, format_labels_toList, hlabels]
  rw [Increment.key, Increment.key, hname, hformat]

/-- **The key.** Without quotes in the labels, one key belongs to one pair. -/
theorem key_inj {c c' : Increment} (hdeclared : c.name ∈ counter_names)
    (hdeclared' : c'.name ∈ counter_names) (h : FreeOf '"' (sorted_items c.label_dict))
    (h' : FreeOf '"' (sorted_items c'.label_dict)) (hkey : c.key = c'.key) :
    Increment.SamePair c c' := by
  have hname : c.name = c'.name := by rw [← base_key hdeclared, ← base_key hdeclared', hkey]
  refine ⟨hname, ?_⟩
  rw [Increment.key, Increment.key, hname, ← String.toList_inj, String.toList_append,
    String.toList_append] at hkey
  have hformat := List.append_cancel_left hkey
  rw [format_labels_toList, format_labels_toList] at hformat
  by_cases hnil : sorted_items c.label_dict = []
  · rw [if_pos hnil] at hformat
    by_cases hnil' : sorted_items c'.label_dict = []
    · rw [hnil, hnil']
    · rw [if_neg hnil'] at hformat
      exact absurd hformat (List.cons_ne_nil _ _).symm
  · rw [if_neg hnil] at hformat
    by_cases hnil' : sorted_items c'.label_dict = []
    · rw [if_pos hnil'] at hformat
      exact absurd hformat (List.cons_ne_nil _ _)
    · rw [if_neg hnil'] at hformat
      exact labels_text_inj h h' (List.cons.inj hformat).2

end DecisionRuntime
