/-
What a scraper reads from `prometheus_text` (`backend/app/observability/metrics.py`).

A count is written with `%g`, which has six significant digits. A scraper therefore
reads it back exactly when its digits after the sixth are zero
(`exposition_lossless_iff`); from 1000001 on, most increments are not seen.
-/
import DecisionRuntime.Metrics

set_option autoImplicit false

namespace DecisionRuntime

open SignificantDigits

/-! ## A scraper -/

/-- A sample line, with the names of the `HELP` and the `TYPE` line above it. -/
structure Sample where
  help : List Char
  type : List Char
  key : List Char
  number : List Char

/-- What comes before the last blank of a line. -/
def before_blank (line : List Char) : List Char :=
  ((line.reverse.dropWhile (· ≠ ' ')).drop 1).reverse

/-- What comes after the last blank of a line. -/
def after_blank (line : List Char) : List Char := (line.reverse.takeWhile (· ≠ ' ')).reverse

/-- The name in a `HELP` or `TYPE` line. -/
def header_name (line : List Char) : List Char := (line.drop 7).takeWhile (· ≠ ' ')

/-- The sample lines of a text. -/
def scrape (help type : List Char) : List (List Char) → List Sample
  | [] => []
  | line :: lines =>
    if line = [] then scrape help type lines
    else if "# HELP ".toList.isPrefixOf line then scrape (header_name line) type lines
    else if "# TYPE ".toList.isPrefixOf line then scrape help (header_name line) lines
    else if line.head? = some '#' then scrape help type lines
    else ⟨help, type, before_blank line, after_blank line⟩ :: scrape help type lines

/-- The sample lines of an exposition. -/
def scraped (text : String) : List Sample := scrape [] [] (split '\n' text.toList)

/-- For each call there is exactly one line with its key in the text, in the family of its name, and
the number on it is how often its counter was incremented. -/
def Lossless (text : String) (calls : List Increment) : Prop :=
  ∀ c ∈ calls, ∃ written, (scraped text).filter (fun sample => sample.key = c.key.toList)
      = [⟨c.name.toList, c.name.toList, c.key.toList, written⟩]
    ∧ number written = some (Increment.count calls c : ℚ)

/-! ## The lines of the text -/

/-- A written count has neither a blank nor a line end. -/
theorem format_g_chars (n : ℕ) : ' ' ∉ (format_g n).toList ∧ '\n' ∉ (format_g n).toList := by
  rw [format_g, String.toList_ofList]
  exact not_mem_general 6 n

theorem digits_chars {n : ℕ} {ch : Char} (h : ch ∈ digits n) : ch ≠ ' ' ∧ ch ≠ '\n' := by
  have hdigit := isDigit_digits h
  constructor
  · rintro rfl
    exact absurd hdigit (by decide)
  · rintro rfl
    exact absurd hdigit (by decide)

theorem pad_chars {width n : ℕ} {ch : Char} (h : ch ∈ (Datetime.pad width n).toList) :
    ch ≠ ' ' ∧ ch ≠ '\n' := by
  rw [Datetime.pad, String.toList_ofList, List.mem_append] at h
  obtain h | h := h
  · rw [List.eq_of_mem_replicate h]
    decide
  · exact digits_chars h

/-- Nor has a sum: it is a sign, digits and a point. -/
theorem format_6f_chars (q : ℚ) : ' ' ∉ (format_6f q).toList ∧ '\n' ∉ (format_6f q).toList := by
  have hall : ∀ ch ∈ (format_6f q).toList, ch ≠ ' ' ∧ ch ≠ '\n' := by
    intro ch hch
    simp only [format_6f, String.toList_append, String.toList_ofList, List.mem_append] at hch
    obtain ((hsign | hwhole) | hpoint) | hpart := hch
    · split at hsign
      · have hch : ch = '-' := by simpa using hsign
        rw [hch]
        decide
      · simp at hsign
    · exact digits_chars hwhole
    · have hch : ch = '.' := by simpa using hpoint
      rw [hch]
      decide
    · exact pad_chars hpart
  exact ⟨fun h => (hall ' ' h).1 rfl, fun h => (hall '\n' h).2 rfl⟩

/-- The last blank stands before the number. -/
theorem blank_key_number (key : List Char) {written : List Char} (h : ' ' ∉ written) :
    before_blank (key ++ ' ' :: written) = key ∧ after_blank (key ++ ' ' :: written) = written := by
  have hreverse : (key ++ ' ' :: written).reverse = written.reverse ++ ' ' :: key.reverse := by
    simp
  have hnumber : ∀ ch ∈ written.reverse, decide (ch ≠ ' ') = true := by
    intro ch hch
    rw [decide_eq_true_eq]
    rintro rfl
    exact h (List.mem_reverse.mp hch)
  constructor
  · rw [before_blank, hreverse, List.dropWhile_append_of_pos hnumber]
    simp
  · rw [after_blank, hreverse, List.takeWhile_append_of_pos hnumber]
    simp

/-- What a scraper has to be told about a sample line. -/
def SampleLine (sample : String × String) : Prop :=
  sample.1.toList.head? ≠ some '#' ∧ ' ' ∉ sample.2.toList

/-- The samples of a metric, in its family. -/
def Metrics.exposed (m : Metrics) (d : Declaration) : List Sample :=
  (m.samples d).map fun sample =>
    ⟨d.metric_name.toList, d.metric_name.toList, sample.1.toList, sample.2.toList⟩

theorem scrape_help {help type : List Char} (text : String) (lines : List (List Char)) :
    scrape help type (("# HELP " ++ text).toList :: lines)
      = scrape (header_name ("# HELP " ++ text).toList) type lines := by
  have hprefix : "# HELP ".toList.isPrefixOf ("# HELP " ++ text).toList = true := by simp
  rw [scrape, if_neg (by simp), if_pos hprefix]

theorem scrape_type {help type : List Char} (text : String) (lines : List (List Char)) :
    scrape help type (("# TYPE " ++ text).toList :: lines)
      = scrape help (header_name ("# TYPE " ++ text).toList) lines := by
  have hprefix : "# TYPE ".toList.isPrefixOf ("# TYPE " ++ text).toList = true := by simp
  have hother : ¬"# HELP ".toList.isPrefixOf ("# TYPE " ++ text).toList = true := by simp
  rw [scrape, if_neg (by simp), if_neg hother, if_pos hprefix]

/-- Sample lines are read as what they were written from. -/
theorem scrape_samples {help type : List Char} {samples : List (String × String)}
    (h : ∀ sample ∈ samples, SampleLine sample) (rest : List (List Char)) :
    scrape help type (samples.map (fun sample => (sample.1 ++ " " ++ sample.2).toList) ++ rest)
      = samples.map (fun sample => ⟨help, type, sample.1.toList, sample.2.toList⟩)
        ++ scrape help type rest := by
  induction samples with
  | nil => rfl
  | cons sample samples ih =>
      obtain ⟨⟨hhash, hblank⟩, hsamples⟩ := List.forall_mem_cons.mp h
      have hline : (sample.1 ++ " " ++ sample.2).toList
          = sample.1.toList ++ ' ' :: sample.2.toList := by
        simp
      have hhead : (sample.1.toList ++ ' ' :: sample.2.toList).head? ≠ some '#' := by
        cases hkey : sample.1.toList with
        | nil => simp
        | cons ch cs =>
            rw [hkey] at hhash
            simpa using hhash
      have hcomment : ∀ start : List Char, start.head? = some '#' →
          ¬start.isPrefixOf (sample.1.toList ++ ' ' :: sample.2.toList) = true := by
        intro start hstart hprefix
        obtain ⟨post, hpost⟩ := List.isPrefixOf_iff_prefix.mp hprefix
        rw [← hpost, List.head?_append, hstart] at hhead
        exact hhead rfl
      obtain ⟨hbefore, hafter⟩ := blank_key_number sample.1.toList hblank
      rw [List.map_cons, List.cons_append, hline, scrape, if_neg (by simp),
        if_neg (hcomment _ rfl), if_neg (hcomment _ rfl), if_neg hhead, hbefore, hafter,
        ih hsamples, List.map_cons, List.cons_append]

/-- The names in the lines above a metric, and that these are lines. -/
theorem declared_headers : ∀ d ∈ declarations,
    header_name ("# HELP " ++ (d.metric_name ++ (" " ++ d.help_text))).toList
        = d.metric_name.toList
      ∧ header_name ("# TYPE " ++ (d.metric_name ++ (" " ++ d.type.value))).toList
        = d.metric_name.toList
      ∧ '\n' ∉ ("# HELP " ++ (d.metric_name ++ (" " ++ d.help_text))).toList
      ∧ '\n' ∉ ("# TYPE " ++ (d.metric_name ++ (" " ++ d.type.value))).toList := by
  decide +kernel

/-- The lines of a metric are read as its samples, whatever was read before. -/
theorem scrape_lines {m : Metrics} {d : Declaration} (hd : d ∈ declarations)
    (h : ∀ sample ∈ m.samples d, SampleLine sample) (help type : List Char)
    (rest : List (List Char)) :
    scrape help type ((m.lines d).map String.toList ++ rest)
      = m.exposed d ++ scrape d.metric_name.toList d.metric_name.toList rest := by
  obtain ⟨hhelp, htype, -, -⟩ := declared_headers d hd
  have hlines : (m.lines d).map String.toList ++ rest
      = ("# HELP " ++ (d.metric_name ++ (" " ++ d.help_text))).toList
        :: ("# TYPE " ++ (d.metric_name ++ (" " ++ d.type.value))).toList
        :: ((m.samples d).map (fun sample => (sample.1 ++ " " ++ sample.2).toList) ++ rest) := by
    simp only [Metrics.lines, String.append_assoc, List.cons_append, List.nil_append,
      List.map_cons, List.map_map, Function.comp_def]
  rw [hlines, scrape_help, scrape_type, hhelp, htype, scrape_samples h, Metrics.exposed]

/-- The lines of some metrics. -/
theorem scrape_metrics {m : Metrics} {ds : List Declaration} (hds : ∀ d ∈ ds, d ∈ declarations)
    (h : ∀ d ∈ ds, ∀ sample ∈ m.samples d, SampleLine sample) (help type : List Char) :
    scrape help type ((ds.flatMap m.lines).map String.toList ++ [[]]) = ds.flatMap m.exposed := by
  induction ds generalizing help type with
  | nil => rfl
  | cons d ds ih =>
      obtain ⟨hd, hds'⟩ := List.forall_mem_cons.mp hds
      obtain ⟨hsamples, hrest⟩ := List.forall_mem_cons.mp h
      rw [List.flatMap_cons, List.map_append, List.append_assoc, scrape_lines hd hsamples,
        ih hds' hrest, List.flatMap_cons]

/-- The text is read as its lines. -/
theorem split_prometheus_text {m : Metrics}
    (h : ∀ line ∈ declarations.flatMap m.lines, '\n' ∉ line.toList) :
    split '\n' m.prometheus_text.toList
      = (declarations.flatMap m.lines).map String.toList ++ [[]] := by
  have hne : declarations.flatMap m.lines ≠ [] := by simp [declarations, Metrics.lines]
  have hempty : ¬(declarations.flatMap m.lines).isEmpty = true := by simpa using hne
  have htext : m.prometheus_text.toList
      = ((declarations.flatMap m.lines).map String.toList).flatMap fun line => line ++ ['\n'] := by
    have hlines : m.prometheus_text = "\n".intercalate (declarations.flatMap m.lines) ++ "\n" := by
      unfold Metrics.prometheus_text
      exact if_neg hempty
    rw [hlines, String.toList_append, String.toList_intercalate,
      ← intercalate_append_separator (by simpa using hne)]
    rfl
  rw [htext, split_lines]
  intro line hline
  obtain ⟨text, htext, rfl⟩ := List.mem_map.mp hline
  exact h text htext

/-! ## What the samples are -/

/-- The lines of a summary are not those of a counter. -/
theorem summary_keys : ∀ d ∈ declarations, ∀ suffix ∈ ["_count", "_sum"],
    (d.metric_name ++ suffix).toList.head? ≠ some '#' ∧ '\n' ∉ (d.metric_name ++ suffix).toList
      ∧ base (d.metric_name ++ suffix) ∉ counter_names := by
  decide +kernel

/-- A sample is that of a key in the registry, or that of a summary. -/
theorem mem_samples {m : Metrics} {d : Declaration} {sample : String × String}
    (h : sample ∈ m.samples d) :
    (∃ key ∈ m.counters.keys, base key = d.metric_name
        ∧ sample = (key, format_g ((m.counters.get key).getD 0)))
      ∨ (∃ suffix ∈ ["_count", "_sum"], sample.1 = d.metric_name ++ suffix)
        ∧ ' ' ∉ sample.2.toList ∧ '\n' ∉ sample.2.toList := by
  unfold Metrics.samples at h
  split at h
  · obtain ⟨key, hkey, rfl⟩ := List.mem_map.mp h
    rw [List.mem_filter, (sorted_perm _).mem_iff, decide_eq_true_eq] at hkey
    exact Or.inl ⟨key, hkey.1, hkey.2, rfl⟩
  · apply Or.inr
    rw [List.mem_cons, List.mem_singleton] at h
    obtain rfl | rfl := h
    · exact ⟨⟨"_count", by simp, rfl⟩, format_g_chars _⟩
    · exact ⟨⟨"_sum", by simp, rfl⟩, format_6f_chars _⟩

/-- When the keys of a registry are parts of lines, and none starts like a comment, its text is read
as its samples. -/
theorem scraped_text {m : Metrics}
    (hkeys : ∀ key ∈ m.counters.keys, key.toList.head? ≠ some '#' ∧ '\n' ∉ key.toList) :
    scraped m.prometheus_text = declarations.flatMap m.exposed := by
  have hsamples : ∀ d ∈ declarations, ∀ sample ∈ m.samples d,
      SampleLine sample ∧ '\n' ∉ sample.1.toList ∧ '\n' ∉ sample.2.toList := by
    intro d hd sample hsample
    obtain ⟨key, hkey, -, rfl⟩ | ⟨⟨suffix, hsuffix, hkey⟩, hblank, hline⟩ := mem_samples hsample
    · obtain ⟨hhash, hline⟩ := hkeys key hkey
      exact ⟨⟨hhash, (format_g_chars _).1⟩, hline, (format_g_chars _).2⟩
    · obtain ⟨hhash, hkeyline, -⟩ := summary_keys d hd suffix hsuffix
      rw [← hkey] at hhash hkeyline
      exact ⟨⟨hhash, hblank⟩, hkeyline, hline⟩
  have hlines : ∀ line ∈ declarations.flatMap m.lines, '\n' ∉ line.toList := by
    intro line hline
    obtain ⟨d, hd, hline⟩ := List.mem_flatMap.mp hline
    obtain ⟨-, -, hhelp, htype⟩ := declared_headers d hd
    rw [Metrics.lines, List.mem_append, List.mem_cons, List.mem_singleton] at hline
    obtain (rfl | rfl) | hline := hline
    · simpa only [String.append_assoc] using hhelp
    · simpa only [String.append_assoc] using htype
    · obtain ⟨sample, hsample, rfl⟩ := List.mem_map.mp hline
      obtain ⟨-, hkey, hnumber⟩ := hsamples d hd sample hsample
      simp [hkey, hnumber]
  rw [scraped, split_prometheus_text hlines]
  refine scrape_metrics (fun d hd => hd) ?_ [] []
  intro d hd sample hsample
  exact (hsamples d hd sample hsample).1

/-- Of metrics with different names, one name belongs to one of them. -/
theorem flatMap_of_unique {α β : Type} {name : α → String} {as : List α} {f : α → List β} {a : α}
    (hnodup : (as.map name).Nodup) (ha : a ∈ as)
    (hother : ∀ b ∈ as, name b ≠ name a → f b = []) : as.flatMap f = f a := by
  induction as with
  | nil => exact absurd ha List.not_mem_nil
  | cons b as ih =>
      rw [List.map_cons, List.nodup_cons] at hnodup
      obtain ⟨hb, has⟩ := List.forall_mem_cons.mp hother
      rw [List.flatMap_cons]
      by_cases hname : name b = name a
      · have hnone : as.flatMap f = [] := by
          rw [List.flatMap_eq_nil_iff]
          intro x hx
          apply has x hx
          intro hsame
          exact hnodup.1 (List.mem_map.mpr ⟨x, hx, hsame.trans hname.symm⟩)
        have hmem : a = b := by
          obtain rfl | hmem := List.mem_cons.mp ha
          · rfl
          · exact absurd (List.mem_map.mpr ⟨a, hmem, hname.symm⟩) hnodup.1
        rw [hnone, List.append_nil, hmem]
      · have hmem : a ∈ as := by
          obtain rfl | hmem := List.mem_cons.mp ha
          · exact absurd rfl hname
          · exact hmem
        rw [hb hname, List.nil_append, ih hnodup.2 hmem has]

/-- **One line for each key.** A key of a declared counter is found once, in the family of its
name. -/
theorem filter_exposed {m : Metrics} {c : Increment} (hdeclared : c.name ∈ counter_names)
    (hmem : c.key ∈ m.counters.keys) :
    (declarations.flatMap m.exposed).filter (fun sample => sample.key = c.key.toList)
      = [⟨c.name.toList, c.name.toList, c.key.toList,
          (format_g ((m.counters.get c.key).getD 0)).toList⟩] := by
  obtain ⟨d, hd, hname⟩ := List.mem_map.mp hdeclared
  obtain ⟨hd, htype⟩ := List.mem_filter.mp hd
  rw [decide_eq_true_eq] at htype
  have hnodup : (declarations.map (·.metric_name)).Nodup := by decide
  rw [List.filter_flatMap, flatMap_of_unique hnodup hd]
  · -- in its own family: sorting keeps the one entry of the key
    have hkeys : (sorted m.counters.keys).filter (fun key => key = c.key) = [c.key] := by
      have hcount : (sorted m.counters.keys).count c.key = 1 := by
        rw [(sorted_perm _).count_eq]
        exact List.count_eq_one_of_mem m.counters.nodup hmem
      rw [List.filter_eq, hcount, List.replicate_one]
    have hfamily : ∀ key, (decide (key.toList = c.key.toList) && decide (base key = c.name))
        = decide (key = c.key) := by
      intro key
      rw [Bool.eq_iff_iff]
      simp only [Bool.and_eq_true, decide_eq_true_eq, String.toList_inj]
      constructor
      · exact fun h => h.1
      · rintro rfl
        exact ⟨rfl, base_key hdeclared⟩
    simp only [Metrics.exposed, Metrics.samples, htype, List.map_map, List.filter_map,
      Function.comp_def, List.filter_filter, hfamily, hkeys, List.map_cons, List.map_nil, hname]
  · -- in another family: the name is the text before the first brace
    intro d' hd' hother
    rw [List.filter_eq_nil_iff]
    intro sample hsample
    obtain ⟨written, hwritten, rfl⟩ := List.mem_map.mp hsample
    rw [decide_eq_true_eq]
    intro hkey
    have hkey : written.1 = c.key := String.toList_inj.mp hkey
    obtain ⟨key, -, hbase, rfl⟩ | ⟨⟨suffix, hsuffix, hsummary⟩, -⟩ := mem_samples hwritten
    · apply hother
      rw [← hbase, hname, ← base_key hdeclared, ← hkey]
    · obtain ⟨-, -, hbase⟩ := summary_keys d' hd' suffix hsuffix
      rw [← hsummary, hkey, base_key hdeclared] at hbase
      exact hbase hdeclared

/-! ## Which expositions are lossless -/

/-- The key of a sample is a part of one line. -/
theorem key_of_mem_scrape {help type : List Char} {lines : List (List Char)} {sample : Sample}
    (h : sample ∈ scrape help type lines) : ∃ line ∈ lines, sample.key ⊆ line := by
  induction lines generalizing help type with
  | nil => exact absurd h List.not_mem_nil
  | cons line lines ih =>
      have hskipped : ∀ {help type : List Char}, sample ∈ scrape help type lines →
          ∃ later ∈ line :: lines, sample.key ⊆ later := by
        intro help type hmem
        obtain ⟨later, hlater, hkey⟩ := ih hmem
        exact ⟨later, List.mem_cons_of_mem line hlater, hkey⟩
      unfold scrape at h
      split_ifs at h with hempty hhelp htype hcomment
      · exact hskipped h
      · exact hskipped h
      · exact hskipped h
      · exact hskipped h
      · obtain rfl | hmem := List.mem_cons.mp h
        · refine ⟨line, List.mem_cons_self, ?_⟩
          intro ch hch
          have hdropped := List.mem_of_mem_drop (List.mem_reverse.mp hch)
          exact List.mem_reverse.mp ((List.dropWhile_sublist _).subset hdropped)
        · exact hskipped hmem

/-- Two kinds of calls that exclude each other are counted together. -/
theorem countP_add_le {α : Type} {p q r : α → Bool} {as : List α}
    (hp : ∀ a, p a = true → r a = true) (hq : ∀ a, q a = true → r a = true)
    (hexclude : ∀ a, p a = true → ¬q a = true) : as.countP p + as.countP q ≤ as.countP r := by
  induction as with
  | nil => simp
  | cons a as ih =>
      simp only [List.countP_cons]
      have hboth := hexclude a
      have hleft := hp a
      have hright := hq a
      by_cases hpa : p a = true
      · rw [if_pos hpa, if_neg (hboth hpa), if_pos (hleft hpa)]
        omega
      · rw [if_neg hpa]
        by_cases hqa : q a = true
        · rw [if_pos hqa, if_pos (hright hqa)]
          omega
        · rw [if_neg hqa]
          omega

section Lossless

variable {summaries : Dict String Summary} {calls : List Increment}

/-- What is read for a key is its number in the registry, rounded. -/
theorem lossless_iff_rounded (hdeclared : ∀ c ∈ calls, c.name ∈ counter_names) :
    Lossless (counted summaries calls).prometheus_text calls
      ↔ (∀ c ∈ calls, '\n' ∉ c.key.toList) ∧ ∀ c ∈ calls,
        rounded 6 (min (calls.countP fun c' => c'.key = c.key) (2 ^ 53))
          = Increment.count calls c := by
  have hread : (∀ c ∈ calls, '\n' ∉ c.key.toList) → ∀ c ∈ calls,
      (scraped (counted summaries calls).prometheus_text).filter
          (fun sample => sample.key = c.key.toList)
        = [⟨c.name.toList, c.name.toList, c.key.toList,
            general 6 (min (calls.countP fun c' => c'.key = c.key) (2 ^ 53))⟩] := by
    intro hlines c hc
    have hkeys : ∀ key ∈ (counted summaries calls).counters.keys,
        key.toList.head? ≠ some '#' ∧ '\n' ∉ key.toList := by
      intro key hkey
      obtain ⟨c', hc', rfl⟩ := mem_keys_counted.mp hkey
      exact ⟨key_head (hdeclared c' hc'), hlines c' hc'⟩
    rw [scraped_text hkeys, filter_exposed (hdeclared c hc) (mem_keys_counted.mpr ⟨c, hc, rfl⟩),
      get_counted, format_g, String.toList_ofList]
  constructor
  · intro h
    -- a key that was found is a part of a line
    have hlines : ∀ c ∈ calls, '\n' ∉ c.key.toList := by
      intro c hc
      obtain ⟨written, hsample, -⟩ := h c hc
      have hmem := List.mem_singleton_self
        (⟨c.name.toList, c.name.toList, c.key.toList, written⟩ : Sample)
      rw [← hsample] at hmem
      obtain ⟨line, hline, hkey⟩ := key_of_mem_scrape (List.mem_filter.mp hmem).1
      exact fun hend => not_mem_of_mem_split hline (hkey hend)
    refine ⟨hlines, ?_⟩
    intro c hc
    obtain ⟨written, hsample, hnumber⟩ := h c hc
    rw [hread hlines c hc] at hsample
    have hwritten : general 6 _ = written := congrArg Sample.number (List.cons.inj hsample).1
    rw [← hwritten, number_general (by omega), Option.some_inj] at hnumber
    exact_mod_cast hnumber
  · rintro ⟨hlines, hrounded⟩ c hc
    refine ⟨_, hread hlines c hc, ?_⟩
    rw [number_general (by omega), hrounded c hc]

/-- Without collisions, a key is incremented as often as its pair. -/
theorem countP_key {c : Increment}
    (h : ∀ c' ∈ calls, c'.key = c.key → Increment.SamePair c c') :
    calls.countP (fun c' => c'.key = c.key) = Increment.count calls c := by
  apply List.countP_congr
  intro c' hc'
  simp only [decide_eq_true_eq]
  exact ⟨h c' hc', fun hsame => (key_of_samePair hsame).symm⟩

/-- Two pairs with one key are both written with the number of them together, of which each is at
most the half, or less. -/
theorem samePair_of_rounded {c c' : Increment} (hc : c ∈ calls) (hkey : c'.key = c.key)
    (hcount : Increment.count calls c < 2 ^ 53)
    (hrounded : rounded 6 (min (calls.countP fun c'' => c''.key = c.key) (2 ^ 53))
      = Increment.count calls c)
    (hrounded' : rounded 6 (min (calls.countP fun c'' => c''.key = c'.key) (2 ^ 53))
      = Increment.count calls c') : Increment.SamePair c c' := by
  by_contra hpair
  have hsum : Increment.count calls c + Increment.count calls c'
      ≤ calls.countP fun c'' => c''.key = c.key := by
    apply countP_add_le
    · intro c'' hsame
      rw [decide_eq_true_eq] at hsame ⊢
      exact (key_of_samePair hsame).symm
    · intro c'' hsame
      rw [decide_eq_true_eq] at hsame ⊢
      rw [← hkey]
      exact (key_of_samePair hsame).symm
    · intro c'' hsame hsame'
      rw [decide_eq_true_eq] at hsame hsame'
      exact hpair ⟨hsame.1.trans hsame'.1.symm, hsame.2.trans hsame'.2.symm⟩
  have hpos : 1 ≤ calls.countP fun c'' => c''.key = c.key := by
    rw [Nat.one_le_iff_ne_zero, Ne, List.countP_eq_zero]
    intro hnone
    exact hnone c hc (decide_eq_true_eq.mpr rfl)
  rw [hkey] at hrounded'
  by_cases hlarge : (calls.countP fun c'' => c''.key = c.key) ≤ 2 ^ 53
  · rw [min_eq_left hlarge] at hrounded hrounded'
    have hhalf := lt_two_mul_rounded (p := 6) (by omega) hpos
    omega
  · -- the greatest float that still counts is rounded up
    have htop : rounded 6 (2 ^ 53) = 9007200000000000 := by decide +kernel
    rw [min_eq_right (by omega), htop] at hrounded
    omega

/-- Without collisions, the number is exact when it has at most six digits, followed by zeros. -/
theorem rounded_count_iff {c : Increment} (hcount : Increment.count calls c < 2 ^ 53)
    (h : ∀ c' ∈ calls, c'.key = c.key → Increment.SamePair c c') :
    rounded 6 (min (calls.countP fun c' => c'.key = c.key) (2 ^ 53)) = Increment.count calls c
      ↔ ∃ m k, m < 10 ^ 6 ∧ Increment.count calls c = m * 10 ^ k := by
  rw [countP_key h, min_eq_left hcount.le, rounded_eq_iff]

/-- For labels without quotes and line ends, all depends on the numbers. -/
theorem lossless_iff_counts (hdeclared : ∀ c ∈ calls, c.name ∈ counter_names)
    (hquotes : ∀ c ∈ calls, FreeOf '"' (sorted_items c.label_dict))
    (hlines : ∀ c ∈ calls, FreeOf '\n' (sorted_items c.label_dict))
    (hcount : ∀ c ∈ calls, Increment.count calls c < 2 ^ 53) :
    Lossless (counted summaries calls).prometheus_text calls
      ↔ ∀ c ∈ calls, ∃ m k, m < 10 ^ 6 ∧ Increment.count calls c = m * 10 ^ k := by
  rw [lossless_iff_rounded hdeclared]
  have hexact : ∀ c ∈ calls,
      (rounded 6 (min (calls.countP fun c' => c'.key = c.key) (2 ^ 53)) = Increment.count calls c
        ↔ ∃ m k, m < 10 ^ 6 ∧ Increment.count calls c = m * 10 ^ k) := by
    intro c hc
    apply rounded_count_iff (hcount c hc)
    intro c' hc' hkey
    exact key_inj (hdeclared c hc) (hdeclared c' hc') (hquotes c hc) (hquotes c' hc') hkey.symm
  constructor
  · intro h c hc
    exact (hexact c hc).mp (h.2 c hc)
  · intro h
    exact ⟨fun c hc => key_line (hdeclared c hc) (hlines c hc),
      fun c hc => (hexact c hc).mpr (h c hc)⟩

/-- **The exposition.** A scraper finds every counter with its number exactly when each number is
one of at most six digits, followed by zeros; no key has a line end; and different pairs have
different keys. -/
theorem exposition_lossless_iff (summaries : Dict String Summary) (calls : List Increment)
    (hdeclared : ∀ c ∈ calls, c.name ∈ counter_names)
    (hcount : ∀ c ∈ calls, Increment.count calls c < 2 ^ 53) :
    Lossless (counted summaries calls).prometheus_text calls
      ↔ ∀ c ∈ calls, '\n' ∉ c.key.toList
        ∧ (∀ c' ∈ calls, c'.key = c.key → Increment.SamePair c c')
        ∧ ∃ m k, m < 10 ^ 6 ∧ Increment.count calls c = m * 10 ^ k := by
  rw [lossless_iff_rounded hdeclared]
  constructor
  · rintro ⟨hlines, hrounded⟩ c hc
    have hpair : ∀ c' ∈ calls, c'.key = c.key → Increment.SamePair c c' := by
      intro c' hc' hkey
      exact samePair_of_rounded hc hkey (hcount c hc) (hrounded c hc) (hrounded c' hc')
    exact ⟨hlines c hc, hpair, (rounded_count_iff (hcount c hc) hpair).mp (hrounded c hc)⟩
  · intro h
    refine ⟨fun c hc => (h c hc).1, ?_⟩
    intro c hc
    obtain ⟨-, hpair, hdigits⟩ := h c hc
    exact (rounded_count_iff (hcount c hc) hpair).mpr hdigits

namespace Recorded

/-- An evaluation that was confirmed. -/
def evaluated : Increment := ⟨"decision_evaluate_total", some (Dict.empty.set "status" "confirmed")⟩

/-- An event that was appended to the ledger. -/
def appended : Increment := ⟨"ledger_append_total", some (Dict.empty.set "result" "accepted")⟩

end Recorded

/-- Two evaluations and one append are all seen. -/
theorem exposition_lossless_three :
    Lossless (counted Dict.empty
        [Recorded.evaluated, Recorded.appended, Recorded.evaluated]).prometheus_text
      [Recorded.evaluated, Recorded.appended, Recorded.evaluated] := by
  refine (exposition_lossless_iff Dict.empty
    [Recorded.evaluated, Recorded.appended, Recorded.evaluated] (by decide) (by decide)).mpr ?_
  have hsmall : ∀ c ∈ [Recorded.evaluated, Recorded.appended, Recorded.evaluated],
      '\n' ∉ c.key.toList
        ∧ (∀ c' ∈ [Recorded.evaluated, Recorded.appended, Recorded.evaluated],
          c'.key = c.key → Increment.SamePair c c')
        ∧ Increment.count [Recorded.evaluated, Recorded.appended, Recorded.evaluated] c
          < 10 ^ 6 := by
    decide +kernel
  intro c hc
  obtain ⟨hline, hpair, hcount⟩ := hsmall c hc
  exact ⟨hline, hpair, _, 0, hcount, by simp⟩

/-- Of 1000001 evaluations a scraper finds 1000000. -/
theorem exposition_loses_evaluation :
    (∀ c ∈ List.replicate 1000001 Recorded.evaluated, c.name ∈ counter_names
        ∧ (∀ kv ∈ c.label_dict.entries, '"' ∉ kv.2.toList ∧ '{' ∉ kv.2.toList ∧ '}' ∉ kv.2.toList
          ∧ '\n' ∉ kv.2.toList)
        ∧ Increment.count (List.replicate 1000001 Recorded.evaluated) c < 2 ^ 53)
      ∧ ¬Lossless (counted Dict.empty (List.replicate 1000001 Recorded.evaluated)).prometheus_text
        (List.replicate 1000001 Recorded.evaluated) := by
  have hcount : Increment.count (List.replicate 1000001 Recorded.evaluated) Recorded.evaluated
      = 1000001 := by
    rw [Increment.count, List.countP_replicate]
    rfl
  have hdeclared : ∀ c ∈ List.replicate 1000001 Recorded.evaluated, c.name ∈ counter_names := by
    intro c hc
    rw [List.eq_of_mem_replicate hc]
    decide
  constructor
  · intro c hc
    refine ⟨hdeclared c hc, ?_⟩
    rw [List.eq_of_mem_replicate hc, hcount]
    constructor
    · decide
    · omega
  · -- the seventh digit is lost
    rw [lossless_iff_rounded hdeclared]
    rintro ⟨-, hrounded⟩
    have hmem : Recorded.evaluated ∈ List.replicate 1000001 Recorded.evaluated :=
      List.mem_replicate.mpr ⟨by omega, rfl⟩
    have hkey : (List.replicate 1000001 Recorded.evaluated).countP
        (fun c' => c'.key = Recorded.evaluated.key) = 1000001 := by
      rw [List.countP_replicate]
      rfl
    have hlost := hrounded _ hmem
    rw [hcount, hkey] at hlost
    exact absurd hlost (by decide +kernel)

end Lossless

end DecisionRuntime
