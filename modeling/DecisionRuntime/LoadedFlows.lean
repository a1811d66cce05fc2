/-
The registry over any sequence of `load_file` calls.

A file that does not parse or does not validate raises and leaves the registry as
it was, so that what it serves is decided by the files that were accepted: the last
one under each id and version (`loaded_flows`), listed in the order in which the ids
and versions came up first. Without a version the look-up answers with the highest,
and of equally high ones with the first; the versions of accepted files are all
numbers, but `int` refuses one of more than 4300 digits (`lookup_exact`).

`load_all` is the run at startup, which the first file that is refused ends
(`startup_exact`).
-/
import DecisionRuntime.FirstGreatest
import DecisionRuntime.FlowRegistry
import DecisionRuntime.History
import DecisionRuntime.WellFormedFlows

set_option autoImplicit false

namespace DecisionRuntime

namespace FlowRegistry

open FlowValidator ContractRegistry

/-! ## Loading one file after another -/

/-- The key of a flow. -/
def key (flow : DecisionFlow) : String × String := (flow.flow_id, flow.version)

/-- `load_file`, with the registry it leaves when it raises. -/
def loading (P : Platform) (raw : FlowFile) : Exec PyError FlowRegistry DecisionFlow := do
  let flow ← Exec.lift (parse P raw)
  Exec.lift (validate P flow false)
  Exec.modify (cache flow)
  return flow

/-- The flow of a file that is accepted. -/
def accepted (P : Platform) (raw : FlowFile) : Option DecisionFlow :=
  (parse P raw).toOption.filter (fun flow => validate P flow false = .ok ())

/-- The flows of the files that are accepted, in the order in which they are loaded. -/
def served (P : Platform) (raws : List FlowFile) : List DecisionFlow := raws.filterMap (accepted P)

/-- The registry after the files were loaded, as far as they were. -/
def loaded (P : Platform) (raws : List FlowFile) : FlowRegistry := Run.final (loading P) init raws

section Loading

variable {P : Platform} {raw : FlowFile} {raws : List FlowFile} {R : FlowRegistry}
  {flow : DecisionFlow}

theorem accepted_eq_some :
    accepted P raw = some flow ↔ parse P raw = .ok flow ∧ validate P flow false = .ok () := by
  unfold accepted
  rw [Option.filter_eq_some_iff, decide_eq_true_eq]
  apply and_congr_left'
  cases parse P raw <;> simp [Except.toOption]

/-- A file that is accepted is cached, and one that is refused changes nothing. -/
theorem loading_cases (P : Platform) (raw : FlowFile) (R : FlowRegistry) :
    (∃ flow, accepted P raw = some flow ∧ loading P raw R = (.ok flow, R.cache flow)
      ∧ load_file P raw R = .ok (R.cache flow)) ∨
    (∃ e, accepted P raw = none ∧ loading P raw R = (.error e, R)
      ∧ load_file P raw R = .error e) := by
  unfold accepted loading load_file load
  cases hparse : parse P raw with
  | error e => exact Or.inr ⟨e, rfl, rfl, rfl⟩
  | ok flow =>
      rw [Exec.run_lift_bind_ok, except_ok_bind]
      cases hvalid : validate P flow false with
      | error e => exact Or.inr ⟨e, by simp [Except.toOption, hvalid], rfl, rfl⟩
      | ok u => exact Or.inl ⟨flow, by simp [Except.toOption, hvalid], rfl, rfl⟩

theorem served_concat (P : Platform) (raws : List FlowFile) (raw : FlowFile) :
    served P (raws ++ [raw]) = served P raws ++ (accepted P raw).toList := by
  unfold served
  rw [List.filterMap_append]
  cases h : accepted P raw <;> simp [h]

/-- **What is served** is the last accepted flow under each id and version. -/
theorem loaded_flows (P : Platform) (raws : List FlowFile) :
    (loaded P raws).flows = Dict.index key (served P raws) := by
  induction raws using List.reverseRecOn with
  | nil => rfl
  | append_singleton raws raw ih =>
      unfold loaded at *
      rw [Run.final_concat, served_concat]
      obtain ⟨flow, hacc, hrun, -⟩ | ⟨e, hacc, hrun, -⟩ :=
        loading_cases P raw (Run.final (loading P) init raws)
      · rw [hrun, hacc, Option.toList_some, Dict.index_append, ← ih]
        rfl
      · rw [hrun, hacc, Option.toList_none, List.append_nil, ih]

theorem mem_served : flow ∈ served P raws ↔
    ∃ raw ∈ raws, parse P raw = .ok flow ∧ validate P flow false = .ok () := by
  unfold served
  simp only [List.mem_filterMap, accepted_eq_some]

theorem list_flows_keys (P : Platform) (raws : List FlowFile) :
    (loaded P raws).list_flows.map key = ((served P raws).map key).eraseDups := by
  rw [← Dict.keys_index key, ← loaded_flows]
  unfold list_flows Dict.values Dict.keys
  rw [List.map_map]
  apply List.map_congr_left
  rintro ⟨k, flow⟩ hmem
  exact (entry_keyed hmem).symm

/-- What is listed is what its own key finds. -/
theorem mem_list_flows_iff :
    flow ∈ R.list_flows ↔ R.flows.get (key flow) = some flow := by
  constructor
  · intro hmem
    obtain ⟨⟨k, f⟩, hentry, rfl⟩ := List.mem_map.mp hmem
    have hget := Dict.get_of_mem hentry
    rwa [entry_keyed hentry] at hget
  · intro hget
    exact List.mem_map_of_mem (Dict.mem_of_get hget)

theorem mem_list_flows_loaded : flow ∈ (loaded P raws).list_flows ↔
    ((served P raws).filter (fun f => key f = key flow)).getLast? = some flow := by
  rw [mem_list_flows_iff, loaded_flows, Dict.get_index]

theorem mem_served_of_list_flows (h : flow ∈ (loaded P raws).list_flows) :
    flow ∈ served P raws := by
  rw [mem_list_flows_loaded] at h
  exact (List.mem_filter.mp (List.mem_of_getLast? h)).1

/-- A flow that was accepted has a successor under its key. -/
theorem exists_listed (h : flow ∈ served P raws) :
    ∃ other ∈ (loaded P raws).list_flows, key other = key flow := by
  have hkey : key flow ∈ (Dict.index key (served P raws)).keys :=
    Dict.mem_keys_index.mpr (List.mem_map_of_mem h)
  obtain ⟨other, hget⟩ := Dict.exists_get_of_mem_keys hkey
  rw [← loaded_flows] at hget
  have hother := (loaded P raws).keyed _ other hget
  refine ⟨other, ?_, hother.symm⟩
  rw [mem_list_flows_iff]
  unfold key at *
  rwa [← hother]

end Loading

/-! ## Versions -/

section Versions

variable {P : Platform}

/-- A list has a first element without a property, unless all have it. -/
theorem first_not {α : Type} (p : α → Prop) (as : List α) :
    (∀ a ∈ as, p a) ∨ ∃ pre a post, as = pre ++ a :: post ∧ (∀ b ∈ pre, p b) ∧ ¬p a := by
  induction as with
  | nil => simp
  | cons a as ih =>
      by_cases ha : p a
      · obtain hall | ⟨pre, a', post, rfl, hpre, hnot⟩ := ih
        · exact Or.inl (List.forall_mem_cons.mpr ⟨ha, hall⟩)
        · exact Or.inr ⟨a :: pre, a', post, rfl, List.forall_mem_cons.mpr ⟨ha, hpre⟩, hnot⟩
      · exact Or.inr ⟨[], a, as, rfl, by simp, ha⟩

/-- `int` can read the parts of the version. -/
def Readable (version : String) : Prop :=
  ∀ part ∈ split '.' version.toList, part.length ≤ int_max_str_digits

/-- The first part that `int` cannot read has so many digits. -/
def Exceeds (version : String) (digits : ℕ) : Prop :=
  ∃ pre part post, split '.' version.toList = pre ++ part :: post
    ∧ (∀ p ∈ pre, p.length ≤ int_max_str_digits) ∧ int_max_str_digits < part.length
    ∧ part.length = digits

theorem readable_or_exceeds (version : String) :
    Readable version ∨ ∃ digits, Exceeds version digits := by
  obtain hall | ⟨pre, part, post, hsplit, hpre, hnot⟩ :=
    first_not (fun part : List Char => part.length ≤ int_max_str_digits)
      (split '.' version.toList)
  · exact Or.inl hall
  · exact Or.inr ⟨_, pre, part, post, hsplit, hpre, not_le.mp hnot, rfl⟩

theorem Exceeds.not_readable {version : String} {digits : ℕ} (h : Exceeds version digits) :
    ¬Readable version := by
  obtain ⟨pre, part, post, hsplit, -, hlong, -⟩ := h
  intro hread
  have hshort := hread part (by rw [hsplit]; simp)
  omega

theorem digits_of_digitGroup {text : List Char} (h : DigitGroup P text) :
    ∃ d ds, text.mapM P.digit = some (d :: ds) ∧ (d :: ds).length = text.length := by
  have hall : ∃ ds, text.mapM P.digit = some ds ∧ ds.length = text.length := by
    have hdigits := h.2
    clear h
    induction text with
    | nil => exact ⟨[], rfl, rfl⟩
    | cons c cs ih =>
        rw [List.forall_mem_cons] at hdigits
        obtain ⟨d, hd⟩ := Option.isSome_iff_exists.mp hdigits.1
        obtain ⟨ds, hds, hlength⟩ := ih hdigits.2
        exact ⟨d :: ds, by simp [List.mapM_cons, hd, hds], by simp [hlength]⟩
  obtain ⟨ds, hds, hlength⟩ := hall
  cases ds with
  | nil => exact absurd (List.length_eq_zero_iff.mp hlength.symm) h.1
  | cons d ds => exact ⟨d, ds, hds, hlength⟩

/-- `int` reads a group of digits that is not too long. -/
theorem int_short {text : List Char} (h : DigitGroup P text)
    (hshort : text.length ≤ int_max_str_digits) : ∃ n, int P text = .ok n := by
  obtain ⟨d, ds, hds, hlength⟩ := digits_of_digitGroup h
  unfold int
  rw [hds]
  dsimp only
  rw [hlength, if_neg (by omega)]
  exact ⟨_, rfl⟩

theorem int_long {text : List Char} (h : DigitGroup P text)
    (hlong : int_max_str_digits < text.length) :
    int P text = .error (exceeds_limit text.length) := by
  obtain ⟨d, ds, hds, hlength⟩ := digits_of_digitGroup h
  unfold int
  rw [hds]
  dsimp only
  rw [hlength, if_pos hlong]

/-- A version of the form that a flow must have is three groups of digits. -/
theorem groups_of_semver {version : String} (h : semver_text P version.toList = true) :
    ∃ a b c, split '.' version.toList = [a, b, c] ∧ DigitGroup P a ∧ DigitGroup P b
      ∧ DigitGroup P c := by
  obtain ⟨a, b, c, hversion, ha, hb, hc⟩ := (semver_text_iff version.toList).mp h
  refine ⟨a, b, c, ?_, ha, hb, hc⟩
  rw [hversion, split_append ha.dot_not_mem, split_append hb.dot_not_mem,
    split_of_not_mem hc.dot_not_mem]

/-- A readable one is a triple of numbers. -/
theorem semver_key_readable {version : String} (h : semver_text P version.toList = true)
    (hread : Readable version) : ∃ triple, semver_key P version = .ok triple := by
  obtain ⟨a, b, c, hsplit, ha, hb, hc⟩ := groups_of_semver h
  unfold Readable at hread
  rw [hsplit] at hread
  obtain ⟨major, hmajor⟩ := int_short ha (hread a (by simp))
  obtain ⟨minor, hminor⟩ := int_short hb (hread b (by simp))
  obtain ⟨patch, hpatch⟩ := int_short hc (hread c (by simp))
  refine ⟨toLex (major, toLex (minor, patch)), ?_⟩
  rw [semver_key, hsplit]
  dsimp only
  rw [hmajor, except_ok_bind, hminor, except_ok_bind, hpatch]
  rfl

/-- The first part that is too long is the one `int` raises for. -/
theorem semver_key_exceeds {version : String} {digits : ℕ}
    (h : semver_text P version.toList = true) (hexceeds : Exceeds version digits) :
    semver_key P version = .error (exceeds_limit digits) := by
  obtain ⟨a, b, c, hsplit, ha, hb, hc⟩ := groups_of_semver h
  obtain ⟨pre, part, post, hparts, hpre, hlong, rfl⟩ := hexceeds
  rw [semver_key, hsplit]
  dsimp only
  rw [hsplit] at hparts
  rcases pre with _ | ⟨p, _ | ⟨q, _ | ⟨r, rest⟩⟩⟩
  · obtain ⟨rfl, -⟩ : a = part ∧ [b, c] = post := by simpa using hparts
    rw [int_long ha hlong]
    rfl
  · obtain ⟨rfl, rfl, -⟩ : a = p ∧ b = part ∧ [c] = post := by simpa using hparts
    obtain ⟨major, hmajor⟩ := int_short ha (hpre a (by simp))
    rw [hmajor, except_ok_bind, int_long hb hlong]
    rfl
  · obtain ⟨rfl, rfl, rfl, -⟩ : a = p ∧ b = q ∧ c = part ∧ [] = post := by simpa using hparts
    obtain ⟨major, hmajor⟩ := int_short ha (hpre a (by simp))
    obtain ⟨minor, hminor⟩ := int_short hb (hpre b (by simp))
    rw [hmajor, except_ok_bind, hminor, except_ok_bind, int_long hc hlong]
    rfl
  · have hlength := congrArg List.length hparts
    simp at hlength

/-- The version of a flow, in the order of versions. -/
def release (P : Platform) (flow : DecisionFlow) : ℕ ×ₗ ℕ ×ₗ ℕ :=
  (semver_key P flow.version).toOption.getD (toLex (0, toLex (0, 0)))

/-- The flows with this id, as they are listed. -/
def releases (R : FlowRegistry) (flow_id : String) : List DecisionFlow :=
  R.list_flows.filter (fun flow => flow.flow_id = flow_id)

/-- The versions of the flows have the form that is required, so that they are read as they should
be. -/
structure Versioned (P : Platform) (R : FlowRegistry) : Prop where
  read : ∀ flow ∈ R.list_flows, Readable flow.version →
    semver_key P flow.version = .ok (release P flow)
  exceeds : ∀ flow ∈ R.list_flows, ∀ digits, Exceeds flow.version digits →
    semver_key P flow.version = .error (exceeds_limit digits)

theorem versioned_loaded (P : Platform) (raws : List FlowFile) : Versioned P (loaded P raws) := by
  have hsemver : ∀ flow ∈ (loaded P raws).list_flows,
      semver_text P flow.version.toList = true := by
    intro flow hflow
    obtain ⟨raw, -, hparse, -⟩ := mem_served.mp (mem_served_of_list_flows hflow)
    have hread := readFrom_of_parse hparse
    rw [hread.version]
    exact hread.semver
  constructor
  · intro flow hflow hread
    obtain ⟨triple, htriple⟩ := semver_key_readable (hsemver flow hflow) hread
    unfold release
    rw [htriple]
    rfl
  · exact fun flow hflow digits => semver_key_exceeds (hsemver flow hflow)

variable {R : FlowRegistry} {flow_id : String}

/-- The list that `get` looks for the highest version in. -/
theorem matching_eq (P : Platform) (flow_id : String) (R : FlowRegistry) :
    matching P flow_id R = (R.releases flow_id).mapM (fun flow => do
      return (← semver_key P flow.version, flow)) := by
  have hentries : R.releases flow_id
      = (R.flows.entries.filter (fun entry => entry.1.1 = flow_id)).map Prod.snd := by
    unfold releases list_flows Dict.values
    rw [List.filter_map]
    apply congrArg
    apply List.filter_congr
    rintro ⟨k, flow⟩ hmem
    rw [entry_keyed hmem]
    rfl
  rw [hentries, List.mapM_map]
  unfold matching
  apply except_mapM_congr
  rintro ⟨k, flow⟩ hmem
  have hkey : k.2 = flow.version := by rw [entry_keyed (List.mem_filter.mp hmem).1]
  dsimp only [Function.comp_apply]
  rw [hkey]

/-- What the look-up raises for a version that is too long. -/
def Refused (flows : List DecisionFlow) (e : PyError) : Prop :=
  ∃ pre flow post digits, flows = pre ++ flow :: post ∧ (∀ f ∈ pre, Readable f.version)
    ∧ Exceeds flow.version digits ∧ e = exceeds_limit digits

/-- What the look-up raises when it finds nothing. -/
def not_found (flow_id : String) : Option String → PyError
  | some version => .flowNotFoundError
    ("Flow '" ++ flow_id ++ "' version '" ++ version ++ "' not found in registry")
  | none => .flowNotFoundError ("Flow '" ++ flow_id ++ "' not found in registry")

/-- **Without a version**, the look-up answers with the first of the highest ones, if it can read
them all. -/
theorem get_none_cases (flow_id : String) (h : Versioned P R) :
    (R.releases flow_id = [] ∧ get P flow_id none R = .error (not_found flow_id none)) ∨
    ((∀ flow ∈ R.releases flow_id, Readable flow.version) ∧
      ∃ latest, FirstGreatest (release P) (R.releases flow_id) latest
        ∧ get P flow_id none R = .ok latest) ∨
    ∃ e, Refused (R.releases flow_id) e := by
  by_cases hnil : R.releases flow_id = []
  · left
    refine ⟨hnil, ?_⟩
    rw [get, matching_eq, hnil]
    rfl
  right
  obtain hall | ⟨pre, flow, post, hsplit, hpre, hnot⟩ :=
    first_not (fun flow : DecisionFlow => Readable flow.version) (R.releases flow_id)
  · left
    obtain ⟨latest, hlatest⟩ := exists_firstGreatest (release P) hnil
    have hmap := hlatest.map (g := fun flow => (release P flow, flow)) (h := Prod.fst)
      (fun _ => rfl)
    refine ⟨hall, latest, hlatest, ?_⟩
    have hmatching : matching P flow_id R
        = .ok ((R.releases flow_id).map (fun flow => (release P flow, flow))) := by
      rw [matching_eq]
      apply except_mapM_eq_map
      intro flow hflow
      rw [h.read flow (List.mem_filter.mp hflow).1 (hall flow hflow)]
      rfl
    rw [get, hmatching, except_ok_bind, firstGreatest_iff_argmax.mp hmap]
  · right
    obtain ⟨digits, hexceeds⟩ := (readable_or_exceeds flow.version).resolve_left hnot
    exact ⟨_, pre, flow, post, digits, hsplit, hpre, hexceeds, rfl⟩

/-- A version that is too long is refused with the `ValueError` of `int`. -/
theorem get_refused {e : PyError} (h : Versioned P R) (href : Refused (R.releases flow_id) e) :
    get P flow_id none R = .error e := by
  obtain ⟨pre, flow, post, digits, hsplit, hpre, hexceeds, rfl⟩ := href
  have hlisted : ∀ f ∈ R.releases flow_id, f ∈ R.list_flows :=
    fun f hf => (List.mem_filter.mp hf).1
  rw [hsplit] at hlisted
  have hmatching : matching P flow_id R = .error (exceeds_limit digits) := by
    rw [matching_eq, except_mapM_eq_error]
    refine ⟨pre, flow, post, hsplit, ?_, ?_⟩
    · intro f hf
      refine ⟨(release P f, f), ?_⟩
      rw [h.read f (hlisted f (List.mem_append_left _ hf)) (hpre f hf)]
      rfl
    · rw [h.exceeds flow (hlisted flow (by simp)) digits hexceeds]
      rfl
  rw [get, hmatching]
  rfl

/-- **With a version**, it answers with what stands under it. -/
theorem get_some_cases (P : Platform) (flow_id version : String) (R : FlowRegistry) :
    (R.flows.get (flow_id, version) = none
      ∧ get P flow_id (some version) R = .error (not_found flow_id (some version))) ∨
      ∃ flow, R.flows.get (flow_id, version) = some flow
        ∧ get P flow_id (some version) R = .ok flow := by
  rw [get]
  cases R.flows.get (flow_id, version) with
  | none => exact Or.inl ⟨rfl, rfl⟩
  | some flow => exact Or.inr ⟨flow, rfl, rfl⟩

end Versions

/-! ## What a run of `load_file` serves -/

section Served

variable {P : Platform}

/-- The flow is one that a request for this id, with or without a version, can be answered with. -/
def Requested (flow_id : String) (version : Option String) (flow : DecisionFlow) : Prop :=
  flow.flow_id = flow_id ∧ ∀ v, version = some v → flow.version = v

theorem get_loaded_some (P : Platform) (raws : List FlowFile) (flow_id version : String)
    (flow : DecisionFlow) : get P flow_id (some version) (loaded P raws) = .ok flow ↔
      ((served P raws).filter (fun f => key f = (flow_id, version))).getLast? = some flow := by
  rw [← Dict.get_index, ← loaded_flows]
  obtain ⟨hnone, hget⟩ | ⟨found, hfound, hget⟩ :=
    get_some_cases P flow_id version (loaded P raws)
  · rw [hnone, hget]
    simp
  · rw [hfound, hget]
    simp

theorem get_loaded_none (P : Platform) (raws : List FlowFile) (flow_id : String)
    (flow : DecisionFlow) : get P flow_id none (loaded P raws) = .ok flow ↔
      (∀ other ∈ (loaded P raws).releases flow_id, Readable other.version) ∧
        FirstGreatest (release P) ((loaded P raws).releases flow_id) flow := by
  obtain ⟨hnil, hget⟩ | ⟨hall, latest, hlatest, hget⟩ | ⟨e, href⟩ :=
    get_none_cases flow_id (versioned_loaded P raws)
  · rw [hnil, hget]
    constructor
    · intro h
      cases h
    · rintro ⟨-, h⟩
      exact absurd h.mem List.not_mem_nil
  · rw [hget]
    constructor
    · intro h
      rw [← Except.ok.inj h]
      exact ⟨hall, hlatest⟩
    · rintro ⟨-, h⟩
      rw [hlatest.unique h]
  · rw [get_refused (versioned_loaded P raws) href]
    obtain ⟨pre, other, post, digits, hsplit, -, hexceeds, -⟩ := href
    constructor
    · intro h
      cases h
    · rintro ⟨hall, -⟩
      exact absurd (hall other (by rw [hsplit]; simp)) hexceeds.not_readable

/-- A flow with this id that is listed is one that was asked for. -/
theorem requested_of_releases {raws : List FlowFile} {flow_id : String} {flow : DecisionFlow}
    (h : flow ∈ (loaded P raws).releases flow_id) :
    flow ∈ served P raws ∧ Requested flow_id none flow := by
  obtain ⟨hlisted, hid⟩ := List.mem_filter.mp h
  exact ⟨mem_served_of_list_flows hlisted, of_decide_eq_true hid, by simp⟩

/-- A look-up that raises says that no flow was accepted that it asks for, or is refused for a
version that is too long. -/
theorem get_loaded_error (P : Platform) (raws : List FlowFile) (flow_id : String)
    (version : Option String) (e : PyError) :
    get P flow_id version (loaded P raws) = .error e ↔
      (e = not_found flow_id version
        ∧ ∀ flow ∈ served P raws, ¬Requested flow_id version flow) ∨
      version = none ∧ Refused ((loaded P raws).releases flow_id) e := by
  cases version with
  | none =>
      rw [and_iff_right rfl]
      obtain ⟨hnil, hget⟩ | ⟨hall, latest, hlatest, hget⟩ | ⟨e', href⟩ :=
        get_none_cases flow_id (versioned_loaded P raws)
      · have hnone : ∀ flow ∈ served P raws, ¬Requested flow_id none flow := by
          rintro flow hflow ⟨hid, -⟩
          -- a later flow with the same key may be the one that is listed
          obtain ⟨other, hother, hkey⟩ := exists_listed hflow
          have hmem : other ∈ (loaded P raws).releases flow_id := by
            refine List.mem_filter.mpr ⟨hother, decide_eq_true ?_⟩
            rw [← hid]
            exact (Prod.mk.inj hkey).1
          rw [hnil] at hmem
          exact absurd hmem List.not_mem_nil
        have hread : ¬Refused ((loaded P raws).releases flow_id) e := by
          rintro ⟨pre, flow, post, digits, hsplit, -⟩
          rw [hnil] at hsplit
          simp at hsplit
        rw [hget, Except.error.injEq, and_iff_left hnone, or_iff_left hread]
        exact eq_comm
      · have hread : ¬Refused ((loaded P raws).releases flow_id) e := by
          rintro ⟨pre, flow, post, digits, hsplit, -, hexceeds, -⟩
          exact hexceeds.not_readable (hall flow (by rw [hsplit]; simp))
        rw [hget, or_iff_left hread]
        constructor
        · intro h
          cases h
        · rintro ⟨-, hnone⟩
          obtain ⟨hserved, hrequested⟩ := requested_of_releases hlatest.mem
          exact absurd hrequested (hnone latest hserved)
      · constructor
        · intro h
          rw [get_refused (versioned_loaded P raws) href] at h
          rw [← Except.error.inj h]
          exact Or.inr href
        · rintro (⟨-, hnone⟩ | href')
          · obtain ⟨pre, flow, post, digits, hsplit, -⟩ := href
            have hmem : flow ∈ (loaded P raws).releases flow_id := by
              rw [hsplit]
              simp
            obtain ⟨hserved, hrequested⟩ := requested_of_releases hmem
            exact absurd hrequested (hnone flow hserved)
          · exact get_refused (versioned_loaded P raws) href'
  | some version =>
      have hversioned : ¬(some version = none ∧ Refused ((loaded P raws).releases flow_id) e) :=
        fun h => by cases h.1
      rw [or_iff_left hversioned]
      obtain ⟨hnone, hget⟩ | ⟨found, hfound, hget⟩ :=
        get_some_cases P flow_id version (loaded P raws)
      · rw [loaded_flows, Dict.get_eq_none, Dict.mem_keys_index] at hnone
        have hserved : ∀ flow ∈ served P raws, ¬Requested flow_id (some version) flow := by
          rintro flow hflow ⟨hid, hversion⟩
          apply hnone
          rw [← hid, ← hversion version rfl]
          exact List.mem_map_of_mem hflow
        rw [hget, Except.error.injEq, and_iff_left hserved]
        exact eq_comm
      · have hkey := (loaded P raws).keyed _ found hfound
        obtain ⟨hid, hversion⟩ := Prod.mk.inj hkey
        have hlisted : found ∈ (loaded P raws).list_flows :=
          List.mem_map_of_mem (Dict.mem_of_get hfound)
        rw [hget]
        constructor
        · intro h
          cases h
        · rintro ⟨-, hnone⟩
          refine absurd ⟨hid.symm, ?_⟩ (hnone found (mem_served_of_list_flows hlisted))
          intro v hv
          rw [← hversion, Option.some.inj hv]

/-- **Look-ups after any sequence of `load_file` calls.** A version finds the last accepted flow
with that id and version; without one the answer is the first of the highest versions listed for the
id, the list having the order in which the ids and versions came up first. A look-up raises the
`FlowNotFoundError` of a request that no accepted flow answers or, without a version, the
`ValueError` of `int` for the first listed version with a part that is too long for it, and nothing
else. What is listed is well-formed. -/
theorem lookup_exact (P : Platform) (raws : List FlowFile) (flow_id : String) :
    (∀ version flow, get P flow_id (some version) (loaded P raws) = .ok flow ↔
      ((served P raws).filter (fun f => key f = (flow_id, version))).getLast? = some flow) ∧
    (∀ flow, get P flow_id none (loaded P raws) = .ok flow ↔
      (∀ other ∈ (loaded P raws).releases flow_id, Readable other.version) ∧
        FirstGreatest (release P) ((loaded P raws).releases flow_id) flow) ∧
    (∀ version e, get P flow_id version (loaded P raws) = .error e ↔
      (e = not_found flow_id version
        ∧ ∀ flow ∈ served P raws, ¬Requested flow_id version flow) ∨
      version = none ∧ Refused ((loaded P raws).releases flow_id) e) ∧
    (loaded P raws).list_flows.map key = ((served P raws).map key).eraseDups ∧
    ∀ flow ∈ (loaded P raws).list_flows, WellFormed P flow := by
  refine ⟨get_loaded_some P raws flow_id, get_loaded_none P raws flow_id,
    get_loaded_error P raws flow_id, list_flows_keys P raws, ?_⟩
  intro flow hflow
  obtain ⟨raw, -, -, hvalid⟩ := mem_served.mp (mem_served_of_list_flows hflow)
  exact ((verdict_validate P (evaluator_raises P) flow false).eq_ok_iff.mp hvalid).1

/-- The loop of `load_all`, from any registry. -/
theorem load_files_ok (P : Platform) (files : List FlowFile) (R₀ R : FlowRegistry) :
    files.foldlM (fun R raw => load_file P raw R) R₀ = .ok R ↔
      (∀ raw ∈ files, (accepted P raw).isSome) ∧ R = Run.final (loading P) R₀ files := by
  induction files generalizing R₀ with
  | nil =>
      constructor
      · intro h
        exact ⟨by simp, (Except.ok.inj h).symm⟩
      · rintro ⟨-, rfl⟩
        rfl
  | cons raw files ih =>
      rw [List.foldlM_cons, List.forall_mem_cons]
      obtain ⟨flow, hacc, hrun, hload⟩ | ⟨e, hacc, -, hload⟩ := loading_cases P raw R₀
      · have hfinal : Run.final (loading P) R₀ (raw :: files)
            = Run.final (loading P) (R₀.cache flow) files := by
          rw [Run.final, List.foldl_cons, hrun]
          rfl
        rw [hload, except_ok_bind, ih, hfinal, hacc]
        simp
      · rw [hload, hacc]
        constructor
        · intro h
          cases h
        · rintro ⟨⟨h, -⟩, -⟩
          cases h

theorem load_files_error (P : Platform) (files : List FlowFile) (R₀ : FlowRegistry) (e : PyError) :
    files.foldlM (fun R raw => load_file P raw R) R₀ = .error e ↔
      ∃ pre raw post, files = pre ++ raw :: post ∧ (∀ r ∈ pre, (accepted P r).isSome)
        ∧ load_file P raw (Run.final (loading P) R₀ pre) = .error e := by
  constructor
  · intro h
    induction files generalizing R₀ with
    | nil => cases h
    | cons raw files ih =>
        rw [List.foldlM_cons] at h
        obtain ⟨flow, hacc, hrun, hload⟩ | ⟨e', -, -, hload⟩ := loading_cases P raw R₀
        · rw [hload, except_ok_bind] at h
          -- the file was loaded, so that a later one is refused
          obtain ⟨pre, bad, post, hfiles, hpre, hraised⟩ := ih (R₀.cache flow) h
          refine ⟨raw :: pre, bad, post, by rw [hfiles, List.cons_append], ?_, ?_⟩
          · rw [List.forall_mem_cons, hacc]
            exact ⟨rfl, hpre⟩
          · rw [Run.final, List.foldl_cons, hrun]
            exact hraised
        · rw [hload] at h
          exact ⟨[], raw, files, rfl, by simp, hload.trans (congrArg _ (Except.error.inj h))⟩
  · rintro ⟨pre, raw, post, rfl, hpre, hraised⟩
    have hok := (load_files_ok P pre R₀ (Run.final (loading P) R₀ pre)).mpr ⟨hpre, rfl⟩
    rw [List.foldlM_append, hok, except_ok_bind, List.foldlM_cons, hraised]
    rfl

/-- **Startup.** `load_all` returns exactly when every file is accepted, with the registry that
loading them one after another leaves; otherwise it raises what the first file that is refused
does. -/
theorem startup_exact (P : Platform) (files : List FlowFile) :
    (∀ R, load_all P files = .ok R ↔
      (∀ raw ∈ files, (accepted P raw).isSome) ∧ R = loaded P files) ∧
    ∀ e, load_all P files = .error e ↔ ∃ pre raw post, files = pre ++ raw :: post
      ∧ (∀ r ∈ pre, (accepted P r).isSome) ∧ load_file P raw (loaded P pre) = .error e :=
  ⟨load_files_ok P files init, load_files_error P files init⟩

end Served

end FlowRegistry

end DecisionRuntime
