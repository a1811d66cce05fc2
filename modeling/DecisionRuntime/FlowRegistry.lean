/-
`backend/app/registry/flow_registry.py`: the flows that are loaded, and the look-up
by id and version.

A flow is put under its own id and version, and under nothing else: `keyed` is a
field of the registry. Without a version the look-up answers with the highest one,
and of two that are equally high ("1.0.0" and "1.00.0") with the one that was loaded
first. It reads the versions with `int`, which refuses a part of more than 4300
digits.
-/
import DecisionRuntime.Dict
import DecisionRuntime.Exec
import DecisionRuntime.FlowValidator
import Mathlib.Data.List.MinMax
import Mathlib.Data.Prod.Lex

set_option autoImplicit false

namespace DecisionRuntime

/-- What a flow file says, with the defaults filled in. -/
structure FlowFile where
  flow_id : String
  version : String
  entry_node_id : String
  nodes : List DecisionNode
  edges : List FlowEdge := []
  is_active : Bool := true
  metadata : PyDict := []

/-- `FlowRegistry`: the loaded flows, by id and version. -/
structure FlowRegistry where
  flows : Dict (String × String) DecisionFlow
  keyed : ∀ key flow, flows.get key = some flow → key = (flow.flow_id, flow.version)

namespace FlowRegistry

/-- A registry that has loaded nothing. -/
def init : FlowRegistry := ⟨Dict.empty, fun _ _ h => nomatch h⟩

/-- `self._flows[(flow.flow_id, flow.version)] = flow`. -/
def cache (flow : DecisionFlow) (R : FlowRegistry) : FlowRegistry where
  flows := R.flows.set (flow.flow_id, flow.version) flow
  keyed := by
    intro key other hget
    rw [Dict.get_set] at hget
    split_ifs at hget with hkey
    · rw [hkey, Option.some.inj hget]
    · exact R.keyed key other hget

/-- `uuid.NAMESPACE_DNS`, `6ba7b810-9dad-11d1-80b4-00c04fd430c8`. -/
def NAMESPACE_DNS : UUID :=
  ⟨[6, 11, 10, 7, 11, 8, 1, 0, 9, 13, 10, 13, 1, 1, 13, 1, 8, 0, 11, 4, 0, 0, 12, 0, 4, 15, 13, 4,
    3, 0, 12, 8], rfl⟩

/-- The name the id of a flow is the hash of. -/
def flow_name (flow_id version : String) : String := flow_id ++ ":" ++ version

/-- `_parse`, of a file whose fields have their types. The `$` of the pattern of `DecisionFlow`
matches at the end only. -/
def parse (P : Platform) (raw : FlowFile) : Except PyError DecisionFlow :=
  if 1 ≤ raw.flow_id.length ∧ raw.flow_id.length ≤ 256
      ∧ ContractRegistry.semver_text P raw.version.toList ∧ 1 ≤ raw.nodes.length then
    .ok { id := P.uuid5 NAMESPACE_DNS (flow_name raw.flow_id raw.version)
          flow_id := raw.flow_id
          version := raw.version
          entry_node_id := raw.entry_node_id
          nodes := raw.nodes
          edges := raw.edges
          is_active := raw.is_active
          metadata := raw.metadata }
  else .error (.validationError "DecisionFlow")

/-- `load_file`, once the file is parsed: a flow that does not validate is not cached. -/
def load (P : Platform) (flow : DecisionFlow) (R : FlowRegistry) : Except PyError FlowRegistry := do
  FlowValidator.validate P flow false
  return R.cache flow

/-- `load_file`. -/
def load_file (P : Platform) (raw : FlowFile) (R : FlowRegistry) : Except PyError FlowRegistry := do
  let flow ← parse P raw
  load P flow R

/-- `load_all`, of the files in the order they are found. -/
def load_all (P : Platform) (files : List FlowFile) : Except PyError FlowRegistry :=
  files.foldlM (fun R raw => load_file P raw R) init

/-- `list_flows`. -/
def list_flows (R : FlowRegistry) : List DecisionFlow := R.flows.values

/-! ## The look-up -/

/-- `sys.get_int_max_str_digits()`, as it is by default. -/
def int_max_str_digits : ℕ := 4300

/-- What `int` raises for a text with more digits than that. -/
def exceeds_limit (digits : ℕ) : PyError :=
  .valueError ("Exceeds the limit (" ++ String.ofList (Nat.toDigits 10 int_max_str_digits)
    ++ " digits) for integer string conversion: value has "
    ++ String.ofList (Nat.toDigits 10 digits)
    ++ " digits; use sys.set_int_max_str_digits() to increase the limit")

/-- `int(text)`, of a text of decimal digits. -/
def int (P : Platform) (text : List Char) : Except PyError ℕ :=
  match text.mapM P.digit with
  | some (d :: ds) =>
    if int_max_str_digits < (d :: ds).length then .error (exceeds_limit (d :: ds).length)
    else .ok ((d :: ds).foldl (fun n digit => 10 * n + digit) 0)
  | _ => .error (.valueError
      ("invalid literal for int() with base 10: " ++ P.repr (String.ofList text)))

/-- `_semver_key`. Further parts are not looked at. -/
def semver_key (P : Platform) (version : String) : Except PyError (ℕ ×ₗ ℕ ×ₗ ℕ) :=
  match split '.' version.toList with
  | major :: minor :: patch :: _ => do
    let major ← int P major
    let minor ← int P minor
    let patch ← int P patch
    return toLex (major, toLex (minor, patch))
  | _ => .error (.external "list index out of range")

/-- The flows with this id, each with the key of its version. -/
def matching (P : Platform) (flow_id : String) (R : FlowRegistry) :
    Except PyError (List ((ℕ ×ₗ ℕ ×ₗ ℕ) × DecisionFlow)) :=
  (R.flows.entries.filter (fun entry => entry.1.1 = flow_id)).mapM (fun entry => do
    return (← semver_key P entry.1.2, entry.2))

/-- `get`. -/
def get (P : Platform) (flow_id : String) (version : Option String) (R : FlowRegistry) :
    Except PyError DecisionFlow :=
  match version with
  | some version =>
    match R.flows.get (flow_id, version) with
    | some flow => .ok flow
    | none => .error (.flowNotFoundError
        ("Flow '" ++ flow_id ++ "' version '" ++ version ++ "' not found in registry"))
  | none => do
    let matching ← matching P flow_id R
    match matching.argmax Prod.fst with
    | some latest => .ok latest.2
    | none => .error (.flowNotFoundError ("Flow '" ++ flow_id ++ "' not found in registry"))

section Get

variable {P : Platform} {flow_id : String} {R : FlowRegistry} {flow : DecisionFlow}

/-- What stands under a key has that id and version. -/
theorem entry_keyed {key : String × String} (h : (key, flow) ∈ R.flows.entries) :
    key = (flow.flow_id, flow.version) :=
  R.keyed key flow (Dict.get_of_mem h)

/-- An exact version is looked up as it is. -/
theorem get_version {version : String} (h : get P flow_id (some version) R = .ok flow) :
    R.flows.get (flow_id, version) = some flow ∧ flow.flow_id = flow_id
      ∧ flow.version = version := by
  rw [get] at h
  rcases hget : R.flows.get (flow_id, version) with _ | found
  · rw [hget] at h
    exact nomatch h
  · rw [hget] at h
    obtain rfl : found = flow := Except.ok.inj h
    have hkey := R.keyed (flow_id, version) found hget
    exact ⟨rfl, (Prod.mk.inj hkey).1.symm, (Prod.mk.inj hkey).2.symm⟩

/-- Without a version, the answer is a flow with that id whose version is the highest. -/
theorem get_latest (h : get P flow_id none R = .ok flow) :
    flow ∈ R.flows.values ∧ flow.flow_id = flow_id ∧
      ∃ key, semver_key P flow.version = .ok key ∧
        ∀ other ∈ R.flows.values, other.flow_id = flow_id →
          ∃ other_key, semver_key P other.version = .ok other_key ∧ other_key ≤ key := by
  rw [get, except_bind_eq_ok] at h
  obtain ⟨found, hfound, h⟩ := h
  rcases hmax : found.argmax Prod.fst with _ | ⟨key, latest⟩
  · rw [hmax] at h
    exact nomatch h
  rw [hmax] at h
  obtain rfl : latest = flow := Except.ok.inj h
  obtain ⟨hfrom, hto⟩ := except_mapM_mem hfound
  -- an entry of the list is an entry of the registry, with the key of its version
  have hentry : ∀ {k : ℕ ×ₗ ℕ ×ₗ ℕ} {f : DecisionFlow}, (k, f) ∈ found →
      f ∈ R.flows.values ∧ f.flow_id = flow_id ∧ semver_key P f.version = .ok k := by
    intro k f hmem
    obtain ⟨⟨id, g⟩, hmem, hkey⟩ := hfrom (k, f) hmem
    obtain ⟨hentry, hid⟩ := List.mem_filter.mp hmem
    obtain ⟨k', hk', hkey⟩ := except_bind_eq_ok.mp hkey
    obtain ⟨rfl, rfl⟩ := Prod.mk.inj (Except.ok.inj hkey)
    rw [entry_keyed hentry] at hid hk'
    exact ⟨List.mem_map_of_mem hentry, of_decide_eq_true hid, hk'⟩
  obtain ⟨hmem, hid, hkey⟩ := hentry (List.argmax_mem (Option.mem_def.mpr hmax))
  refine ⟨hmem, hid, key, hkey, ?_⟩
  intro other hother hother_id
  obtain ⟨⟨id, g⟩, hg, rfl⟩ := List.mem_map.mp hother
  have hfilter : (id, g) ∈ R.flows.entries.filter (fun entry => entry.1.1 = flow_id) := by
    refine List.mem_filter.mpr ⟨hg, ?_⟩
    rw [entry_keyed hg]
    exact decide_eq_true hother_id
  obtain ⟨⟨k, f⟩, hkf, hok⟩ := hto (id, g) hfilter
  obtain ⟨k', hk', hok⟩ := except_bind_eq_ok.mp hok
  obtain ⟨rfl, rfl⟩ := Prod.mk.inj (Except.ok.inj hok)
  rw [entry_keyed hg] at hk'
  exact ⟨k', hk', List.le_of_mem_argmax hkf (Option.mem_def.mpr hmax)⟩

/-- What the look-up answers with is listed. -/
theorem mem_list_flows_of_get {version : Option String} (h : get P flow_id version R = .ok flow) :
    flow ∈ R.list_flows := by
  rcases version with _ | version
  · exact (get_latest h).1
  · exact List.mem_map_of_mem (Dict.mem_of_get (get_version h).1)

end Get

/-! ## The ids of flows -/

section Ids

variable {P : Platform} {R R' : FlowRegistry} {flow flow' : DecisionFlow} {raw : FlowFile}

/-- A character is the separator, or in one of the parts. -/
theorem mem_split {sep c : Char} {cs : List Char} (h : c ∈ cs) :
    c = sep ∨ ∃ part ∈ split sep cs, c ∈ part := by
  induction cs with
  | nil => simp at h
  | cons d ds ih =>
      by_cases hd : d = sep
      · rw [split, if_pos hd]
        rcases List.mem_cons.mp h with rfl | hc
        · exact Or.inl hd
        · rcases ih hc with hsep | ⟨part, hpart, hmem⟩
          · exact Or.inl hsep
          · exact Or.inr ⟨part, List.mem_cons_of_mem [] hpart, hmem⟩
      · rw [split, if_neg hd]
        rcases hparts : split sep ds with _ | ⟨part, parts⟩
        · rcases List.mem_cons.mp h with rfl | hc
          · exact Or.inr ⟨[c], by simp, by simp⟩
          · rcases ih hc with hsep | ⟨part, hpart, -⟩
            · exact Or.inl hsep
            · rw [hparts] at hpart
              cases hpart
        · rcases List.mem_cons.mp h with rfl | hc
          · exact Or.inr ⟨c :: part, by simp, by simp⟩
          · rcases ih hc with hsep | ⟨other, hother, hmem⟩
            · exact Or.inl hsep
            · rw [hparts] at hother
              rcases List.mem_cons.mp hother with rfl | hrest
              · exact Or.inr ⟨d :: other, by simp, List.mem_cons_of_mem d hmem⟩
              · exact Or.inr ⟨other, List.mem_cons_of_mem _ hrest, hmem⟩

/-- A version has digits and dots, and no colon. -/
theorem colon_not_mem_of_semver {cs : List Char} (h : ContractRegistry.semver_text P cs = true) :
    ':' ∉ cs := by
  intro hmem
  have hcolon : P.digit ':' = none := by
    unfold Platform.digit
    rw [if_neg (by decide), if_pos (by decide)]
  have hsplit : ':' = '.' ∨ ∃ part ∈ split '.' cs, ':' ∈ part := mem_split hmem
  rcases hsplit with hdot | ⟨part, hpart, hc⟩
  · exact absurd hdot (by decide)
  · unfold ContractRegistry.semver_text at h
    simp only [Bool.and_eq_true, List.all_eq_true] at h
    have hdigit := (h.2 part hpart).2 ':' hc
    rw [hcolon] at hdigit
    cases hdigit

/-- A text after the last colon is read back, and so is what comes before it. -/
theorem colon_inj {as bs cs ds : List Char} (hb : ':' ∉ bs) (hd : ':' ∉ ds)
    (h : as ++ ':' :: bs = cs ++ ':' :: ds) : as = cs ∧ bs = ds := by
  rcases List.append_eq_append_iff.mp h with ⟨mid, hcs, hrest⟩ | ⟨mid, has, hrest⟩
  · rcases mid with _ | ⟨c, mid⟩
    · rw [List.append_nil] at hcs
      exact ⟨hcs.symm, (List.cons_eq_cons.mp hrest).2⟩
    · -- there is another colon in what comes after the last one
      obtain ⟨-, hbs⟩ := List.cons_eq_cons.mp hrest
      exact absurd (hbs ▸ by simp) hb
  · rcases mid with _ | ⟨c, mid⟩
    · rw [List.append_nil] at has
      exact ⟨has, (List.cons_eq_cons.mp hrest).2.symm⟩
    · obtain ⟨-, hds⟩ := List.cons_eq_cons.mp hrest
      exact absurd (hds ▸ by simp) hd

/-- The flow was read from one of the files. -/
structure ReadFrom (P : Platform) (raw : FlowFile) (flow : DecisionFlow) : Prop where
  id : flow.id = P.uuid5 NAMESPACE_DNS (flow_name raw.flow_id raw.version)
  flow_id : flow.flow_id = raw.flow_id
  version : flow.version = raw.version
  semver : ContractRegistry.semver_text P raw.version.toList = true

theorem readFrom_of_parse (h : parse P raw = .ok flow) : ReadFrom P raw flow := by
  unfold parse at h
  split_ifs at h with hvalid
  obtain rfl := Except.ok.inj h
  exact ⟨rfl, rfl, rfl, hvalid.2.2.1⟩

/-- The name of a flow tells its id and its version. -/
theorem flow_name_inj {raw' : FlowFile} (h : ReadFrom P raw flow) (h' : ReadFrom P raw' flow')
    (heq : flow_name raw.flow_id raw.version = flow_name raw'.flow_id raw'.version) :
    flow.flow_id = flow'.flow_id ∧ flow.version = flow'.version := by
  have hlist := congrArg String.toList heq
  simp only [flow_name, String.toList_append, List.append_assoc] at hlist
  obtain ⟨hid, hversion⟩ := colon_inj (colon_not_mem_of_semver h.semver)
    (colon_not_mem_of_semver h'.semver) hlist
  rw [h.flow_id, h'.flow_id, h.version, h'.version]
  exact ⟨String.toList_inj.mp hid, String.toList_inj.mp hversion⟩

/-- The flows of a file are listed after it, and those listed before. -/
theorem mem_list_flows_cache (h : flow ∈ (R.cache flow').list_flows) :
    flow = flow' ∨ flow ∈ R.list_flows := by
  obtain ⟨⟨key, found⟩, hmem, rfl⟩ := List.mem_map.mp h
  have hget : (R.flows.set (flow'.flow_id, flow'.version) flow').get key = some found :=
    Dict.get_of_mem hmem
  rw [Dict.get_set] at hget
  split_ifs at hget with hkey
  · exact Or.inl (Option.some.inj hget).symm
  · exact Or.inr (List.mem_map_of_mem (Dict.mem_of_get hget))

/-- Every flow that is listed was read from a file, and validated. -/
theorem load_all_parsed {files : List FlowFile} (h : load_all P files = .ok R)
    (hflow : flow ∈ R.list_flows) :
    ∃ raw ∈ files, parse P raw = .ok flow ∧ FlowValidator.validate P flow false = .ok () := by
  have hall : ∀ (files : List FlowFile) (R₀ : FlowRegistry),
      files.foldlM (fun R raw => load_file P raw R) R₀ = .ok R →
      flow ∈ R₀.list_flows ∨
        ∃ raw ∈ files, parse P raw = .ok flow ∧ FlowValidator.validate P flow false = .ok () := by
    intro files
    induction files with
    | nil =>
        intro R₀ hload
        obtain rfl : R₀ = R := Except.ok.inj hload
        exact Or.inl hflow
    | cons raw files ih =>
        intro R₀ hload
        rw [List.foldlM_cons, except_bind_eq_ok] at hload
        obtain ⟨R₁, hfile, hrest⟩ := hload
        rcases ih R₁ hrest with hmem | ⟨raw', hraw', hread⟩
        · obtain ⟨parsed, hparse, hcache⟩ := except_bind_eq_ok.mp hfile
          obtain ⟨_, hvalid, hcache⟩ := except_bind_eq_ok.mp hcache
          obtain rfl := Except.ok.inj hcache
          rcases mem_list_flows_cache hmem with rfl | hold
          · exact Or.inr ⟨raw, List.mem_cons_self, hparse, hvalid⟩
          · exact Or.inl hold
        · exact Or.inr ⟨raw', List.mem_cons_of_mem raw hraw', hread⟩
  rcases hall files init h with hinit | hread
  · cases hinit
  · exact hread

theorem load_all_readFrom {files : List FlowFile} (h : load_all P files = .ok R)
    (hflow : flow ∈ R.list_flows) : ∃ raw ∈ files, ReadFrom P raw flow := by
  obtain ⟨raw, hraw, hparse, -⟩ := load_all_parsed h hflow
  exact ⟨raw, hraw, readFrom_of_parse hparse⟩

/-- **The id of a listed flow finds that flow**, if the hash does not collide on the names of the
files. -/
theorem find_by_id {files : List FlowFile} (h : load_all P files = .ok R)
    (hinj : ∀ raw ∈ files, ∀ raw' ∈ files,
      P.uuid5 NAMESPACE_DNS (flow_name raw.flow_id raw.version)
        = P.uuid5 NAMESPACE_DNS (flow_name raw'.flow_id raw'.version) →
      flow_name raw.flow_id raw.version = flow_name raw'.flow_id raw'.version)
    (hflow : flow ∈ R.list_flows) :
    R.list_flows.find? (fun other => other.id = flow.id) = some flow := by
  have hsome : (R.list_flows.find? (fun other => other.id = flow.id)).isSome :=
    List.find?_isSome.mpr ⟨flow, hflow, decide_eq_true rfl⟩
  obtain ⟨found, hfound⟩ := Option.isSome_iff_exists.mp hsome
  have hid : found.id = flow.id := by
    have htrue := List.find?_some hfound
    exact of_decide_eq_true htrue
  have hmem := List.mem_of_find?_eq_some hfound
  obtain ⟨raw, hraw, hread⟩ := load_all_readFrom h hflow
  obtain ⟨raw', hraw', hread'⟩ := load_all_readFrom h hmem
  have hnames := hinj raw' hraw' raw hraw (hread'.id.symm.trans (hid.trans hread.id))
  obtain ⟨hsame_id, hsame_version⟩ := flow_name_inj hread' hread hnames
  -- two flows under one key are the same
  obtain ⟨⟨key, f⟩, hentry, rfl⟩ := List.mem_map.mp hflow
  obtain ⟨⟨key', f'⟩, hentry', rfl⟩ := List.mem_map.mp hmem
  have hkey : key' = key := by
    rw [entry_keyed hentry, entry_keyed hentry']
    exact Prod.ext hsame_id hsame_version
  have hget := Dict.get_of_mem hentry
  have hget' := Dict.get_of_mem hentry'
  rw [hkey] at hget'
  rw [hfound]
  exact congrArg some (Option.some.inj (hget'.symm.trans hget))

end Ids

end FlowRegistry

end DecisionRuntime
