/-
Insertion-ordered dictionaries with distinct keys.

`d[k] = v` on a key that is present replaces the value **in place**, and on a
new key appends; iteration is in insertion order. The distinctness of the keys
is a field of the structure, so that no reader of a dictionary ever has to ask
for it.

A dictionary has a total, which is what its entries weigh together. `total_set` is
the only rule that an invariant needs of it: it says at once what a new key adds
and what a replaced value takes away.
-/
import Mathlib.Algebra.BigOperators.Group.List.Basic
import Mathlib.Algebra.Ring.Nat
import Mathlib.Data.List.Nodup
import Mathlib.Data.List.Basic
import Mathlib.Data.List.Induction

set_option autoImplicit false

namespace DecisionRuntime

/-- A dictionary, in insertion order. -/
structure Dict (κ ν : Type) where
  entries : List (κ × ν)
  nodup : (entries.map Prod.fst).Nodup

namespace Dict

variable {κ ν : Type} [DecidableEq κ]

/-! ## Association lists -/

/-- The value under the first entry for `k`. -/
def lookup (k : κ) : List (κ × ν) → Option ν
  | [] => none
  | (k', v) :: rest => if k' = k then some v else lookup k rest

/-- Replace the value under `k` in place, or append the pair. -/
def put (k : κ) (v : ν) : List (κ × ν) → List (κ × ν)
  | [] => [(k, v)]
  | (k', v') :: rest => if k' = k then (k, v) :: rest else (k', v') :: put k v rest

theorem lookup_put_same (k : κ) (v : ν) (l : List (κ × ν)) : lookup k (put k v l) = some v := by
  induction l with
  | nil => simp [put, lookup]
  | cons p rest ih =>
      obtain ⟨k', v'⟩ := p
      by_cases h : k' = k
      · simp [put, lookup, h]
      · simp [put, lookup, h, ih]

theorem lookup_put_other {k k' : κ} (h : k' ≠ k) (v : ν) (l : List (κ × ν)) :
    lookup k' (put k v l) = lookup k' l := by
  induction l with
  | nil => simp [put, lookup, h.symm]
  | cons p rest ih =>
      obtain ⟨k₀, v₀⟩ := p
      by_cases hk : k₀ = k
      -- the entry that is replaced is not the one that is looked up
      · subst hk
        simp [put, lookup, h.symm]
      · simp [put, lookup, hk, ih]

/-- A new key goes to the end. -/
theorem put_of_not_mem {k : κ} (v : ν) {l : List (κ × ν)} (h : k ∉ l.map Prod.fst) :
    put k v l = l ++ [(k, v)] := by
  induction l with
  | nil => simp [put]
  | cons p rest ih =>
      rw [List.map_cons, List.mem_cons, not_or] at h
      rw [put, if_neg (Ne.symm h.1), ih h.2, List.cons_append]

theorem mem_keys_put {k k' : κ} {v : ν} {l : List (κ × ν)} :
    k' ∈ (put k v l).map Prod.fst ↔ k' = k ∨ k' ∈ l.map Prod.fst := by
  induction l with
  | nil => simp [put]
  | cons p rest ih =>
      obtain ⟨k₀, v₀⟩ := p
      by_cases hk : k₀ = k
      · subst hk
        simp [put]
      · simp only [put, if_neg hk, List.map_cons, List.mem_cons, ih]
        tauto

theorem nodup_put (k : κ) (v : ν) {l : List (κ × ν)} (h : (l.map Prod.fst).Nodup) :
    ((put k v l).map Prod.fst).Nodup := by
  induction l with
  | nil => simp [put]
  | cons p rest ih =>
      obtain ⟨k₀, v₀⟩ := p
      rw [List.map_cons, List.nodup_cons] at h
      by_cases hk : k₀ = k
      · subst hk
        simp only [put, if_pos, List.map_cons, List.nodup_cons]
        exact h
      · simp only [put, if_neg hk, List.map_cons, List.nodup_cons]
        -- the only key that `put` can add is `k`, and this entry has another
        refine ⟨?_, ih h.2⟩
        rw [mem_keys_put]
        rintro (h' | h')
        · exact hk h'
        · exact h.1 h'

theorem lookup_eq_none {k : κ} {l : List (κ × ν)} :
    lookup k l = none ↔ k ∉ l.map Prod.fst := by
  induction l with
  | nil => simp [lookup]
  | cons p rest ih =>
      obtain ⟨k', v'⟩ := p
      by_cases h : k' = k
      · simp [lookup, h]
      · simp [lookup, h, ih, Ne.symm h]

/-- What a key maps to is an entry. -/
theorem mem_of_lookup {k : κ} {v : ν} {l : List (κ × ν)} (h : lookup k l = some v) :
    (k, v) ∈ l := by
  induction l with
  | nil => cases h
  | cons p rest ih =>
      obtain ⟨k', v'⟩ := p
      by_cases hk : k' = k
      · rw [lookup, if_pos hk] at h
        rw [hk, Option.some.inj h]
        exact List.mem_cons_self
      · rw [lookup, if_neg hk] at h
        exact List.mem_cons_of_mem _ (ih h)

/-- With distinct keys, an entry is what its key maps to. -/
theorem lookup_of_mem {k : κ} {v : ν} {l : List (κ × ν)} (hnd : (l.map Prod.fst).Nodup)
    (h : (k, v) ∈ l) : lookup k l = some v := by
  induction l with
  | nil => exact absurd h (by simp)
  | cons p rest ih =>
      obtain ⟨k', v'⟩ := p
      rw [List.map_cons, List.nodup_cons] at hnd
      rcases List.mem_cons.mp h with heq | h
      · obtain ⟨rfl, rfl⟩ := Prod.mk.inj heq
        rw [lookup, if_pos rfl]
      · -- the key is further back, so it is not the first one
        have hne : k' ≠ k := by
          rintro rfl
          exact hnd.1 (List.mem_map.mpr ⟨_, h, rfl⟩)
        rw [lookup, if_neg hne]
        exact ih hnd.2 h

/-! ## Dictionaries -/

/-- The empty dictionary. -/
def empty : Dict κ ν := ⟨[], by simp⟩

/-- `d.get(k)`. -/
def get (d : Dict κ ν) (k : κ) : Option ν := lookup k d.entries

/-- `d[k] = v`. -/
def set (d : Dict κ ν) (k : κ) (v : ν) : Dict κ ν := ⟨put k v d.entries, nodup_put k v d.nodup⟩

/-- The keys, in insertion order. -/
def keys (d : Dict κ ν) : List κ := d.entries.map Prod.fst

/-- The values, in insertion order. -/
def values (d : Dict κ ν) : List ν := d.entries.map Prod.snd

@[simp] theorem get_empty (k : κ) : (empty : Dict κ ν).get k = none := rfl

omit [DecidableEq κ] in
@[simp] theorem keys_empty : (empty : Dict κ ν).keys = [] := rfl

@[simp] theorem get_set_same (d : Dict κ ν) (k : κ) (v : ν) : (d.set k v).get k = some v :=
  lookup_put_same k v d.entries

theorem get_set_other (d : Dict κ ν) {k k' : κ} (h : k' ≠ k) (v : ν) :
    (d.set k v).get k' = d.get k' :=
  lookup_put_other h v d.entries

theorem get_set (d : Dict κ ν) (k k' : κ) (v : ν) :
    (d.set k v).get k' = if k' = k then some v else d.get k' := by
  by_cases h : k' = k
  · rw [if_pos h, h, get_set_same]
  · rw [if_neg h, get_set_other d h]

/-- After a value was put under the keys of a list, it is what they map to. -/
theorem get_foldl_set {β : Type} (f : β → κ) (v : ν) (bs : List β) (d : Dict κ ν) (k : κ) :
    (bs.foldl (fun d b => d.set (f b) v) d).get k = if k ∈ bs.map f then some v else d.get k := by
  induction bs generalizing d with
  | nil => simp
  | cons b bs ih =>
      rw [List.foldl_cons, ih, get_set]
      by_cases hk : k ∈ bs.map f
      · rw [if_pos hk, if_pos]
        exact List.mem_cons_of_mem _ hk
      · simp [hk]

theorem values_set_of_not_mem {d : Dict κ ν} {k : κ} (v : ν) (h : k ∉ d.keys) :
    (d.set k v).values = d.values ++ [v] := by
  simp [values, set, put_of_not_mem v h]

theorem mem_keys_set {d : Dict κ ν} {k k' : κ} {v : ν} :
    k' ∈ (d.set k v).keys ↔ k' = k ∨ k' ∈ d.keys :=
  mem_keys_put

theorem get_eq_none {d : Dict κ ν} {k : κ} : d.get k = none ↔ k ∉ d.keys :=
  lookup_eq_none

theorem mem_keys_of_get {d : Dict κ ν} {k : κ} {v : ν} (h : d.get k = some v) : k ∈ d.keys := by
  by_contra hk
  rw [get_eq_none.mpr hk] at h
  exact absurd h (by simp)

theorem exists_get_of_mem_keys {d : Dict κ ν} {k : κ} (h : k ∈ d.keys) : ∃ v, d.get k = some v := by
  rcases hg : d.get k with _ | v
  · exact absurd h (get_eq_none.mp hg)
  · exact ⟨v, rfl⟩

theorem get_of_mem {d : Dict κ ν} {k : κ} {v : ν} (h : (k, v) ∈ d.entries) : d.get k = some v :=
  lookup_of_mem d.nodup h

theorem mem_of_get {d : Dict κ ν} {k : κ} {v : ν} (h : d.get k = some v) : (k, v) ∈ d.entries :=
  mem_of_lookup h

/-! ## Indexes -/

/-- `{f(v): v for v in vs}`: of two values with one key the last one stays. -/
def index (f : ν → κ) (vs : List ν) : Dict κ ν := vs.foldl (fun d v => d.set (f v) v) empty

theorem index_append (f : ν → κ) (vs : List ν) (v : ν) :
    index f (vs ++ [v]) = (index f vs).set (f v) v := by
  simp only [index, List.foldl_append, List.foldl_cons, List.foldl_nil]

theorem mem_keys_index {f : ν → κ} {vs : List ν} {k : κ} :
    k ∈ (index f vs).keys ↔ k ∈ vs.map f := by
  induction vs using List.reverseRecOn with
  | nil => simp [index]
  | append_singleton vs v ih =>
      rw [index_append, mem_keys_set, ih]
      simp [or_comm]

/-- With distinct keys, a key leads to the value that has it. -/
theorem get_index_iff {f : ν → κ} {vs : List ν} (h : (vs.map f).Nodup) {k : κ} {v : ν} :
    (index f vs).get k = some v ↔ v ∈ vs ∧ f v = k := by
  induction vs using List.reverseRecOn with
  | nil => simp [index]
  | append_singleton vs last ih =>
      rw [List.map_append, List.nodup_append] at h
      have hother : ∀ v ∈ vs, f v ≠ f last := fun v hv =>
        h.2.2 (f v) (List.mem_map_of_mem hv) (f last) (by simp)
      rw [index_append, get_set]
      by_cases hk : k = f last
      · rw [if_pos hk, hk, Option.some.injEq, List.mem_append, List.mem_singleton]
        constructor
        · rintro rfl
          exact ⟨Or.inr rfl, rfl⟩
        · rintro ⟨hv | hv, hkey⟩
          · exact absurd hkey (hother v hv)
          · exact hv.symm
      · rw [if_neg hk, ih h.1, List.mem_append, List.mem_singleton]
        constructor
        · rintro ⟨hv, hkey⟩
          exact ⟨Or.inl hv, hkey⟩
        · rintro ⟨hv | rfl, hkey⟩
          · exact ⟨hv, hkey⟩
          · exact absurd hkey.symm hk

theorem keys_set_of_mem {d : Dict κ ν} {k : κ} (v : ν) (h : k ∈ d.keys) :
    (d.set k v).keys = d.keys := by
  obtain ⟨entries, nodup⟩ := d
  unfold keys set at *
  dsimp only at *
  clear nodup
  induction entries with
  | nil => exact absurd h List.not_mem_nil
  | cons p rest ih =>
      by_cases hk : p.1 = k
      · rw [put, if_pos hk, List.map_cons, List.map_cons, hk]
      · rw [List.map_cons, List.mem_cons] at h
        rw [put, if_neg hk, List.map_cons, List.map_cons,
          ih (h.resolve_left fun heq => hk heq.symm)]

theorem keys_set_of_not_mem {d : Dict κ ν} {k : κ} (v : ν) (h : k ∉ d.keys) :
    (d.set k v).keys = d.keys ++ [k] := by
  unfold keys set at *
  dsimp only
  rw [put_of_not_mem v h, List.map_append, List.map_singleton]

/-- The keys stand in the order in which they came up first. -/
theorem keys_index [BEq κ] [LawfulBEq κ] (f : ν → κ) (vs : List ν) :
    (index f vs).keys = (vs.map f).eraseDups := by
  induction vs using List.reverseRecOn with
  | nil => rfl
  | append_singleton vs v ih =>
      rw [index_append, List.map_append, List.map_singleton, List.eraseDups_append, ← ih]
      by_cases hk : f v ∈ vs.map f
      · rw [keys_set_of_mem v (mem_keys_index.mpr hk)]
        have hremoved : [f v].removeAll (vs.map f) = [] := by
          rw [List.removeAll, List.filter_eq_nil_iff]
          intro k hmem
          rw [List.mem_singleton.mp hmem]
          simpa using hk
        rw [hremoved, List.eraseDups_nil, List.append_nil]
      · rw [keys_set_of_not_mem v (fun hmem => hk (mem_keys_index.mp hmem))]
        have hremoved : [f v].removeAll (vs.map f) = [f v] := by
          rw [List.removeAll, List.filter_eq_self]
          intro k hmem
          rw [List.mem_singleton.mp hmem]
          simpa using hk
        rw [hremoved]
        rfl

/-- A key leads to the last value that has it. -/
theorem get_index (f : ν → κ) (vs : List ν) (k : κ) :
    (index f vs).get k = (vs.filter (fun v => f v = k)).getLast? := by
  induction vs using List.reverseRecOn with
  | nil => rfl
  | append_singleton vs v ih =>
      rw [index_append, get_set, ih, List.filter_append]
      by_cases hk : f v = k
      · simp [hk]
      · simp [hk, Ne.symm hk]

/-! ## Totals -/

/-- What the entries weigh together. -/
def total (weight : κ → ν → ℕ) (d : Dict κ ν) : ℕ :=
  (d.entries.map fun e => weight e.1 e.2).sum

variable (weight : κ → ν → ℕ)

omit [DecidableEq κ] in
@[simp] theorem total_empty : (empty : Dict κ ν).total weight = 0 := rfl

/-- What is under a key weighs as much as it did before plus what was put. -/
theorem sum_put (k : κ) (v : ν) (l : List (κ × ν)) :
    ((put k v l).map fun e => weight e.1 e.2).sum + ((lookup k l).map (weight k)).getD 0
      = (l.map fun e => weight e.1 e.2).sum + weight k v := by
  induction l with
  | nil => simp [put, lookup]
  | cons e rest ih =>
      obtain ⟨k', v'⟩ := e
      by_cases hk : k' = k
      · -- the value is replaced
        rw [put, lookup, if_pos hk, if_pos hk]
        simp only [List.map_cons, List.sum_cons, Option.map_some, Option.getD_some, hk]
        omega
      · rw [put, lookup, if_neg hk, if_neg hk]
        simp only [List.map_cons, List.sum_cons]
        omega

/-- **A write.** The new value is added, and the old one, if there was one, taken away. -/
theorem total_set (d : Dict κ ν) (k : κ) (v : ν) :
    (d.set k v).total weight + ((d.get k).map (weight k)).getD 0 = d.total weight + weight k v :=
  sum_put weight k v d.entries

/-- Under a new key. -/
theorem total_set_new {d : Dict κ ν} {k : κ} (h : d.get k = none) (v : ν) :
    (d.set k v).total weight = d.total weight + weight k v := by
  have hset := total_set weight d k v
  rw [h] at hset
  exact hset

/-- Over an old value. -/
theorem total_set_old {d : Dict κ ν} {k : κ} {old : ν} (h : d.get k = some old) (v : ν) :
    (d.set k v).total weight + weight k old = d.total weight + weight k v := by
  have hset := total_set weight d k v
  rw [h] at hset
  exact hset

omit [DecidableEq κ] in
/-- How many values satisfy a predicate. -/
theorem countP_values (p : ν → Bool) (d : Dict κ ν) :
    d.values.countP p = d.total fun _ v => if p v then 1 else 0 := by
  unfold total values
  induction d.entries with
  | nil => rfl
  | cons e rest ih =>
      rw [List.map_cons, List.countP_cons, ih, List.map_cons, List.sum_cons]
      exact Nat.add_comm _ _

end Dict

end DecisionRuntime
