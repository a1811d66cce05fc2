/-
Equality of values, where dictionaries are dictionaries.

`Value.pyEq` compares two dictionaries by walking the entries of the first. That
is an equality of finite maps, and a symmetric one, only because the keys of a
Python dictionary are distinct; a `PyDict` does not carry that by itself, so it is
`Value.WellFormed` here.

* `dict_eq_iff` -- two dictionaries are equal when they have equal values under
  every key, and the same keys;
* `pyEq_comm` -- equality does not depend on the side.
-/
import DecisionRuntime.Dict
import DecisionRuntime.Value
import Mathlib.Data.List.Perm.Subperm

set_option autoImplicit false

namespace DecisionRuntime

/-! ## Entries -/

namespace PyDict

theorem get_eq_lookup (d : PyDict) (k : String) : d.get k = Dict.lookup k d := by
  induction d with
  | nil => rfl
  | cons entry d ih =>
      obtain ⟨k', v⟩ := entry
      by_cases hk : k' = k
      · simp [PyDict.get, Dict.lookup, hk]
      · simp [PyDict.get, Dict.lookup, hk, ih]

theorem mem_of_get {d : PyDict} {k : String} {v : Value} (h : d.get k = some v) : (k, v) ∈ d := by
  rw [get_eq_lookup] at h
  exact Dict.mem_of_lookup h

theorem get_of_mem {d : PyDict} {k : String} {v : Value} (hnd : (d.map Prod.fst).Nodup)
    (h : (k, v) ∈ d) : d.get k = some v := by
  rw [get_eq_lookup]
  exact Dict.lookup_of_mem hnd h

theorem get_eq_none_iff {d : PyDict} {k : String} : d.get k = none ↔ k ∉ d.map Prod.fst := by
  rw [get_eq_lookup, Dict.lookup_eq_none]

/-- The value under a key, where a missing key counts as `None`. -/
def get_or_none (d : PyDict) (k : String) : Value := (d.get k).getD .none

end PyDict

namespace Value

/-! ## Well-formed values -/

mutual

/-- The keys of every dictionary in the value are distinct. -/
def WellFormed : Value → Prop
  | .list xs => WellFormedList xs
  | .dict kvs => (kvs.map Prod.fst).Nodup ∧ WellFormedEntries kvs
  | _ => True

def WellFormedList : List Value → Prop
  | [] => True
  | x :: xs => WellFormed x ∧ WellFormedList xs

def WellFormedEntries : List (String × Value) → Prop
  | [] => True
  | (_, v) :: rest => WellFormed v ∧ WellFormedEntries rest

end

/-- The values of a well-formed dictionary are well formed. -/
theorem WellFormedEntries.of_mem {kvs : List (String × Value)} {k : String} {v : Value}
    (h : WellFormedEntries kvs) (hmem : (k, v) ∈ kvs) : WellFormed v := by
  induction kvs with
  | nil => exact absurd hmem (by simp)
  | cons entry kvs ih =>
      unfold WellFormedEntries at h
      by_cases hhead : (k, v) = entry
      · rw [← hhead] at h
        exact h.1
      · apply ih h.2
        simpa [hhead] using hmem

/-! ## Dictionaries as finite maps -/

/-- Every entry of the first dictionary has an equal value in the second. -/
theorem dictSub_iff {xs ys : PyDict} :
    dictSub xs ys = true ↔ ∀ p ∈ xs, ∃ w, ys.get p.1 = some w ∧ p.2.pyEq w = true := by
  induction xs with
  | nil => simp [dictSub]
  | cons entry xs ih =>
      obtain ⟨k, v⟩ := entry
      rw [dictSub, Bool.and_eq_true, ih, List.forall_mem_cons]
      apply and_congr_left
      intro _
      cases ys.get k with
      | none => simp
      | some w => simp

/-- Distinct keys all found in a dictionary of the same size are all of its keys. -/
theorem keys_subset_of_length_eq {xs ys : PyDict} (hxs : (xs.map Prod.fst).Nodup)
    (hlength : xs.length = ys.length) (hsub : xs.map Prod.fst ⊆ ys.map Prod.fst) :
    ys.map Prod.fst ⊆ xs.map Prod.fst := by
  have hperm : (xs.map Prod.fst).Perm (ys.map Prod.fst) := by
    apply (List.subperm_of_subset hxs hsub).perm_of_length_le
    rw [List.length_map, List.length_map]
    omega
  exact hperm.symm.subset

/-- Where both dictionaries have a value, or neither has, both have the key, or neither has. -/
theorem mem_keys_iff_of_rel {r : Value → Value → Prop} {xs ys : PyDict} {k : String}
    (h : Option.Rel r (xs.get k) (ys.get k)) : k ∈ xs.map Prod.fst ↔ k ∈ ys.map Prod.fst := by
  rw [← not_iff_not, ← PyDict.get_eq_none_iff, ← PyDict.get_eq_none_iff]
  cases hx : xs.get k with
  | none =>
      cases hy : ys.get k with
      | none => rfl
      | some w => simp [hx, hy] at h
  | some v =>
      cases hy : ys.get k with
      | none => simp [hx, hy] at h
      | some w => simp

/-- Dictionaries are equal when their values under every key are, and they have the same keys. -/
theorem dict_eq_iff {xs ys : PyDict} (hxs : (xs.map Prod.fst).Nodup)
    (hys : (ys.map Prod.fst).Nodup) :
    (Value.dict xs).pyEq (.dict ys) = true ↔
      ∀ k, Option.Rel (fun v w => v.pyEq w = true) (xs.get k) (ys.get k) := by
  rw [pyEq, Bool.and_eq_true, decide_eq_true_iff, dictSub_iff]
  constructor
  · rintro ⟨hlength, hsub⟩ k
    have hkeys : xs.map Prod.fst ⊆ ys.map Prod.fst := by
      intro key hkey
      obtain ⟨p, hp, rfl⟩ := List.mem_map.mp hkey
      obtain ⟨w, hw, -⟩ := hsub p hp
      exact List.mem_map.mpr ⟨(p.1, w), PyDict.mem_of_get hw, rfl⟩
    cases hx : xs.get k with
    | some v =>
        obtain ⟨w, hw, heq⟩ := hsub (k, v) (PyDict.mem_of_get hx)
        rw [hw]
        exact Option.Rel.some heq
    | none =>
        -- the second has no other keys, since it has no more
        have hy : ys.get k = Option.none := by
          rw [PyDict.get_eq_none_iff] at hx ⊢
          intro hk
          exact hx (keys_subset_of_length_eq hxs hlength hkeys hk)
        rw [hy]
        exact Option.Rel.none
  · intro h
    have hperm : (xs.map Prod.fst).Perm (ys.map Prod.fst) :=
      (List.perm_ext_iff_of_nodup hxs hys).mpr fun k => mem_keys_iff_of_rel (h k)
    refine ⟨by simpa using hperm.length_eq, ?_⟩
    rintro ⟨k, v⟩ hmem
    have hk := h k
    rw [PyDict.get_of_mem hxs hmem] at hk
    cases hget : ys.get k with
    | none =>
        rw [hget] at hk
        cases hk
    | some w =>
        rw [hget] at hk
        cases hk with
        | some heq => exact ⟨w, rfl, heq⟩

/-! ## Symmetry -/

theorem datetime_cmp_comm (a b : Datetime) : a.cmp b = some .eq ↔ b.cmp a = some .eq := by
  unfold Datetime.cmp
  cases a.utcoffset with
  | none =>
      cases b.utcoffset with
      | none =>
          simp only [Option.some.injEq, compare_eq_iff_eq]
          exact eq_comm
      | some _ => simp
  | some _ =>
      cases b.utcoffset with
      | none => simp
      | some _ =>
          simp only [Option.some.injEq, compare_eq_iff_eq]
          exact eq_comm

theorem option_rel_comm {α : Type} {r : α → α → Prop} {x y : Option α}
    (h : ∀ v w, x = some v → y = some w → (r v w ↔ r w v)) :
    Option.Rel r x y ↔ Option.Rel r y x := by
  cases x with
  | none => cases y <;> simp
  | some v =>
      cases y with
      | none => simp
      | some w => simpa using h v w rfl rfl

mutual

/-- Equality does not depend on the side. -/
theorem pyEq_comm : ∀ a b : Value, a.WellFormed → b.WellFormed → a.pyEq b = b.pyEq a
  | .list xs, b, ha, hb => by
      cases b with
      | list ys =>
          unfold pyEq
          exact listEq_comm xs ys ha hb
      | _ => simp [pyEq, number]
  | .dict xs, b, ha, hb => by
      cases b with
      | dict ys =>
          rw [Bool.eq_iff_iff, dict_eq_iff ha.1 hb.1, dict_eq_iff hb.1 ha.1]
          apply forall_congr'
          intro k
          apply option_rel_comm
          intro v w hv hw
          rw [entries_comm xs ha.2 k v (PyDict.mem_of_get hv) w
            (hb.2.of_mem (PyDict.mem_of_get hw))]
      | _ => simp [pyEq, number]
  | .none, b, _, _ => by cases b <;> simp [pyEq, number]
  | .ellipsis, b, _, _ => by cases b <;> simp [pyEq, number]
  | .str s, b, _, _ => by cases b <;> simp [pyEq, number, eq_comm]
  | .bytes s, b, _, _ => by cases b <;> simp [pyEq, number, eq_comm]
  | .datetime d, b, _, _ => by cases b <;> simp [pyEq, number, datetime_cmp_comm]
  | .bool x, b, _, _ => by cases b <;> simp [pyEq, number, eq_comm]
  | .int x, b, _, _ => by cases b <;> simp [pyEq, number, eq_comm]
  | .float x, b, _, _ => by cases b <;> simp [pyEq, number, eq_comm]
  | .complex x, b, _, _ => by cases b <;> simp [pyEq, number, eq_comm]

theorem listEq_comm : ∀ xs ys : List Value, WellFormedList xs → WellFormedList ys →
    listEq xs ys = listEq ys xs
  | [], [], _, _ => rfl
  | [], _ :: _, _, _ => rfl
  | _ :: _, [], _, _ => rfl
  | x :: xs, y :: ys, hx, hy => by
      rw [listEq, listEq, pyEq_comm x y hx.1 hy.1, listEq_comm xs ys hx.2 hy.2]

theorem entries_comm : ∀ kvs : List (String × Value), WellFormedEntries kvs →
    ∀ k v, (k, v) ∈ kvs → ∀ w : Value, w.WellFormed → v.pyEq w = w.pyEq v
  | [], _, _, _, hmem, _, _ => absurd hmem (by simp)
  | (k', v') :: rest, hwf, k, v, hmem, w, hw => by
      by_cases hhead : (k, v) = (k', v')
      · rw [(Prod.mk.inj hhead).2]
        exact pyEq_comm v' w hwf.1 hw
      · exact entries_comm rest hwf.2 k v (by simpa [hhead] using hmem) w hw

end

end Value

end DecisionRuntime
