/-
Hash-chained event logs.

A row holds an event, its number, the hash of the row before it and its own
hash. `Chain digest rows` says that the rows, in order, are numbered from 1, that
each names its predecessor's hash, and that each hash is `digest` of the row's
event, number and predecessor. Nothing is assumed of `digest`, of the events or of
the hashes.

A log is written by appending a row that was computed from two reads, the
greatest number and the last hash. `chain_concat` is what an append needs,
`max_sequence_no` and `last_event_hash` are what the two reads return, and
`hash_before` names the hash a read that is out of date returned.

What the hash at the end says of the rows before it is `covered_of_head`; what
becomes of a chain whose events are altered in place is `chain_alter_iff`.
-/
import Mathlib.Data.List.MinMax
import Mathlib.Order.Lattice.Nat

set_option autoImplicit false

namespace DecisionRuntime

namespace HashChain

/-- A row of the log. -/
structure Row (E H : Type) where
  event : E
  sequence_no : ℕ
  prev_hash : Option H
  event_hash : H
  deriving DecidableEq

variable {E H : Type}

/-- The hash of the row before position `k`. -/
def hash_before (rows : List (Row E H)) (k : ℕ) : Option H :=
  (rows.take k).getLast?.map Row.event_hash

/-- The rows form a chain. -/
structure Chain (digest : E → ℕ → Option H → H) (rows : List (Row E H)) : Prop where
  numbered : rows.map Row.sequence_no = List.range' 1 rows.length
  first : ∀ r, rows[0]? = some r → r.prev_hash = none
  linked : ∀ k r s, rows[k]? = some r → rows[k + 1]? = some s → s.prev_hash = some r.event_hash
  sealed : ∀ r ∈ rows, r.event_hash = digest r.event r.sequence_no r.prev_hash

variable {digest : E → ℕ → Option H → H} {rows : List (Row E H)}

/-! ## The hash before a position -/

theorem hash_before_succ {k : ℕ} {r : Row E H} (h : rows[k]? = some r) :
    hash_before rows (k + 1) = some r.event_hash := by
  obtain ⟨hk, hr⟩ := List.getElem?_eq_some_iff.mp h
  rw [hash_before, List.take_succ_eq_append_getElem hk, List.getLast?_concat, hr]
  rfl

/-- A position inside the log sees the same predecessor after the log has grown. -/
theorem hash_before_append {k : ℕ} (h : k ≤ rows.length) (more : List (Row E H)) :
    hash_before (rows ++ more) k = hash_before rows k := by
  rw [hash_before, List.take_append_of_le_length h]
  rfl

/-! ## Growing a chain -/

theorem chain_nil : Chain digest [] where
  numbered := rfl
  first _ h := by simp at h
  linked _ _ _ h _ := by simp at h
  sealed _ h := by simp at h

/-- **The append.** A row that carries the next number and the hash at the end extends the
chain. -/
theorem chain_concat (hc : Chain digest rows) {r : Row E H} (hn : r.sequence_no = rows.length + 1)
    (hp : r.prev_hash = hash_before rows rows.length)
    (hs : r.event_hash = digest r.event r.sequence_no r.prev_hash) :
    Chain digest (rows ++ [r]) where
  numbered := by
    rw [List.map_append, hc.numbered, List.map_singleton, hn, List.length_append,
      List.length_singleton, List.range'_1_concat, Nat.add_comm 1]
  first s hget := by
    rcases rows with _ | ⟨r₀, rest⟩
    · obtain rfl : r = s := by simpa using hget
      exact hp
    · exact hc.first s (by simpa using hget)
  linked k s t hs' ht := by
    have hlt : k + 1 < (rows ++ [r]).length := (List.getElem?_eq_some_iff.mp ht).1
    rw [List.length_append, List.length_singleton] at hlt
    rw [List.getElem?_append_left (by omega)] at hs'
    by_cases hk : k + 1 < rows.length
    · rw [List.getElem?_append_left hk] at ht
      exact hc.linked k s t hs' ht
    · -- `t` is the new row, and `s` was the last one
      have hend : k + 1 = rows.length := by omega
      rw [List.getElem?_append_right (by omega), hend, Nat.sub_self] at ht
      obtain rfl : r = t := by simpa using ht
      rw [hp, ← hend, hash_before_succ hs']
  sealed s hmem := by
    rw [List.mem_append, List.mem_singleton] at hmem
    rcases hmem with hmem | rfl
    · exact hc.sealed s hmem
    · exact hs

/-! ## Reading a chain -/

/-- Every number up to the length is taken. -/
theorem exists_sequence_no (hc : Chain digest rows) {k : ℕ} (h : k < rows.length) :
    ∃ r ∈ rows, r.sequence_no = k + 1 := by
  have hmem : k + 1 ∈ rows.map Row.sequence_no := by
    rw [hc.numbered, List.mem_range'_1]
    omega
  obtain ⟨r, hr, hk⟩ := List.mem_map.mp hmem
  exact ⟨r, hr, hk⟩

/-- The greatest number is the length, and 0 stands in for it on an empty log. -/
theorem max_sequence_no (hc : Chain digest rows) :
    (rows.map Row.sequence_no).max?.getD 0 = rows.length := by
  rcases hn : rows.length with _ | n
  · rw [List.length_eq_zero_iff.mp hn]
    rfl
  · have hmax : (rows.map Row.sequence_no).max? = some (n + 1) := by
      rw [List.max?_eq_some_iff]
      constructor
      · rw [hc.numbered, hn, List.mem_range'_1]
        omega
      · intro b hb
        rw [hc.numbered, hn, List.mem_range'_1] at hb
        omega
    rw [hmax]
    rfl

/-- The row with the greatest number is the last one. -/
theorem last_event_hash (hc : Chain digest rows) :
    (rows.argmax Row.sequence_no).map Row.event_hash = hash_before rows rows.length := by
  rw [hash_before, List.take_length]
  rcases List.eq_nil_or_concat rows with rfl | ⟨init, last, rfl⟩
  · rfl
  · rw [List.concat_eq_append] at hc ⊢
    rw [List.argmax_concat, List.getLast?_concat]
    have hnum := hc.numbered
    rw [List.map_append, List.length_append, List.length_singleton, List.range'_1_concat,
      List.map_singleton] at hnum
    obtain ⟨hinit, hlast⟩ := List.append_inj' hnum rfl
    rw [List.singleton_inj] at hlast
    rcases hmax : init.argmax Row.sequence_no with _ | m
    · rfl
    · have hm : m.sequence_no < last.sequence_no := by
        have hmem : m.sequence_no ∈ List.range' 1 init.length := by
          rw [← hinit]
          exact List.mem_map_of_mem (List.argmax_mem hmax)
        rw [List.mem_range'_1] at hmem
        omega
      dsimp only
      rw [if_pos hm]

/-! ## What the hash at the end determines -/

/-- The converse of the append. -/
theorem chain_of_concat {r : Row E H} (hc : Chain digest (rows ++ [r])) :
    Chain digest rows ∧ r.prev_hash = hash_before rows rows.length
      ∧ r.event_hash = digest r.event r.sequence_no r.prev_hash := by
  have hlast : (rows ++ [r])[rows.length]? = some r := by simp
  have hnum := hc.numbered
  rw [List.map_append, List.length_append, List.length_singleton, List.range'_1_concat,
    List.map_singleton] at hnum
  refine ⟨?_, ?_, hc.sealed r (by simp)⟩
  · constructor
    · exact (List.append_inj' hnum rfl).1
    · intro s hs
      have hlt := (List.getElem?_eq_some_iff.mp hs).1
      exact hc.first s (by rw [List.getElem?_append_left hlt, hs])
    · intro k s t hs ht
      have hlt := (List.getElem?_eq_some_iff.mp ht).1
      apply hc.linked k s t
      · rw [List.getElem?_append_left (by omega), hs]
      · rw [List.getElem?_append_left hlt, ht]
    · intro s hs
      exact hc.sealed s (List.mem_append_left _ hs)
  · rcases hn : rows.length with _ | k
    · rw [hn] at hlast
      rw [hc.first r hlast, hash_before, List.take_zero]
      rfl
    · -- the last row names the one at position `k`
      have hlt : k < rows.length := by omega
      have hget : rows[k]? = some rows[k] := List.getElem?_eq_getElem hlt
      rw [hash_before_succ hget]
      rw [hn] at hlast
      exact hc.linked k rows[k] r (by rw [List.getElem?_append_left hlt, hget]) hlast

section Head

variable {C : Type} (covers : E → ℕ → Option H → C)

/-- What the digest covers of a row. -/
def Row.covered (r : Row E H) : C := covers r.event r.sequence_no r.prev_hash

/-- **The head of a chain.** When the digest does not confuse the covered facts of two chains,
and these include the hash of the row before, the hash at the end determines the covered facts
of every row. -/
theorem covered_of_head {a b : List (Row E H)} (ha : Chain digest a) (hb : Chain digest b)
    (hinj : ∀ r ∈ a, ∀ s ∈ b, digest r.event r.sequence_no r.prev_hash
      = digest s.event s.sequence_no s.prev_hash → r.covered covers = s.covered covers)
    (hprev : ∀ r s : Row E H, r.covered covers = s.covered covers → r.prev_hash = s.prev_hash)
    (hhead : hash_before a a.length = hash_before b b.length) :
    a.map (Row.covered covers) = b.map (Row.covered covers) := by
  induction a using List.reverseRecOn generalizing b with
  | nil =>
      -- only the empty log has no hash at its end
      rw [hash_before, hash_before, List.take_length, List.take_length, List.getLast?_nil,
        Option.map_none, eq_comm, Option.map_eq_none_iff, List.getLast?_eq_none_iff] at hhead
      rw [hhead]
  | append_singleton a r ih =>
      rcases List.eq_nil_or_concat b with rfl | ⟨b, s, rfl⟩
      · rw [hash_before, List.take_length, List.getLast?_concat] at hhead
        simp [hash_before] at hhead
      · rw [List.concat_eq_append] at hb hinj hhead ⊢
        obtain ⟨ha', hpa, hsa⟩ := chain_of_concat ha
        obtain ⟨hb', hpb, hsb⟩ := chain_of_concat hb
        rw [hash_before, List.take_length, List.getLast?_concat, hash_before, List.take_length,
          List.getLast?_concat, Option.map_some, Option.map_some, Option.some.injEq, hsa,
          hsb] at hhead
        have hrs := hinj r (by simp) s (by simp) hhead
        -- equal hashes at the end make the hashes before them equal
        have hbefore : hash_before a a.length = hash_before b b.length := by
          rw [← hpa, ← hpb]
          exact hprev r s hrs
        have hab := ih ha' hb' (fun r hr s hs =>
          hinj r (List.mem_append_left _ hr) s (List.mem_append_left _ hs)) hbefore
        rw [List.map_append, List.map_append, hab, List.map_singleton, List.map_singleton, hrs]

end Head

/-! ## Altering events in place -/

/-- The row with another event, its number and its hashes as they are. -/
def Row.alter (edit : Row E H → E) (r : Row E H) : Row E H := { r with event := edit r }

/-- **Altered events.** A chain stays one when its events are altered exactly if the digest of
no row changes. -/
theorem chain_alter_iff (hc : Chain digest rows) (edit : Row E H → E) :
    Chain digest (rows.map (Row.alter edit)) ↔
      ∀ r ∈ rows, digest (edit r) r.sequence_no r.prev_hash
        = digest r.event r.sequence_no r.prev_hash := by
  constructor
  · intro h r hr
    rw [← hc.sealed r hr]
    exact (h.sealed (r.alter edit) (List.mem_map_of_mem hr)).symm
  · intro h
    constructor
    · rw [List.map_map, List.length_map]
      exact hc.numbered
    · intro s hs
      obtain ⟨r, hr, rfl⟩ := Option.map_eq_some_iff.mp (List.getElem?_map .. ▸ hs)
      exact hc.first r hr
    · intro k s t hs ht
      obtain ⟨r, hr, rfl⟩ := Option.map_eq_some_iff.mp (List.getElem?_map .. ▸ hs)
      obtain ⟨q, hq, rfl⟩ := Option.map_eq_some_iff.mp (List.getElem?_map .. ▸ ht)
      exact hc.linked k r q hr hq
    · intro s hs
      obtain ⟨r, hr, rfl⟩ := List.mem_map.mp hs
      exact (hc.sealed r hr).trans (h r hr).symm

end HashChain

end DecisionRuntime
