/-
Absent data against the conditions that ask for something.

A *positive* condition is built with `and` and `or` from bare paths, constants and
comparisons of these, without a negation of any kind. `Deleted` relates a value to one
it comes from by deleting keys, at any depth of dicts within dicts. A positive
condition that is true of a payload with keys deleted has a true value of the whole
payload (`value_of_deleted`): what is absent fails closed.

The value is what `evaluate` returns unless the whole payload brings it to a comparison
that raises (`missing_data_iff`): the key that was deleted may hold an integer that a
`bytes` literal cannot be searched for.
-/
import DecisionRuntime.MentionedPaths

set_option autoImplicit false

namespace DecisionRuntime.ConditionEvaluator

/-! ## Positive conditions -/

/-- A path or a constant. -/
def operand : Expr → Bool
  | .constant _ => true
  | e => (path_of e).isSome

/-- The operators that negate nothing. -/
def positive_op : CmpOp → Bool
  | .eq | .lt | .lt_e | .gt | .gt_e | .in => true
  | .not_eq | .is | .is_not | .not_in => false

mutual

/-- The tree is built from operands and comparisons of operands by `and` and `or`. -/
def positive : Expr → Bool
  | .boolOp _ values => positive_list values
  | .compare left ops comparators =>
    operand left && ops.all positive_op && comparators.all operand
  | e => operand e

def positive_list : List Expr → Bool
  | [] => true
  | e :: es => positive e && positive_list es

end

mutual

/-- The paths that are compared. -/
def compared : Expr → List Path
  | .boolOp _ values => compared_list values
  | .compare left _ comparators => (left :: comparators).filterMap path_of
  | _ => []

def compared_list : List Expr → List Path
  | [] => []
  | e :: es => compared e ++ compared_list es

end

/-! ## Deleted keys -/

mutual

/-- The first value comes from the second by deleting keys of dicts within dicts. -/
inductive Deleted : Value → Value → Prop
  | same (v : Value) : Deleted v v
  | dict {kvs' kvs : PyDict} (h : DeletedKeys kvs' kvs) : Deleted (.dict kvs') (.dict kvs)

/-- The same for the entries of a dict. -/
inductive DeletedKeys : PyDict → PyDict → Prop
  | nil : DeletedKeys [] []
  | keep {k : String} {v' v : Value} {kvs' kvs : PyDict} (hv : Deleted v' v)
      (h : DeletedKeys kvs' kvs) : DeletedKeys ((k, v') :: kvs') ((k, v) :: kvs)
  | delete {k : String} {v : Value} {kvs' kvs : PyDict} (hk : PyDict.get kvs' k = none)
      (h : DeletedKeys kvs' kvs) : DeletedKeys kvs' ((k, v) :: kvs)

end

/-- What is there in the first place is there in the second, up to deleted keys. -/
def Pruned (v' v : Option Value) : Prop := ∀ w', v' = some w' → ∃ w, v = some w ∧ Deleted w' w

/-- The contexts differ in the payload only, and there by deleted keys. -/
structure PayloadDeleted (ctx' ctx : PyDict) : Prop where
  payload : ∃ kvs' kvs, PyDict.get ctx' "payload" = some (.dict kvs')
    ∧ PyDict.get ctx "payload" = some (.dict kvs) ∧ DeletedKeys kvs' kvs
  others : ∀ id, id ≠ "payload" → PyDict.get ctx' id = PyDict.get ctx id

/-- A key that is left has what was left of its value. -/
theorem get_of_deletedKeys {kvs' kvs : PyDict} (h : DeletedKeys kvs' kvs) (k : String) :
    Pruned (PyDict.get kvs' k) (PyDict.get kvs k) := by
  intro w' hw'
  induction kvs generalizing kvs' with
  | nil =>
      cases h with
      | nil => cases hw'
  | cons kv kvs ih =>
      cases h with
      | keep hv h =>
          rw [PyDict.get] at hw' ⊢
          split_ifs at hw' ⊢ with hk
          · rw [← Option.some.inj hw']
            exact ⟨_, rfl, hv⟩
          · exact ih h hw'
      | delete hk h =>
          rw [PyDict.get]
          split_ifs with heq
          · -- the key was deleted
            rw [← heq, hk] at hw'
            cases hw'
          · exact ih h hw'

theorem nil_of_deletedKeys {kvs' : PyDict} (h : DeletedKeys kvs' []) : kvs' = [] := by
  cases h
  rfl

theorem pruned_field {v' v : Option Value} (h : Pruned v' v) (attr : String) :
    Pruned (field v' attr) (field v attr) := by
  intro w' hw'
  rcases v' with _ | u'
  · cases hw'
  obtain ⟨u, rfl, hdeleted⟩ := h u' rfl
  cases hdeleted with
  | same _ => exact ⟨w', hw', .same w'⟩
  | dict hkeys => exact get_of_deletedKeys hkeys attr w' hw'

theorem pruned_foldl_field (keys : List String) :
    ∀ {v' v : Option Value}, Pruned v' v → Pruned (keys.foldl field v') (keys.foldl field v) := by
  induction keys with
  | nil => exact fun h => h
  | cons key keys ih => exact fun h => ih (pruned_field h key)

/-- What was left at a path. -/
theorem pruned_path {ctx' ctx : PyDict} (h : PayloadDeleted ctx' ctx) (p : Path) :
    Pruned (p.value ctx') (p.value ctx) := by
  apply pruned_foldl_field
  by_cases hroot : p.root = "payload"
  · obtain ⟨kvs', kvs, hget', hget, hkeys⟩ := h.payload
    rw [hroot, hget', hget]
    intro w' hw'
    rw [← Option.some.inj hw']
    exact ⟨_, rfl, .dict hkeys⟩
  · rw [h.others p.root hroot]
    exact fun w' hw' => ⟨w', hw', .same w'⟩

/-- A value that is true with keys deleted is true. -/
theorem coerce_of_pruned {v' v : Option Value} (h : Pruned v' v) (htrue : coerce_bool v' = true) :
    coerce_bool v = true := by
  rcases v' with _ | w'
  · cases htrue
  obtain ⟨w, rfl, hdeleted⟩ := h w' rfl
  cases hdeleted with
  | same _ => exact htrue
  | dict hkeys =>
      rename_i kvs' kvs
      rcases kvs with _ | ⟨kv, kvs⟩
      · rw [nil_of_deletedKeys hkeys] at htrue
        exact htrue
      · rfl

/-! ## The values of positive conditions -/

/-- What is there in the first place is there in the second. -/
def Kept (v' v : Option Value) : Prop := ∀ w, v' = some w → v = some w

theorem kept_of_pruned {v' v : Option Value} (h : Pruned v' v)
    (hdict : ∀ kvs, v ≠ some (.dict kvs)) : Kept v' v := by
  intro w' hw'
  obtain ⟨w, rfl, hdeleted⟩ := h w' hw'
  cases hdeleted with
  | same _ => rfl
  | dict _ => exact absurd rfl (hdict _)

/-- Operands of a comparison that holds are there. -/
theorem some_of_holds {left right : Option Value} {op : CmpOp} (h : holds left op right = true) :
    ∃ l r, left = some l ∧ right = some r := by
  rcases left with _ | l
  · cases h
  rcases right with _ | r
  · cases h
  exact ⟨l, r, rfl, rfl⟩

theorem holds_of_kept {left' left right' right : Option Value} {op : CmpOp}
    (hleft : Kept left' left) (hright : Kept right' right) (h : holds left' op right' = true) :
    holds left op right = true := by
  obtain ⟨l, r, rfl, rfl⟩ := some_of_holds h
  rw [hleft l rfl, hright r rfl]
  exact h

/-- The value of a path is what stands at it. -/
theorem value_path_of (ctx : PyDict) (e : Expr) {p : Path} (h : path_of e = some p) :
    value ctx e = p.value ctx := by
  induction e using path_of.induct generalizing p with
  | case1 id c =>
      rw [path_of, Option.some.injEq] at h
      rw [value, ← h]
      rfl
  | case2 v attr c ih =>
      rw [path_of, Option.map_eq_some_iff] at h
      obtain ⟨q, hq, rfl⟩ := h
      rw [← denote_eq_value, denote, denote_eq_value, ih hq, path_value_snoc]
  | case3 e hname hattr =>
      rw [path_of] at h
      · cases h
      · exact hname
      · exact hattr

/-- What holds of the paths of operands holds of those of the first one, and of the others. -/
theorem forall_paths_cons {Q : Path → Prop} {e : Expr} {es : List Expr}
    (h : ∀ p ∈ (e :: es).filterMap path_of, Q p) :
    (∀ p, path_of e = some p → Q p) ∧ ∀ p ∈ es.filterMap path_of, Q p := by
  constructor
  · intro p hp
    exact h p (List.mem_filterMap.mpr ⟨e, List.mem_cons_self, hp⟩)
  · intro p hp
    obtain ⟨o, ho, hop⟩ := List.mem_filterMap.mp hp
    exact h p (List.mem_filterMap.mpr ⟨o, List.mem_cons_of_mem e ho, hop⟩)

section Positive

variable {ctx' ctx : PyDict}

theorem path_of_operand {e : Expr} (h : operand e = true) :
    (∃ v, e = .constant v) ∨ ∃ p, path_of e = some p := by
  cases e with
  | constant v => exact Or.inl ⟨v, rfl⟩
  | _ => exact Or.inr (Option.isSome_iff_exists.mp h)

theorem coerce_operand (hctx : PayloadDeleted ctx' ctx) {e : Expr} (h : operand e = true)
    (htrue : coerce_bool (value ctx' e) = true) : coerce_bool (value ctx e) = true := by
  rcases path_of_operand h with ⟨v, rfl⟩ | ⟨p, hp⟩
  · rwa [value] at htrue ⊢
  · rw [value_path_of ctx' e hp] at htrue
    rw [value_path_of ctx e hp]
    exact coerce_of_pruned (pruned_path hctx p) htrue

/-- An operand that is compared keeps its value. -/
theorem kept_operand (hctx : PayloadDeleted ctx' ctx) {e : Expr} (h : operand e = true)
    (hdict : ∀ p, path_of e = some p → ∀ kvs, p.value ctx ≠ some (.dict kvs)) :
    Kept (value ctx' e) (value ctx e) := by
  rcases path_of_operand h with ⟨v, rfl⟩ | ⟨p, hp⟩
  · rw [value, value]
    exact fun _ hw => hw
  · rw [value_path_of ctx' e hp, value_path_of ctx e hp]
    exact kept_of_pruned (pruned_path hctx p) (hdict p hp)

theorem chain_of_deleted (hctx : PayloadDeleted ctx' ctx) :
    ∀ (ops : List CmpOp) (es : List Expr) {left' left : Option Value}, Kept left' left →
      es.all operand = true →
      (∀ p ∈ es.filterMap path_of, ∀ kvs, p.value ctx ≠ some (.dict kvs)) →
      chain_holds ctx' left' ops es = true → chain_holds ctx left ops es = true
  | op :: ops, e :: es, left', left, hleft, hoperands, hdict, h => by
      rw [List.all_cons, Bool.and_eq_true] at hoperands
      rw [chain_holds, Bool.and_eq_true] at h ⊢
      obtain ⟨hfirst, hothers⟩ := forall_paths_cons hdict
      have hkept : Kept (value ctx' e) (value ctx e) := kept_operand hctx hoperands.1 hfirst
      -- the comparator is the left side of the next comparison
      refine ⟨holds_of_kept hleft hkept h.1, ?_⟩
      exact chain_of_deleted hctx ops es hkept hoperands.2 hothers h.2
  | [], es, _, _, _, _, _, _ => by
      cases es <;> rfl
  | _ :: _, [], _, _, _, _, _, _ => rfl

mutual

/-- **Fail closed.** A positive tree that is true of a payload with keys deleted is true of the
whole payload. -/
theorem value_of_deleted (hctx : PayloadDeleted ctx' ctx) : ∀ e : Expr, positive e = true →
    (∀ p ∈ compared e, ∀ kvs, p.value ctx ≠ some (.dict kvs)) →
    coerce_bool (value ctx' e) = true → coerce_bool (value ctx e) = true
  | .boolOp .and values, hpositive, hdict, h =>
      all_hold_of_deleted hctx values hpositive hdict h
  | .boolOp .or values, hpositive, hdict, h =>
      any_holds_of_deleted hctx values hpositive hdict h
  | .compare left ops comparators, hpositive, hdict, h => by
      rw [positive, Bool.and_eq_true, Bool.and_eq_true] at hpositive
      rw [compared] at hdict
      obtain ⟨hfirst, hothers⟩ := forall_paths_cons hdict
      have hleft : Kept (value ctx' left) (value ctx left) :=
        kept_operand hctx hpositive.1.1 hfirst
      rw [value] at h ⊢
      exact chain_of_deleted hctx ops comparators hleft hpositive.2 hothers h
  | .name id c, hpositive, _, h => coerce_operand hctx hpositive h
  | .constant v, hpositive, _, h => coerce_operand hctx hpositive h
  | .attribute v attr c, hpositive, _, h => coerce_operand hctx hpositive h
  | .unaryOp _ _, hpositive, _, _ => by
      cases hpositive
  | .other _ _, hpositive, _, _ => by
      cases hpositive

theorem all_hold_of_deleted (hctx : PayloadDeleted ctx' ctx) : ∀ es : List Expr,
    positive_list es = true → (∀ p ∈ compared_list es, ∀ kvs, p.value ctx ≠ some (.dict kvs)) →
    all_hold ctx' es = true → all_hold ctx es = true
  | [], _, _, _ => rfl
  | e :: es, hpositive, hdict, h => by
      rw [positive_list, Bool.and_eq_true] at hpositive
      rw [compared_list, List.forall_mem_append] at hdict
      rw [all_hold, Bool.and_eq_true] at h ⊢
      exact ⟨value_of_deleted hctx e hpositive.1 hdict.1 h.1,
        all_hold_of_deleted hctx es hpositive.2 hdict.2 h.2⟩

theorem any_holds_of_deleted (hctx : PayloadDeleted ctx' ctx) : ∀ es : List Expr,
    positive_list es = true → (∀ p ∈ compared_list es, ∀ kvs, p.value ctx ≠ some (.dict kvs)) →
    any_holds ctx' es = true → any_holds ctx es = true
  | [], _, _, h => h
  | e :: es, hpositive, hdict, h => by
      rw [positive_list, Bool.and_eq_true] at hpositive
      rw [compared_list, List.forall_mem_append] at hdict
      rw [any_holds, Bool.or_eq_true] at h ⊢
      rcases h with h | h
      · exact Or.inl (value_of_deleted hctx e hpositive.1 hdict.1 h)
      · exact Or.inr (any_holds_of_deleted hctx es hpositive.2 hdict.2 h)

end

end Positive

/-- **Missing data** never makes a positive condition fire: one that is true of a payload with keys
deleted is true of the whole payload, unless the whole payload brings it to a comparison that is
out of range. -/
theorem missing_data_iff {P : Platform} {text : String} {tree : Expr}
    (htext : (strip text.toList).isEmpty = false) (hparse : parse_condition P text = .ok tree)
    (hcheck : check tree = .ok ()) (hpositive : positive tree = true) {ctx' ctx : PyDict}
    (hctx : PayloadDeleted ctx' ctx)
    (hdict : ∀ p ∈ compared tree, ∀ kvs, p.value ctx ≠ some (.dict kvs))
    (htrue : evaluate P (some text) ctx' = .ok true) :
    evaluate P (some text) ctx = .ok true ↔ ¬ Overflows ctx tree := by
  have houtcome' := evaluate_outcome htext hparse hcheck ctx'
  have houtcome := evaluate_outcome htext hparse hcheck ctx
  have hvalue' : coerce_bool (value ctx' tree) = true := by
    by_cases ho : Overflows ctx' tree
    · obtain ⟨msg, hraised⟩ := houtcome'.raises ho
      cases htrue.symm.trans hraised
    · exact Except.ok.inj ((houtcome'.returns ho).symm.trans htrue)
  have hvalue : coerce_bool (value ctx tree) = true :=
    value_of_deleted hctx tree hpositive hdict hvalue'
  rw [hvalue] at houtcome
  constructor
  · intro hreturns ho
    obtain ⟨msg, hraised⟩ := houtcome.raises ho
    cases hreturns.symm.trans hraised
  · exact houtcome.returns

end DecisionRuntime.ConditionEvaluator

namespace DecisionRuntime.Recorded

open ConditionEvaluator

/-- The tree of `payload.x in b'a' or payload.y`. -/
def byte_or_flag : Expr :=
  .boolOp .or [byte_test, .attribute (.name "payload" .load) "y" .load]

/-- A context whose payload has a number under `x` and a flag under `y`. -/
def flagged (x : ℤ) : PyDict := [("payload", .dict [("x", .int x), ("y", .bool true)])]

/-- The same without the number. -/
def flagged_only : PyDict := [("payload", .dict [("y", .bool true)])]

theorem flagged_only_deleted (x : ℤ) : PayloadDeleted flagged_only (flagged x) where
  payload := by
    refine ⟨[("y", .bool true)], [("x", .int x), ("y", .bool true)], rfl, rfl, ?_⟩
    exact .delete rfl (.keep (.same _) .nil)
  others id hid := by
    simp [flagged_only, flagged, PyDict.get, Ne.symm hid]

/-- The one path that is compared leads to a number. -/
theorem byte_or_flag_scalar (x : ℤ) : ∀ p ∈ compared byte_or_flag, ∀ kvs,
    p.value (flagged x) ≠ some (.dict kvs) := by
  have hcompared : compared byte_or_flag = [⟨"payload", ["x"]⟩] := rfl
  intro p hp kvs hdict
  rw [hcompared, List.mem_singleton] at hp
  rw [hp] at hdict
  cases hdict

end DecisionRuntime.Recorded

namespace DecisionRuntime.ConditionEvaluator

/-- With 97 under `x`, which is a byte, the condition is true as it is without `x`. -/
theorem missing_data_byte :
    evaluate (Recorded.parser Recorded.byte_or_flag) (some "payload.x in b'a' or payload.y")
      (Recorded.flagged 97) = .ok true := by
  have hparse : parse_condition (Recorded.parser Recorded.byte_or_flag)
      "payload.x in b'a' or payload.y" = .ok Recorded.byte_or_flag := rfl
  refine (missing_data_iff (by decide +kernel) hparse (by decide +kernel) rfl
    (Recorded.flagged_only_deleted 97) (Recorded.byte_or_flag_scalar 97)
    (by decide +kernel)).mpr ?_
  rintro ((ho | ho | ho | ho) | ⟨-, ho | ho⟩)
  · exact ho
  · exact ho
  · exact ho (by decide)
  · exact ho.2
  · exact ho
  · exact ho.2

/-- With 300 there it raises, though without `x` it is true. -/
theorem missing_data_no_byte :
    ¬ ∀ (P : Platform) (text : String) (tree : Expr) (ctx' ctx : PyDict),
      (strip text.toList).isEmpty = false → parse_condition P text = .ok tree →
      check tree = .ok () → positive tree = true → PayloadDeleted ctx' ctx →
      (∀ p ∈ compared tree, ∀ kvs, p.value ctx ≠ some (.dict kvs)) →
      evaluate P (some text) ctx' = .ok true → evaluate P (some text) ctx = .ok true := by
  intro h
  have htrue := h (Recorded.parser Recorded.byte_or_flag) "payload.x in b'a' or payload.y"
    Recorded.byte_or_flag Recorded.flagged_only (Recorded.flagged 300) (by decide +kernel) rfl
    (by decide +kernel) rfl (Recorded.flagged_only_deleted 300)
    (Recorded.byte_or_flag_scalar 300) (by decide +kernel)
  have hraises : evaluate (Recorded.parser Recorded.byte_or_flag)
      (some "payload.x in b'a' or payload.y") (Recorded.flagged 300)
      = .error (.valueError "byte must be in range(0, 256)") := by decide +kernel
  cases htrue.symm.trans hraises

end DecisionRuntime.ConditionEvaluator
