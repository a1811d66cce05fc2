/-
What a condition can see.

A condition talks about the context through names and dotted paths. `mentions` is the
list of the maximal ones: of `payload.customer.tier` it holds the whole path, and
neither `payload` nor `payload.customer`. Contexts that agree on these give every
condition the same answer, or the same exception (`evaluate_depends_on_mentioned`),
whatever else they hold.

The induction is on the tree. At an attribute there are two cases: the whole chain is
a path, and then the contexts agree on it by assumption though they may differ on every
path that it passes; or its base is no path, and then they agree on the base.
-/
import DecisionRuntime.LiteralNormalisation

set_option autoImplicit false

namespace DecisionRuntime.ConditionEvaluator

/-! ## Paths -/

/-- A dotted path: a context variable and the keys that follow it. -/
structure Path where
  root : String
  keys : List String
  deriving DecidableEq

/-- What stands at the path. -/
def Path.value (p : Path) (ctx : PyDict) : Option Value := value_at ctx p.root p.keys

/-- The path that a tree is, if it is one. -/
def path_of : Expr → Option Path
  | .name id _ => some ⟨id, []⟩
  | .attribute v attr _ => (path_of v).map (fun p => ⟨p.root, p.keys ++ [attr]⟩)
  | _ => none

mutual

/-- The maximal paths of a tree. -/
def mentions : Expr → List Path
  | .boolOp _ values => mentions_list values
  | .unaryOp _ operand => mentions operand
  | .compare left _ comparators => mentions left ++ mentions_list comparators
  | .name id _ => [⟨id, []⟩]
  | .constant _ => []
  | .attribute v attr _ =>
    match path_of v with
    | some p => [⟨p.root, p.keys ++ [attr]⟩]
    | none => mentions v
  | .other _ children => mentions_list children

def mentions_list : List Expr → List Path
  | [] => []
  | e :: es => mentions e ++ mentions_list es

end

/-- The maximal paths of a condition. -/
def mentioned (P : Platform) : Option String → List Path
  | none => []
  | some text =>
    if (strip text.toList).isEmpty then []
    else
      match parse_condition P text with
      | .ok tree => mentions tree
      | .error _ => []

/-- The two contexts have the same value at every one of the paths, or none. -/
def AgreeOn (paths : List Path) (ctx ctx' : PyDict) : Prop :=
  ∀ p ∈ paths, p.value ctx = p.value ctx'

section Agreement

variable {P : Platform} {ctx ctx' : PyDict}

theorem agreeOn_append {ps qs : List Path} :
    AgreeOn (ps ++ qs) ctx ctx' ↔ AgreeOn ps ctx ctx' ∧ AgreeOn qs ctx ctx' :=
  List.forall_mem_append

/-- The value one key further. -/
theorem path_value_snoc (p : Path) (attr : String) :
    Path.value ⟨p.root, p.keys ++ [attr]⟩ ctx = field (p.value ctx) attr := by
  rw [Path.value, Path.value, value_at, value_at, List.foldl_append]
  rfl

theorem eval_attribute (v : Expr) (attr : String) (c : ExprContext) :
    eval ctx (.attribute v attr c) = (eval ctx v).map (field · attr) := by
  rw [eval]
  rcases eval ctx v with e | w
  · rfl
  · rcases w with _ | w
    · rfl
    · cases w <;> rfl

/-- A path evaluates to what stands at it. -/
theorem eval_path_of (e : Expr) {p : Path} (h : path_of e = some p) :
    eval ctx e = .ok (p.value ctx) := by
  induction e using path_of.induct generalizing p with
  | case1 id c =>
      rw [path_of, Option.some.injEq] at h
      rw [eval, ← h]
      rfl
  | case2 v attr c ih =>
      rw [path_of, Option.map_eq_some_iff] at h
      obtain ⟨q, hq, rfl⟩ := h
      rw [eval_attribute, ih hq, path_value_snoc]
      rfl
  | case3 e hname hattr =>
      rw [path_of] at h
      · cases h
      · exact hname
      · exact hattr

mutual

/-- **One tree.** Contexts that agree on the maximal paths of a tree evaluate it in the same way. -/
theorem eval_depends : ∀ e : Expr, AgreeOn (mentions e) ctx ctx' → eval ctx e = eval ctx' e
  | .boolOp .and values, h => by
      rw [mentions] at h
      rw [eval, eval, eval_and_depends values h]
  | .boolOp .or values, h => by
      rw [mentions] at h
      rw [eval, eval, eval_or_depends values h]
  | .unaryOp .not operand, h => by
      rw [mentions] at h
      rw [eval, eval, eval_depends operand h]
  | .unaryOp (.other _) _, _ => by
      rw [eval, eval]
  | .compare left ops comparators, h => by
      rw [mentions, agreeOn_append] at h
      rw [eval, eval, eval_depends left h.1]
      have hchain : ∀ l, eval_chain ctx l ops comparators = eval_chain ctx' l ops comparators :=
        fun l => eval_chain_depends l ops comparators h.2
      simp only [hchain]
  | .name id c, h => by
      rw [mentions] at h
      have hname : path_of (.name id c) = some ⟨id, []⟩ := rfl
      rw [eval_path_of _ hname, eval_path_of _ hname, h _ List.mem_cons_self]
  | .constant _, _ => by
      rw [eval, eval]
  | .attribute v attr c, h => by
      rw [mentions] at h
      rcases hpath : path_of v with _ | p
      · rw [hpath] at h
        rw [eval_attribute, eval_attribute, eval_depends v h]
      · -- the contexts may differ at `p`, but not one key further
        rw [hpath] at h
        have hwhole : path_of (.attribute v attr c) = some ⟨p.root, p.keys ++ [attr]⟩ := by
          rw [path_of, hpath]
          rfl
        rw [eval_path_of _ hwhole, eval_path_of _ hwhole, h _ List.mem_cons_self]
  | .other _ _, _ => by
      rw [eval, eval]

theorem eval_and_depends : ∀ es : List Expr, AgreeOn (mentions_list es) ctx ctx' →
    eval_and ctx es = eval_and ctx' es
  | [], _ => by
      rw [eval_and, eval_and]
  | e :: es, h => by
      rw [mentions_list, agreeOn_append] at h
      rw [eval_and, eval_and, eval_depends e h.1, eval_and_depends es h.2]

theorem eval_or_depends : ∀ es : List Expr, AgreeOn (mentions_list es) ctx ctx' →
    eval_or ctx es = eval_or ctx' es
  | [], _ => by
      rw [eval_or, eval_or]
  | e :: es, h => by
      rw [mentions_list, agreeOn_append] at h
      rw [eval_or, eval_or, eval_depends e h.1, eval_or_depends es h.2]

theorem eval_chain_depends (left : Option Value) : ∀ (ops : List CmpOp) (es : List Expr),
    AgreeOn (mentions_list es) ctx ctx' →
      eval_chain ctx left ops es = eval_chain ctx' left ops es
  | op :: ops, e :: es, h => by
      rw [mentions_list, agreeOn_append] at h
      rw [eval_chain, eval_chain, eval_depends e h.1]
      have hchain : ∀ l, eval_chain ctx l ops es = eval_chain ctx' l ops es :=
        fun l => eval_chain_depends l ops es h.2
      simp only [hchain]
  | [], es, _ => by
      cases es <;> simp [eval_chain]
  | _ :: _, [], _ => by
      simp [eval_chain]

end

/-- Contexts that agree on the paths of a condition give it the same answer. -/
theorem evaluate_depends {condition : Option String}
    (h : AgreeOn (mentioned P condition) ctx ctx') :
    evaluate P condition ctx = evaluate P condition ctx' := by
  rcases condition with _ | text
  · rw [evaluate, evaluate]
  rw [mentioned] at h
  rw [evaluate, evaluate]
  by_cases hblank : (strip text.toList).isEmpty = true
  · rw [if_pos hblank, if_pos hblank]
  rw [if_neg hblank] at h
  rw [if_neg hblank, if_neg hblank]
  rcases hparse : parse_condition P text with e | tree
  · rfl
  · rw [hparse] at h
    rw [except_ok_bind, except_ok_bind, eval_depends tree h]

/-! ## Changes elsewhere -/

/-- The dict without the key. -/
def erase (key : String) : PyDict → PyDict
  | [] => []
  | (k, v) :: rest => if k = key then erase key rest else (k, v) :: erase key rest

/-- The dict with this under the key: a new value, or nothing. -/
def assign (d : PyDict) (key : String) : Option Value → PyDict
  | some v => (key, v) :: erase key d
  | none => erase key d

/-- What stands somewhere, with `new` in the place of the part below these keys. Where there is no
such part nothing changes. -/
def replaced (new : Option Value) : List String → Option Value → Option Value
  | [], _ => new
  | key :: keys, some (.dict kvs) =>
    some (.dict (assign kvs key (replaced new keys (PyDict.get kvs key))))
  | _ :: _, old => old

/-- The context with `new` in the place of what stands at the path. -/
def change (ctx : PyDict) (q : Path) (new : Option Value) : PyDict :=
  assign ctx q.root (replaced new q.keys (PyDict.get ctx q.root))

/-- Neither path leads on from the other. -/
def Path.Apart (p q : Path) : Prop :=
  p.root ≠ q.root ∨ ¬p.keys <+: q.keys ∧ ¬q.keys <+: p.keys

instance (p q : Path) : Decidable (p.Apart q) :=
  inferInstanceAs (Decidable (_ ∨ ¬_ ∧ ¬_))

theorem get_erase (key other : String) (d : PyDict) :
    PyDict.get (erase key d) other = if other = key then none else PyDict.get d other := by
  induction d with
  | nil => simp [erase, PyDict.get]
  | cons kv d ih =>
      obtain ⟨k, v⟩ := kv
      rw [erase, PyDict.get]
      by_cases hkey : k = key
      · rw [if_pos hkey, ih]
        by_cases hother : other = key
        · rw [if_pos hother, if_pos hother]
        · rw [if_neg hother, if_neg hother, if_neg (fun h => hother (h.symm.trans hkey))]
      · rw [if_neg hkey, PyDict.get, ih]
        by_cases hother : k = other
        · rw [if_pos hother, if_pos hother, if_neg (fun h => hkey (hother.trans h))]
        · rw [if_neg hother, if_neg hother]

theorem get_assign (d : PyDict) (key other : String) (new : Option Value) :
    PyDict.get (assign d key new) other = if other = key then new else PyDict.get d other := by
  cases new with
  | none => exact get_erase key other d
  | some v =>
      rw [assign, PyDict.get, get_erase]
      by_cases h : key = other
      · rw [if_pos h, if_pos h.symm]
      · rw [if_neg h, if_neg (Ne.symm h), if_neg (Ne.symm h)]

/-- Below keys that lead elsewhere nothing changes. The induction is on the keys of the change. -/
theorem foldl_field_replaced {new : Option Value} {changed : List String} :
    ∀ {keys : List String} {old : Option Value}, ¬keys <+: changed → ¬changed <+: keys →
      keys.foldl field (replaced new changed old) = keys.foldl field old := by
  induction changed with
  | nil =>
      intro keys old _ h
      exact absurd List.nil_prefix h
  | cons key changed ih =>
      intro keys old hkeys hchanged
      rcases keys with _ | ⟨other, keys⟩
      · exact absurd List.nil_prefix hkeys
      rcases old with _ | v
      · rfl
      cases v with
      | dict kvs =>
          rw [replaced, List.foldl_cons, List.foldl_cons, field, field, get_assign]
          by_cases h : other = key
          · subst h
            rw [List.cons_prefix_cons] at hkeys hchanged
            rw [if_pos rfl]
            exact ih (fun hp => hkeys ⟨rfl, hp⟩) (fun hp => hchanged ⟨rfl, hp⟩)
          · rw [if_neg h]
      | _ => rfl

/-- A change does not show at a path apart. -/
theorem value_change {p q : Path} (h : p.Apart q) (ctx : PyDict) (new : Option Value) :
    p.value ctx = p.value (change ctx q new) := by
  rw [Path.value, Path.value, value_at, value_at, change, get_assign]
  by_cases hroot : p.root = q.root
  · rw [if_pos hroot, hroot]
    rcases h with hne | ⟨hkeys, hchanged⟩
    · exact absurd hroot hne
    · exact (foldl_field_replaced hkeys hchanged).symm
  · rw [if_neg hroot]

end Agreement

/-- **A condition depends on the paths it mentions.** Contexts that agree on its maximal paths give
it the same answer, or the same exception. So whatever is put in the place of a part that none of
these paths leads to or comes through, the condition stays what it was. -/
theorem evaluate_depends_on_mentioned (P : Platform) (condition : Option String) (ctx : PyDict) :
    (∀ ctx', AgreeOn (mentioned P condition) ctx ctx' →
      evaluate P condition ctx = evaluate P condition ctx') ∧
    ∀ q new, (∀ p ∈ mentioned P condition, p.Apart q) →
      evaluate P condition ctx = evaluate P condition (change ctx q new) := by
  constructor
  · intro ctx' h
    exact evaluate_depends h
  · intro q new hapart
    apply evaluate_depends
    intro p hp
    exact value_change (hapart p hp) ctx new

/-- `payload.x in b'a'` does not depend on what stands at `payload.y.z`. -/
theorem evaluate_depends_byte_test :
    evaluate (Recorded.parser Recorded.byte_test) (some "payload.x in b'a'")
        [("payload", .dict [("x", .int 97), ("y", .dict [("z", .int 1)])])]
      = evaluate (Recorded.parser Recorded.byte_test) (some "payload.x in b'a'")
        (change [("payload", .dict [("x", .int 97), ("y", .dict [("z", .int 1)])])]
          ⟨"payload", ["y", "z"]⟩ (some (.str "other"))) :=
  (evaluate_depends_on_mentioned (Recorded.parser Recorded.byte_test) (some "payload.x in b'a'")
    _).2 _ _ (by decide +kernel)

end DecisionRuntime.ConditionEvaluator
