/-
The language the safety checker accepts, described without the checker.

`_SafeNodeChecker` is a visitor: what it accepts depends on every `visit_*` method
going on to the children. Here the nodes of a tree are what can be reached from its
root by `ast.iter_child_nodes`, whatever a visitor does, and three rules say which
node is forbidden. The checker accepts a tree when none of its nodes is
(`check_ok_iff`), so no subtree escapes it.
-/
import DecisionRuntime.ConditionProgress
import Mathlib.Logic.Relation

set_option autoImplicit false

namespace DecisionRuntime.ConditionEvaluator

/-! ## The nodes of a tree -/

/-- The types of nodes: those the whitelist names, and any other by its name. -/
inductive AstType
  | expression
  | boolOp
  | and
  | or
  | unaryOp
  | not
  | compare
  | eq
  | not_eq
  | lt
  | lt_e
  | gt
  | gt_e
  | in
  | not_in
  | name
  | constant
  | attribute
  | load
  | other (type_name : String)
  deriving DecidableEq

/-- `_ALLOWED_AST_TYPES`. -/
def ALLOWED_AST_TYPES : List AstType :=
  [.expression, .boolOp, .and, .or, .unaryOp, .not, .compare, .eq, .not_eq, .lt, .lt_e, .gt, .gt_e,
    .in, .not_in, .name, .constant, .attribute, .load]

/-- A node of a tree: its root, an expression, an operator or a context. -/
inductive AstNode
  | expression (body : Expr)
  | expr (e : Expr)
  | boolop (op : BoolOp)
  | unaryop (op : UnaryOp)
  | cmpop (op : CmpOp)
  | expr_context (ctx : ExprContext)

namespace AstNode

/-- `type(node)`. -/
def type : AstNode → AstType
  | .expression _ => .expression
  | .expr (.boolOp _ _) => .boolOp
  | .expr (.unaryOp _ _) => .unaryOp
  | .expr (.compare _ _ _) => .compare
  | .expr (.name _ _) => .name
  | .expr (.constant _) => .constant
  | .expr (.attribute _ _ _) => .attribute
  | .expr (.other type_name _) => .other type_name
  | .boolop .and => .and
  | .boolop .or => .or
  | .unaryop .not => .not
  | .unaryop (.other type_name) => .other type_name
  | .cmpop .eq => .eq
  | .cmpop .not_eq => .not_eq
  | .cmpop .lt => .lt
  | .cmpop .lt_e => .lt_e
  | .cmpop .gt => .gt
  | .cmpop .gt_e => .gt_e
  | .cmpop .in => .in
  | .cmpop .not_in => .not_in
  | .cmpop .is => .other "Is"
  | .cmpop .is_not => .other "IsNot"
  | .expr_context .load => .load
  | .expr_context .store => .other "Store"
  | .expr_context .del => .other "Del"

/-- `ast.iter_child_nodes`. -/
def iter_child_nodes : AstNode → List AstNode
  | .expression body => [.expr body]
  | .expr (.boolOp op values) => .boolop op :: values.map .expr
  | .expr (.unaryOp op operand) => [.unaryop op, .expr operand]
  | .expr (.compare left ops comparators) =>
    .expr left :: (ops.map .cmpop ++ comparators.map .expr)
  | .expr (.name _ ctx) => [.expr_context ctx]
  | .expr (.constant _) => []
  | .expr (.attribute value _ ctx) => [.expr value, .expr_context ctx]
  | .expr (.other _ children) => children.map .expr
  | .boolop _ | .unaryop _ | .cmpop _ | .expr_context _ => []

/-- `n` is the node or somewhere below it. -/
def Within (root n : AstNode) : Prop :=
  Relation.ReflTransGen (fun parent child => child ∈ parent.iter_child_nodes) root n

end AstNode

/-- A node that must not be in a condition, whatever is below it. -/
inductive Forbidden : AstNode → Prop
  | construct {n : AstNode} (h : n.type ∉ ALLOWED_AST_TYPES) : Forbidden n
  | name {id : String} {ctx : ExprContext} (h : id ∉ ALLOWED_CONTEXT_VARS) :
      Forbidden (.expr (.name id ctx))
  | dunder {value : Expr} {attr : String} {ctx : ExprContext} (h : "__".toList <+: attr.toList) :
      Forbidden (.expr (.attribute value attr ctx))

/-- Neither the node nor anything below it is forbidden. -/
def Clean (root : AstNode) : Prop := ∀ n, root.Within n → ¬ Forbidden n

/-- What is below a node is below one of its children. -/
theorem clean_iff (root : AstNode) :
    Clean root ↔ ¬ Forbidden root ∧ ∀ child ∈ root.iter_child_nodes, Clean child := by
  constructor
  · intro h
    refine ⟨h root .refl, ?_⟩
    intro child hchild n hn
    exact h n (.head hchild hn)
  · rintro ⟨hroot, hchildren⟩ n hn
    rcases Relation.ReflTransGen.cases_head hn with rfl | ⟨child, hchild, hbelow⟩
    · exact hroot
    · exact hchildren child hchild n hbelow

/-! ## The nodes without expressions below them -/

section Leaves

variable {n : AstNode}

/-- A node that is no name and no attribute is judged by its type. -/
theorem forbidden_iff_type (hname : ∀ id ctx, n ≠ .expr (.name id ctx))
    (hattr : ∀ value attr ctx, n ≠ .expr (.attribute value attr ctx)) :
    Forbidden n ↔ n.type ∉ ALLOWED_AST_TYPES := by
  constructor
  · intro h
    cases h with
    | construct h => exact h
    | name h => exact absurd rfl (hname _ _)
    | dunder h => exact absurd rfl (hattr _ _ _)
  · exact .construct

/-- Such a node is clean when its type is allowed and its children are clean. -/
theorem clean_iff_type (hname : ∀ id ctx, n ≠ .expr (.name id ctx))
    (hattr : ∀ value attr ctx, n ≠ .expr (.attribute value attr ctx)) :
    Clean n ↔ n.type ∈ ALLOWED_AST_TYPES ∧ ∀ child ∈ n.iter_child_nodes, Clean child := by
  rw [clean_iff, forbidden_iff_type hname hattr, not_not]

theorem clean_boolop (op : BoolOp) : Clean (.boolop op) := by
  rw [clean_iff_type (by simp) (by simp)]
  cases op <;> simp [AstNode.type, AstNode.iter_child_nodes, ALLOWED_AST_TYPES]

theorem check_unary_ok_iff (op : UnaryOp) : check_unary op = .ok () ↔ Clean (.unaryop op) := by
  rw [clean_iff_type (by simp) (by simp)]
  cases op <;>
    simp [check_unary, AstNode.type, AstNode.iter_child_nodes, ALLOWED_AST_TYPES]

theorem check_cmp_ok_iff (op : CmpOp) : check_cmp op = .ok () ↔ Clean (.cmpop op) := by
  rw [clean_iff_type (by simp) (by simp)]
  cases op <;>
    simp [check_cmp, AstNode.type, AstNode.iter_child_nodes, ALLOWED_AST_TYPES]

theorem check_ctx_ok_iff (ctx : ExprContext) :
    check_ctx ctx = .ok () ↔ Clean (.expr_context ctx) := by
  rw [clean_iff_type (by simp) (by simp)]
  cases ctx <;>
    simp [check_ctx, AstNode.type, AstNode.iter_child_nodes, ALLOWED_AST_TYPES]

theorem check_name_ok_iff (id : String) (ctx : ExprContext) :
    check_name id = .ok () ↔ ¬ Forbidden (.expr (.name id ctx)) := by
  rw [check_name]
  constructor
  · intro h hforbidden
    split_ifs at h with hid
    cases hforbidden with
    | construct htype => simp [AstNode.type, ALLOWED_AST_TYPES] at htype
    | name hnot => exact hnot hid
  · intro h
    by_cases hid : id ∈ ALLOWED_CONTEXT_VARS
    · rw [if_pos hid]
    · exact absurd (.name hid) h

theorem check_attr_ok_iff (value : Expr) (attr : String) (ctx : ExprContext) :
    check_attr attr = .ok () ↔ ¬ Forbidden (.expr (.attribute value attr ctx)) := by
  rw [check_attr]
  constructor
  · intro h hforbidden
    split_ifs at h with hattr
    cases hforbidden with
    | construct htype => simp [AstNode.type, ALLOWED_AST_TYPES] at htype
    | dunder hprefix => exact hattr (List.isPrefixOf_iff_prefix.mpr hprefix)
  · intro h
    by_cases hattr : "__".toList.isPrefixOf attr.toList = true
    · exact absurd (.dunder (List.isPrefixOf_iff_prefix.mp hattr)) h
    · rw [if_neg hattr]

end Leaves

/-! ## The checker -/

/-- Two checks in sequence pass when both do. -/
theorem check_seq_ok_iff {x y : Except PyError Unit} :
    (x >>= fun _ => y) = .ok () ↔ x = .ok () ∧ y = .ok () := by
  rw [except_bind_eq_ok]
  constructor
  · rintro ⟨_, hx, hy⟩
    exact ⟨hx, hy⟩
  · rintro ⟨hx, hy⟩
    exact ⟨(), hx, hy⟩

mutual

/-- **What the checker accepts**: the trees without a forbidden node. The induction is on the tree;
each constructor is checked by its own rule, and its children as `generic_visit` goes through
them. -/
theorem check_ok_iff : ∀ e : Expr, check e = .ok () ↔ Clean (.expr e)
  | .boolOp op values => by
      rw [check, check_list_ok_iff values,
        clean_iff_type (n := .expr (.boolOp op values)) (by simp) (by simp)]
      simp [AstNode.type, AstNode.iter_child_nodes, ALLOWED_AST_TYPES, clean_boolop]
  | .unaryOp op operand => by
      rw [check, check_seq_ok_iff, check_unary_ok_iff, check_ok_iff operand,
        clean_iff_type (n := .expr (.unaryOp op operand)) (by simp) (by simp)]
      simp [AstNode.type, AstNode.iter_child_nodes, ALLOWED_AST_TYPES]
  | .compare left ops comparators => by
      rw [check, check_seq_ok_iff, check_seq_ok_iff, check_ok_iff left, except_forM_eq_ok,
        check_list_ok_iff comparators,
        clean_iff_type (n := .expr (.compare left ops comparators)) (by simp) (by simp)]
      simp only [check_cmp_ok_iff, AstNode.iter_child_nodes, List.forall_mem_cons,
        List.forall_mem_append, List.forall_mem_map]
      simp [AstNode.type, ALLOWED_AST_TYPES]
  | .name id ctx => by
      rw [check, check_seq_ok_iff, check_name_ok_iff id ctx, check_ctx_ok_iff,
        clean_iff (.expr (.name id ctx))]
      simp [AstNode.iter_child_nodes]
  | .constant v => by
      rw [check, clean_iff_type (by simp) (by simp)]
      simp [AstNode.type, AstNode.iter_child_nodes, ALLOWED_AST_TYPES]
  | .attribute value attr ctx => by
      rw [check, check_seq_ok_iff, check_seq_ok_iff, check_attr_ok_iff value attr ctx,
        check_ok_iff value, check_ctx_ok_iff, clean_iff (.expr (.attribute value attr ctx))]
      simp [AstNode.iter_child_nodes]
  | .other type_name children => by
      rw [check, clean_iff_type (by simp) (by simp)]
      simp [not_permitted, AstNode.type, ALLOWED_AST_TYPES]

theorem check_list_ok_iff : ∀ es : List Expr, check_list es = .ok () ↔ ∀ e ∈ es, Clean (.expr e)
  | [] => by simp [check_list]
  | e :: es => by
      rw [check_list, check_seq_ok_iff, check_ok_iff e, check_list_ok_iff es,
        List.forall_mem_cons]

end

/-- **The whitelisted language.** The checker raises a `ConditionEvaluationError` for a tree exactly
when some node of the tree is forbidden. -/
theorem check_raises_iff (tree : Expr) :
    (∃ msg, check tree = .error (.conditionEvaluationError msg)) ↔
      ∃ n, (AstNode.expression tree).Within n ∧ Forbidden n := by
  have hroot : Clean (.expression tree) ↔ check tree = .ok () := by
    rw [clean_iff_type (n := .expression tree) (by simp) (by simp), check_ok_iff]
    simp [AstNode.type, AstNode.iter_child_nodes, ALLOWED_AST_TYPES]
  constructor
  · rintro ⟨msg, hmsg⟩
    by_contra hnone
    have hclean : Clean (.expression tree) := fun n hn hforbidden => hnone ⟨n, hn, hforbidden⟩
    cases hmsg.symm.trans (hroot.mp hclean)
  · rintro ⟨n, hn, hforbidden⟩
    rcases hcheck : check tree with e | _
    · -- the checker raises nothing else
      obtain ⟨msg, rfl⟩ := rejects_check tree e hcheck
      exact ⟨msg, rfl⟩
    · exact absurd hforbidden (hroot.mpr hcheck n hn)

end DecisionRuntime.ConditionEvaluator
