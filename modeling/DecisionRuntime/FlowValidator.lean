/-
`backend/app/registry/flow_validator.py` and the inline check of
`contract_registry.py`: the rules a flow has to satisfy before it is loaded.

The checks run in order and the first that fails raises. `validate_with` takes the
reading of a condition as an argument, whatever it raises; `validate` reads with the
`ConditionEvaluator` of this development. Two checks of the source are missing here
because the types already exclude what they look for: that a node type is one of
`NodeType`, and that the priority of an edge is an integer.

The two graph searches are loops over sets that only grow. They are given fuel,
and `none` is running out of it.
-/
import DecisionRuntime.ConditionEvaluator

set_option autoImplicit false

namespace DecisionRuntime

/-! ## Inline contracts -/

namespace ContractRegistry

/-- `\d+\.\d+\.\d+`. -/
def semver_text (P : Platform) (cs : List Char) : Bool :=
  let parts := split '.' cs
  parts.length = 3
    && parts.all (fun part => !part.isEmpty && part.all (fun c => (P.digit c).isSome))

/-- `_SEMVER_RE.match`: the `$` of the pattern also matches before a newline at the end. -/
def semver (P : Platform) (text : String) : Bool :=
  let cs := text.toList
  semver_text P cs || (cs.getLast? = some '\n' && semver_text P cs.dropLast)

/-- The name of the type of a value in the text of an `AttributeError` or a `TypeError`. It has the
module of the type for `datetime`. -/
def type_name : Value → String
  | .none => "NoneType"
  | .bool _ => "bool"
  | .int _ => "int"
  | .float _ => "float"
  | .complex _ => "complex"
  | .str _ => "str"
  | .bytes _ => "bytes"
  | .ellipsis => "ellipsis"
  | .datetime _ => "datetime.datetime"
  | .list _ => "list"
  | .dict _ => "dict"

/-- The bytes `bytes.strip()` removes. -/
def isSpaceByte (b : ℕ) : Bool := (9 ≤ b && b ≤ 13) || b = 32

/-- `bool(contract_type.strip())`, of a value that is true. -/
def strip_nonempty : Value → Except PyError Bool
  | .str s => .ok (!(strip s.toList).isEmpty)
  | .bytes b => .ok (b.any (fun c => !isSpaceByte c))
  | v => .error (.attributeError ("'" ++ type_name v ++ "' object has no attribute 'strip'"))

/-- `not contract_type or not contract_type.strip()`. -/
def missing_type (contract_type : Value) : Except PyError Bool :=
  if contract_type.truthy then (!·) <$> strip_nonempty contract_type else .ok true

/-- `_SEMVER_RE.match(contract_version)`, of any value. -/
def match_version (P : Platform) : Value → Except PyError Bool
  | .str s => .ok (semver P s)
  | .bytes _ => .error (.typeError "cannot use a string pattern on a bytes-like object")
  | v => .error (.typeError ("expected string or bytes-like object, got '" ++ type_name v ++ "'"))

/-- `validate_inline`. A version that is matched at all is a string. -/
def validate_inline (P : Platform) (contract_type contract_version : Value) :
    Except PyError Unit := do
  if ← missing_type contract_type then
    .error (.contractValidationError
      "Inline contract config is missing a non-empty 'contract_type'")
  else if ← match_version P contract_version then .ok ()
  else
    let text := match contract_version with
      | .str s => s
      | _ => ""
    .error (.contractValidationError ("Inline contract 'contract_version' value '" ++ text
      ++ "' is not valid semver; expected MAJOR.MINOR.PATCH (e.g. 1.0.0)"))

end ContractRegistry

namespace FlowValidator

open ConditionEvaluator

/-! ## The graph of a flow -/

/-- `adj.get(node_id, [])`: the targets of the edges of a node, in order. -/
def adj (flow : DecisionFlow) (node_id : String) : List String :=
  if node_id ∈ flow.nodes.map (·.id) then
    (flow.edges.filter (fun e => e.source_node_id = node_id)).map (·.target_node_id)
  else []

/-- The loop of `_find_reachable`, over the queue and the set of reached ids. -/
def bfs (adj : String → List String) : ℕ → List String → List String → Option (List String)
  | _, [], reachable => some reachable
  | 0, _ :: _, _ => none
  | fuel + 1, node_id :: queue, reachable =>
    if node_id ∈ reachable then bfs adj fuel queue reachable
    else bfs adj fuel (queue ++ (adj node_id).filter (· ∉ node_id :: reachable))
      (node_id :: reachable)

/-- `_find_reachable`. Every edge is put into the queue at most once. -/
def find_reachable (flow : DecisionFlow) : Option (List String) :=
  bfs (adj flow) (flow.edges.length + 1) [flow.entry_node_id] []

/-- The two sets of `_has_cycle`. -/
structure Search where
  visited : List String := []
  in_stack : List String := []

/-- The loop of `dfs` over the neighbours. -/
def visit (dfs : String → Search → Option (Bool × Search)) :
    List String → Search → Option (Bool × Search)
  | [], s => some (false, s)
  | neighbor :: neighbors, s =>
    if neighbor ∉ s.visited then
      match dfs neighbor s with
      | none => none
      | some (true, s) => some (true, s)
      | some (false, s) => visit dfs neighbors s
    else if neighbor ∈ s.in_stack then some (true, s)
    else visit dfs neighbors s

/-- `dfs`. -/
def dfs (adj : String → List String) : ℕ → String → Search → Option (Bool × Search)
  | 0, _, _ => none
  | fuel + 1, node_id, s =>
    let entered : Search :=
      { visited := node_id :: s.visited, in_stack := node_id :: s.in_stack }
    match visit (dfs adj fuel) (adj node_id) entered with
    | none => none
    | some (true, s) => some (true, s)
    | some (false, s) => some (false, { s with in_stack := s.in_stack.filter (· ≠ node_id) })

/-- The loop of `_has_cycle` over the nodes: as that over the neighbours, without a stack to
look at. -/
def visit_roots (dfs : String → Search → Option (Bool × Search)) :
    List String → Search → Option Bool
  | [], _ => some false
  | node_id :: node_ids, s =>
    if node_id ∉ s.visited then
      match dfs node_id s with
      | none => none
      | some (true, _) => some true
      | some (false, s) => visit_roots dfs node_ids s
    else visit_roots dfs node_ids s

/-- `_has_cycle`. A call of `dfs` enters an id that was not visited, and edges lead to known
ids. -/
def has_cycle (flow : DecisionFlow) : Option Bool :=
  visit_roots (dfs (adj flow) (flow.nodes.length + flow.edges.length + 1))
    (flow.nodes.map (·.id)) {}

/-! ## The checks -/

variable (P : Platform) (flow : DecisionFlow)

/-- A `FlowValidationError` about the flow. -/
def invalid (text : String) : PyError :=
  .flowValidationError ("Flow '" ++ flow.flow_id ++ "' " ++ text)

/-- What a search that ran out of fuel raises. -/
def out_of_fuel : PyError := .runtimeError "out of fuel"

/-- `_check_has_nodes`. -/
def check_has_nodes : Except PyError Unit :=
  if flow.nodes.isEmpty then
    .error (invalid flow "has no nodes; at least one node is required")
  else .ok ()

/-- The loop of `_check_unique_node_ids`. -/
def check_unique (seen : List String) : List DecisionNode → Except PyError Unit
  | [] => .ok ()
  | node :: nodes =>
    if node.id ∈ seen then
      .error (invalid flow ("contains duplicate node ID '" ++ node.id ++ "'"))
    else check_unique (node.id :: seen) nodes

/-- `_check_unique_node_ids`. -/
def check_unique_node_ids : Except PyError Unit := check_unique flow [] flow.nodes

/-- `_check_entry_node_exists`. -/
def check_entry_node_exists : Except PyError Unit :=
  if flow.entry_node_id ∉ flow.nodes.map (·.id) then
    .error (invalid flow ("entry_node_id '" ++ flow.entry_node_id
      ++ "' does not reference a known node"))
  else .ok ()

/-- `_check_edge_references`. -/
def check_edge_references : Except PyError Unit :=
  flow.edges.forM (fun edge =>
    if edge.source_node_id ∉ flow.nodes.map (·.id) then
      .error (invalid flow ("edge '" ++ edge.id ++ "' references unknown source node '"
        ++ edge.source_node_id ++ "'"))
    else if edge.target_node_id ∉ flow.nodes.map (·.id) then
      .error (invalid flow ("edge '" ++ edge.id ++ "' references unknown target node '"
        ++ edge.target_node_id ++ "'"))
    else .ok ())

/-- `_check_exactly_one_fallback`. -/
def check_exactly_one_fallback : Except PyError Unit :=
  let fallbacks := flow.nodes.filter (fun n => n.node_type = .fallback)
  if fallbacks.length ≠ 1 then
    .error (invalid flow ("must have exactly one fallback node, found "
      ++ String.ofList (Nat.toDigits 10 fallbacks.length)))
  else .ok ()

/-- `_check_no_orphan_nodes`. -/
def check_no_orphan_nodes : Except PyError Unit :=
  match find_reachable flow with
  | none => .error out_of_fuel
  | some reachable =>
    let fallback_ids := (flow.nodes.filter (fun n => n.node_type = .fallback)).map (·.id)
    flow.nodes.forM (fun node =>
      if node.id ∉ reachable ∧ node.id ∉ fallback_ids then
        .error (invalid flow ("node '" ++ node.id ++ "' (" ++ node.node_type.value
          ++ ") is unreachable from entry node '" ++ flow.entry_node_id
          ++ "'; remove it or add a connecting edge"))
      else .ok ())

/-- `metadata.get("allow_cycles") is True`. -/
def allow_cycles : Bool :=
  match PyDict.get flow.metadata "allow_cycles" with
  | some (.bool true) => true
  | _ => false

/-- `_check_cycles`. -/
def check_cycles : Except PyError Unit :=
  if allow_cycles flow then .ok ()
  else
    match has_cycle flow with
    | none => .error out_of_fuel
    | some true => .error (invalid flow
        "contains a directed cycle; set metadata.allow_cycles=true to permit cycles")
    | some false => .ok ()

/-- `_CONTRACT_REQUIRED_NODE_TYPES`. -/
def contract_required (t : NodeType) : Bool := t ∈ [NodeType.decision, .boundary, .fallback]

/-- `_check_contract_nodes`. -/
def check_contract_nodes : Except PyError Unit :=
  flow.nodes.forM (fun node =>
    if contract_required node.node_type then
      match ContractRegistry.validate_inline P
          ((PyDict.get node.config "contract_type").getD (.str ""))
          ((PyDict.get node.config "contract_version").getD (.str "")) with
      | .error (.contractValidationError exc) =>
        .error (invalid flow ("node '" ++ node.id ++ "' (" ++ node.node_type.value
          ++ ") has invalid inline contract: " ++ exc))
      | res => res
    else .ok ())

section Conditions

variable (syntax_check : String → Except PyError Unit)

/-- `validate_syntax`, reported as an error of the flow. Only a `ConditionEvaluationError` is
caught. -/
def check_condition (condition : Option String) (what : String) : Except PyError Unit :=
  if nonempty condition then
    match syntax_check (condition.getD "") with
    | .error (.conditionEvaluationError exc) => .error (invalid flow (what ++ ": " ++ exc))
    | res => res
  else .ok ()

/-- `_check_edge_conditions`. -/
def check_edge_conditions : Except PyError Unit :=
  flow.edges.forM (fun edge => check_condition flow syntax_check edge.condition_expression
    ("edge '" ++ edge.id ++ "' has an invalid condition_expression"))

/-- `_check_node_conditions`. -/
def check_node_conditions : Except PyError Unit :=
  flow.nodes.forM (fun node =>
    if node.node_type = .decision then
      check_condition flow syntax_check node.condition
        ("node '" ++ node.id ++ "' has an invalid condition")
    else .ok ())

/-- `validate`, with an evaluator whose `validate_syntax` is this. -/
def validate_with (validate_conditions : Bool) : Except PyError Unit := do
  check_has_nodes flow
  check_unique_node_ids flow
  check_entry_node_exists flow
  check_edge_references flow
  check_exactly_one_fallback flow
  check_no_orphan_nodes flow
  check_cycles flow
  check_contract_nodes P flow
  if validate_conditions then do
    check_edge_conditions flow syntax_check
    check_node_conditions flow syntax_check

end Conditions

/-- `validate`. -/
def validate (validate_conditions : Bool) : Except PyError Unit :=
  validate_with P flow (fun text => validate_syntax P text) validate_conditions

end FlowValidator

end DecisionRuntime
