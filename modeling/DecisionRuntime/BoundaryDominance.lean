/-
Which boundary has its effect applied.

The boundary engine records every active boundary, sorts the triggered ones by
severity and applies the head. Stated without the sort: the boundary that counts is
the first of the most severe ones that fire, and what it changes are the status, the
action and the selected node (`boundary_dominance`).

Among boundaries of one severity the declaration order decides and the effect has no
say. So an `allow` in front of a `block` of the same severity masks it
(`allow_never_masks_iff`).
-/
import DecisionRuntime.FirstGreatest
import DecisionRuntime.ValidatedFlows

set_option autoImplicit false

namespace DecisionRuntime.BoundaryEngine

open ConditionEvaluator

/-! ## Boundaries that fire -/

/-- The condition of the node holds of the signal. -/
def Fires (P : Platform) (signal : Signal) (n : DecisionNode) : Prop :=
  evaluate P n.condition (build_context signal) = .ok true

instance (P : Platform) (signal : Signal) (n : DecisionNode) : Decidable (Fires P signal n) :=
  inferInstanceAs (Decidable (_ = _))

/-- The severity of a boundary node, a missing one being low. -/
def node_severity (n : DecisionNode) : ℕ := severity_order (or_default n.severity "low")

/-- The effect of a boundary node, a missing one being `allow`. -/
def node_effect (n : DecisionNode) : String := or_default n.effect "allow"

/-- The active boundary nodes that fire, in declaration order. -/
def firing (P : Platform) (signal : Signal) (flow : DecisionFlow) : List DecisionNode :=
  (boundary_nodes flow).filter (fun n => Fires P signal n)

/-- One record for each active boundary node, in declaration order. -/
def boundary_records (P : Platform) (signal : Signal) (flow : DecisionFlow) :
    List BoundaryResult :=
  (boundary_nodes flow).map (fun n => boundary_result n (Fires P signal n))

/-- The conditions of all active boundary nodes evaluate. -/
def BoundariesEvaluate (P : Platform) (signal : Signal) (flow : DecisionFlow) : Prop :=
  ∀ n ∈ boundary_nodes flow, ∃ b, evaluate P n.condition (build_context signal) = .ok b

section Records

variable {P : Platform} {signal : Signal} {flow : DecisionFlow} {result final : DecisionResult}
  {records : List BoundaryResult}

/-- A condition that evaluates says whether the node fires. -/
theorem fires_of_evaluates {n : DecisionNode} {b : Bool}
    (h : evaluate P n.condition (build_context signal) = .ok b) :
    decide (Fires P signal n) = b := by
  cases b with
  | true => exact decide_eq_true h
  | false =>
      apply decide_eq_false
      intro hfires
      cases hfires.symm.trans h

theorem evaluate_boundaries_eq (h : BoundariesEvaluate P signal flow) :
    evaluate_boundaries P (build_context signal) (boundary_nodes flow)
      = .ok (boundary_records P signal flow) := by
  rw [evaluate_boundaries_eq_mapM, boundary_records]
  apply except_mapM_eq_map
  intro n hn
  obtain ⟨b, hb⟩ := h n hn
  rw [evaluate_node, hb, fires_of_evaluates hb]
  rfl

/-- **The boundary engine returns** when the conditions evaluate, and only then. -/
theorem apply_eq_ok : apply P signal flow result = .ok (final, records) ↔
    BoundariesEvaluate P signal flow ∧ records = boundary_records P signal flow
      ∧ final = apply_dominant result (boundary_records P signal flow) := by
  rw [apply, except_bind_eq_ok]
  constructor
  · rintro ⟨all_results, hloop, hreturn⟩
    have heval : BoundariesEvaluate P signal flow :=
      evaluate_boundaries_returns_iff.mp ⟨all_results, hloop⟩
    rw [evaluate_boundaries_eq heval] at hloop
    rw [← Except.ok.inj hloop] at hreturn
    obtain ⟨rfl, rfl⟩ := Prod.mk.inj (Except.ok.inj hreturn)
    exact ⟨heval, rfl, rfl⟩
  · rintro ⟨heval, rfl, rfl⟩
    exact ⟨_, evaluate_boundaries_eq heval, rfl⟩

@[simp] theorem boundary_result_triggered (n : DecisionNode) (b : Bool) :
    (boundary_result n b).triggered = b := rfl

/-- The triggered records are those of the nodes that fire. -/
theorem triggered_records : (boundary_records P signal flow).filter (·.triggered)
    = (firing P signal flow).map (fun n => boundary_result n true) := by
  rw [boundary_records, firing]
  induction boundary_nodes flow with
  | nil => rfl
  | cons n nodes ih =>
      by_cases hfires : Fires P signal n
      · simp [List.filter_cons, hfires, ih]
      · simp [hfires, ih]

/-- **The dominant boundary** is the record of the first of the most severe nodes that fire. -/
theorem dominant_eq_some {n : DecisionNode}
    (h : FirstGreatest node_severity (firing P signal flow) n) :
    dominant (boundary_records P signal flow) = some (boundary_result n true) := by
  rw [dominant, triggered_records, head_insertionSort_iff]
  exact h.map (fun _ => rfl)

/-- There is none when no node fires. -/
theorem dominant_eq_none (h : firing P signal flow = []) :
    dominant (boundary_records P signal flow) = none := by
  rw [dominant, triggered_records, h]
  rfl

/-- What the boundary engine returns, by which node dominates. -/
theorem apply_dominant_eq_apply_effect {n : DecisionNode}
    (h : FirstGreatest node_severity (firing P signal flow) n) :
    apply_dominant result (boundary_records P signal flow)
      = { apply_effect result (boundary_result n true) with
          boundary_results := boundary_records P signal flow } :=
  apply_dominant_some result (dominant_eq_some h)

end Records

/-! ## Dominance -/

/-- `final` is `result` with the effect of the first of the most severe boundaries that fire, and
with the records; nothing but three fields depends on that boundary. -/
structure EffectOfFirst (P : Platform) (signal : Signal) (flow : DecisionFlow)
    (result final : DecisionResult) : Prop where
  calm : firing P signal flow = [] →
    final = { result with boundary_results := boundary_records P signal flow }
  some_first : firing P signal flow ≠ [] →
    ∃ n, FirstGreatest node_severity (firing P signal flow) n
  effect : ∀ n, FirstGreatest node_severity (firing P signal flow) n →
    final = { apply_effect result (boundary_result n true) with
      boundary_results := boundary_records P signal flow }
  frame : final = { result with
    status := final.status
    action := final.action
    selected_node_id := final.selected_node_id
    boundary_results := boundary_records P signal flow }

/-- The nodes of one flow are those of the other in another order, which is the same for active
boundary nodes of one severity. -/
structure Reordered (flow flow' : DecisionFlow) : Prop where
  perm : flow'.nodes.Perm flow.nodes
  keeps : ∀ severity, (boundary_nodes flow').filter (fun n => node_severity n = severity)
    = (boundary_nodes flow).filter (fun n => node_severity n = severity)

section Dominance

variable {P : Platform} {signal : Signal} {flow flow' : DecisionFlow}
  {result : DecisionResult}

theorem effectOfFirst_apply_dominant :
    EffectOfFirst P signal flow result
      (apply_dominant result (boundary_records P signal flow)) where
  calm h := apply_dominant_none result (dominant_eq_none h)
  some_first h := exists_firstGreatest node_severity h
  effect _ h := apply_dominant_eq_apply_effect h
  frame := by
    obtain ⟨status, action, selected, heq⟩ :=
      apply_dominant_eq result (boundary_records P signal flow)
    rw [heq]

theorem mem_boundary_nodes_reordered (h : Reordered flow flow') {n : DecisionNode} :
    n ∈ boundary_nodes flow' ↔ n ∈ boundary_nodes flow := by
  simp only [boundary_nodes, List.mem_filter, h.perm.mem_iff]

/-- A reordering has the same first of the most severe nodes that fire. -/
theorem firstGreatest_reordered (h : Reordered flow flow') (n : DecisionNode) :
    FirstGreatest node_severity (firing P signal flow') n
      ↔ FirstGreatest node_severity (firing P signal flow) n := by
  apply firstGreatest_congr
  intro severity
  simp only [firing]
  rw [List.filter_comm, h.keeps severity, List.filter_comm]

theorem firing_eq_nil_reordered (h : Reordered flow flow') :
    firing P signal flow' = [] ↔ firing P signal flow = [] := by
  simp only [firing, List.filter_eq_nil_iff, mem_boundary_nodes_reordered h]

/-- The decision depends on the first of the most severe boundaries only. -/
theorem apply_dominant_reordered (h : Reordered flow flow') :
    apply_dominant result (boundary_records P signal flow')
      = { apply_dominant result (boundary_records P signal flow) with
          boundary_results := boundary_records P signal flow' } := by
  by_cases hnil : firing P signal flow = []
  · have hnil' : firing P signal flow' = [] := (firing_eq_nil_reordered h).mpr hnil
    rw [apply_dominant_none result (dominant_eq_none hnil),
      apply_dominant_none result (dominant_eq_none hnil')]
  · obtain ⟨n, hn⟩ := exists_firstGreatest node_severity hnil
    rw [apply_dominant_eq_apply_effect hn,
      apply_dominant_eq_apply_effect ((firstGreatest_reordered h n).mpr hn)]

end Dominance

/-- **Boundary dominance.** Every active boundary is recorded, the first of the most severe ones
that fire has its effect applied, and a reordering that keeps the order of equally severe
boundaries changes the order of the records only. -/
theorem boundary_dominance (P : Platform) (signal : Signal) (flow : DecisionFlow)
    (result : DecisionResult) (heval : BoundariesEvaluate P signal flow) :
    ∃ final, apply P signal flow result = .ok (final, boundary_records P signal flow)
      ∧ EffectOfFirst P signal flow result final
      ∧ ∀ flow', Reordered flow flow' →
        (boundary_records P signal flow').Perm (boundary_records P signal flow)
        ∧ apply P signal flow' result
          = .ok ({ final with boundary_results := boundary_records P signal flow' },
            boundary_records P signal flow') := by
  refine ⟨_, apply_eq_ok.mpr ⟨heval, rfl, rfl⟩, effectOfFirst_apply_dominant, ?_⟩
  intro flow' hreordered
  have hnodes : (boundary_nodes flow').Perm (boundary_nodes flow) := hreordered.perm.filter _
  refine ⟨hnodes.map _, apply_eq_ok.mpr ⟨?_, rfl, ?_⟩⟩
  · intro n hn
    exact heval n ((mem_boundary_nodes_reordered hreordered).mp hn)
  · rw [apply_dominant_reordered hreordered]

end DecisionRuntime.BoundaryEngine

namespace DecisionRuntime.Recorded

open BoundaryEngine

/-- A signal on which every boundary below fires, having no condition. -/
def incident : Signal where
  id := UUID.repeated 1
  name := "incident"
  type := "incident"
  confidence := Confidence.certain
  payload := []
  source := "monitor"
  timestamp := ⟨0, some 0⟩
  idempotency_key := none

/-- Boundary nodes that allow and block, of the given severities and in this order. -/
def contested (allow_severity block_severity : String) : DecisionFlow where
  id := UUID.repeated 2
  flow_id := "incident"
  version := "1.0.0"
  entry_node_id := "trusted"
  nodes :=
    [{ id := "trusted", node_type := .boundary, severity := some allow_severity,
       effect := some "allow" },
      { id := "frozen", node_type := .boundary, severity := some block_severity,
        effect := some "block" }]

/-- A decision that is made before the boundaries are looked at. -/
def decided : DecisionResult where
  id := UUID.repeated 3
  trace_id := UUID.repeated 4
  flow_id := UUID.repeated 2
  flow_version := "1.0.0"
  selected_node_id := "refund"
  source_signal_id := UUID.repeated 1
  state := .confirmed
  status := .confirmed
  outcome := .pass
  confidence := Confidence.certain
  evaluated_at := ⟨10, some 0⟩
  created_at := ⟨10, some 0⟩
  updated_at := ⟨10, some 0⟩

theorem contested_evaluates (P : Platform) (allow_severity block_severity : String) :
    BoundariesEvaluate P incident (contested allow_severity block_severity) := by
  intro n hn
  have hnone : ∀ n ∈ boundary_nodes (contested allow_severity block_severity),
      n.condition = none := by
    simp [boundary_nodes, contested]
  rw [hnone n hn]
  exact ⟨true, rfl⟩

theorem contested_firing (P : Platform) (allow_severity block_severity : String) :
    firing P incident (contested allow_severity block_severity)
      = (contested allow_severity block_severity).nodes := rfl

end DecisionRuntime.Recorded

namespace DecisionRuntime.BoundaryEngine

open ConditionEvaluator

/-- A critical `block` wins against a high `allow` in front of it. -/
theorem boundary_dominance_critical :
    ∃ final, apply (Recorded.parser (.constant (.bool true))) Recorded.incident
        (Recorded.contested "high" "critical") Recorded.decided
        = .ok (final, boundary_records (Recorded.parser (.constant (.bool true)))
            Recorded.incident (Recorded.contested "high" "critical"))
      ∧ final.status = .blocked := by
  obtain ⟨final, happly, heffect, -⟩ := boundary_dominance
    (Recorded.parser (.constant (.bool true))) Recorded.incident
    (Recorded.contested "high" "critical") Recorded.decided
    (Recorded.contested_evaluates _ "high" "critical")
  refine ⟨final, happly, ?_⟩
  have hfirst : FirstGreatest node_severity
      (firing (Recorded.parser (.constant (.bool true))) Recorded.incident
        (Recorded.contested "high" "critical"))
      { id := "frozen", node_type := .boundary, severity := some "critical",
        effect := some "block" } :=
    ⟨[_], [], Recorded.contested_firing _ "high" "critical", by decide, by simp⟩
  rw [heffect.effect _ hfirst]
  rfl

/-! ## An `allow` in front of a `block` -/

/-- The node fires, and no node that fires is more severe. -/
def Topmost (P : Platform) (signal : Signal) (flow : DecisionFlow) (n : DecisionNode) : Prop :=
  n ∈ firing P signal flow ∧ ∀ m ∈ firing P signal flow, node_severity m ≤ node_severity n

/-- When a `block` is among the most severe boundaries that fire, the boundary whose effect is
applied is not an `allow`. -/
def AllowNeverMasks (P : Platform) (signal : Signal) (flow : DecisionFlow)
    (result : DecisionResult) : Prop :=
  ∀ final records, apply P signal flow result = .ok (final, records) →
    ∀ n, Topmost P signal flow n → node_effect n = "block" →
    ∀ boundary, dominant records = some boundary → boundary.effect ≠ "allow"

/-- Among the most severe boundaries that fire, there is an `allow` in front of a `block`, with
nothing but `allow` before it. -/
def AllowInFront (P : Platform) (signal : Signal) (flow : DecisionFlow) : Prop :=
  ∃ pre n post, firing P signal flow = pre ++ n :: post
    ∧ Topmost P signal flow n ∧ node_effect n = "allow"
    ∧ (∀ m ∈ pre, Topmost P signal flow m → node_effect m = "allow")
    ∧ ∃ m ∈ post, Topmost P signal flow m ∧ node_effect m = "block"

section Masks

variable {P : Platform} {signal : Signal} {flow : DecisionFlow}

/-- The node whose effect is applied is one of the most severe. -/
theorem FirstGreatest.topmost {n : DecisionNode}
    (h : FirstGreatest node_severity (firing P signal flow) n) : Topmost P signal flow n :=
  ⟨h.mem, fun _ hm => h.le hm⟩

/-- With an `allow` in front, an `allow` is applied. -/
theorem first_allows (h : AllowInFront P signal flow) {w : DecisionNode}
    (hw : FirstGreatest node_severity (firing P signal flow) w) : node_effect w = "allow" := by
  obtain ⟨pre, n, post, hsplit, hn, hallow, hpre, -⟩ := h
  by_cases hearlier : ∃ x ∈ pre, Topmost P signal flow x
  · -- the first of the most severe nodes is among those before `n`
    obtain ⟨x, hx, htop⟩ := hearlier
    obtain ⟨first, hfirst⟩ := exists_firstGreatest node_severity (List.ne_nil_of_mem hx)
    have hle : ∀ m ∈ firing P signal flow, node_severity m ≤ node_severity first :=
      fun m hm => (htop.2 m hm).trans (hfirst.le hx)
    have hmem : first ∈ firing P signal flow := by
      rw [hsplit]
      exact List.mem_append_left _ hfirst.mem
    have hwhole : FirstGreatest node_severity (firing P signal flow) first := by
      rw [hsplit]
      apply hfirst.append
      intro m hm
      apply hle
      rw [hsplit]
      exact List.mem_append_right pre hm
    rw [hw.unique hwhole]
    exact hpre first hfirst.mem ⟨hmem, hle⟩
  · -- or it is `n` itself
    have hwhole : FirstGreatest node_severity (firing P signal flow) n := by
      refine ⟨pre, post, hsplit, ?_, ?_⟩
      · intro x hx
        by_contra hnot
        have hmem : x ∈ firing P signal flow := by
          rw [hsplit]
          exact List.mem_append_left _ hx
        exact hearlier ⟨x, hx, hmem, fun m hm => (hn.2 m hm).trans (not_lt.mp hnot)⟩
      · intro x hx
        apply hn.2
        rw [hsplit]
        exact List.mem_append_right pre (List.mem_cons_of_mem n hx)
    rw [hw.unique hwhole]
    exact hallow

/-- If an `allow` is applied and a `block` is as severe, the `allow` is in front. -/
theorem allowInFront_of_first {w n : DecisionNode}
    (hw : FirstGreatest node_severity (firing P signal flow) w) (hallow : node_effect w = "allow")
    (hn : Topmost P signal flow n) (hblock : node_effect n = "block") :
    AllowInFront P signal flow := by
  have htop : Topmost P signal flow w := FirstGreatest.topmost hw
  obtain ⟨pre, post, hsplit, hpre, -⟩ := hw
  have hnone : ∀ m ∈ pre, ¬ Topmost P signal flow m := by
    intro m hm hmtop
    exact absurd (hmtop.2 w htop.1) (not_le.mpr (hpre m hm))
  refine ⟨pre, w, post, hsplit, htop, hallow, fun m hm hmtop => absurd hmtop (hnone m hm), n, ?_,
    hn, hblock⟩
  have hmem := hn.1
  rw [hsplit] at hmem
  rcases List.mem_append.mp hmem with hmem | hmem
  · exact absurd hn (hnone n hmem)
  · rcases List.mem_cons.mp hmem with rfl | hmem
    · rw [hallow] at hblock
      exact absurd hblock (by decide)
    · exact hmem

end Masks

/-- **An `allow` masks a `block`** of the same severity exactly when it is declared in front. -/
theorem allow_never_masks_iff (P : Platform) (signal : Signal) (flow : DecisionFlow)
    (result : DecisionResult) :
    AllowNeverMasks P signal flow result ↔
      ¬ (BoundariesEvaluate P signal flow ∧ AllowInFront P signal flow) := by
  constructor
  · rintro hnever ⟨heval, hfront⟩
    obtain ⟨pre, n, post, hsplit, hn, -, -, m, -, hm, hblock⟩ := id hfront
    obtain ⟨w, hw⟩ := exists_firstGreatest node_severity (List.ne_nil_of_mem hn.1)
    have happly : apply P signal flow result = .ok (_, _) :=
      apply_eq_ok.mpr ⟨heval, rfl, rfl⟩
    exact hnever _ _ happly m hm hblock _ (dominant_eq_some hw) (first_allows hfront hw)
  · intro hnot final records happly n hn hblock boundary hboundary hallow
    obtain ⟨heval, rfl, -⟩ := apply_eq_ok.mp happly
    obtain ⟨w, hw⟩ := exists_firstGreatest node_severity (List.ne_nil_of_mem hn.1)
    rw [dominant_eq_some hw] at hboundary
    obtain rfl := Option.some.inj hboundary
    exact hnot ⟨heval, allowInFront_of_first hw hallow hn hblock⟩

/-- A high `allow` in front of a high `block`: the signal is let through. -/
theorem allow_never_masks_contested :
    ¬ ∀ (P : Platform) (signal : Signal) (flow : DecisionFlow) (result : DecisionResult),
      AllowNeverMasks P signal flow result := by
  intro h
  have hnever := h (Recorded.parser (.constant (.bool true))) Recorded.incident
    (Recorded.contested "high" "high") Recorded.decided
  have hfirst : FirstGreatest node_severity
      (firing (Recorded.parser (.constant (.bool true))) Recorded.incident
        (Recorded.contested "high" "high"))
      { id := "trusted", node_type := .boundary, severity := some "high",
        effect := some "allow" } :=
    ⟨[], [_], Recorded.contested_firing _ "high" "high", by simp, by decide⟩
  have hblock : Topmost (Recorded.parser (.constant (.bool true))) Recorded.incident
      (Recorded.contested "high" "high")
      { id := "frozen", node_type := .boundary, severity := some "high",
        effect := some "block" } := by
    refine ⟨?_, ?_⟩
    · rw [Recorded.contested_firing]
      simp [Recorded.contested]
    · rw [Recorded.contested_firing]
      decide
  refine hnever _ _
    (apply_eq_ok.mpr ⟨Recorded.contested_evaluates _ "high" "high", rfl, rfl⟩) _ hblock rfl _
    (dominant_eq_some hfirst) rfl

end DecisionRuntime.BoundaryEngine
