/-
The two graph searches of the flow validator, `_has_cycle` and `_find_reachable`.

Both are exact on flows whose edges lead from node to node. A depth-first search
that finds no cycle has built a finishing order of all nodes (`visit_false`,
`dfs_false`); when it says there is one, the edge that made it say so closes a
path on the stack (`dfs_true`). The breadth-first search keeps the invariant that
an edge of a reached node leads to a reached node or into the queue
(`bfs_complete`).

Neither runs out of fuel. A call of `dfs` visits a node that was not visited, and
`bfs` puts each edge into the queue at most once.

A search that has finished some nodes knows two things about them, whatever the
graph: no edge leads out of them, and they can be listed so that every edge leads
further down the list. The second is what a depth-first search builds, node by node,
and it rules out cycles (`Finished.acyclic`).
-/
import DecisionRuntime.Exec
import DecisionRuntime.FlowValidator
import Mathlib.Data.List.Nodup
import Mathlib.Logic.Relation

set_option autoImplicit false

namespace DecisionRuntime

open Relation

/-! ## Closed lists and finishing orders -/

section Digraph

variable {α : Type} {r : α → α → Prop} {l : List α} {x y : α}

/-- No edge leads out of the list. -/
def Closed (r : α → α → Prop) (l : List α) : Prop := ∀ x ∈ l, ∀ y, r x y → y ∈ l

/-- No path leads out of a closed list. -/
theorem Closed.path (h : Closed r l) (hx : x ∈ l) (hpath : ReflTransGen r x y) : y ∈ l := by
  induction hpath with
  | refl => exact hx
  | tail _ hedge ih => exact h _ ih _ hedge

/-- The last node to be finished comes first, and its edges lead to nodes finished before. -/
inductive Finished (r : α → α → Prop) : List α → Prop
  | nil : Finished r []
  | cons {x : α} {l : List α} (edges : ∀ y, r x y → y ∈ l) (rest : Finished r l) :
      Finished r (x :: l)

theorem Finished.closed (h : Finished r l) : Closed r l := by
  induction h with
  | nil =>
      intro x hx
      exact absurd hx List.not_mem_nil
  | @cons first l edges _ ih =>
      intro x hx y hedge
      apply List.mem_cons_of_mem
      by_cases hfirst : x = first
      · rw [hfirst] at hedge
        exact edges y hedge
      · exact ih x (List.mem_of_ne_of_mem hfirst hx) y hedge

/-- No finished node is on a cycle. -/
theorem Finished.acyclic (h : Finished r l) (hx : x ∈ l) : ¬TransGen r x x := by
  induction h with
  | nil => exact absurd hx List.not_mem_nil
  | @cons first l edges rest ih =>
      by_cases hrest : x ∈ l
      · exact ih hrest
      · -- the cycle leaves the node for nodes finished before, and those do not lead back
        have hfirst : x = first := by simpa [hrest] using hx
        intro hcycle
        obtain ⟨y, hedge, hback⟩ := TransGen.head'_iff.mp hcycle
        rw [hfirst] at hedge
        exact hrest (rest.closed.path (edges y hedge) hback)

end Digraph

namespace FlowValidator

/-! ## The graph of a flow -/

/-- An edge of the flow leads from the one node to the other. -/
def Edge (flow : DecisionFlow) (x y : String) : Prop :=
  ∃ e ∈ flow.edges, e.source_node_id = x ∧ e.target_node_id = y

/-- The edges of the flow lead from node to node. -/
def EdgesKnown (flow : DecisionFlow) : Prop :=
  ∀ e ∈ flow.edges, e.source_node_id ∈ flow.nodes.map (·.id)
    ∧ e.target_node_id ∈ flow.nodes.map (·.id)

/-- The lists of neighbours that the searches walk over are the edges of the flow. -/
theorem mem_adj_iff {flow : DecisionFlow} (h : EdgesKnown flow) {x y : String} :
    y ∈ adj flow x ↔ Edge flow x y := by
  unfold adj Edge
  by_cases hx : x ∈ flow.nodes.map (·.id)
  · rw [if_pos hx]
    simp [and_assoc]
  · rw [if_neg hx]
    simp only [List.not_mem_nil, false_iff, not_exists, not_and]
    intro e he hsource
    rw [← hsource] at hx
    exact absurd (h e he).1 hx

/-- A neighbour is the target of an edge. -/
theorem target_of_mem_adj {flow : DecisionFlow} {x y : String} (h : y ∈ adj flow x) :
    y ∈ flow.edges.map (·.target_node_id) := by
  unfold adj at h
  by_cases hx : x ∈ flow.nodes.map (·.id)
  · rw [if_pos hx] at h
    obtain ⟨e, he, rfl⟩ := List.mem_map.mp h
    exact List.mem_map_of_mem (List.mem_filter.mp he).1
  · rw [if_neg hx] at h
    exact absurd h List.not_mem_nil

/-! ## Depth-first search: what a step does -/

section Dfs

variable {adj : String → List String}

/-- The four ways that the loop takes a neighbour. -/
theorem visit_cons_cases {dfs : String → Search → Option (Bool × Search)} {neighbor : String}
    {neighbors : List String} {s s' : Search} {found : Bool}
    (h : visit dfs (neighbor :: neighbors) s = some (found, s')) :
    (neighbor ∉ s.visited ∧ dfs neighbor s = some (true, s') ∧ found = true)
      ∨ (∃ s₁, neighbor ∉ s.visited ∧ dfs neighbor s = some (false, s₁)
        ∧ visit dfs neighbors s₁ = some (found, s'))
      ∨ (neighbor ∈ s.in_stack ∧ found = true)
      ∨ (neighbor ∈ s.visited ∧ neighbor ∉ s.in_stack
        ∧ visit dfs neighbors s = some (found, s')) := by
  unfold visit at h
  by_cases hnew : neighbor ∉ s.visited
  · rw [if_pos hnew] at h
    cases hcall : dfs neighbor s with
    | none => simp [hcall] at h
    | some outcome =>
        obtain ⟨stopped, s₁⟩ := outcome
        rw [hcall] at h
        cases stopped with
        | true =>
            obtain ⟨rfl, rfl⟩ := Prod.mk.inj (Option.some.inj h)
            exact Or.inl ⟨hnew, rfl, rfl⟩
        | false => exact Or.inr (Or.inl ⟨s₁, hnew, rfl, h⟩)
  · rw [if_neg hnew] at h
    by_cases hstack : neighbor ∈ s.in_stack
    · rw [if_pos hstack] at h
      exact Or.inr (Or.inr (Or.inl ⟨hstack, (Prod.mk.inj (Option.some.inj h)).1.symm⟩))
    · rw [if_neg hstack] at h
      exact Or.inr (Or.inr (Or.inr ⟨not_not.mp hnew, hstack, h⟩))

/-- The three ways that the loop over the nodes takes one. -/
theorem visit_roots_cons_cases {dfs : String → Search → Option (Bool × Search)} {root : String}
    {roots : List String} {s : Search} {found : Bool}
    (h : visit_roots dfs (root :: roots) s = some found) :
    (∃ s₁, root ∉ s.visited ∧ dfs root s = some (true, s₁) ∧ found = true)
      ∨ (∃ s₁, root ∉ s.visited ∧ dfs root s = some (false, s₁)
        ∧ visit_roots dfs roots s₁ = some found)
      ∨ (root ∈ s.visited ∧ visit_roots dfs roots s = some found) := by
  unfold visit_roots at h
  by_cases hnew : root ∉ s.visited
  · rw [if_pos hnew] at h
    cases hcall : dfs root s with
    | none => simp [hcall] at h
    | some outcome =>
        obtain ⟨stopped, s₁⟩ := outcome
        rw [hcall] at h
        cases stopped with
        | true => exact Or.inl ⟨s₁, hnew, rfl, (Option.some.inj h).symm⟩
        | false => exact Or.inr (Or.inl ⟨s₁, hnew, rfl, h⟩)
  · rw [if_neg hnew] at h
    exact Or.inr (Or.inr ⟨not_not.mp hnew, h⟩)

/-- A call enters its node and loops over the neighbours; without a cycle the node leaves the stack
again. -/
theorem dfs_succ_cases {fuel : ℕ} {node : String} {s s' : Search} {found : Bool}
    (h : dfs adj (fuel + 1) node s = some (found, s')) :
    ∃ s₁, visit (dfs adj fuel) (adj node)
        { visited := node :: s.visited, in_stack := node :: s.in_stack } = some (found, s₁)
      ∧ (found = false → s' = { s₁ with in_stack := s₁.in_stack.filter (· ≠ node) }) := by
  unfold dfs at h
  cases hloop : visit (dfs adj fuel) (adj node)
      { visited := node :: s.visited, in_stack := node :: s.in_stack } with
  | none => simp [hloop] at h
  | some outcome =>
      obtain ⟨stopped, s₁⟩ := outcome
      simp only [hloop] at h
      cases stopped with
      | true =>
          obtain ⟨rfl, rfl⟩ := Prod.mk.inj (Option.some.inj h)
          exact ⟨s₁, rfl, fun hfalse => absurd hfalse (by decide)⟩
      | false =>
          obtain ⟨rfl, rfl⟩ := Prod.mk.inj (Option.some.inj h)
          exact ⟨s₁, rfl, fun _ => rfl⟩

/-! ## Depth-first search: no cycle found -/

/-- A visited node is on the stack or finished. -/
structure Searching (adj : String → List String) (s : Search) (done : List String) : Prop where
  visited : ∀ x, x ∈ s.visited ↔ x ∈ s.in_stack ∨ x ∈ done
  finished : Finished (fun x y => y ∈ adj x) done

/-- The search went on from `s` to `s'` without a cycle: the stack is the same, and more nodes are
finished. -/
structure WentOn (adj : String → List String) (s s' : Search) (done done' : List String) :
    Prop where
  searching : Searching adj s' done'
  stack : s'.in_stack = s.in_stack
  kept : done ⊆ done'

theorem WentOn.refl {s : Search} {done : List String} (h : Searching adj s done) :
    WentOn adj s s done done :=
  ⟨h, rfl, List.Subset.refl done⟩

theorem WentOn.trans {s s' s'' : Search} {done done' done'' : List String}
    (h : WentOn adj s s' done done') (h' : WentOn adj s' s'' done' done'') :
    WentOn adj s s'' done done'' :=
  ⟨h'.searching, h'.stack.trans h.stack, fun _ hx => h'.kept (h.kept hx)⟩

/-- What a call that finds no cycle does: its node is finished. -/
def FinishesNode (adj : String → List String) (dfs : String → Search → Option (Bool × Search)) :
    Prop :=
  ∀ node s s' done, node ∉ s.visited → Searching adj s done → dfs node s = some (false, s') →
    ∃ done', WentOn adj s s' done done' ∧ node ∈ done'

/-- The loop over the neighbours finishes all of them. -/
theorem visit_false {dfs : String → Search → Option (Bool × Search)}
    (hdfs : FinishesNode adj dfs) : ∀ (neighbors : List String) (s s' : Search)
      (done : List String), Searching adj s done → visit dfs neighbors s = some (false, s') →
      ∃ done', WentOn adj s s' done done' ∧ neighbors ⊆ done' := by
  intro neighbors
  induction neighbors with
  | nil =>
      intro s s' done hs h
      obtain rfl : s = s' := (Prod.mk.inj (Option.some.inj h)).2
      exact ⟨done, WentOn.refl hs, List.nil_subset done⟩
  | cons neighbor neighbors ih =>
      intro s s' done hs h
      obtain ⟨-, -, hfound⟩ | ⟨s₁, hnew, hcall, hloop⟩ | ⟨-, hfound⟩ | ⟨hold, hoff, hloop⟩ :=
        visit_cons_cases h
      · exact absurd hfound (by decide)
      · obtain ⟨done₁, hwent, hfinished⟩ := hdfs neighbor s s₁ done hnew hs hcall
        obtain ⟨done₂, hrest, hsub⟩ := ih s₁ s' done₁ hwent.searching hloop
        refine ⟨done₂, hwent.trans hrest, ?_⟩
        exact List.cons_subset.mpr ⟨hrest.kept hfinished, hsub⟩
      · exact absurd hfound (by decide)
      · -- visited and not on the stack: finished before
        obtain ⟨done', hwent, hsub⟩ := ih s s' done hs hloop
        refine ⟨done', hwent, List.cons_subset.mpr ⟨hwent.kept ?_, hsub⟩⟩
        exact ((hs.visited neighbor).mp hold).resolve_left hoff

/-- A node that is entered goes on the stack. -/
theorem Searching.enter {s : Search} {done : List String} (h : Searching adj s done)
    (node : String) :
    Searching adj { visited := node :: s.visited, in_stack := node :: s.in_stack } done := by
  refine ⟨?_, h.finished⟩
  intro x
  rw [List.mem_cons, List.mem_cons, h.visited, or_assoc]

/-- A node whose neighbours are finished leaves the stack and is finished itself. -/
theorem WentOn.leave {node : String} {s s' : Search} {done done' : List String}
    (hs : Searching adj s done) (hnew : node ∉ s.visited)
    (h : WentOn adj { visited := node :: s.visited, in_stack := node :: s.in_stack } s' done done')
    (hedges : adj node ⊆ done') :
    WentOn adj s { s' with in_stack := s'.in_stack.filter (· ≠ node) } done (node :: done') := by
  have hoff : node ∉ s.in_stack := fun hmem => hnew ((hs.visited node).mpr (Or.inl hmem))
  have hstack : s'.in_stack.filter (· ≠ node) = s.in_stack := by
    rw [h.stack, List.filter_cons_of_neg (by simp), List.filter_eq_self]
    intro x hx
    simp only [ne_eq, decide_not, Bool.not_eq_eq_eq_not, Bool.not_true, decide_eq_false_iff_not]
    rintro rfl
    exact hoff hx
  -- the node comes first in the order, and its edges lead to those behind it
  refine ⟨⟨?_, Finished.cons (fun y hy => hedges hy) h.searching.finished⟩, hstack,
    List.subset_cons_of_subset node h.kept⟩
  intro x
  show x ∈ s'.visited ↔ x ∈ s'.in_stack.filter (· ≠ node) ∨ x ∈ node :: done'
  rw [hstack, h.searching.visited, h.stack, List.mem_cons, List.mem_cons]
  tauto

theorem dfs_false : ∀ fuel, FinishesNode adj (dfs adj fuel) := by
  intro fuel
  induction fuel with
  | zero =>
      intro node s s' done _ _ h
      cases h
  | succ fuel ih =>
      intro node s s' done hnew hs h
      obtain ⟨s₁, hloop, hleft⟩ := dfs_succ_cases h
      obtain ⟨done', hwent, hedges⟩ := visit_false ih _ _ _ _ (hs.enter node) hloop
      rw [hleft rfl]
      exact ⟨node :: done', hwent.leave hs hnew hedges, List.mem_cons_self⟩

/-! ## Depth-first search: a cycle found -/

/-- The nodes on the stack lead to the node that is looked at. -/
def StackLeadsTo (adj : String → List String) (s : Search) (node : String) : Prop :=
  ∀ x ∈ s.in_stack, ReflTransGen (fun x y => y ∈ adj x) x node

/-- The graph has a cycle. -/
def Cyclic (adj : String → List String) : Prop := ∃ x, TransGen (fun x y => y ∈ adj x) x x

/-- What a call that finds a cycle shows. -/
def FindsCycle (adj : String → List String) (dfs : String → Search → Option (Bool × Search)) :
    Prop :=
  ∀ node s s' done, node ∉ s.visited → Searching adj s done → StackLeadsTo adj s node →
    dfs node s = some (true, s') → Cyclic adj

theorem visit_true {dfs : String → Search → Option (Bool × Search)}
    (hfinishes : FinishesNode adj dfs) (hfinds : FindsCycle adj dfs) {node : String} :
    ∀ (neighbors : List String) (s s' : Search) (done : List String), Searching adj s done →
      StackLeadsTo adj s node → neighbors ⊆ adj node →
      visit dfs neighbors s = some (true, s') → Cyclic adj := by
  intro neighbors
  induction neighbors with
  | nil =>
      intro s s' done _ _ _ h
      cases h
  | cons neighbor neighbors ih =>
      intro s s' done hs hleads hsub h
      obtain ⟨hedge, hsub⟩ := List.cons_subset.mp hsub
      obtain ⟨hnew, hcall, -⟩ | ⟨s₁, hnew, hcall, hloop⟩ | ⟨hstack, -⟩ | ⟨-, -, hloop⟩ :=
        visit_cons_cases h
      · apply hfinds neighbor s s' done hnew hs _ hcall
        intro x hx
        exact (hleads x hx).tail hedge
      · -- the call leaves the stack as it was
        obtain ⟨done₁, hwent, -⟩ := hfinishes neighbor s s₁ done hnew hs hcall
        have hleads₁ : StackLeadsTo adj s₁ node := by
          unfold StackLeadsTo
          rw [hwent.stack]
          exact hleads
        exact ih s₁ s' done₁ hwent.searching hleads₁ hsub hloop
      · -- the edge closes the path from the neighbour to the node
        exact ⟨neighbor, TransGen.tail' (hleads neighbor hstack) hedge⟩
      · exact ih s s' done hs hleads hsub hloop

theorem dfs_true : ∀ fuel, FindsCycle adj (dfs adj fuel) := by
  intro fuel
  induction fuel with
  | zero =>
      intro node s s' done _ _ _ h
      cases h
  | succ fuel ih =>
      intro node s s' done hnew hs hleads h
      obtain ⟨s₁, hloop, -⟩ := dfs_succ_cases h
      apply visit_true (dfs_false fuel) ih _ _ _ _ (hs.enter node) _
        (List.Subset.refl (adj node)) hloop
      intro x hx
      obtain rfl | hx := List.mem_cons.mp hx
      · exact ReflTransGen.refl
      · exact hleads x hx

/-! ## Depth-first search: the fuel -/

/-- How many of the nodes were not visited. -/
def unvisited (nodes visited : List String) : ℕ := nodes.countP (· ∉ visited)

theorem unvisited_cons (first : String) (nodes visited : List String) :
    unvisited (first :: nodes) visited
      = unvisited nodes visited + if first ∈ visited then 0 else 1 := by
  rw [unvisited, unvisited, List.countP_cons]
  simp

theorem unvisited_mono {nodes visited visited' : List String} (h : visited ⊆ visited') :
    unvisited nodes visited' ≤ unvisited nodes visited := by
  apply List.countP_mono_left
  intro x _ hx
  simp only [decide_eq_true_eq] at hx ⊢
  exact fun hmem => hx (h hmem)

/-- Entering a node that was not visited leaves one node less. -/
theorem unvisited_enter {nodes visited : List String} {node : String} (hnode : node ∈ nodes)
    (hnew : node ∉ visited) : unvisited nodes (node :: visited) < unvisited nodes visited := by
  induction nodes with
  | nil => exact absurd hnode List.not_mem_nil
  | cons first nodes ih =>
      have hmono : unvisited nodes (node :: visited) ≤ unvisited nodes visited :=
        unvisited_mono (List.subset_cons_self node visited)
      rw [unvisited_cons, unvisited_cons]
      by_cases hfirst : first = node
      · rw [hfirst, if_pos List.mem_cons_self, if_neg hnew]
        omega
      · have hlater := ih (List.mem_of_ne_of_mem (Ne.symm hfirst) hnode)
        simp only [List.mem_cons, hfirst, false_or]
        omega

/-- With fuel for the nodes that were not visited, a call returns, and forgets none it visited. -/
def Returns (nodes : List String) (fuel : ℕ)
    (dfs : String → Search → Option (Bool × Search)) : Prop :=
  ∀ node s, node ∈ nodes → node ∉ s.visited → unvisited nodes s.visited ≤ fuel →
    ∃ outcome, dfs node s = some outcome ∧ s.visited ⊆ outcome.2.visited

theorem visit_returns {nodes : List String} {fuel : ℕ}
    {dfs : String → Search → Option (Bool × Search)} (hdfs : Returns nodes fuel dfs) :
    ∀ (neighbors : List String) (s : Search), neighbors ⊆ nodes →
      unvisited nodes s.visited ≤ fuel →
      ∃ outcome, visit dfs neighbors s = some outcome ∧ s.visited ⊆ outcome.2.visited := by
  intro neighbors
  induction neighbors with
  | nil =>
      intro s _ _
      exact ⟨(false, s), rfl, List.Subset.refl _⟩
  | cons neighbor neighbors ih =>
      intro s hsub hfuel
      obtain ⟨hneighbor, hsub⟩ := List.cons_subset.mp hsub
      unfold visit
      by_cases hnew : neighbor ∉ s.visited
      · rw [if_pos hnew]
        obtain ⟨⟨found, s₁⟩, hcall, hkept⟩ := hdfs neighbor s hneighbor hnew hfuel
        rw [hcall]
        cases found with
        | true => exact ⟨(true, s₁), rfl, hkept⟩
        | false =>
            obtain ⟨outcome, hrest, hkept'⟩ := ih s₁ hsub ((unvisited_mono hkept).trans hfuel)
            exact ⟨outcome, hrest, fun _ hx => hkept' (hkept hx)⟩
      · rw [if_neg hnew]
        by_cases hstack : neighbor ∈ s.in_stack
        · rw [if_pos hstack]
          exact ⟨(true, s), rfl, List.Subset.refl _⟩
        · rw [if_neg hstack]
          exact ih s hsub hfuel

theorem dfs_returns {nodes : List String} (hadj : ∀ x, adj x ⊆ nodes) :
    ∀ fuel, Returns nodes fuel (dfs adj fuel) := by
  intro fuel
  induction fuel with
  | zero =>
      intro node s hnode hnew hfuel
      have hless := unvisited_enter hnode hnew
      omega
  | succ fuel ih =>
      intro node s hnode hnew hfuel
      -- entering the node uses one of the unvisited ones, and the call one of the fuel
      have hless := unvisited_enter hnode hnew
      obtain ⟨⟨found, s₁⟩, hloop, hkept⟩ := visit_returns ih (adj node)
        { visited := node :: s.visited, in_stack := node :: s.in_stack } (hadj node)
        (by dsimp only; omega)
      have hkept' : s.visited ⊆ s₁.visited := (List.cons_subset.mp hkept).2
      simp only [dfs, hloop]
      cases found with
      | true => exact ⟨(true, s₁), rfl, hkept'⟩
      | false => exact ⟨_, rfl, hkept'⟩

/-! ## Depth-first search: all nodes -/

/-- The loop over the nodes: no cycle was found when all of them are finished. -/
theorem visit_roots_false {dfs : String → Search → Option (Bool × Search)}
    (hdfs : FinishesNode adj dfs) : ∀ (roots : List String) (s : Search) (done : List String),
      Searching adj s done → s.in_stack = [] → visit_roots dfs roots s = some false →
      ∃ done', Finished (fun x y => y ∈ adj x) done' ∧ done ⊆ done' ∧ roots ⊆ done' := by
  intro roots
  induction roots with
  | nil =>
      intro s done hs _ _
      exact ⟨done, hs.finished, List.Subset.refl done, List.nil_subset done⟩
  | cons root roots ih =>
      intro s done hs hstack h
      obtain ⟨-, -, -, hfound⟩ | ⟨s₁, hnew, hcall, hloop⟩ | ⟨hold, hloop⟩ :=
        visit_roots_cons_cases h
      · exact absurd hfound (by decide)
      · obtain ⟨done₁, hwent, hroot⟩ := hdfs root s s₁ done hnew hs hcall
        obtain ⟨done₂, hfinished, hkept, hsub⟩ :=
          ih s₁ done₁ hwent.searching (hwent.stack.trans hstack) hloop
        exact ⟨done₂, hfinished, fun _ hx => hkept (hwent.kept hx),
          List.cons_subset.mpr ⟨hkept hroot, hsub⟩⟩
      · -- between the calls the stack is empty, so what was visited is finished
        obtain ⟨done', hfinished, hkept, hsub⟩ := ih s done hs hstack hloop
        have hroot : root ∈ done := by simpa [hstack] using (hs.visited root).mp hold
        exact ⟨done', hfinished, hkept, List.cons_subset.mpr ⟨hkept hroot, hsub⟩⟩

theorem visit_roots_true {dfs : String → Search → Option (Bool × Search)}
    (hfinishes : FinishesNode adj dfs) (hfinds : FindsCycle adj dfs) :
    ∀ (roots : List String) (s : Search) (done : List String), Searching adj s done →
      s.in_stack = [] → visit_roots dfs roots s = some true → Cyclic adj := by
  intro roots
  induction roots with
  | nil =>
      intro s done _ _ h
      cases h
  | cons root roots ih =>
      intro s done hs hstack h
      obtain ⟨s₁, hnew, hcall, -⟩ | ⟨s₁, hnew, hcall, hloop⟩ | ⟨-, hloop⟩ :=
        visit_roots_cons_cases h
      · apply hfinds root s s₁ done hnew hs _ hcall
        intro x hx
        rw [hstack] at hx
        exact absurd hx List.not_mem_nil
      · obtain ⟨done₁, hwent, -⟩ := hfinishes root s s₁ done hnew hs hcall
        exact ih s₁ done₁ hwent.searching (hwent.stack.trans hstack) hloop
      · exact ih s done hs hstack hloop

theorem visit_roots_returns {nodes : List String} {fuel : ℕ}
    {dfs : String → Search → Option (Bool × Search)} (hdfs : Returns nodes fuel dfs) :
    ∀ (roots : List String) (s : Search), roots ⊆ nodes → unvisited nodes s.visited ≤ fuel →
      ∃ found, visit_roots dfs roots s = some found := by
  intro roots
  induction roots with
  | nil =>
      intro s _ _
      exact ⟨false, rfl⟩
  | cons root roots ih =>
      intro s hsub hfuel
      obtain ⟨hroot, hsub⟩ := List.cons_subset.mp hsub
      unfold visit_roots
      by_cases hnew : root ∉ s.visited
      · rw [if_pos hnew]
        obtain ⟨⟨found, s₁⟩, hcall, hkept⟩ := hdfs root s hroot hnew hfuel
        rw [hcall]
        cases found with
        | true => exact ⟨true, rfl⟩
        | false => exact ih s₁ hsub ((unvisited_mono hkept).trans hfuel)
      · rw [if_neg hnew]
        exact ih s hsub hfuel

end Dfs

/-! ## Cycle detection -/

/-- The search for a cycle returns, on every flow. -/
theorem has_cycle_returns (flow : DecisionFlow) : ∃ found, has_cycle flow = some found := by
  -- what can be visited are the nodes and the targets of the edges
  have hadj : ∀ x, adj flow x ⊆ flow.nodes.map (·.id) ++ flow.edges.map (·.target_node_id) :=
    fun x y hy => List.mem_append_right _ (target_of_mem_adj hy)
  have hfuel : unvisited (flow.nodes.map (·.id) ++ flow.edges.map (·.target_node_id)) []
      ≤ flow.nodes.length + flow.edges.length + 1 := by
    have hcount := List.countP_le_length (p := fun x => decide (x ∉ ([] : List String)))
      (l := flow.nodes.map (·.id) ++ flow.edges.map (·.target_node_id))
    rw [List.length_append, List.length_map, List.length_map] at hcount
    unfold unvisited
    omega
  exact visit_roots_returns (dfs_returns hadj _) _ {} (List.subset_append_left _ _) hfuel

/-- The search finds a cycle exactly when there is one. -/
theorem has_cycle_eq_true_iff {flow : DecisionFlow} (hedges : EdgesKnown flow) :
    has_cycle flow = some true ↔ ∃ x, TransGen (Edge flow) x x := by
  have hadj : (fun x y => y ∈ adj flow x) = Edge flow := by
    funext x y
    exact propext (mem_adj_iff hedges)
  have hstart : Searching (adj flow) {} [] := ⟨by simp, Finished.nil⟩
  constructor
  · intro h
    have hcyclic := visit_roots_true (dfs_false _) (dfs_true _) _ {} [] hstart rfl h
    unfold Cyclic at hcyclic
    rwa [hadj] at hcyclic
  · rintro ⟨x, hcycle⟩
    obtain ⟨found, hfound⟩ := has_cycle_returns flow
    cases found with
    | true => exact hfound
    | false =>
        obtain ⟨done, hfinished, -, hall⟩ :=
          visit_roots_false (dfs_false _) _ {} [] hstart rfl hfound
        rw [hadj] at hfinished
        -- a node on a cycle is the source of an edge
        obtain ⟨y, ⟨e, he, hsource, -⟩, -⟩ := TransGen.head'_iff.mp hcycle
        rw [← hsource] at hcycle
        exact absurd hcycle (hfinished.acyclic (hall (hedges e he).1))

theorem allow_cycles_iff (flow : DecisionFlow) :
    allow_cycles flow = true ↔ PyDict.get flow.metadata "allow_cycles" = some (.bool true) := by
  unfold allow_cycles
  split
  · rename_i h
    simp [h]
  · rename_i h
    simp only [Bool.false_eq_true, false_iff]
    exact h

/-- The check passes flows without a cycle, and those that allow cycles. -/
theorem check_cycles_eq_ok_iff {flow : DecisionFlow} (hedges : EdgesKnown flow) :
    check_cycles flow = .ok () ↔
      PyDict.get flow.metadata "allow_cycles" = some (.bool true)
        ∨ ¬∃ x, TransGen (Edge flow) x x := by
  obtain ⟨found, hfound⟩ := has_cycle_returns flow
  rw [← allow_cycles_iff, ← has_cycle_eq_true_iff hedges, check_cycles, hfound]
  by_cases hallow : allow_cycles flow = true
  · simp [hallow]
  · rw [if_neg hallow]
    cases found with
    | true => simp [hallow]
    | false => simp

/-- **Cycle detection.** The search returns, and it finds a cycle exactly when the edges of the flow
have a closed walk; a flow with one passes the check exactly when it allows cycles. -/
theorem cycle_detection_exact {flow : DecisionFlow} (hedges : EdgesKnown flow) :
    (∃ found, has_cycle flow = some found ∧ (found = true ↔ ∃ x, TransGen (Edge flow) x x)) ∧
    ((∃ x, TransGen (Edge flow) x x) → (check_cycles flow = .ok () ↔
      PyDict.get flow.metadata "allow_cycles" = some (.bool true))) := by
  constructor
  · obtain ⟨found, hfound⟩ := has_cycle_returns flow
    refine ⟨found, hfound, ?_⟩
    rw [← has_cycle_eq_true_iff hedges, hfound, Option.some.injEq]
  · intro hcycle
    rw [check_cycles_eq_ok_iff hedges, or_iff_left (not_not.mpr hcycle)]

end FlowValidator

namespace Recorded

/-- A node of a flow. -/
def node (id : String) (node_type : NodeType) : DecisionNode where
  id := id
  node_type := node_type

/-- A flow whose second node has an edge to itself; the third one has none. -/
def looping : DecisionFlow where
  id := UUID.ofInt 1
  flow_id := "looping"
  version := "1.0.0"
  entry_node_id := "a"
  nodes := [node "a" .start, node "b" .decision, node "c" .fallback]
  edges := [⟨"e", "a", "b", none, 0⟩, ⟨"f", "b", "b", none, 0⟩]

theorem looping_edges : FlowValidator.EdgesKnown looping := by
  simp [FlowValidator.EdgesKnown, looping, node]

end Recorded

namespace FlowValidator

/-- A flow with a self-loop: the cycle is found, and not allowed. -/
theorem cycle_detection_looping :
    has_cycle Recorded.looping = some true ∧ check_cycles Recorded.looping ≠ .ok () := by
  have hcycle : ∃ x, TransGen (Edge Recorded.looping) x x :=
    ⟨"b", .single ⟨⟨"f", "b", "b", none, 0⟩, .tail _ (.head _), rfl, rfl⟩⟩
  obtain ⟨⟨found, hfound, hiff⟩, hallowed⟩ := cycle_detection_exact Recorded.looping_edges
  constructor
  · rw [hfound, hiff.mpr hcycle]
  · intro hok
    have hallow := (hallowed hcycle).mp hok
    cases hallow

/-! ## Breadth-first search -/

section Bfs

variable {adj : String → List String}

/-- What holds of the queue and goes along the edges holds of what is reached. -/
theorem bfs_sound {p : String → Prop} (hedge : ∀ x, p x → ∀ y ∈ adj x, p y) :
    ∀ (fuel : ℕ) (queue reachable result : List String), (∀ x ∈ queue, p x) →
      (∀ x ∈ reachable, p x) → bfs adj fuel queue reachable = some result →
      ∀ x ∈ result, p x := by
  intro fuel
  induction fuel with
  | zero =>
      intro queue reachable result _ hreachable h
      cases queue with
      | nil =>
          rw [← Option.some.inj h]
          exact hreachable
      | cons node_id queue => cases h
  | succ fuel ih =>
      intro queue reachable result hqueue hreachable h
      cases queue with
      | nil =>
          rw [← Option.some.inj h]
          exact hreachable
      | cons node_id queue =>
          rw [List.forall_mem_cons] at hqueue
          unfold bfs at h
          by_cases hnew : node_id ∈ reachable
          · rw [if_pos hnew] at h
            exact ih queue reachable result hqueue.2 hreachable h
          · -- what is put into the queue is one edge further
            rw [if_neg hnew] at h
            apply ih _ (node_id :: reachable) result _ _ h
            · intro x hx
              rw [List.mem_append] at hx
              cases hx with
              | inl hx => exact hqueue.2 x hx
              | inr hx => exact hedge node_id hqueue.1 x (List.mem_filter.mp hx).1
            · exact List.forall_mem_cons.mpr ⟨hqueue.1, hreachable⟩

/-- The edges of reached nodes lead to reached nodes or into the queue. -/
def Queued (adj : String → List String) (queue reachable : List String) : Prop :=
  ∀ x ∈ reachable, ∀ y ∈ adj x, y ∈ reachable ∨ y ∈ queue

/-- The edges of a node that is reached now are put into the queue. -/
theorem Queued.reach {node_id : String} {queue reachable : List String}
    (h : Queued adj (node_id :: queue) reachable) :
    Queued adj (queue ++ (adj node_id).filter (· ∉ node_id :: reachable))
      (node_id :: reachable) := by
  intro x hx y hy
  by_cases hyr : y ∈ node_id :: reachable
  · exact Or.inl hyr
  · apply Or.inr
    rw [List.mem_append]
    rw [List.mem_cons, not_or] at hyr
    rw [List.mem_cons] at hx
    cases hx with
    | inl hx =>
        rw [hx] at hy
        exact Or.inr (List.mem_filter.mpr ⟨hy, by simp [hyr]⟩)
    | inr hx => exact Or.inl (by simpa [hyr] using h x hx y hy)

theorem Queued.skip {node_id : String} {queue reachable : List String}
    (h : Queued adj (node_id :: queue) reachable) (hnew : node_id ∈ reachable) :
    Queued adj queue reachable := by
  intro x hx y hy
  cases h x hx y hy with
  | inl hyr => exact Or.inl hyr
  | inr hyq =>
      rw [List.mem_cons] at hyq
      cases hyq with
      | inl heq =>
          rw [heq]
          exact Or.inl hnew
      | inr hyq => exact Or.inr hyq

/-- The result holds the queue, and no edge leads out of it. -/
theorem bfs_complete : ∀ (fuel : ℕ) (queue reachable result : List String),
    Queued adj queue reachable → bfs adj fuel queue reachable = some result →
      queue ⊆ result ∧ reachable ⊆ result ∧ Closed (fun x y => y ∈ adj x) result := by
  have hempty : ∀ reachable result : List String, Queued adj [] reachable →
      some reachable = some result → [] ⊆ result ∧ reachable ⊆ result
        ∧ Closed (fun x y => y ∈ adj x) result := by
    intro reachable result hqueued h
    rw [← Option.some.inj h]
    refine ⟨List.nil_subset reachable, List.Subset.refl reachable, ?_⟩
    intro x hx y hy
    simpa using hqueued x hx y hy
  intro fuel
  induction fuel with
  | zero =>
      intro queue reachable result hqueued h
      cases queue with
      | nil => exact hempty reachable result hqueued h
      | cons node_id queue => cases h
  | succ fuel ih =>
      intro queue reachable result hqueued h
      cases queue with
      | nil => exact hempty reachable result hqueued h
      | cons node_id queue =>
          unfold bfs at h
          by_cases hnew : node_id ∈ reachable
          · -- reached before: the node is in the result, whatever comes of the queue
            rw [if_pos hnew] at h
            obtain ⟨hqueue, hreachable, hclosed⟩ :=
              ih queue reachable result (hqueued.skip hnew) h
            exact ⟨List.cons_subset.mpr ⟨hreachable hnew, hqueue⟩, hreachable, hclosed⟩
          · rw [if_neg hnew] at h
            obtain ⟨hqueue, hreachable, hclosed⟩ := ih _ _ result hqueued.reach h
            obtain ⟨hnode, hreachable⟩ := List.cons_subset.mp hreachable
            exact ⟨List.cons_subset.mpr
              ⟨hnode, fun _ hx => hqueue (List.mem_append_left _ hx)⟩, hreachable, hclosed⟩

end Bfs

/-! ### The fuel -/

/-- The edges whose source was not reached yet. -/
def open_edges (flow : DecisionFlow) (reachable : List String) : ℕ :=
  flow.edges.countP (fun e => e.source_node_id ∉ reachable)

/-- Reaching a node closes its edges. -/
theorem open_edges_reach {flow : DecisionFlow} {reachable : List String} {node_id : String}
    (hnew : node_id ∉ reachable) :
    (adj flow node_id).length + open_edges flow (node_id :: reachable)
      ≤ open_edges flow reachable := by
  have hadj : (adj flow node_id).length
      ≤ flow.edges.countP (fun e => e.source_node_id = node_id) := by
    unfold adj
    by_cases hnode : node_id ∈ flow.nodes.map (·.id)
    · rw [if_pos hnode, List.length_map, List.countP_eq_length_filter]
    · simp [hnode]
  have hsplit : flow.edges.countP (fun e => e.source_node_id = node_id)
      + open_edges flow (node_id :: reachable) ≤ open_edges flow reachable := by
    unfold open_edges
    -- an edge of the node was open and is not counted any more; the others stay as they are
    induction flow.edges with
    | nil => simp
    | cons e edges ih =>
        simp only [List.countP_cons]
        by_cases hsource : e.source_node_id = node_id
        · simp only [hsource, List.mem_cons, true_or, not_true_eq_false, decide_false, decide_true,
            hnew, not_false_eq_true, if_true, Bool.false_eq_true, if_false] at ih ⊢
          omega
        · simp only [hsource, List.mem_cons, false_or, decide_false, Bool.false_eq_true,
            if_false] at ih ⊢
          omega
  omega

/-- With fuel for the queue and the open edges, the loop ends. -/
theorem bfs_returns {flow : DecisionFlow} : ∀ (fuel : ℕ) (queue reachable : List String),
    queue.length + open_edges flow reachable ≤ fuel →
      ∃ result, bfs (adj flow) fuel queue reachable = some result := by
  intro fuel
  induction fuel with
  | zero =>
      intro queue reachable hfuel
      cases queue with
      | nil => exact ⟨reachable, rfl⟩
      | cons node_id queue =>
          rw [List.length_cons] at hfuel
          omega
  | succ fuel ih =>
      intro queue reachable hfuel
      cases queue with
      | nil => exact ⟨reachable, rfl⟩
      | cons node_id queue =>
          rw [List.length_cons] at hfuel
          unfold bfs
          by_cases hnew : node_id ∈ reachable
          · rw [if_pos hnew]
            apply ih
            omega
          · rw [if_neg hnew]
            apply ih
            -- what the queue gains, the open edges lose
            have hclosed : (adj flow node_id).length + open_edges flow (node_id :: reachable)
                ≤ open_edges flow reachable := open_edges_reach hnew
            have hfilter := List.length_filter_le (fun y => decide (y ∉ node_id :: reachable))
              (adj flow node_id)
            rw [List.length_append]
            omega

/-! ## Reachability -/

/-- The search reaches the nodes that a path of edges leads to from the entry node. -/
theorem find_reachable_exact {flow : DecisionFlow} (hedges : EdgesKnown flow) :
    ∃ reachable, find_reachable flow = some reachable
      ∧ ∀ x, x ∈ reachable ↔ ReflTransGen (Edge flow) flow.entry_node_id x := by
  have hfuel : [flow.entry_node_id].length + open_edges flow [] ≤ flow.edges.length + 1 := by
    have hcount := List.countP_le_length (p := fun e : FlowEdge =>
      decide (e.source_node_id ∉ ([] : List String))) (l := flow.edges)
    unfold open_edges
    rw [List.length_singleton]
    omega
  obtain ⟨reachable, hreachable⟩ := bfs_returns _ _ _ hfuel
  obtain ⟨hentry, -, hclosed⟩ := bfs_complete _ _ _ _
    (fun x hx => absurd hx List.not_mem_nil) hreachable
  refine ⟨reachable, hreachable, ?_⟩
  intro x
  constructor
  · apply bfs_sound (p := ReflTransGen (Edge flow) flow.entry_node_id) _ _ _ _ _ _ _ hreachable
    · exact fun x hx y hy => hx.tail ((mem_adj_iff hedges).mp hy)
    · intro y hy
      rw [List.mem_singleton.mp hy]
    · exact fun y hy => absurd hy List.not_mem_nil
  · intro hpath
    have hclosed' : Closed (Edge flow) reachable :=
      fun y hy z hz => hclosed y hy z ((mem_adj_iff hedges).mpr hz)
    exact hclosed'.path (hentry List.mem_cons_self) hpath

/-- With unique ids, an id of a fallback node is that of no other node. -/
theorem fallback_id_iff {flow : DecisionFlow} (hunique : (flow.nodes.map (·.id)).Nodup)
    {node : DecisionNode} (hnode : node ∈ flow.nodes) :
    node.id ∈ (flow.nodes.filter (fun n => n.node_type = .fallback)).map (·.id)
      ↔ node.node_type = .fallback := by
  rw [List.mem_map]
  constructor
  · rintro ⟨other, hother, hid⟩
    obtain ⟨hmem, htype⟩ := List.mem_filter.mp hother
    rw [← List.inj_on_of_nodup_map hunique hmem hnode hid]
    simpa using htype
  · intro htype
    exact ⟨node, List.mem_filter.mpr ⟨hnode, by simpa using htype⟩, rfl⟩

/-- The check passes when a path leads to every node that is no fallback. -/
theorem check_no_orphan_nodes_eq_ok_iff {flow : DecisionFlow}
    (hunique : (flow.nodes.map (·.id)).Nodup) (hedges : EdgesKnown flow) :
    check_no_orphan_nodes flow = .ok () ↔
      ∀ node ∈ flow.nodes, node.node_type ≠ .fallback →
        ReflTransGen (Edge flow) flow.entry_node_id node.id := by
  obtain ⟨reachable, hreachable, hpath⟩ := find_reachable_exact hedges
  rw [check_no_orphan_nodes, hreachable]
  simp only [except_forM_eq_ok]
  apply forall₂_congr
  intro node hnode
  have hfallback := fallback_id_iff hunique hnode
  have hnode_path := hpath node.id
  by_cases hround : node.id ∉ reachable
      ∧ node.id ∉ (flow.nodes.filter (fun n => n.node_type = .fallback)).map (·.id)
  · rw [if_pos hround]
    rw [hnode_path, hfallback] at hround
    simp [hround.1, hround.2]
  · rw [if_neg hround]
    rw [hnode_path, hfallback] at hround
    tauto

/-- What the check raises is about the flow. -/
theorem check_no_orphan_nodes_error {flow : DecisionFlow} (hedges : EdgesKnown flow) {e : PyError}
    (h : check_no_orphan_nodes flow = .error e) : ∃ text, e = .flowValidationError text := by
  obtain ⟨reachable, hreachable, -⟩ := find_reachable_exact hedges
  rw [check_no_orphan_nodes, hreachable] at h
  obtain ⟨pre, node, post, -, -, hraised⟩ := except_forM_eq_error.mp h
  split at hraised
  · exact ⟨_, (Except.error.inj hraised).symm⟩
  · cases hraised

/-- **Reachability.** The search returns the ids that a path of edges leads to from the entry node,
and the check raises a `FlowValidationError` exactly when such a path is missing to a node that is
no fallback. -/
theorem reachability_exact {flow : DecisionFlow} (hunique : (flow.nodes.map (·.id)).Nodup)
    (hedges : EdgesKnown flow) :
    (∃ reachable, find_reachable flow = some reachable
      ∧ ∀ x, x ∈ reachable ↔ ReflTransGen (Edge flow) flow.entry_node_id x) ∧
    ((∃ text, check_no_orphan_nodes flow = .error (.flowValidationError text)) ↔
      ∃ node ∈ flow.nodes, node.node_type ≠ .fallback
        ∧ ¬ReflTransGen (Edge flow) flow.entry_node_id node.id) ∧
    (check_no_orphan_nodes flow = .ok () ↔
      ∀ node ∈ flow.nodes, node.node_type ≠ .fallback →
        ReflTransGen (Edge flow) flow.entry_node_id node.id) := by
  refine ⟨find_reachable_exact hedges, ?_, check_no_orphan_nodes_eq_ok_iff hunique hedges⟩
  have hok := check_no_orphan_nodes_eq_ok_iff hunique hedges
  constructor
  · rintro ⟨text, hraised⟩
    rw [hraised] at hok
    simpa using hok
  · rintro ⟨node, hnode, htype, hpath⟩
    cases hcheck : check_no_orphan_nodes flow with
    | ok u => exact absurd (hok.mp hcheck node hnode htype) hpath
    | error e =>
        obtain ⟨text, htext⟩ := check_no_orphan_nodes_error hedges hcheck
        exact ⟨text, by rw [htext]⟩

/-- An edge leads to the decision node, and none to the fallback, which need not be reached. -/
theorem reachability_looping :
    ReflTransGen (Edge Recorded.looping) "a" "b" ∧ ¬ReflTransGen (Edge Recorded.looping) "a" "c"
      ∧ check_no_orphan_nodes Recorded.looping = .ok () := by
  obtain ⟨⟨reachable, hreachable, hiff⟩, -, hok⟩ := reachability_exact
    (by simp [Recorded.looping, Recorded.node]) Recorded.looping_edges
  have hsearch : find_reachable Recorded.looping = some ["b", "a"] := by decide
  obtain rfl := Option.some.inj (hreachable.symm.trans hsearch)
  have hb : ReflTransGen (Edge Recorded.looping) "a" "b" := (hiff "b").mp (by decide)
  refine ⟨hb, fun hc => absurd ((hiff "c").mpr hc) (by decide), hok.mpr ?_⟩
  intro node hnode htype
  have hcases : node = Recorded.node "a" .start ∨ node = Recorded.node "b" .decision
      ∨ node = Recorded.node "c" .fallback := by
    simpa [Recorded.looping] using hnode
  rcases hcases with rfl | rfl | rfl
  · exact .refl
  · exact hb
  · exact absurd rfl htype

end FlowValidator

end DecisionRuntime
