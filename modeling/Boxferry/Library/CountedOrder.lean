import Mathlib.Data.List.Basic
import Mathlib.Data.List.Nodup
import Mathlib.Data.List.Perm.Subperm
import Mathlib.Logic.Function.Basic

/-! # Ordering by counting

The order in which nodes become ready when every node waits for the targets of
its edges. A node is visited at most once, and after all of its targets. -/
set_option autoImplicit false

namespace CountedOrder
variable {α : Type} [DecidableEq α]

/-- An edge from a target to a node that depends on it. -/
abbrev Edge (α : Type) : Type := α × α

structure State (α : Type) where
  indegree : α → Nat
  ready : List α
  visited : List α

/-- One target of the node is done; the node is ready when it was the last one. -/
def release (state : State α) (dependent : α) : State α :=
  let count := state.indegree dependent - 1
  { state with
    indegree := Function.update state.indegree dependent count
    ready := if count = 0 then dependent :: state.ready else state.ready }

def dependents (edges : List (Edge α)) (target : α) : List α :=
  (edges.filter fun edge => edge.1 = target).map Prod.snd

/-- Visits ready nodes until there are none, at most as often as the fuel says. -/
def visit (edges : List (Edge α)) : Nat → State α → State α
  | 0, state => state
  | fuel + 1, state =>
    match state.ready with
    | [] => state
    | node :: ready => visit edges fuel
        ((dependents edges node).foldl release ⟨state.indegree, ready, state.visited ++ [node]⟩)

def start (edges : List (Edge α)) (nodes : List α) : State α :=
  let indegree node := (edges.filter fun edge => edge.2 = node).length
  ⟨indegree, (nodes.filter fun node => indegree node = 0).reverse, []⟩

/-- The nodes in the order they are visited, every node at most once. -/
def run (edges : List (Edge α)) (nodes : List α) : State α :=
  visit edges nodes.length (start edges nodes)

/-! ## Waiting -/

/-- The edges of a node whose targets are not visited. -/
def waiting (edges : List (Edge α)) (visited : List α) (node : α) : List (Edge α) :=
  edges.filter fun edge => edge.2 = node ∧ edge.1 ∉ visited

structure Counted (edges : List (Edge α)) (nodes : List α) (state : State α) : Prop where
  nodup : (state.ready ++ state.visited).Nodup
  subset : ∀ node ∈ state.ready ++ state.visited, node ∈ nodes
  count : ∀ node, state.indegree node = (waiting edges state.visited node).length
  done : ∀ node ∈ state.ready ++ state.visited, state.indegree node = 0

/-- Every visited node has its targets before it. -/
def Ordered (edges : List (Edge α)) (visited : List α) : Prop :=
  ∀ before node after, visited = before ++ node :: after → ∀ edge ∈ edges, edge.2 = node →
    edge.1 ∈ before

theorem release_foldl {nodes : List α} {state : State α}
    (h : ∀ node : α, nodes.count node ≤ state.indegree node) :
    (∀ node, (nodes.foldl release state).indegree node = state.indegree node - nodes.count node) ∧
      (nodes.foldl release state).visited = state.visited ∧
      ∃ pushed, (nodes.foldl release state).ready = pushed ++ state.ready ∧ pushed.Nodup ∧
        ∀ node, node ∈ pushed ↔ node ∈ nodes ∧ state.indegree node = nodes.count node := by
  induction nodes generalizing state with
  | nil => exact ⟨fun node => by simp, rfl, [], by simp⟩
  | cons first rest ih =>
    have hfirst := h first
    rw [List.count_cons_self] at hfirst
    have hvalue (node : α) : (release state first).indegree node =
        if node = first then state.indegree first - 1 else state.indegree node :=
      Function.update_apply _ _ _ _
    have hrest (node : α) : rest.count node ≤ (release state first).indegree node := by
      have hnode := h node
      rw [hvalue]
      by_cases hsame : node = first
      · rw [if_pos hsame, hsame]
        omega
      · rw [if_neg hsame]
        rw [List.count_cons_of_ne (Ne.symm hsame)] at hnode
        exact hnode
    obtain ⟨hcount, hvisited, pushed, hready, hnodup, hpushed⟩ := ih hrest
    refine ⟨fun node => ?_, hvisited, ?_⟩
    · rw [List.foldl_cons, hcount, hvalue]
      by_cases hsame : node = first
      · rw [if_pos hsame, hsame, List.count_cons_self]
        omega
      · rw [if_neg hsame, List.count_cons_of_ne (Ne.symm hsame)]
    · rw [List.foldl_cons]
      by_cases hzero : state.indegree first - 1 = 0
      · have hpushes : (release state first).ready = first :: state.ready := if_pos hzero
        have habsent : first ∉ rest := by
          intro hmem
          have hpositive := List.count_pos_iff.mpr hmem
          omega
        have hnone := List.count_eq_zero.mpr habsent
        refine ⟨pushed ++ [first], by rw [hready, hpushes, List.append_assoc]; rfl, ?_, fun node => ?_⟩
        · rw [List.nodup_append]
          refine ⟨hnodup, List.nodup_singleton _, ?_⟩
          rintro node hnode other hother rfl
          rw [List.mem_singleton.mp hother] at hnode
          exact habsent ((hpushed first).mp hnode).1
        · rw [List.mem_append, List.mem_singleton, hpushed, hvalue, List.mem_cons]
          by_cases hsame : node = first
          · rw [hsame, List.count_cons_self]
            constructor
            · intro _
              exact ⟨Or.inl rfl, by omega⟩
            · intro _
              exact Or.inr rfl
          · rw [if_neg hsame, List.count_cons_of_ne (Ne.symm hsame)]
            simp [hsame]
      · have hpushes : (release state first).ready = state.ready := if_neg hzero
        refine ⟨pushed, by rw [hready, hpushes], hnodup, fun node => ?_⟩
        rw [hpushed, hvalue, List.mem_cons]
        by_cases hsame : node = first
        · rw [hsame, if_pos rfl, List.count_cons_self]
          constructor
          · rintro ⟨-, hcount⟩
            exact ⟨Or.inl rfl, by omega⟩
          · rintro ⟨-, hcount⟩
            refine ⟨List.count_pos_iff.mp ?_, by omega⟩
            omega
        · rw [if_neg hsame, List.count_cons_of_ne (Ne.symm hsame)]
          simp [hsame]

/-! ## Visiting -/

theorem count_dependents (edges : List (Edge α)) (target node : α) :
    (dependents edges target).count node =
      (edges.filter fun edge => edge.2 = node ∧ edge.1 = target).length := by
  unfold dependents
  rw [List.count_eq_countP, List.countP_map, List.countP_filter, List.countP_eq_length_filter]
  congr 1
  refine List.filter_congr fun edge _ => ?_
  simp [beq_eq_decide]

theorem mem_dependents {edges : List (Edge α)} {target node : α} :
    node ∈ dependents edges target ↔ (target, node) ∈ edges := by
  unfold dependents
  rw [List.mem_map]
  constructor
  · rintro ⟨edge, hedge, rfl⟩
    rw [List.mem_filter, decide_eq_true_eq] at hedge
    rw [← hedge.2]
    exact hedge.1
  · intro h
    exact ⟨(target, node), List.mem_filter.mpr ⟨h, by simp⟩, rfl⟩

/-- A node waits for a target until the target is visited. -/
theorem length_waiting_visit {edges : List (Edge α)} {visited : List α} {target : α} (node : α)
    (h : target ∉ visited) :
    (waiting edges visited node).length =
      (waiting edges (visited ++ [target]) node).length + (dependents edges target).count node := by
  rw [count_dependents]
  unfold waiting
  induction edges with
  | nil => rfl
  | cons edge edges ih =>
    simp only [List.filter_cons, List.mem_append, List.mem_singleton, not_or]
    by_cases hnode : edge.2 = node
    · by_cases htarget : edge.1 = target
      · have hnew : edge.1 ∉ visited := htarget ▸ h
        simp only [hnode, htarget, h, not_true_eq_false, and_false, decide_false, and_self,
          decide_true, not_false_eq_true, if_true, Bool.false_eq_true, if_false, List.length_cons]
        simp only [List.mem_append, List.mem_singleton, not_or] at ih
        omega
      · by_cases hvisited : edge.1 ∈ visited
        · simp only [hnode, htarget, hvisited, not_true_eq_false, and_false, false_and, decide_false,
            Bool.false_eq_true, if_false]
          simpa only [List.mem_append, List.mem_singleton, not_or] using ih
        · simp only [hnode, htarget, hvisited, not_false_eq_true, and_self, and_false, decide_true,
            decide_false, if_true, Bool.false_eq_true, if_false, List.length_cons]
          simp only [List.mem_append, List.mem_singleton, not_or] at ih
          omega
    · simp only [hnode, false_and, decide_false, Bool.false_eq_true, if_false]
      simpa only [List.mem_append, List.mem_singleton, not_or] using ih

omit [DecidableEq α] in
theorem Ordered.append {edges : List (Edge α)} {visited : List α} {node : α} (h : Ordered edges visited)
    (hnode : ∀ edge ∈ edges, edge.2 = node → edge.1 ∈ visited) : Ordered edges (visited ++ [node]) := by
  intro before other after hsplit edge hedge hdependent
  rcases List.eq_nil_or_concat after with rfl | ⟨front, last, rfl⟩
  · obtain ⟨rfl, hother⟩ := List.append_inj' hsplit rfl
    rw [List.singleton_inj] at hother
    exact hnode edge hedge (hdependent.trans hother.symm)
  · have hsplit' : visited ++ [node] = (before ++ other :: front) ++ [last] := by
      rw [hsplit, List.concat_eq_append, List.append_assoc]
      rfl
    obtain ⟨hvisited, -⟩ := List.append_inj' hsplit' rfl
    exact h before other front hvisited edge hedge hdependent

theorem Counted.visit {edges : List (Edge α)} {nodes : List α} {fuel : Nat} {state : State α}
    (hedges : ∀ edge ∈ edges, edge.2 ∈ nodes) (h : Counted edges nodes state)
    (hordered : Ordered edges state.visited) :
    Counted edges nodes (visit edges fuel state) ∧ Ordered edges (visit edges fuel state).visited := by
  induction fuel generalizing state with
  | zero => exact ⟨h, hordered⟩
  | succ fuel ih =>
    unfold CountedOrder.visit
    cases hready : state.ready with
    | nil => exact ⟨h, hordered⟩
    | cons node ready =>
      have hnodup := h.nodup
      rw [hready, List.cons_append, List.nodup_cons] at hnodup
      obtain ⟨hnew, hnodup⟩ := hnodup
      have hfresh : node ∉ state.visited := fun hmem => hnew (List.mem_append_right _ hmem)
      have hzero : state.indegree node = 0 := h.done node (by rw [hready]; simp)
      have hnone : waiting edges state.visited node = [] :=
        List.length_eq_zero_iff.mp ((h.count node).symm.trans hzero)
      have hwait (other : α) : (dependents edges node).count other ≤ state.indegree other := by
        rw [h.count, length_waiting_visit other hfresh]
        exact Nat.le_add_left _ _
      obtain ⟨hcount, hvisited, pushed, hpushedReady, hpushedNodup, hpushed⟩ :=
        @release_foldl α _ _ ⟨state.indegree, ready, state.visited ++ [node]⟩ hwait
      have hkept (other : α) (hother : other ∈ ready ++ (state.visited ++ [node])) :
          other ∈ state.ready ++ state.visited := by
        rw [hready]
        simp only [List.mem_append, List.mem_cons, List.not_mem_nil, or_false] at hother ⊢
        tauto
      have hpushedNew (other : α) (hother : other ∈ pushed) :
          other ∉ ready ++ (state.visited ++ [node]) := by
        intro hmem
        obtain ⟨hdependent, hequal⟩ := (hpushed other).mp hother
        have hpositive := List.count_pos_iff.mpr hdependent
        have hdone := h.done other (hkept other hmem)
        simp only at hequal
        omega
      have hrest : (ready ++ (state.visited ++ [node])).Nodup := by
        rw [← List.append_assoc, List.nodup_append]
        refine ⟨hnodup, List.nodup_singleton _, ?_⟩
        rintro other hother last hlast rfl
        rw [List.mem_singleton.mp hlast] at hother
        exact hnew hother
      refine ih ⟨?_, ?_, ?_, ?_⟩ ?_
      · rw [hvisited, hpushedReady, List.append_assoc, List.nodup_append]
        refine ⟨hpushedNodup, hrest, ?_⟩
        rintro other hother last hlast rfl
        exact hpushedNew other hother hlast
      · intro other hother
        rw [hvisited, hpushedReady, List.append_assoc, List.mem_append] at hother
        rcases hother with hother | hother
        · exact hedges _ (mem_dependents.mp ((hpushed other).mp hother).1)
        · exact h.subset other (hkept other hother)
      · intro other
        rw [hcount, hvisited]
        show state.indegree other - _ = (waiting edges (state.visited ++ [node]) other).length
        rw [h.count, length_waiting_visit other hfresh]
        omega
      · intro other hother
        rw [hvisited, hpushedReady, List.append_assoc, List.mem_append] at hother
        rw [hcount]
        rcases hother with hother | hother
        · have hequal := ((hpushed other).mp hother).2
          omega
        · have hdone := h.done other (hkept other hother)
          show state.indegree other - _ = 0
          omega
      · rw [hvisited]
        refine hordered.append fun edge hedge hdependent => ?_
        by_contra hwaits
        have hmem : edge ∈ waiting edges state.visited node :=
          List.mem_filter.mpr ⟨hedge, decide_eq_true ⟨hdependent, hwaits⟩⟩
        rw [hnone] at hmem
        exact List.not_mem_nil hmem

theorem counted_start {edges : List (Edge α)} {nodes : List α} (h : nodes.Nodup) :
    Counted edges nodes (start edges nodes) where
  nodup := by
    rw [start, List.append_nil, List.nodup_reverse]
    exact h.filter _
  subset node hnode := by
    rw [start, List.append_nil, List.mem_reverse] at hnode
    exact List.mem_of_mem_filter hnode
  count node := by
    show (edges.filter fun edge => edge.2 = node).length = _
    rw [start, waiting]
    simp
  done node hnode := by
    rw [start, List.append_nil, List.mem_reverse, List.mem_filter, decide_eq_true_eq] at hnode
    exact hnode.2

theorem run_spec {edges : List (Edge α)} {nodes : List α} (h : nodes.Nodup)
    (hedges : ∀ edge ∈ edges, edge.2 ∈ nodes) :
    Counted edges nodes (run edges nodes) ∧ Ordered edges (run edges nodes).visited := by
  refine (counted_start h).visit hedges ?_
  intro before node after hsplit
  cases before <;> exact absurd hsplit (by simp [start])

/-- When every node is visited, no node waits for itself. -/
theorem irrefl_of_run {edges : List (Edge α)} {nodes : List α} (h : nodes.Nodup)
    (hedges : ∀ edge ∈ edges, edge.2 ∈ nodes)
    (hlength : (run edges nodes).visited.length = nodes.length) :
    ∀ edge ∈ edges, edge.1 ≠ edge.2 := by
  intro edge hedge hself
  obtain ⟨hcounted, hordered⟩ := run_spec h hedges
  have hnodup := hcounted.nodup.of_append_right
  have hsubset : (run edges nodes).visited ⊆ nodes := fun node hnode =>
    hcounted.subset node (List.mem_append_right _ hnode)
  have hall : nodes ⊆ (run edges nodes).visited :=
    ((List.subperm_of_subset hnodup hsubset).perm_of_length_le (Nat.le_of_eq hlength.symm)).symm.subset
  obtain ⟨before, after, hsplit⟩ := List.append_of_mem (hall (hedges edge hedge))
  have hbefore := hordered before edge.2 after hsplit edge hedge rfl
  rw [hsplit, List.nodup_append] at hnodup
  exact hnodup.2.2 edge.1 hbefore edge.2 (List.mem_cons_self) hself

end CountedOrder
