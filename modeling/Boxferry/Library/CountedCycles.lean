import Mathlib.Data.Fintype.Pigeonhole
import Mathlib.Data.Set.Finite.List
import Mathlib.Logic.Relation
import Boxferry.Library.CountedOrder

/-! # What counting leaves over

The nodes that are not visited are those that wait, directly or through others, for
a node that waits for itself. -/
set_option autoImplicit false

/-! ## Relations without an end -/

namespace Relation
variable {α : Type}

/-- In a finite set where every member leads to a member, each one leads to a cycle. -/
theorem exists_cycle_of_serial {r : α → α → Prop} {members : Set α} (hfinite : members.Finite)
    (hserial : ∀ node ∈ members, ∃ next ∈ members, r node next) {node : α} (hnode : node ∈ members) :
    ∃ turn, ReflTransGen r node turn ∧ TransGen r turn turn := by
  have := hfinite.to_subtype
  choose! next hnext hstep using hserial
  let advance : members → members := fun last => ⟨next last, hnext last last.2⟩
  let walk : Nat → members := fun count => advance^[count] ⟨node, hnode⟩
  have hwalk (count : Nat) : r (walk count) (walk (count + 1)) := by
    have hmore : walk (count + 1) = advance (walk count) := Function.iterate_succ_apply' advance count _
    rw [hmore]
    exact hstep (walk count) (walk count).2
  have hreach (count : Nat) : ReflTransGen r node (walk count) := by
    induction count with
    | zero => exact ReflTransGen.refl
    | succ count ih => exact ih.tail (hwalk count)
  have hmore (count more : Nat) : TransGen r (walk count) (walk (count + more + 1)) := by
    induction more with
    | zero => exact TransGen.single (hwalk count)
    | succ more ih => exact ih.tail (hwalk (count + more + 1))
  obtain ⟨first, second, hne, hsame⟩ := Finite.exists_ne_map_eq_of_infinite walk
  rcases Nat.lt_or_gt_of_ne hne with hlt | hlt
  · refine ⟨walk first, hreach first, ?_⟩
    have hcycle := hmore first (second - first - 1)
    rw [show first + (second - first - 1) + 1 = second by omega, ← hsame] at hcycle
    exact hcycle
  · refine ⟨walk second, hreach second, ?_⟩
    have hcycle := hmore second (first - second - 1)
    rw [show second + (first - second - 1) + 1 = first by omega, hsame] at hcycle
    exact hcycle

end Relation

namespace CountedOrder
open Relation
variable {α : Type} {edges : List (Edge α)} {nodes : List α} {node target : α} {fuel : Nat}

/-- A node waits for the target of an edge to it. -/
def Waits (edges : List (Edge α)) (node target : α) : Prop := (target, node) ∈ edges

/-- A visited node waits for no node that waits for itself. -/
theorem Ordered.acyclic {visited : List α} (h : Ordered edges visited) (hnodup : visited.Nodup)
    (hnode : node ∈ visited) {turn : α} (hreach : ReflTransGen (Waits edges) node turn) :
    ¬ TransGen (Waits edges) turn turn := by
  have hearlier : ∀ before other after, visited = before ++ other :: after → ∀ target,
      TransGen (Waits edges) other target → target ∈ before := by
    intro before other after hsplit target hpath
    induction hpath with
    | single hedge => exact h before other after hsplit _ hedge rfl
    | @tail middle last _ hedge ih =>
      obtain ⟨front, back, hbefore⟩ := List.append_of_mem ih
      have hinner : visited = front ++ middle :: (back ++ other :: after) := by
        rw [hsplit, hbefore, List.append_assoc]
        rfl
      rw [hbefore]
      exact List.mem_append_left _ (h front _ _ hinner _ hedge rfl)
  intro hcycle
  have hturn : turn ∈ visited := by
    obtain ⟨before, after, hsplit⟩ := List.append_of_mem hnode
    rcases reflTransGen_iff_eq_or_transGen.mp hreach with rfl | hpath
    · exact hnode
    · rw [hsplit]
      exact List.mem_append_left _ (hearlier before node after hsplit turn hpath)
  obtain ⟨before, after, hsplit⟩ := List.append_of_mem hturn
  have hbefore := hearlier before turn after hsplit turn hcycle
  rw [hsplit, List.nodup_append] at hnodup
  exact hnodup.2.2 turn hbefore turn List.mem_cons_self rfl

section
variable [DecidableEq α] {state : State α}

/-- Every node that waits for nothing is ready or visited. -/
def Covered (nodes : List α) (state : State α) : Prop :=
  ∀ node ∈ nodes, state.indegree node = 0 → node ∈ state.ready ++ state.visited

theorem covered_start : Covered nodes (start edges nodes) := by
  intro node hnode hzero
  show node ∈ (nodes.filter _).reverse ++ []
  rw [List.append_nil, List.mem_reverse, List.mem_filter]
  exact ⟨hnode, decide_eq_true hzero⟩

theorem visit_nil (h : state.ready = []) : visit edges fuel state = state := by
  cases fuel with
  | zero => rfl
  | succ fuel =>
    unfold visit
    rw [h]

theorem visit_one {ready : List α} (h : state.ready = node :: ready) :
    visit edges 1 state
      = (dependents edges node).foldl release ⟨state.indegree, ready, state.visited ++ [node]⟩ := by
  unfold visit
  rw [h]
  rfl

theorem visit_succ : visit edges (fuel + 1) state = visit edges fuel (visit edges 1 state) := by
  cases hready : state.ready with
  | nil => rw [visit_nil hready, visit_nil hready, visit_nil hready]
  | cons node ready =>
    rw [visit_one hready]
    conv_lhs => unfold visit
    rw [hready]

theorem foldl_release_visited (dependents : List α) :
    (dependents.foldl release state).visited = state.visited := by
  induction dependents generalizing state with
  | nil => rfl
  | cons first rest ih => exact ih

/-- A visit goes on until nothing is ready or the fuel is used up. -/
theorem visit_exhausts (fuel : Nat) (state : State α) :
    (visit edges fuel state).ready = []
      ∨ (visit edges fuel state).visited.length = state.visited.length + fuel := by
  induction fuel generalizing state with
  | zero => exact Or.inr rfl
  | succ fuel ih =>
    cases hready : state.ready with
    | nil =>
      rw [visit_nil hready]
      exact Or.inl hready
    | cons node ready =>
      have hone : (visit edges 1 state).visited = state.visited ++ [node] := by
        rw [visit_one hready]
        exact foldl_release_visited _
      rw [visit_succ]
      refine (ih (visit edges 1 state)).imp id fun hlength => ?_
      rw [hlength, hone, List.length_append, List.length_singleton]
      omega

theorem Covered.visit (fuel : Nat) (hedges : ∀ edge ∈ edges, edge.2 ∈ nodes) (hcounted : Counted edges nodes state)
    (hordered : Ordered edges state.visited) (h : Covered nodes state) :
    Covered nodes (visit edges fuel state) := by
  induction fuel generalizing state with
  | zero => exact h
  | succ fuel ih =>
    rw [visit_succ]
    obtain ⟨hnext, hnextOrdered⟩ : Counted edges nodes (CountedOrder.visit edges 1 state)
        ∧ Ordered edges (CountedOrder.visit edges 1 state).visited := hcounted.visit hedges hordered
    refine ih hnext hnextOrdered ?_
    cases hready : state.ready with
    | nil =>
      rw [visit_nil hready]
      exact h
    | cons node ready =>
      have hfresh : node ∉ state.visited := by
        have hnodup := hcounted.nodup
        rw [hready, List.cons_append, List.nodup_cons] at hnodup
        exact fun hmem => hnodup.1 (List.mem_append_right _ hmem)
      have hwait (other : α) : (dependents edges node).count other ≤ state.indegree other := by
        rw [hcounted.count, length_waiting_visit other hfresh]
        exact Nat.le_add_left _ _
      obtain ⟨hcount, hvisited, pushed, hpushedReady, -, hpushed⟩ :=
        @release_foldl α _ _ ⟨state.indegree, ready, state.visited ++ [node]⟩ hwait
      intro other hother hzero
      rw [visit_one hready, hcount] at hzero
      rw [visit_one hready, hpushedReady, hvisited]
      have hequal : state.indegree other = (dependents edges node).count other := by
        have hle := hwait other
        simp only at hzero
        omega
      by_cases hdependent : other ∈ dependents edges node
      · exact List.mem_append_left _ (List.mem_append_left _ ((hpushed other).mpr ⟨hdependent, hequal⟩))
      · rw [List.count_eq_zero.mpr hdependent] at hequal
        have hold := h other hother hequal
        rw [hready, List.cons_append, List.mem_cons, List.mem_append] at hold
        simp only [List.mem_append, List.mem_singleton]
        tauto

/-- Nothing is ready at the end of a run. -/
theorem run_ready (h : nodes.Nodup) (hedges : ∀ edge ∈ edges, edge.2 ∈ nodes) :
    (run edges nodes).ready = [] := by
  have hexhausts : (run edges nodes).ready = []
      ∨ (run edges nodes).visited.length = (start edges nodes).visited.length + nodes.length :=
    visit_exhausts nodes.length (start edges nodes)
  rcases hexhausts with hempty | hlength
  · exact hempty
  · have hcounted := (run_spec h hedges).1
    have hall := (hcounted.nodup.subperm hcounted.subset).length_le
    have hvisited : (run edges nodes).visited.length = nodes.length := by
      refine Eq.trans hlength ?_
      show 0 + nodes.length = nodes.length
      exact Nat.zero_add _
    rw [List.length_append, hvisited] at hall
    exact List.length_eq_zero_iff.mp (by omega)

theorem run_visits (h : nodes.Nodup) (hedges : ∀ edge ∈ edges, edge.2 ∈ nodes) (hnode : node ∈ nodes)
    (hzero : (run edges nodes).indegree node = 0) : node ∈ (run edges nodes).visited := by
  have hordered : Ordered edges (start edges nodes).visited := by
    intro before last after hsplit
    cases before <;> exact absurd hsplit (by simp [start])
  have hcovered : Covered nodes (run edges nodes) :=
    covered_start.visit nodes.length hedges (counted_start h) hordered
  have hmem := hcovered node hnode hzero
  rw [run_ready h hedges, List.nil_append] at hmem
  exact hmem

/-- A node is left over exactly when it waits for a node that waits for itself. -/
theorem left_iff (h : nodes.Nodup) (hedges : ∀ edge ∈ edges, edge.1 ∈ nodes ∧ edge.2 ∈ nodes)
    (hnode : node ∈ nodes) :
    0 < (run edges nodes).indegree node
      ↔ ∃ turn, ReflTransGen (Waits edges) node turn ∧ TransGen (Waits edges) turn turn := by
  have hends : ∀ edge ∈ edges, edge.2 ∈ nodes := fun edge hedge => (hedges edge hedge).2
  obtain ⟨hcounted, hordered⟩ := run_spec h hends
  have hnodup : (run edges nodes).visited.Nodup := hcounted.nodup.of_append_right
  constructor
  · intro hpositive
    have hfinite : {other | other ∈ nodes ∧ 0 < (run edges nodes).indegree other}.Finite :=
      (List.finite_toSet nodes).subset fun other hother => hother.1
    refine exists_cycle_of_serial hfinite ?_ ⟨hnode, hpositive⟩
    rintro other ⟨hother, hwaits⟩
    rw [hcounted.count] at hwaits
    obtain ⟨edge, hedge⟩ := List.exists_mem_of_length_pos hwaits
    obtain ⟨hmem, hboth⟩ := List.mem_filter.mp hedge
    obtain ⟨hend, hunvisited⟩ := of_decide_eq_true hboth
    refine ⟨edge.1, ⟨(hedges edge hmem).1, ?_⟩, ?_⟩
    · by_contra hzero
      exact hunvisited (run_visits h hends (hedges edge hmem).1 (Nat.eq_zero_of_not_pos hzero))
    · show (edge.1, other) ∈ edges
      rw [← hend]
      exact hmem
  · rintro ⟨turn, hreach, hcycle⟩
    by_contra hzero
    exact hordered.acyclic hnodup (run_visits h hends hnode (Nat.eq_zero_of_not_pos hzero)) hreach hcycle

/-- Every node is visited exactly when no node waits for itself. -/
theorem run_visits_iff (h : nodes.Nodup) (hedges : ∀ edge ∈ edges, edge.1 ∈ nodes ∧ edge.2 ∈ nodes) :
    (run edges nodes).visited.length = nodes.length ↔ ¬ ∃ node, TransGen (Waits edges) node node := by
  have hends : ∀ edge ∈ edges, edge.2 ∈ nodes := fun edge hedge => (hedges edge hedge).2
  obtain ⟨hcounted, hordered⟩ := run_spec h hends
  have hsubset : (run edges nodes).visited ⊆ nodes :=
    fun node hnode => hcounted.subset node (List.mem_append_right _ hnode)
  have hsubperm := hcounted.nodup.of_append_right.subperm hsubset
  constructor
  · rintro hlength ⟨node, hcycle⟩
    obtain ⟨target, hedge, -⟩ := TransGen.head'_iff.mp hcycle
    have hall := (hsubperm.perm_of_length_le (Nat.le_of_eq hlength.symm)).symm.subset
    exact hordered.acyclic hcounted.nodup.of_append_right (hall (hedges _ hedge).2) ReflTransGen.refl hcycle
  · intro hacyclic
    refine Nat.le_antisymm hsubperm.length_le (h.subperm fun node hnode => ?_).length_le
    by_contra hleft
    have hpositive : 0 < (run edges nodes).indegree node := by
      by_contra hzero
      exact hleft (run_visits h hends hnode (Nat.eq_zero_of_not_pos hzero))
    obtain ⟨turn, -, hcycle⟩ := (left_iff h hedges hnode).mp hpositive
    exact hacyclic ⟨turn, hcycle⟩

end
end CountedOrder
