import Mathlib.Algebra.GroupWithZero.Nat
import Mathlib.Logic.Relation

/-! # Worklist closures

A search that takes a node off a queue, follows its edges unless it has been visited,
and puts their targets on the queue. Following a node may fail. The search ends on
every finite graph, cycles included, and has then visited exactly what can be reached. -/
set_option autoImplicit false

namespace Worklist
open Relation
variable {α ε : Type} [DecidableEq α]

/-- Visits the queue, its first node next, in at most as many rounds as the fuel says. -/
def close (edges : α → Except ε (List α)) : Nat → List α → List α → Option (Except ε (List α))
  | 0, _, _ => none
  | _ + 1, [], visited => some (.ok visited)
  | fuel + 1, node :: queue, visited =>
    if node ∈ visited then close edges fuel queue visited
    else
      match edges node with
      | .error failure => some (.error failure)
      | .ok targets => close edges fuel (targets.reverse ++ queue) (node :: visited)

/-- An edge that is followed without a failure. -/
def Edge (edges : α → Except ε (List α)) (source target : α) : Prop :=
  ∃ targets, edges source = .ok targets ∧ target ∈ targets

/-- The node can be reached from one of the start. -/
def Reached (edges : α → Except ε (List α)) (start : List α) (node : α) : Prop :=
  ∃ first ∈ start, ReflTransGen (Edge edges) first node

section
omit [DecidableEq α]
variable {edges : α → Except ε (List α)} {start more : List α} {node : α}

end

/-! ## What a search visits -/

/-- Everything seen can be reached, and every edge of a visited node has been followed. -/
structure Closing (edges : α → Except ε (List α)) (start queue visited : List α) : Prop where
  sound : ∀ node, node ∈ visited ∨ node ∈ queue → Reached edges start node
  starts : ∀ node ∈ start, node ∈ visited ∨ node ∈ queue
  followed : ∀ node ∈ visited, ∃ targets, edges node = .ok targets ∧
    ∀ target ∈ targets, target ∈ visited ∨ target ∈ queue

variable {edges : α → Except ε (List α)} {start queue visited found targets : List α} {node : α} {fuel : Nat}

omit [DecidableEq α] in
theorem closing_start (start : List α) : Closing edges start start [] where
  sound := fun node h => ⟨node, h.resolve_left List.not_mem_nil, ReflTransGen.refl⟩
  starts := fun _ h => Or.inr h
  followed := fun _ h => absurd h List.not_mem_nil

omit [DecidableEq α] in
theorem Closing.skip (h : Closing edges start (node :: queue) visited) (hvisited : node ∈ visited) :
    Closing edges start queue visited := by
  have hkeep : ∀ other, other ∈ visited ∨ other ∈ node :: queue → other ∈ visited ∨ other ∈ queue := by
    rintro other (hother | hother)
    · exact Or.inl hother
    · rcases List.mem_cons.mp hother with rfl | hother
      · exact Or.inl hvisited
      · exact Or.inr hother
  constructor
  · rintro other (hother | hother)
    · exact h.sound other (Or.inl hother)
    · exact h.sound other (Or.inr (List.mem_cons_of_mem _ hother))
  · exact fun other hother => hkeep other (h.starts other hother)
  · intro other hother
    obtain ⟨targets, htargets, hmem⟩ := h.followed other hother
    exact ⟨targets, htargets, fun target htarget => hkeep target (hmem target htarget)⟩

omit [DecidableEq α] in
theorem Closing.follow (h : Closing edges start (node :: queue) visited) (hedges : edges node = .ok targets) :
    Closing edges start (targets.reverse ++ queue) (node :: visited) := by
  have hnode : Reached edges start node := h.sound node (Or.inr List.mem_cons_self)
  have hkeep : ∀ other, other ∈ visited ∨ other ∈ node :: queue →
      other ∈ node :: visited ∨ other ∈ targets.reverse ++ queue := by
    rintro other (hother | hother)
    · exact Or.inl (List.mem_cons_of_mem _ hother)
    · rcases List.mem_cons.mp hother with rfl | hother
      · exact Or.inl List.mem_cons_self
      · exact Or.inr (List.mem_append_right _ hother)
  constructor
  · rintro other (hother | hother)
    · rcases List.mem_cons.mp hother with rfl | hother
      · exact hnode
      · exact h.sound other (Or.inl hother)
    · rcases List.mem_append.mp hother with htarget | hother
      · obtain ⟨first, hfirst, hreach⟩ := hnode
        exact ⟨first, hfirst, hreach.tail ⟨targets, hedges, List.mem_reverse.mp htarget⟩⟩
      · exact h.sound other (Or.inr (List.mem_cons_of_mem _ hother))
  · exact fun other hother => hkeep other (h.starts other hother)
  · intro other hother
    rcases List.mem_cons.mp hother with rfl | hother
    · exact ⟨targets, hedges, fun target htarget => Or.inr (List.mem_append_left _ (List.mem_reverse.mpr htarget))⟩
    · obtain ⟨others, hothers, hmem⟩ := h.followed other hother
      exact ⟨others, hothers, fun target htarget => hkeep target (hmem target htarget)⟩

omit [DecidableEq α] in
theorem Closing.reached (h : Closing edges start [] visited) (node : α) :
    node ∈ visited ↔ Reached edges start node := by
  constructor
  · exact fun hnode => h.sound node (Or.inl hnode)
  · rintro ⟨first, hfirst, hreach⟩
    induction hreach with
    | refl => exact (h.starts first hfirst).resolve_right List.not_mem_nil
    | tail _ hedge ih =>
      obtain ⟨targets, htargets, htarget⟩ := hedge
      obtain ⟨followed, hfollowed, hmem⟩ := h.followed _ ih
      rw [htargets, Except.ok.injEq] at hfollowed
      exact (hmem _ (hfollowed ▸ htarget)).resolve_right List.not_mem_nil

/-- A search that ends without a failure has visited exactly what can be reached, and every
edge on the way could be followed. -/
theorem close_spec (hclosing : Closing edges start queue visited)
    (h : close edges fuel queue visited = some (.ok found)) :
    (∀ node, node ∈ found ↔ Reached edges start node) ∧ ∀ node ∈ found, ∃ targets, edges node = .ok targets := by
  induction fuel generalizing queue visited with
  | zero => cases h
  | succ fuel ih =>
    cases queue with
    | nil =>
      obtain rfl := Except.ok.inj (Option.some.inj h)
      refine ⟨hclosing.reached, fun node hnode => ?_⟩
      obtain ⟨targets, htargets, -⟩ := hclosing.followed node hnode
      exact ⟨targets, htargets⟩
    | cons node queue =>
      rw [close] at h
      by_cases hvisited : node ∈ visited
      · rw [if_pos hvisited] at h
        exact ih (hclosing.skip hvisited) h
      · rw [if_neg hvisited] at h
        cases hedges : edges node with
        | error failure =>
          rw [hedges] at h
          cases h
        | ok targets =>
          rw [hedges] at h
          exact ih (hclosing.follow hedges) h

/-! ## The end of a search -/

omit [DecidableEq α] in
/-- How many edges lead away from the node. -/
def degree (edges : α → Except ε (List α)) (node : α) : Nat := (edges node).toOption.elim 0 List.length

/-- The rounds that are left: one for each node on the queue and each edge of a node not visited. -/
def left (edges : α → Except ε (List α)) (nodes queue visited : List α) : Nat :=
  queue.length + ((nodes.filter fun node => node ∉ visited).map (degree edges)).sum

theorem sum_unvisited (edges : α → Except ε (List α)) {nodes : List α} (hnode : node ∈ nodes) (hvisited : node ∉ visited) :
    ((nodes.filter fun other => other ∉ node :: visited).map (degree edges)).sum + degree edges node ≤
      ((nodes.filter fun other => other ∉ visited).map (degree edges)).sum := by
  have hsum : ∀ list : List α,
      ((list.filter fun other => other ∉ node :: visited).map (degree edges)).sum +
          (if node ∈ list then degree edges node else 0) ≤
        ((list.filter fun other => other ∉ visited).map (degree edges)).sum := by
    intro list
    induction list with
    | nil => exact Nat.le_refl _
    | cons other rest ih =>
      by_cases hsame : other = node
      · subst hsame
        rw [List.filter_cons_of_neg (by simp), List.filter_cons_of_pos (by simp [hvisited]),
          if_pos List.mem_cons_self, List.map_cons, List.sum_cons]
        omega
      · have hmem : node ∈ other :: rest ↔ node ∈ rest := by
          rw [List.mem_cons]
          exact ⟨fun h => h.resolve_left (Ne.symm hsame), Or.inr⟩
        simp only [hmem]
        by_cases hother : other ∈ visited
        · rw [List.filter_cons_of_neg (by simp [hother]), List.filter_cons_of_neg (by simp [hother])]
          exact ih
        · rw [List.filter_cons_of_pos (by simp [hother, hsame]), List.filter_cons_of_pos (by simp [hother]),
            List.map_cons, List.map_cons, List.sum_cons, List.sum_cons]
          omega
  have hall := hsum nodes
  rw [if_pos hnode] at hall
  exact hall

theorem left_follow {nodes : List α} (queue : List α) (hnode : node ∈ nodes) (hvisited : node ∉ visited)
    (hedges : edges node = .ok targets) :
    left edges nodes (targets.reverse ++ queue) (node :: visited) < left edges nodes (node :: queue) visited := by
  have hdegree : degree edges node = targets.length := by
    unfold degree
    rw [hedges]
    rfl
  have hsum := sum_unvisited edges hnode hvisited
  unfold left
  rw [List.length_append, List.length_reverse, List.length_cons]
  omega

/-- A search of a finite graph ends. -/
theorem close_ends {nodes : List α} (hqueue : ∀ node ∈ queue, node ∈ nodes)
    (hclosed : ∀ node ∈ nodes, ∀ targets, edges node = .ok targets → ∀ target ∈ targets, target ∈ nodes)
    (hfuel : left edges nodes queue visited < fuel) : ∃ result, close edges fuel queue visited = some result := by
  induction fuel generalizing queue visited with
  | zero => omega
  | succ fuel ih =>
    cases queue with
    | nil => exact ⟨.ok visited, rfl⟩
    | cons node queue =>
      have hrest : ∀ other ∈ queue, other ∈ nodes := fun other hother => hqueue other (List.mem_cons_of_mem _ hother)
      rw [close]
      by_cases hvisited : node ∈ visited
      · rw [if_pos hvisited]
        refine ih hrest ?_
        unfold left at hfuel ⊢
        rw [List.length_cons] at hfuel
        omega
      · rw [if_neg hvisited]
        have hnode := hqueue node List.mem_cons_self
        cases hedges : edges node with
        | error failure => exact ⟨.error failure, rfl⟩
        | ok targets =>
          have hleft := left_follow queue hnode hvisited hedges
          refine ih ?_ (by omega)
          intro other hother
          rcases List.mem_append.mp hother with htarget | hother
          · exact hclosed node hnode targets hedges other (List.mem_reverse.mp htarget)
          · exact hrest other hother

end Worklist
