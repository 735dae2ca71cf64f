import Boxferry.Library.DepthFirst
import Boxferry.Library.Results
import Boxferry.Library.Worklist
import Mathlib.Data.List.Perm.Subperm

/-! # Recursive visits

A recursive visit of what can be reached, with the nodes it is inside of and the nodes it has
finished. It stops at a node that cannot be followed and at a node that it is inside of;
otherwise it finishes exactly what can be reached, and no edges lead around there. -/
set_option autoImplicit false

namespace Visits
open Worklist Relation
variable {α ε : Type}

structure Marks (α : Type) where
  visiting : List α
  reached : List α

/-- Why a visit ends early. -/
inductive Stop (ε α : Type) where
  | unfinished
  | cycle (node : α)
  | failed (failure : ε) (node : α)

section
variable [DecidableEq α]

/-- Visits a node, in at most as many nested calls as the fuel says. -/
def visit (edges : α → Except ε (List α)) : Nat → Marks α → α → Except (Stop ε α) (Marks α)
  | 0, _, _ => .error .unfinished
  | fuel + 1, marks, node =>
    if node ∈ marks.visiting then .error (.cycle node)
    else if node ∈ marks.reached then .ok marks
    else
      match edges node with
      | .error failure => .error (.failed failure node)
      | .ok targets => do
        let found ← targets.foldlM (visit edges fuel) ⟨node :: marks.visiting, marks.reached⟩
        return ⟨found.visiting.erase node, node :: found.reached⟩

def visitAll (edges : α → Except ε (List α)) (fuel : Nat) (roots : List α) : Except (Stop ε α) (Marks α) :=
  roots.foldlM (visit edges fuel) ⟨[], []⟩

end

variable {edges : α → Except ε (List α)} {roots nodes list : List α} {marks found middle : Marks α} {node : α}
  {fuel : Nat}

/-- From a finished node, everything that can be reached is finished, and no edges lead around. -/
structure Finished (edges : α → Except ε (List α)) (roots : List α) (marks : Marks α) : Prop where
  reached : ∀ node ∈ marks.reached, Reached edges roots node
  closed : ∀ node ∈ marks.reached, ∃ targets, edges node = .ok targets ∧ ∀ target ∈ targets, target ∈ marks.reached
  acyclic : ∀ node ∈ marks.reached, Acc (fun target source => Edge edges source target) node

/-- What a visit that was not stopped leads to. -/
structure Visited (edges : α → Except ε (List α)) (roots : List α) (marks found : Marks α) : Prop where
  finished : Finished edges roots found
  visiting : found.visiting = marks.visiting
  grows : ∀ node ∈ marks.reached, node ∈ found.reached

theorem Visited.refl (h : Finished edges roots marks) : Visited edges roots marks marks := ⟨h, rfl, fun _ h => h⟩

theorem Visited.trans (h : Visited edges roots marks middle) (hnext : Visited edges roots middle found) :
    Visited edges roots marks found :=
  ⟨hnext.finished, hnext.visiting.trans h.visiting, fun node hnode => hnext.grows node (h.grows node hnode)⟩

/-- What a stop tells of the nodes that can be reached. -/
def Stops (edges : α → Except ε (List α)) (roots : List α) : Stop ε α → Prop
  | .unfinished => False
  | .cycle node => Reached edges roots node ∧ TransGen (Edge edges) node node
  | .failed failure node => Reached edges roots node ∧ edges node = .error failure

/-- A result is a stop that tells the truth, or the visit of all nodes of the list. -/
def Ends (edges : α → Except ε (List α)) (roots list : List α) (marks : Marks α) :
    Except (Stop ε α) (Marks α) → Prop
  | .error stop => Stops edges roots stop
  | .ok found => Visited edges roots marks found ∧ ∀ node ∈ list, node ∈ found.reached

theorem reached_tail {target : α} (h : Reached edges roots node) (hedge : Edge edges node target) :
    Reached edges roots target := by
  obtain ⟨first, hfirst, hreach⟩ := h
  exact ⟨first, hfirst, hreach.tail hedge⟩

/-- Visits of the nodes of a list one after the other, as each step visits its node. -/
theorem ends_fold (step : Marks α → α → Except (Stop ε α) (Marks α)) {inside : List α}
    (hstep : ∀ node ∈ list, ∀ marks, Finished edges roots marks → marks.visiting = inside →
      Ends edges roots [node] marks (step marks node))
    (h : Finished edges roots marks) (hinside : marks.visiting = inside) :
    Ends edges roots list marks (list.foldlM step marks) := by
  induction list generalizing marks with
  | nil => exact ⟨Visited.refl h, fun _ hmem => absurd hmem List.not_mem_nil⟩
  | cons node rest ih =>
    have hfirst := hstep node List.mem_cons_self marks h hinside
    rw [List.foldlM_cons]
    cases hresult : step marks node with
    | error stop =>
      rw [hresult] at hfirst
      exact hfirst
    | ok middle =>
      rw [hresult] at hfirst
      obtain ⟨hvisited, hnode⟩ := hfirst
      have hrest := ih (fun other hother => hstep other (List.mem_cons_of_mem node hother)) hvisited.finished
        (hvisited.visiting.trans hinside)
      show Ends edges roots (node :: rest) marks (rest.foldlM step middle)
      cases hlast : rest.foldlM step middle with
      | error stop =>
        rw [hlast] at hrest
        exact hrest
      | ok found =>
        rw [hlast] at hrest
        refine ⟨hvisited.trans hrest.1, fun other hother => ?_⟩
        rcases List.mem_cons.mp hother with rfl | hother
        · exact hrest.1.grows other (hnode other List.mem_cons_self)
        · exact hrest.2 other hother

/-- A node whose targets are all finished is finished with them. -/
theorem Finished.cons {targets : List α} (h : Finished edges roots marks) (hnode : Reached edges roots node)
    (hedges : edges node = .ok targets) (htargets : ∀ target ∈ targets, target ∈ marks.reached) (inside : List α) :
    Finished edges roots ⟨inside, node :: marks.reached⟩ := by
  constructor
  · intro other hother
    rcases List.mem_cons.mp hother with rfl | hother
    · exact hnode
    · exact h.reached other hother
  · intro other hother
    rcases List.mem_cons.mp hother with rfl | hother
    · exact ⟨targets, hedges, fun target htarget => List.mem_cons_of_mem _ (htargets target htarget)⟩
    · obtain ⟨others, hothers, hmem⟩ := h.closed other hother
      exact ⟨others, hothers, fun target htarget => List.mem_cons_of_mem _ (hmem target htarget)⟩
  · intro other hother
    rcases List.mem_cons.mp hother with rfl | hother
    · refine Acc.intro other fun target hedge => ?_
      obtain ⟨others, hothers, htarget⟩ := hedge
      rw [hedges, Except.ok.injEq] at hothers
      exact h.acyclic target (htargets target (hothers ▸ htarget))
    · exact h.acyclic other hother

variable [DecidableEq α]

/-- With enough fuel a visit is stopped by what it says, or finishes the node. -/
theorem visit_spec (hnodes : ∀ node targets, edges node = .ok targets → node ∈ nodes)
    (h : Finished edges roots marks) (hnode : Reached edges roots node)
    (hinside : ∀ outer ∈ marks.visiting, TransGen (Edge edges) outer node) (hnodup : marks.visiting.Nodup)
    (hsubset : ∀ outer ∈ marks.visiting, outer ∈ nodes) (hfuel : nodes.length < fuel + marks.visiting.length) :
    Ends edges roots [node] marks (visit edges fuel marks node) := by
  induction fuel generalizing marks node with
  | zero =>
    have hlength := (hnodup.subperm hsubset).length_le
    omega
  | succ fuel ih =>
    unfold visit
    by_cases hvisiting : node ∈ marks.visiting
    · rw [if_pos hvisiting]
      exact ⟨hnode, hinside node hvisiting⟩
    · rw [if_neg hvisiting]
      by_cases hreached : node ∈ marks.reached
      · rw [if_pos hreached]
        refine ⟨Visited.refl h, fun other hother => ?_⟩
        rw [List.mem_singleton.mp hother]
        exact hreached
      · rw [if_neg hreached]
        cases hedges : edges node with
        | error failure => exact ⟨hnode, hedges⟩
        | ok targets =>
          have hentered : Finished edges roots ⟨node :: marks.visiting, marks.reached⟩ :=
            ⟨h.reached, h.closed, h.acyclic⟩
          have hfold : Ends edges roots targets ⟨node :: marks.visiting, marks.reached⟩
              (targets.foldlM (visit edges fuel) ⟨node :: marks.visiting, marks.reached⟩) := by
            refine ends_fold _ (fun target htarget inner hinner hsame => ?_) hentered rfl
            have hedge : Edge edges node target := ⟨targets, hedges, htarget⟩
            refine ih hinner (reached_tail hnode hedge) ?_ ?_ ?_ ?_
            · intro outer houter
              rw [hsame] at houter
              rcases List.mem_cons.mp houter with rfl | houter
              · exact TransGen.single hedge
              · exact (hinside outer houter).tail hedge
            · rw [hsame]
              exact List.nodup_cons.mpr ⟨hvisiting, hnodup⟩
            · intro outer houter
              rw [hsame] at houter
              rcases List.mem_cons.mp houter with rfl | houter
              · exact hnodes outer targets hedges
              · exact hsubset outer houter
            · rw [hsame, List.length_cons]
              omega
          simp only
          cases hresult : targets.foldlM (visit edges fuel) ⟨node :: marks.visiting, marks.reached⟩ with
          | error stop =>
            rw [hresult] at hfold
            exact hfold
          | ok found =>
            rw [hresult] at hfold
            obtain ⟨hvisited, htargets⟩ := hfold
            refine ⟨⟨hvisited.finished.cons hnode hedges htargets _, ?_, fun other hother => ?_⟩, ?_⟩
            · show found.visiting.erase node = marks.visiting
              rw [hvisited.visiting, List.erase_cons_head]
            · exact List.mem_cons_of_mem _ (hvisited.grows other hother)
            · intro other hother
              rw [List.mem_singleton.mp hother]
              exact List.mem_cons_self

/-- The visit of the roots is stopped by what it says, or it has finished exactly what can be
reached from them; each of these nodes can be followed, and no edges lead around one. -/
theorem visitAll_spec (roots : List α) (hnodes : ∀ node targets, edges node = .ok targets → node ∈ nodes)
    (hfuel : nodes.length < fuel) :
    match visitAll edges fuel roots with
    | .error stop => Stops edges roots stop
    | .ok found => (∀ node, node ∈ found.reached ↔ Reached edges roots node) ∧
        ∀ node, Reached edges roots node →
          (∃ targets, edges node = .ok targets) ∧ ¬ TransGen (Edge edges) node node := by
  have hstart : Finished edges roots ⟨[], []⟩ :=
    ⟨fun _ h => absurd h List.not_mem_nil, fun _ h => absurd h List.not_mem_nil, fun _ h => absurd h List.not_mem_nil⟩
  have hall : Ends edges roots roots ⟨[], []⟩ (roots.foldlM (visit edges fuel) ⟨[], []⟩) := by
    refine ends_fold _ (fun root hroot marks hmarks hinside => ?_) hstart rfl
    refine visit_spec hnodes hmarks ⟨root, hroot, ReflTransGen.refl⟩ ?_ ?_ ?_ ?_
    · rw [hinside]
      exact fun _ h => absurd h List.not_mem_nil
    · rw [hinside]
      exact List.nodup_nil
    · rw [hinside]
      exact fun _ h => absurd h List.not_mem_nil
    · rw [hinside]
      exact hfuel
  unfold visitAll
  cases hresult : roots.foldlM (visit edges fuel) ⟨[], []⟩ with
  | error stop =>
    rw [hresult] at hall
    exact hall
  | ok found =>
    rw [hresult] at hall
    obtain ⟨hvisited, hroots⟩ := hall
    have hreached : ∀ node, node ∈ found.reached ↔ Reached edges roots node := by
      intro node
      constructor
      · exact hvisited.finished.reached node
      · rintro ⟨first, hfirst, hreach⟩
        induction hreach with
        | refl => exact hroots first hfirst
        | tail _ hedge ih =>
          obtain ⟨targets, htargets, hmem⟩ := hedge
          obtain ⟨others, hothers, hclosed⟩ := hvisited.finished.closed _ ih
          rw [htargets, Except.ok.injEq] at hothers
          exact hclosed _ (hothers ▸ hmem)
    refine ⟨hreached, fun node hnode => ?_⟩
    have hmem := (hreached node).mpr hnode
    obtain ⟨targets, htargets, -⟩ := hvisited.finished.closed node hmem
    exact ⟨⟨targets, htargets⟩, DepthFirst.acyclic_of_acc (hvisited.finished.acyclic node hmem)⟩

end Visits
