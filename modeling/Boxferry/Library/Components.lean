import Mathlib.Data.Finset.Max
import Mathlib.Data.Finset.Sort
import Mathlib.Logic.Relation

/-! # Connected components

A search that takes its nodes out of the set of the remaining ones while it goes on.
Each round leaves a component: its nodes are those that edges between remaining nodes
connect to the first one. -/
set_option autoImplicit false

namespace Components
open Relation
variable {α : Type} [LinearOrder α]

structure Expansion (α : Type) where
  remaining : Finset α
  component : Finset α
  /-- The nodes whose edges are still to be followed, the next one first. -/
  pending : List α

/-- Takes a neighbor that remains into the component. -/
def absorb (expansion : Expansion α) (neighbor : α) : Expansion α :=
  if neighbor ∈ expansion.remaining then
    ⟨expansion.remaining.erase neighbor, insert neighbor expansion.component, neighbor :: expansion.pending⟩
  else expansion

def Expansion.work (expansion : Expansion α) : Nat :=
  expansion.remaining.card + expansion.pending.length

theorem work_absorb (expansion : Expansion α) (neighbor : α) :
    (absorb expansion neighbor).work = expansion.work := by
  unfold absorb Expansion.work
  by_cases hmem : neighbor ∈ expansion.remaining
  · rw [if_pos hmem]
    have hcard := Finset.card_erase_add_one hmem
    simp only [List.length_cons]
    omega
  · rw [if_neg hmem]

theorem work_foldl_absorb (neighbors : List α) (expansion : Expansion α) :
    (neighbors.foldl absorb expansion).work = expansion.work := by
  induction neighbors generalizing expansion with
  | nil => rfl
  | cons neighbor rest ih =>
    rw [List.foldl_cons, ih, work_absorb]

/-- Follows the edges of the pending nodes until there are none. -/
def expand (neighbors : α → List α) (expansion : Expansion α) : Expansion α :=
  match _h : expansion.pending with
  | [] => expansion
  | identity :: pending =>
    expand neighbors ((neighbors identity).foldl absorb { expansion with pending })
termination_by expansion.work
decreasing_by
  rw [work_foldl_absorb]
  unfold Expansion.work
  rw [‹expansion.pending = _›, List.length_cons]
  exact Nat.lt_succ_self _

/-! ## What is expanded -/

variable {neighbors : α → List α} {nodes : Finset α} {first : α} {expansion : Expansion α}

/-- An edge between nodes of the set. -/
def Within (neighbors : α → List α) (nodes : Finset α) (node target : α) : Prop :=
  node ∈ nodes ∧ target ∈ nodes ∧ target ∈ neighbors node

/-- The nodes are in the component or remain, and the component is connected to the first node. -/
structure Grown (neighbors : α → List α) (nodes : Finset α) (first : α) (expansion : Expansion α) : Prop where
  covers : ∀ node, node ∈ nodes ↔ node ∈ expansion.component ∨ node ∈ expansion.remaining
  apart : ∀ node ∈ expansion.component, node ∉ expansion.remaining
  start : first ∈ expansion.component
  pending : ∀ node ∈ expansion.pending, node ∈ expansion.component
  reached : ∀ node ∈ expansion.component, ReflTransGen (Within neighbors nodes) first node
  followed : ∀ node ∈ expansion.component, node ∉ expansion.pending →
    ∀ target ∈ neighbors node, target ∉ expansion.remaining

theorem grown_start (h : first ∈ nodes) : Grown neighbors nodes first ⟨nodes.erase first, {first}, [first]⟩ where
  covers node := by
    rw [Finset.mem_singleton, Finset.mem_erase]
    by_cases hsame : node = first
    · rw [hsame]
      exact ⟨fun _ => Or.inl rfl, fun _ => h⟩
    · exact ⟨fun hnode => Or.inr ⟨hsame, hnode⟩, fun hnode => (hnode.resolve_left hsame).2⟩
  apart node hnode := by
    rw [Finset.mem_singleton.mp hnode]
    exact Finset.notMem_erase first nodes
  start := Finset.mem_singleton_self first
  pending node hnode := Finset.mem_singleton.mpr (List.mem_singleton.mp hnode)
  reached node hnode := by
    rw [Finset.mem_singleton.mp hnode]
  followed node hnode hdone := by
    rw [Finset.mem_singleton.mp hnode] at hdone
    exact absurd (List.mem_singleton.mpr rfl) hdone

/-- While the edges of a node are followed: all but those to its other neighbors. -/
structure Following (neighbors : α → List α) (nodes : Finset α) (first identity : α) (left : List α)
    (expansion : Expansion α) : Prop where
  covers : ∀ node, node ∈ nodes ↔ node ∈ expansion.component ∨ node ∈ expansion.remaining
  apart : ∀ node ∈ expansion.component, node ∉ expansion.remaining
  start : first ∈ expansion.component
  here : identity ∈ expansion.component
  pending : ∀ node ∈ expansion.pending, node ∈ expansion.component
  reached : ∀ node ∈ expansion.component, ReflTransGen (Within neighbors nodes) first node
  followed : ∀ node ∈ expansion.component, node ∉ expansion.pending →
    ∀ target ∈ neighbors node, node = identity ∧ target ∈ left ∨ target ∉ expansion.remaining

theorem Following.absorb {identity neighbor : α} {left : List α} (hedge : neighbor ∈ neighbors identity)
    (h : Following neighbors nodes first identity (neighbor :: left) expansion) :
    Following neighbors nodes first identity left (absorb expansion neighbor) := by
  unfold Components.absorb
  by_cases hmem : neighbor ∈ expansion.remaining
  · rw [if_pos hmem]
    have hnode : neighbor ∈ nodes := (h.covers neighbor).mpr (Or.inr hmem)
    constructor
    · intro node
      rw [Finset.mem_insert, Finset.mem_erase, h.covers node]
      by_cases hsame : node = neighbor
      · rw [hsame]
        exact ⟨fun _ => Or.inl (Or.inl rfl), fun _ => Or.inr hmem⟩
      · simp only [hsame, false_or, ne_eq, not_false_eq_true, true_and]
    · intro node hcomponent
      rw [Finset.mem_erase, not_and]
      intro hne
      rcases Finset.mem_insert.mp hcomponent with hsame | hold
      · exact absurd hsame hne
      · exact h.apart node hold
    · exact Finset.mem_insert_of_mem h.start
    · exact Finset.mem_insert_of_mem h.here
    · intro node hpending
      rcases List.mem_cons.mp hpending with hsame | hold
      · rw [hsame]
        exact Finset.mem_insert_self _ _
      · exact Finset.mem_insert_of_mem (h.pending node hold)
    · intro node hcomponent
      rcases Finset.mem_insert.mp hcomponent with hsame | hold
      · rw [hsame]
        refine (h.reached identity h.here).tail ⟨?_, hnode, hedge⟩
        exact (h.covers identity).mpr (Or.inl h.here)
      · exact h.reached node hold
    · intro node hcomponent hdone target htarget
      rw [List.mem_cons, not_or] at hdone
      rcases Finset.mem_insert.mp hcomponent with hsame | hold
      · exact absurd hsame hdone.1
      · rcases h.followed node hold hdone.2 target htarget with ⟨hidentity, hleft⟩ | hgone
        · rcases List.mem_cons.mp hleft with hsame | hleft
          · right
            rw [hsame]
            exact Finset.notMem_erase neighbor expansion.remaining
          · exact Or.inl ⟨hidentity, hleft⟩
        · exact Or.inr fun hstill => hgone (Finset.mem_of_mem_erase hstill)
  · rw [if_neg hmem]
    refine ⟨h.covers, h.apart, h.start, h.here, h.pending, h.reached, ?_⟩
    intro node hcomponent hdone target htarget
    rcases h.followed node hcomponent hdone target htarget with ⟨hidentity, hleft⟩ | hgone
    · rcases List.mem_cons.mp hleft with hsame | hleft
      · right
        rw [hsame]
        exact hmem
      · exact Or.inl ⟨hidentity, hleft⟩
    · exact Or.inr hgone

theorem Following.foldl {identity : α} {left : List α} (hleft : ∀ neighbor ∈ left, neighbor ∈ neighbors identity)
    (h : Following neighbors nodes first identity left expansion) :
    Following neighbors nodes first identity [] (left.foldl Components.absorb expansion) := by
  induction left generalizing expansion with
  | nil => exact h
  | cons neighbor rest ih =>
    rw [List.foldl_cons]
    refine ih (fun other hother => hleft other (List.mem_cons_of_mem neighbor hother)) ?_
    exact h.absorb (hleft neighbor List.mem_cons_self)

/-- An expansion ends with nothing pending, and keeps what has grown. -/
theorem Grown.expand {expansion : Expansion α} (h : Grown neighbors nodes first expansion) :
    Grown neighbors nodes first (Components.expand neighbors expansion)
      ∧ (Components.expand neighbors expansion).pending = [] := by
  unfold Components.expand
  split
  · next hempty => exact ⟨h, hempty⟩
  · next identity pending hpending =>
    have hidentity : identity ∈ expansion.component :=
      h.pending identity (by rw [hpending]; exact List.mem_cons_self)
    have hstart : Following neighbors nodes first identity (neighbors identity) { expansion with pending } := by
      refine ⟨h.covers, h.apart, h.start, hidentity, fun node hnode => ?_, h.reached, ?_⟩
      · exact h.pending node (by rw [hpending]; exact List.mem_cons_of_mem identity hnode)
      · intro node hcomponent hdone target htarget
        by_cases hsame : node = identity
        · exact Or.inl ⟨hsame, hsame ▸ htarget⟩
        · right
          refine h.followed node hcomponent ?_ target htarget
          rw [hpending, List.mem_cons, not_or]
          exact ⟨hsame, hdone⟩
    have hdone := hstart.foldl fun neighbor hneighbor => hneighbor
    refine Grown.expand ⟨hdone.covers, hdone.apart, hdone.start, hdone.pending, hdone.reached, ?_⟩
    intro node hcomponent hfinished target htarget
    rcases hdone.followed node hcomponent hfinished target htarget with ⟨-, hleft⟩ | hgone
    · exact nomatch hleft
    · exact hgone
termination_by expansion.work
decreasing_by
  rw [work_foldl_absorb]
  unfold Expansion.work
  rw [‹expansion.pending = _›, List.length_cons]
  exact Nat.lt_succ_self _

/-! ## All components -/

/-- What expanding the smallest node leads to. -/
def round (neighbors : α → List α) (nodes : Finset α) (h : nodes.Nonempty) : Expansion α :=
  expand neighbors ⟨nodes.erase (nodes.min' h), {nodes.min' h}, [nodes.min' h]⟩

theorem grown_round (neighbors : α → List α) (h : nodes.Nonempty) :
    Grown neighbors nodes (nodes.min' h) (round neighbors nodes h) ∧ (round neighbors nodes h).pending = [] :=
  (grown_start (nodes.min'_mem h)).expand

theorem card_round (h : nodes.Nonempty) : (round neighbors nodes h).remaining.card < nodes.card := by
  have hgrown : Grown neighbors nodes _ (round neighbors nodes h) := (grown_round neighbors h).1
  refine Finset.card_lt_card ⟨fun node hnode => (hgrown.covers node).mpr (Or.inr hnode), fun hsubset => ?_⟩
  exact hgrown.apart _ hgrown.start (hsubset (nodes.min'_mem h))

/-- The nodes in order. -/
def sorted (nodes : Finset α) : List α := nodes.sort

@[simp] theorem mem_sorted {node : α} : node ∈ sorted nodes ↔ node ∈ nodes := by
  unfold sorted
  rw [Finset.mem_sort]

/-- The components of the nodes, each in order and in the order of their smallest nodes. -/
def components (neighbors : α → List α) (nodes : Finset α) : List (List α) :=
  if h : nodes.Nonempty then
    (round neighbors nodes h).component.sort :: components neighbors (round neighbors nodes h).remaining
  else []
termination_by nodes.card
decreasing_by exact card_round h

theorem components_cons (h : nodes.Nonempty) :
    components neighbors nodes
      = (round neighbors nodes h).component.sort :: components neighbors (round neighbors nodes h).remaining := by
  rw [components, dif_pos h]

theorem components_nil (h : ¬ nodes.Nonempty) : components neighbors nodes = [] := by
  rw [components, dif_neg h]

/-! ## What is connected -/

/-- A path of edges between nodes of the set. -/
abbrev Connected (neighbors : α → List α) (nodes : Finset α) : α → α → Prop := ReflTransGen (Within neighbors nodes)

omit [LinearOrder α] in
theorem Connected.symm (hsymm : ∀ node target, target ∈ neighbors node → node ∈ neighbors target) {node target : α}
    (h : Connected neighbors nodes node target) : Connected neighbors nodes target node := by
  induction h with
  | refl => exact ReflTransGen.refl
  | @tail middle last _ hedge ih => exact ih.head ⟨hedge.2.1, hedge.1, hsymm middle last hedge.2.2⟩

/-- The first component is what is connected to its first node. -/
theorem mem_round (h : nodes.Nonempty) {node : α} :
    node ∈ (round neighbors nodes h).component ↔ Connected neighbors nodes (nodes.min' h) node := by
  obtain ⟨hgrown, hdone⟩ := grown_round neighbors h
  constructor
  · exact hgrown.reached node
  · intro hpath
    induction hpath with
    | refl => exact hgrown.start
    | tail _ hedge ih =>
      have hgone := hgrown.followed _ ih (by rw [hdone]; exact List.not_mem_nil) _ hedge.2.2
      exact ((hgrown.covers _).mp hedge.2.1).resolve_right hgone

/-- Between the other nodes nothing changes when the first component is taken away. -/
theorem connected_round (hsymm : ∀ node target, target ∈ neighbors node → node ∈ neighbors target)
    (h : nodes.Nonempty) {node target : α} (hnode : node ∈ (round neighbors nodes h).remaining) :
    Connected neighbors (round neighbors nodes h).remaining node target ↔ Connected neighbors nodes node target := by
  obtain ⟨hgrown, hdone⟩ := grown_round neighbors h
  constructor
  · intro hpath
    refine hpath.lift id fun first second hedge => ?_
    exact ⟨(hgrown.covers first).mpr (Or.inr hedge.1), (hgrown.covers second).mpr (Or.inr hedge.2.1), hedge.2.2⟩
  · intro hpath
    have hboth : target ∈ (round neighbors nodes h).remaining
        ∧ Connected neighbors (round neighbors nodes h).remaining node target := by
      induction hpath with
      | refl => exact ⟨hnode, ReflTransGen.refl⟩
      | @tail middle last _ hedge ih =>
        have hlast : last ∈ (round neighbors nodes h).remaining := by
          refine ((hgrown.covers last).mp hedge.2.1).resolve_left fun hcomponent => ?_
          -- the edge back would have been followed
          refine hgrown.followed last hcomponent (by rw [hdone]; exact List.not_mem_nil) middle ?_ ih.1
          exact hsymm middle last hedge.2.2
        exact ⟨hlast, ih.2.tail ⟨ih.1, hlast, hedge.2.2⟩⟩
    exact hboth.2

/-- The parts are not empty, have no node in common, and hold together what is connected. -/
structure Partitions (neighbors : α → List α) (nodes : Finset α) (parts : List (List α)) : Prop where
  nonempty : ∀ part ∈ parts, part ≠ []
  nodup : ∀ part ∈ parts, part.Nodup
  covers : ∀ node, node ∈ nodes ↔ ∃ part ∈ parts, node ∈ part
  disjoint : parts.Pairwise List.Disjoint
  connected : ∀ node ∈ nodes, ∀ target ∈ nodes,
    (∃ part ∈ parts, node ∈ part ∧ target ∈ part) ↔ Connected neighbors nodes node target

theorem partitions_components (hsymm : ∀ node target, target ∈ neighbors node → node ∈ neighbors target)
    (nodes : Finset α) : Partitions neighbors nodes (components neighbors nodes) := by
  induction nodes using components.induct neighbors with
  | case2 nodes h =>
    rw [components_nil h]
    rw [Finset.not_nonempty_iff_eq_empty] at h
    subst h
    refine ⟨fun _ hpart => (nomatch hpart), fun _ hpart => (nomatch hpart), fun node => ?_, .nil,
      fun node hnode => absurd hnode (Finset.notMem_empty node)⟩
    exact ⟨fun hnode => absurd hnode (Finset.notMem_empty node), fun hparts => by
      obtain ⟨part, hpart, -⟩ := hparts
      exact nomatch hpart⟩
  | case1 nodes h ih =>
    rw [components_cons h]
    have hgrown : Grown neighbors nodes (nodes.min' h) (round neighbors nodes h) := (grown_round neighbors h).1
    have hfirst (node : α) : node ∈ (round neighbors nodes h).component.sort
        ↔ Connected neighbors nodes (nodes.min' h) node := (Finset.mem_sort _).trans (mem_round h)
    constructor
    · intro part hpart
      rcases List.mem_cons.mp hpart with rfl | hrest
      · exact List.ne_nil_of_mem ((hfirst _).mpr ReflTransGen.refl)
      · exact ih.nonempty part hrest
    · intro part hpart
      rcases List.mem_cons.mp hpart with rfl | hrest
      · exact Finset.sort_nodup _ _
      · exact ih.nodup part hrest
    · intro node
      rw [hgrown.covers node, ih.covers node, List.exists_mem_cons_iff, Finset.mem_sort]
    · rw [List.pairwise_cons]
      refine ⟨fun part hpart node hnode hother => ?_, ih.disjoint⟩
      rw [Finset.mem_sort] at hnode
      exact hgrown.apart node hnode ((ih.covers node).mpr ⟨part, hpart, hother⟩)
    · intro node hnode target htarget
      rw [List.exists_mem_cons_iff]
      rcases (hgrown.covers node).mp hnode with hcomponent | hremains
      · have hstart := (mem_round h).mp hcomponent
        constructor
        · rintro (⟨-, hmem⟩ | ⟨part, hpart, hmem, -⟩)
          · exact (hstart.symm hsymm).trans ((hfirst target).mp hmem)
          · exact absurd ((ih.covers node).mpr ⟨part, hpart, hmem⟩) (hgrown.apart node hcomponent)
        · intro hpath
          exact Or.inl ⟨(hfirst node).mpr hstart, (hfirst target).mpr (hstart.trans hpath)⟩
      · have hnot : node ∉ (round neighbors nodes h).component.sort := by
          rw [Finset.mem_sort]
          exact fun hmem => hgrown.apart node hmem hremains
        rw [← connected_round hsymm h hremains]
        constructor
        · rintro (⟨hmem, -⟩ | ⟨part, hpart, hmem, hother⟩)
          · exact absurd hmem hnot
          · have hrest := (ih.covers target).mpr ⟨part, hpart, hother⟩
            exact (ih.connected node hremains target hrest).mp ⟨part, hpart, hmem, hother⟩
        · intro hpath
          right
          refine (ih.connected node hremains target ?_).mpr hpath
          rcases ReflTransGen.cases_tail hpath with rfl | ⟨middle, -, hedge⟩
          · exact hremains
          · exact hedge.2.1

end Components
