import Mathlib.Data.List.Chain
import Mathlib.Data.List.Nodup
import Mathlib.Data.List.Perm.Subperm
import Mathlib.Logic.Function.Basic
import Mathlib.Logic.Relation
import Boxferry.Library.Results

/-! # Depth-first search for a cycle

A search that marks a node while it is on the current path and again once all its
targets are searched. It either finds a cycle among the edges or shows that no edge
leads around one. -/
set_option autoImplicit false

namespace DepthFirst
variable {α : Type}

inductive VisitState where
  | visiting
  | finished
deriving DecidableEq

structure Search (α : Type) where
  state : α → Option VisitState
  path : List α

/-- Why a search ends early. -/
inductive Stop (α : Type) where
  | unfinished
  | cycle (nodes : List α)

def Search.start : Search α := ⟨fun _ => none, []⟩

section
variable [DecidableEq α]

def Search.enter (search : Search α) (node : α) : Search α :=
  ⟨Function.update search.state node (some .visiting), search.path ++ [node]⟩

def Search.leave (search : Search α) (node : α) : Search α :=
  ⟨Function.update search.state node (some .finished), search.path.dropLast⟩

/-- Searches from a node, in at most as many nested calls as the fuel says. -/
def detect (targets : α → List α) : Nat → Search α → α → Except (Stop α) (Search α)
  | 0, _, _ => .error .unfinished
  | fuel + 1, search, node =>
    match search.state node with
    | some .visiting =>
      match search.path.idxOf? node with
      | none => .ok search
      | some index => .error (.cycle (search.path.drop index ++ [node]))
    | some .finished => .ok search
    | none => do
      let searched ← (targets node).foldlM (detect targets fuel) (search.enter node)
      return searched.leave node

/-- Searches from every node that no earlier search has finished. -/
def detectAll (targets : α → List α) (fuel : Nat) (search : Search α) (nodes : List α) :
    Except (Stop α) (Search α) :=
  nodes.foldlM (fun search node =>
    if search.state node = some .finished then .ok search else detect targets fuel search node) search

end

/-! ## Cycles -/

/-- The edges of the graph. -/
def Edge (targets : α → List α) (source target : α) : Prop := target ∈ targets source

variable {targets : α → List α} {nodes path : List α} {search found : Search α} {node : α} {fuel : Nat}

/-- A walk along the edges that ends where it starts. -/
structure Cycle (targets : α → List α) (cycle : List α) : Prop where
  long : 2 ≤ cycle.length
  closed : cycle.head? = cycle.getLast?
  chain : cycle.IsChain (Edge targets)

/-- No edges lead from an accessible node around a cycle. -/
theorem acyclic_of_acc {edge : α → α → Prop} (h : Acc (fun target source => edge source target) node) :
    ¬ Relation.TransGen edge node node := by
  induction h with
  | intro node _ ih =>
    intro hcycle
    obtain ⟨next, hedge, hback⟩ := Relation.TransGen.head'_iff.mp hcycle
    exact ih next hedge (Relation.TransGen.tail' hback hedge)

theorem transGen_of_chain {first second last : α} {rest : List α}
    (h : (first :: second :: rest).IsChain (Edge targets))
    (hlast : (second :: rest).getLast? = some last) : Relation.TransGen (Edge targets) first last := by
  induction rest generalizing first second with
  | nil =>
    rw [List.getLast?_singleton, Option.some.injEq] at hlast
    rw [← hlast]
    exact Relation.TransGen.single (List.isChain_cons_cons.mp h).1
  | cons third rest ih =>
    obtain ⟨hedge, hchain⟩ := List.isChain_cons_cons.mp h
    rw [List.getLast?_cons_cons] at hlast
    exact Relation.TransGen.head hedge (ih hchain hlast)

theorem Cycle.transGen {cycle : List α} (h : Cycle targets cycle) :
    ∃ node, Relation.TransGen (Edge targets) node node := by
  have hlong := h.long
  match cycle, h with
  | [], _ | [_], _ => simp at hlong
  | first :: second :: rest, h =>
    have hclosed := h.closed
    rw [List.head?_cons, List.getLast?_cons_cons] at hclosed
    exact ⟨first, transGen_of_chain h.chain hclosed.symm⟩

/-! ## What a search keeps -/

/-- The path is a path through visiting nodes, and no edge leads from a finished node around a cycle. -/
structure Sound (targets : α → List α) (nodes : List α) (search : Search α) : Prop where
  nodup : search.path.Nodup
  subset : ∀ node ∈ search.path, node ∈ nodes
  chain : search.path.IsChain (Edge targets)
  visiting : ∀ node, search.state node = some .visiting ↔ node ∈ search.path
  finished : ∀ node, search.state node = some .finished → Acc (fun target source => Edge targets source target) node

/-- The node can follow the last one of the path. -/
def Follows (targets : α → List α) (path : List α) (node : α) : Prop :=
  ∀ last ∈ path.getLast?, Edge targets last node

theorem sound_start : Sound targets nodes Search.start where
  nodup := List.nodup_nil
  subset := fun _ h => (nomatch h)
  chain := List.isChain_nil
  visiting := fun _ => ⟨fun h => (nomatch h), fun h => (nomatch h)⟩
  finished := fun _ h => (nomatch h)

/-- What a search from a node of a graph leads to. -/
structure Searched (targets : α → List α) (nodes : List α) (search found : Search α) : Prop where
  sound : Sound targets nodes found
  path : found.path = search.path
  grows : ∀ node, search.state node = some .finished → found.state node = some .finished

theorem Searched.refl (h : Sound targets nodes search) : Searched targets nodes search search :=
  ⟨h, rfl, fun _ hstate => hstate⟩

theorem Searched.trans {middle : Search α} (h : Searched targets nodes search middle)
    (hnext : Searched targets nodes middle found) : Searched targets nodes search found :=
  ⟨hnext.sound, hnext.path.trans h.path, fun node hstate => hnext.grows node (h.grows node hstate)⟩

/-- A search that stops has found a cycle. -/
def Finds (targets : α → List α) : Stop α → Prop
  | .unfinished => False
  | .cycle cycle => Cycle targets cycle

/-- The path of a sound search is no longer than the list of the nodes. -/
theorem Sound.length_le (h : Sound targets nodes search) : search.path.length ≤ nodes.length :=
  (h.nodup.subperm h.subset).length_le

/-- Searches from the nodes that can follow the path, one after the other. -/
theorem searched_fold (step : Search α → α → Except (Stop α) (Search α)) (list : List α)
    (hstep : ∀ node ∈ list, ∀ search, Sound targets nodes search → search.path = path →
      match step search node with
      | .error stop => Finds targets stop
      | .ok found => Searched targets nodes search found ∧ found.state node = some .finished)
    (h : Sound targets nodes search) (hpath : search.path = path) :
    match list.foldlM step search with
    | .error stop => Finds targets stop
    | .ok found => Searched targets nodes search found
        ∧ ∀ node ∈ list, found.state node = some .finished := by
  induction list generalizing search with
  | nil => exact ⟨Searched.refl h, fun _ hmem => (nomatch hmem)⟩
  | cons node rest ih =>
    have hfirst := hstep node List.mem_cons_self search h hpath
    rw [List.foldlM_cons]
    cases hsearched : step search node with
    | error stop =>
      rw [hsearched] at hfirst
      exact hfirst
    | ok middle =>
      rw [hsearched] at hfirst
      have hrest := ih (fun other hother => hstep other (List.mem_cons_of_mem node hother))
        hfirst.1.sound (hfirst.1.path.trans hpath)
      show match rest.foldlM step middle with
        | .error stop => Finds targets stop
        | .ok found => _
      cases hlast : rest.foldlM step middle with
      | error stop =>
        rw [hlast] at hrest
        exact hrest
      | ok found =>
        rw [hlast] at hrest
        refine ⟨hfirst.1.trans hrest.1, fun other hother => ?_⟩
        rcases List.mem_cons.mp hother with rfl | hother
        · exact hrest.1.grows other hfirst.2
        · exact hrest.2 other hother

variable [DecidableEq α]

theorem Sound.enter (h : Sound targets nodes search) (hnode : node ∈ nodes)
    (hnew : search.state node = none) (hfollows : Follows targets search.path node) :
    Sound targets nodes (search.enter node) := by
  have hfresh : node ∉ search.path := by
    intro hmem
    have hvisiting := (h.visiting node).mpr hmem
    rw [hnew] at hvisiting
    exact nomatch hvisiting
  constructor
  · show (search.path ++ [node]).Nodup
    rw [List.nodup_append]
    refine ⟨h.nodup, List.nodup_singleton node, ?_⟩
    intro other hother last hlast hsame
    rw [List.mem_singleton.mp hlast] at hsame
    exact hfresh (hsame ▸ hother)
  · intro other hother
    rcases List.mem_append.mp hother with hpath | hlast
    · exact h.subset other hpath
    · rw [List.mem_singleton.mp hlast]
      exact hnode
  · show (search.path ++ [node]).IsChain (Edge targets)
    rw [List.isChain_append]
    refine ⟨h.chain, List.isChain_singleton node, ?_⟩
    intro last hlast first hfirst
    rw [List.head?_cons, Option.mem_some_iff] at hfirst
    rw [← hfirst]
    exact hfollows last hlast
  · intro other
    show Function.update search.state node (some .visiting) other = _ ↔ other ∈ search.path ++ [node]
    rw [List.mem_append, List.mem_singleton]
    by_cases hsame : other = node
    · rw [hsame, Function.update_self]
      exact ⟨fun _ => Or.inr rfl, fun _ => rfl⟩
    · rw [Function.update_of_ne hsame, h.visiting other]
      exact ⟨Or.inl, fun hmem => hmem.resolve_right hsame⟩
  · intro other hother
    have hstate : Function.update search.state node (some .visiting) other = some .finished := hother
    by_cases hsame : other = node
    · rw [hsame, Function.update_self] at hstate
      exact nomatch Option.some.inj hstate
    · rw [Function.update_of_ne hsame] at hstate
      exact h.finished other hstate

theorem Sound.leave (h : Sound targets nodes found) (hpath : found.path = path ++ [node])
    (htargets : ∀ target ∈ targets node, found.state target = some .finished) :
    Sound targets nodes (found.leave node) := by
  have hdrop : (found.leave node).path = path := by
    show found.path.dropLast = path
    rw [hpath, List.dropLast_concat]
  have hnodup : (path ++ [node]).Nodup := hpath ▸ h.nodup
  have hgone : node ∉ path := by
    intro hmem
    exact (List.nodup_append.mp hnodup).2.2 node hmem node (List.mem_singleton.mpr rfl) rfl
  constructor
  · rw [hdrop]
    exact (List.nodup_append.mp hnodup).1
  · intro other hother
    rw [hdrop] at hother
    exact h.subset other (hpath ▸ List.mem_append_left _ hother)
  · rw [hdrop]
    have hchain := h.chain
    rw [hpath, List.isChain_append] at hchain
    exact hchain.1
  · intro other
    rw [hdrop]
    show Function.update found.state node (some .finished) other = _ ↔ _
    by_cases hsame : other = node
    · rw [hsame, Function.update_self]
      exact ⟨fun hstate => (nomatch Option.some.inj hstate), fun hmem => absurd hmem hgone⟩
    · rw [Function.update_of_ne hsame, h.visiting other, hpath, List.mem_append, List.mem_singleton]
      exact ⟨fun hmem => hmem.resolve_right hsame, Or.inl⟩
  · intro other hother
    have hstate : Function.update found.state node (some .finished) other = some .finished := hother
    by_cases hsame : other = node
    · rw [hsame]
      exact Acc.intro node fun target hedge => h.finished target (htargets target hedge)
    · rw [Function.update_of_ne hsame] at hstate
      exact h.finished other hstate

/-! ## What a search finds -/

theorem cycle_of_visiting (h : Sound targets nodes search) {index : Nat}
    (hindex : search.path.idxOf? node = some index) (hfollows : Follows targets search.path node) :
    Cycle targets (search.path.drop index ++ [node]) := by
  obtain ⟨hlt, hat, -⟩ := List.findIdx?_eq_some_iff_getElem.mp hindex
  have hnode : search.path[index] = node := by simpa using hat
  have hdrop : search.path.drop index = node :: search.path.drop (index + 1) := by
    rw [List.drop_eq_getElem_cons hlt, hnode]
  constructor
  · rw [hdrop, List.length_append, List.length_cons, List.length_singleton]
    omega
  · rw [List.getLast?_concat, hdrop]
    rfl
  · rw [List.isChain_append]
    refine ⟨h.chain.drop index, List.isChain_singleton node, ?_⟩
    intro last hlast first hfirst
    rw [List.head?_cons, Option.mem_some_iff] at hfirst
    rw [← hfirst]
    refine hfollows last ?_
    rw [List.getLast?_drop, if_neg (by omega)] at hlast
    exact hlast

/-- With enough fuel a search finds a cycle or finishes the node. -/
theorem detect_spec (hclosed : ∀ source ∈ nodes, ∀ target ∈ targets source, target ∈ nodes)
    (h : Sound targets nodes search) (hnode : node ∈ nodes) (hfollows : Follows targets search.path node)
    (hfuel : nodes.length < fuel + search.path.length) :
    match detect targets fuel search node with
    | .error stop => Finds targets stop
    | .ok found => Searched targets nodes search found ∧ found.state node = some .finished := by
  induction fuel generalizing search node with
  | zero =>
    have hshort := h.length_le
    omega
  | succ fuel ih =>
    unfold detect
    cases hstate : search.state node with
    | none =>
      have hentered := h.enter hnode hstate hfollows
      have hpath : (search.enter node).path = search.path ++ [node] := rfl
      have hsearched := searched_fold (detect targets fuel) (targets node)
        (fun target htarget middle hmiddle hsame => ?_) hentered rfl
      · simp only
        cases hfold : (targets node).foldlM (detect targets fuel) (search.enter node) with
        | error stop =>
          rw [hfold] at hsearched
          exact hsearched
        | ok found =>
          rw [hfold] at hsearched
          have hfound : found.path = search.path ++ [node] := hsearched.1.path
          refine ⟨⟨hsearched.1.sound.leave hfound hsearched.2, ?_, fun other hother => ?_⟩, ?_⟩
          · show found.path.dropLast = search.path
            rw [hfound, List.dropLast_concat]
          · have hne : other ≠ node := by
              intro hsame
              rw [hsame, hstate] at hother
              exact nomatch hother
            show Function.update found.state node (some .finished) other = some .finished
            rw [Function.update_of_ne hne]
            refine hsearched.1.grows other ?_
            show Function.update search.state node (some .visiting) other = some .finished
            rw [Function.update_of_ne hne]
            exact hother
          · exact Function.update_self node _ _
      · refine ih hmiddle (hclosed node hnode target htarget) ?_ ?_
        · intro last hlast
          rw [hsame, hpath, List.getLast?_concat, Option.mem_some_iff] at hlast
          rw [← hlast]
          exact htarget
        · rw [hsame, hpath, List.length_append, List.length_singleton]
          omega
    | some mark =>
      cases mark with
      | finished => exact ⟨Searched.refl h, hstate⟩
      | visiting =>
        cases hindex : search.path.idxOf? node with
        | none =>
          exact absurd ((h.visiting node).mp hstate) (List.idxOf?_eq_none_iff.mp hindex)
        | some index => exact cycle_of_visiting h hindex hfollows

theorem detectAll_spec (hclosed : ∀ source ∈ nodes, ∀ target ∈ targets source, target ∈ nodes)
    (hfuel : nodes.length < fuel) :
    match detectAll targets fuel Search.start nodes with
    | .error stop => Finds targets stop
    | .ok _ => ∀ node ∈ nodes, Acc (fun target source => Edge targets source target) node := by
  have hall := searched_fold (fun search node =>
      if search.state node = some .finished then .ok search else detect targets fuel search node) nodes
    (fun node hnode search hsound hempty => ?_) (sound_start : Sound targets nodes Search.start) rfl
  · unfold detectAll
    split
    · next stop hstop =>
      rw [hstop] at hall
      exact hall
    · next found hfound =>
      rw [hfound] at hall
      exact fun node hnode => hall.1.sound.finished node (hall.2 node hnode)
  · by_cases hfinished : search.state node = some .finished
    · rw [if_pos hfinished]
      exact ⟨Searched.refl hsound, hfinished⟩
    · rw [if_neg hfinished]
      refine detect_spec hclosed hsound hnode ?_ (by omega)
      intro last hlast
      rw [hempty] at hlast
      exact nomatch hlast

/-! ## Fuel -/

omit [DecidableEq α] in
theorem foldlM_more {step more : Search α → α → Except (Stop α) (Search α)} {list : List α}
    (hstep : ∀ search node, step search node ≠ .error .unfinished → more search node = step search node)
    (h : list.foldlM step search ≠ .error .unfinished) :
    list.foldlM more search = list.foldlM step search := by
  induction list generalizing search with
  | nil => rfl
  | cons node rest ih =>
    rw [List.foldlM_cons] at h
    rw [List.foldlM_cons, List.foldlM_cons]
    cases hfirst : step search node with
    | error stop =>
      have hne : step search node ≠ .error .unfinished := by
        rw [hfirst] at h ⊢
        exact h
      rw [hstep search node hne, hfirst]
      rfl
    | ok middle =>
      rw [hstep search node (by rw [hfirst]; exact fun hbad => (nomatch hbad)), hfirst]
      rw [hfirst] at h
      exact ih h

/-- A search that does not run out of fuel is the same with more of it. -/
theorem detect_more {more : Nat} (hle : fuel ≤ more) (h : detect targets fuel search node ≠ .error .unfinished) :
    detect targets more search node = detect targets fuel search node := by
  induction fuel generalizing more search node with
  | zero => exact absurd rfl h
  | succ fuel ih =>
    obtain ⟨more, rfl⟩ : ∃ less, more = less + 1 := ⟨more - 1, by omega⟩
    unfold detect at h ⊢
    cases hstate : search.state node with
    | some mark => cases mark <;> rfl
    | none =>
      simp only [hstate] at h ⊢
      rw [foldlM_more fun search node (hne : detect targets fuel search node ≠ _) => ih (by omega) hne]
      intro hfold
      rw [hfold] at h
      exact h rfl

theorem detectAll_more {more : Nat} (hle : fuel ≤ more)
    (h : detectAll targets fuel search nodes ≠ .error .unfinished) :
    detectAll targets more search nodes = detectAll targets fuel search nodes := by
  refine foldlM_more (fun search node hne => ?_) h
  by_cases hfinished : search.state node = some .finished
  · rw [if_pos hfinished, if_pos hfinished]
  · rw [if_neg hfinished] at hne ⊢
    rw [if_neg hfinished, detect_more hle hne]

end DepthFirst
