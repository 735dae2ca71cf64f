import Mathlib.Data.String.Basic
import Boxferry.Library.Components
import Boxferry.Podman.Import.Observations

/-! # Automatic Podman candidates

Pod membership and container dependencies join containers and pods to the candidates
of an automatic choice. Compose ownership only offers groups of whole candidates. -/
namespace Boxferry.Cli
open Components Relation
set_option autoImplicit false

variable {Identity : Type} [LinearOrder Identity]

/-! ## The resource graph -/

inductive GroupingEvidence where
  | podMembership
  | containerDependency
  | composeOwnership (project : String)
  /-- Evidence of a kind that the choice does not know. -/
  | other
deriving DecidableEq

structure GroupingEdge (Identity : Type) where
  left : Identity
  right : Identity
  evidence : GroupingEvidence

/-- What the choice reads of a resource graph. -/
structure ResourceGraph (Identity : Type) where
  /-- The members of every group. -/
  groups : List (List Identity)
  groupingEdges : List (GroupingEdge Identity)

def GroupingEvidence.isNative : GroupingEvidence → Bool
  | .podMembership => true
  | .containerDependency => true
  | _ => false

/-- The containers and pods that are members of some group. -/
def automaticMembers (kind : Identity → Podman.ResourceKind) (graph : ResourceGraph Identity) : Finset Identity :=
  (graph.groups.flatten.filter fun identity => kind identity = .container || kind identity = .pod).toFinset

/-- The other ends of the native edges of an identity. -/
def adjacency (graph : ResourceGraph Identity) (identity : Identity) : Finset Identity :=
  ((graph.groupingEdges.filter fun edge => edge.evidence.isNative).flatMap fun edge =>
    (if edge.left = identity then [edge.right] else []) ++ if edge.right = identity then [edge.left] else []).toFinset

def automaticPodmanCandidates (kind : Identity → Podman.ResourceKind) (graph : ResourceGraph Identity) :
    List (List Identity) :=
  components (fun identity => sorted (adjacency graph identity)) (automaticMembers kind graph)

/-! ## Offered groups -/

/-- The endpoints of the ownership edges of a project. -/
def projectMembers (graph : ResourceGraph Identity) (project : String) : Finset Identity :=
  ((graph.groupingEdges.filter fun edge => edge.evidence = .composeOwnership project).flatMap fun edge =>
    [edge.left, edge.right]).toFinset

def ownershipProject? : GroupingEvidence → Option String
  | .composeOwnership project => some project
  | _ => none

def projects (graph : ResourceGraph Identity) : Finset String :=
  (graph.groupingEdges.filterMap fun edge => ownershipProject? edge.evidence).toFinset

/-- A candidate that touches the members is included in full. -/
def includeComponent (members : Finset Identity) (component : List Identity) : Finset Identity :=
  if component.any (· ∈ members) then members ∪ component.toFinset else members

def advisoryPodmanGroups (graph : ResourceGraph Identity) (native : List (List Identity)) :
    List (String × List Identity) :=
  (sorted (projects graph)).map fun project =>
    (project, sorted (native.foldl includeComponent (projectMembers graph project)))

/-! ## Candidates -/

variable {kind : Identity → Podman.ResourceKind} {graph other : ResourceGraph Identity} {node target : Identity}

/-- One native edge of the graph joins the two identities. -/
def Joined (graph : ResourceGraph Identity) (node target : Identity) : Prop :=
  ∃ edge ∈ graph.groupingEdges, edge.evidence.isNative = true
    ∧ (edge.left = node ∧ edge.right = target ∨ edge.right = node ∧ edge.left = target)

theorem mem_adjacency : target ∈ adjacency graph node ↔ Joined graph node target := by
  unfold adjacency Joined
  rw [List.mem_toFinset, List.mem_flatMap]
  constructor
  · rintro ⟨edge, hedge, htarget⟩
    obtain ⟨hmem, hnative⟩ := List.mem_filter.mp hedge
    refine ⟨edge, hmem, hnative, ?_⟩
    rcases List.mem_append.mp htarget with hright | hleft
    · split at hright
      · next hsame => exact Or.inl ⟨hsame, (List.mem_singleton.mp hright).symm⟩
      · exact nomatch hright
    · split at hleft
      · next hsame => exact Or.inr ⟨hsame, (List.mem_singleton.mp hleft).symm⟩
      · exact nomatch hleft
  · rintro ⟨edge, hmem, hnative, hends⟩
    refine ⟨edge, List.mem_filter.mpr ⟨hmem, hnative⟩, List.mem_append.mpr ?_⟩
    rcases hends with ⟨rfl, rfl⟩ | ⟨rfl, rfl⟩
    · left
      rw [if_pos rfl]
      exact List.mem_singleton.mpr rfl
    · right
      rw [if_pos rfl]
      exact List.mem_singleton.mpr rfl

omit [LinearOrder Identity] in
theorem joined_symm (h : Joined graph node target) : Joined graph target node := by
  obtain ⟨edge, hmem, hnative, hends⟩ := h
  exact ⟨edge, hmem, hnative, hends.symm.imp And.symm And.symm⟩

/-- An identity that can be in a candidate. -/
def IsMember (kind : Identity → Podman.ResourceKind) (graph : ResourceGraph Identity) (identity : Identity) : Prop :=
  (∃ group ∈ graph.groups, identity ∈ group) ∧ (kind identity = .container ∨ kind identity = .pod)

theorem mem_automaticMembers : node ∈ automaticMembers kind graph ↔ IsMember kind graph node := by
  unfold automaticMembers IsMember
  rw [List.mem_toFinset, List.mem_filter, List.mem_flatten]
  simp

/-- A path of native edges through identities that can be in a candidate. -/
def NativelyConnected (kind : Identity → Podman.ResourceKind) (graph : ResourceGraph Identity) :
    Identity → Identity → Prop :=
  ReflTransGen fun node target => IsMember kind graph node ∧ IsMember kind graph target ∧ Joined graph node target

theorem partitions_candidates (kind : Identity → Podman.ResourceKind) (graph : ResourceGraph Identity) :
    Partitions (fun identity => sorted (adjacency graph identity)) (automaticMembers kind graph)
      (automaticPodmanCandidates kind graph) := by
  refine partitions_components (fun node target htarget => ?_) (automaticMembers kind graph)
  rw [mem_sorted, mem_adjacency] at htarget ⊢
  exact joined_symm htarget

theorem connected_iff : Connected (fun identity => sorted (adjacency graph identity)) (automaticMembers kind graph)
    node target ↔ NativelyConnected kind graph node target := by
  unfold Connected NativelyConnected
  have hedge : Within (fun identity => sorted (adjacency graph identity)) (automaticMembers kind graph)
      = fun node target => IsMember kind graph node ∧ IsMember kind graph target ∧ Joined graph node target := by
    funext node target
    unfold Within
    rw [mem_automaticMembers, mem_automaticMembers, mem_sorted, mem_adjacency]
  rw [hedge]

/-- Candidates depend on the groups and on the native edges, not on their order or on any other edge. -/
theorem candidates_congr (hgroups : ∀ group, group ∈ graph.groups ↔ group ∈ other.groups)
    (hedges : ∀ edge, edge.evidence.isNative = true →
      (edge ∈ graph.groupingEdges ↔ edge ∈ other.groupingEdges)) :
    automaticPodmanCandidates kind graph = automaticPodmanCandidates kind other := by
  have hmembers : automaticMembers kind graph = automaticMembers kind other := by
    ext identity
    rw [mem_automaticMembers, mem_automaticMembers]
    unfold IsMember
    simp only [hgroups]
  have hadjacency : adjacency graph = adjacency other := by
    funext identity
    ext target
    rw [mem_adjacency, mem_adjacency]
    unfold Joined
    constructor
    · rintro ⟨edge, hmem, hnative, hends⟩
      exact ⟨edge, (hedges edge hnative).mp hmem, hnative, hends⟩
    · rintro ⟨edge, hmem, hnative, hends⟩
      exact ⟨edge, (hedges edge hnative).mpr hmem, hnative, hends⟩
  unfold automaticPodmanCandidates
  rw [hmembers, hadjacency]

/-! ## Whole candidates -/

/-- The set has every candidate entirely or not at all. -/
def Whole (candidates : List (List Identity)) (members : Set Identity) : Prop :=
  ∀ candidate ∈ candidates, (∀ identity ∈ candidate, identity ∈ members) ∨ ∀ identity ∈ candidate, identity ∉ members

theorem mem_includeComponent {members : Finset Identity} {component : List Identity} :
    node ∈ includeComponent members component
      ↔ node ∈ members ∨ node ∈ component ∧ ∃ identity ∈ component, identity ∈ members := by
  unfold includeComponent
  by_cases htouches : component.any (· ∈ members) = true
  · rw [if_pos htouches, Finset.mem_union, List.mem_toFinset]
    have hsome : ∃ identity ∈ component, identity ∈ members := by simpa using htouches
    simp only [hsome, and_true]
  · rw [if_neg htouches]
    have hnone : ¬ ∃ identity ∈ component, identity ∈ members := by simpa using htouches
    simp only [hnone, and_false, or_false]

/-- One pass is enough, as no candidate is touched through another one. -/
theorem mem_foldl_includeComponent {native : List (List Identity)} (h : native.Pairwise List.Disjoint)
    {members : Finset Identity} :
    node ∈ native.foldl includeComponent members
      ↔ node ∈ members ∨ ∃ component ∈ native, node ∈ component ∧ ∃ identity ∈ component, identity ∈ members := by
  induction native generalizing members with
  | nil => simp
  | cons component rest ih =>
    obtain ⟨hfirst, hrest⟩ := List.pairwise_cons.mp h
    rw [List.foldl_cons, ih hrest, mem_includeComponent, List.exists_mem_cons_iff, or_assoc]
    refine or_congr_right (or_congr_right ?_)
    have htouched : ∀ later ∈ rest, (∃ identity ∈ later, identity ∈ includeComponent members component)
        ↔ ∃ identity ∈ later, identity ∈ members := by
      intro later hlater
      constructor
      · rintro ⟨identity, hidentity, hmem⟩
        rcases mem_includeComponent.mp hmem with hmembers | ⟨hcomponent, -⟩
        · exact ⟨identity, hidentity, hmembers⟩
        · exact absurd hidentity (hfirst later hlater hcomponent)
      · rintro ⟨identity, hidentity, hmembers⟩
        exact ⟨identity, hidentity, mem_includeComponent.mpr (Or.inl hmembers)⟩
    constructor
    · rintro ⟨later, hlater, hnode, htouches⟩
      exact ⟨later, hlater, hnode, (htouched later hlater).mp htouches⟩
    · rintro ⟨later, hlater, hnode, htouches⟩
      exact ⟨later, hlater, hnode, (htouched later hlater).mpr htouches⟩

/-- The members with every candidate that they touch: the least set that holds whole candidates. -/
theorem foldl_includeComponent_least {native : List (List Identity)} (h : native.Pairwise List.Disjoint)
    (members : Finset Identity) :
    Whole native {identity | identity ∈ native.foldl includeComponent members}
      ∧ (∀ identity ∈ members, identity ∈ native.foldl includeComponent members)
      ∧ ∀ larger : Set Identity, (∀ identity ∈ members, identity ∈ larger) → Whole native larger →
        ∀ identity ∈ native.foldl includeComponent members, identity ∈ larger := by
  have hsame : ∀ component ∈ native, ∀ second ∈ native, ∀ identity, identity ∈ component → identity ∈ second →
      component = second := by
    intro component hcomponent second hsecond identity hidentity hother
    have : Std.Symm (@List.Disjoint Identity) := ⟨fun _ _ hdisjoint => hdisjoint.symm⟩
    by_contra hne
    exact h.forall hcomponent hsecond hne hidentity hother
  refine ⟨fun candidate hcandidate => ?_, fun identity hidentity => ?_, fun larger hmembers hwhole identity hmem => ?_⟩
  · by_cases htouches : ∃ identity ∈ candidate, identity ∈ members
    · left
      intro identity hidentity
      exact (mem_foldl_includeComponent h).mpr (Or.inr ⟨candidate, hcandidate, hidentity, htouches⟩)
    · right
      intro identity hidentity hmem
      rcases (mem_foldl_includeComponent h).mp hmem with hmembers | ⟨component, hcomponent, hnode, htouched⟩
      · exact htouches ⟨identity, hidentity, hmembers⟩
      · rw [hsame component hcomponent candidate hcandidate identity hnode hidentity] at htouched
        exact htouches htouched
  · exact (mem_foldl_includeComponent h).mpr (Or.inl hidentity)
  · rcases (mem_foldl_includeComponent h).mp hmem with hold | ⟨component, hcomponent, hnode, touched, htouched, hold⟩
    · exact hmembers identity hold
    · rcases hwhole component hcomponent with hall | hnone
      · exact hall identity hnode
      · exact absurd (hmembers touched hold) (hnone touched htouched)

/-! ## The choice -/

/-- An ownership edge of the project ends at the identity. -/
def OwnedBy (graph : ResourceGraph Identity) (project : String) (identity : Identity) : Prop :=
  ∃ edge ∈ graph.groupingEdges, edge.evidence = .composeOwnership project
    ∧ (identity = edge.left ∨ identity = edge.right)

theorem mem_projectMembers {project : String} : node ∈ projectMembers graph project ↔ OwnedBy graph project node := by
  unfold projectMembers OwnedBy
  rw [List.mem_toFinset, List.mem_flatMap]
  constructor
  · rintro ⟨edge, hedge, hnode⟩
    obtain ⟨hmem, hevidence⟩ := List.mem_filter.mp hedge
    refine ⟨edge, hmem, of_decide_eq_true hevidence, ?_⟩
    simpa using hnode
  · rintro ⟨edge, hmem, hevidence, hends⟩
    exact ⟨edge, List.mem_filter.mpr ⟨hmem, decide_eq_true hevidence⟩, by simpa using hends⟩

/-- The candidates are the native connected components, and each offered group is the least set of
whole candidates with what its project owns. -/
theorem automatic_candidates_components (kind : Identity → Podman.ResourceKind) (graph : ResourceGraph Identity) :
    (∀ candidate ∈ automaticPodmanCandidates kind graph, candidate ≠ [])
      ∧ (automaticPodmanCandidates kind graph).Pairwise List.Disjoint
      ∧ (∀ identity, IsMember kind graph identity
        ↔ ∃ candidate ∈ automaticPodmanCandidates kind graph, identity ∈ candidate)
      ∧ (∀ node target, IsMember kind graph node → IsMember kind graph target →
        ((∃ candidate ∈ automaticPodmanCandidates kind graph, node ∈ candidate ∧ target ∈ candidate)
          ↔ NativelyConnected kind graph node target))
      ∧ (∀ other : ResourceGraph Identity, (∀ group, group ∈ graph.groups ↔ group ∈ other.groups) →
        (∀ edge, edge.evidence.isNative = true → (edge ∈ graph.groupingEdges ↔ edge ∈ other.groupingEdges)) →
        automaticPodmanCandidates kind graph = automaticPodmanCandidates kind other)
      ∧ ∀ project members,
        (project, members) ∈ advisoryPodmanGroups graph (automaticPodmanCandidates kind graph) →
          Whole (automaticPodmanCandidates kind graph) {identity | identity ∈ members}
            ∧ (∀ identity, OwnedBy graph project identity → identity ∈ members)
            ∧ ∀ larger : Set Identity, (∀ identity, OwnedBy graph project identity → identity ∈ larger) →
              Whole (automaticPodmanCandidates kind graph) larger → ∀ identity ∈ members, identity ∈ larger := by
  have hparts := partitions_candidates kind graph
  refine ⟨hparts.nonempty, hparts.disjoint, fun identity => ?_, fun node target hnode htarget => ?_,
    fun other => candidates_congr, fun project members hgroup => ?_⟩
  · rw [← mem_automaticMembers]
    exact hparts.covers identity
  · rw [← connected_iff]
    exact hparts.connected node (mem_automaticMembers.mpr hnode) target (mem_automaticMembers.mpr htarget)
  · obtain ⟨found, -, hfound⟩ := List.mem_map.mp hgroup
    obtain ⟨rfl, rfl⟩ := Prod.mk.inj hfound
    have hleast := foldl_includeComponent_least hparts.disjoint (projectMembers graph found)
    simp only [mem_sorted, ← mem_projectMembers]
    exact hleast

end Boxferry.Cli
