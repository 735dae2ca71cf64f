import Mathlib.Data.List.Sort
import Mathlib.Data.Prod.Lex
import Mathlib.Data.String.Basic
import Boxferry.Library.DepthFirst
import Boxferry.Model.Application

/-! # Artifact dependencies

Explicit edges between volumes, image acquisitions and image builds. An application
with declared endpoints is accepted exactly when no edges lead around a cycle. -/
namespace Boxferry.Model
open DepthFirst
set_option autoImplicit false

/-! ## Typed references -/

def VolumeImageSource.ensureDeclared (application : Application) (volume : Volume) :
    VolumeImageSource → Except ModelError Unit
  | .literal _ => .ok ()
  | .imageAcquisition name =>
    if name ∉ application.imageAcquisitionNames then
      .error (.unknownVolumeImageAcquisitionReference volume.name.asStr name.asStr)
    else .ok ()
  | .imageBuild name =>
    if name ∉ application.imageBuildNames then
      .error (.unknownVolumeImageBuildReference volume.name.asStr name.asStr)
    else .ok ()

namespace Application

def ensureServiceReferences (application : Application) (service : Sourced Service) :
    Except ModelError Unit := do
  Model.ensureDeclared service.value.imageAcquisition application.imageAcquisitionNames
    (.unknownImageAcquisitionReference service.value.name.asStr)
  Model.ensureDeclared service.value.imageBuild application.imageBuildNames
    (.unknownImageBuildReference service.value.name.asStr)

def ensureVolumeReferences (application : Application) (volume : Sourced Volume) : Except ModelError Unit :=
  match volume.value.imageSource with
  | none => .ok ()
  | some source => source.value.ensureDeclared application volume.value

/-- Every typed reference of the assembled graph names a declared resource. -/
def validateImageArtifactReferences (application : Application) : Except ModelError Unit := do
  application.services.forM application.ensureServiceReferences
  application.volumes.forM application.ensureVolumeReferences

end Application

/-! ## Explicit edges -/

inductive ArtifactDependencyNode where
  | volume (name : Identifier)
  | imageAcquisition (name : Identifier)
  | imageBuild (name : Identifier)
deriving DecidableEq

namespace ArtifactDependencyNode

def kindAndName : ArtifactDependencyNode → String × Identifier
  | .volume name => ("volume", name)
  | .imageAcquisition name => ("image acquisition", name)
  | .imageBuild name => ("image build", name)

def displayName (node : ArtifactDependencyNode) : String :=
  node.kindAndName.1 ++ ":" ++ node.kindAndName.2.asStr

/-- The place of the variant in its declaration, which orders nodes before their names. -/
def variant : ArtifactDependencyNode → Nat
  | .volume _ => 0
  | .imageAcquisition _ => 1
  | .imageBuild _ => 2

def key (node : ArtifactDependencyNode) : Nat ×ₗ String := toLex (node.variant, node.kindAndName.2.asStr)

theorem key_injective : Function.Injective key := by
  intro first second h
  obtain ⟨hvariant, hname⟩ := Prod.mk.inj (toLex.injective h)
  have hsame := Identifier.ext_asStr hname
  cases first with
  | volume name =>
    cases second with
    | volume other => exact congrArg volume hsame
    | imageAcquisition | imageBuild => simp [variant] at hvariant
  | imageAcquisition name =>
    cases second with
    | imageAcquisition other => exact congrArg imageAcquisition hsame
    | volume | imageBuild => simp [variant] at hvariant
  | imageBuild name =>
    cases second with
    | imageBuild other => exact congrArg imageBuild hsame
    | volume | imageAcquisition => simp [variant] at hvariant

instance : LinearOrder ArtifactDependencyNode := LinearOrder.lift' key key_injective

end ArtifactDependencyNode

structure ArtifactDependency where
  source : Sourced ArtifactDependencyNode
  target : Sourced ArtifactDependencyNode

/-- The edges without where they were declared. -/
def artifactEdges (dependencies : List (Sourced ArtifactDependency)) :
    List (ArtifactDependencyNode × ArtifactDependencyNode) :=
  dependencies.map fun dependency => (dependency.value.source.value, dependency.value.target.value)

/-- The members of a list in order, each once. -/
def ordered (nodes : List ArtifactDependencyNode) : List ArtifactDependencyNode :=
  nodes.dedup.insertionSort (· ≤ ·)

/-- The keys of the graph: every endpoint of an edge. -/
def artifactNodes (dependencies : List (Sourced ArtifactDependency)) : List ArtifactDependencyNode :=
  ordered ((artifactEdges dependencies).flatMap fun edge => [edge.1, edge.2])

def artifactTargets (dependencies : List (Sourced ArtifactDependency)) (node : ArtifactDependencyNode) :
    List ArtifactDependencyNode :=
  ordered (((artifactEdges dependencies).filter fun edge => edge.1 = node).map Prod.snd)

/-- What a search says of the dependencies. -/
def reported : Except (Stop ArtifactDependencyNode) (Search ArtifactDependencyNode) →
    Option (Except ModelError Unit)
  | .error .unfinished => none
  | .error (.cycle cycle) =>
    some (.error (.imageArtifactDependencyCycle (cycle.map ArtifactDependencyNode.displayName)))
  | .ok _ => some (.ok ())

namespace Application

def validateArtifactDependencyNode (application : Application) (node : ArtifactDependencyNode) :
    Except ModelError Unit :=
  let names := match node with
    | .volume _ => application.volumeNames
    | .imageAcquisition _ => application.imageAcquisitionNames
    | .imageBuild _ => application.imageBuildNames
  if node.kindAndName.2 ∈ names then .ok ()
  else .error (.unknownArtifactDependencyNode node.kindAndName.1 node.kindAndName.2.asStr)

def validateArtifactDependency (application : Application) (dependency : Sourced ArtifactDependency) :
    Except ModelError Unit := do
  application.validateArtifactDependencyNode dependency.value.source.value
  application.validateArtifactDependencyNode dependency.value.target.value

/-- The validation with a search of at most so many nested calls; nothing if that is too few. -/
def validateImageArtifactDependencies (fuel : Nat) (application : Application)
    (dependencies : List (Sourced ArtifactDependency)) : Option (Except ModelError Unit) :=
  match (do
    application.validateImageArtifactReferences
    dependencies.forM application.validateArtifactDependency : Except ModelError Unit) with
  | .error error => some (.error error)
  | .ok () =>
    reported (detectAll (artifactTargets dependencies) fuel Search.start (artifactNodes dependencies))

end Application

/-! ## The graph -/

variable {application : Application} {dependencies others : List (Sourced ArtifactDependency)}
  {node source target : ArtifactDependencyNode} {fuel : Nat}

theorem mem_ordered {nodes : List ArtifactDependencyNode} : node ∈ ordered nodes ↔ node ∈ nodes := by
  unfold ordered
  rw [List.mem_insertionSort, List.mem_dedup]

/-- Lists with the same members have the same order. -/
theorem ordered_congr {nodes others : List ArtifactDependencyNode}
    (h : ∀ node, node ∈ nodes ↔ node ∈ others) : ordered nodes = ordered others := by
  have hperm : nodes.dedup.Perm others.dedup := by
    rw [List.perm_ext_iff_of_nodup (List.nodup_dedup nodes) (List.nodup_dedup others)]
    intro node
    rw [List.mem_dedup, List.mem_dedup, h node]
  have hsorted := (List.perm_insertionSort (· ≤ ·) nodes.dedup).trans
    (hperm.trans (List.perm_insertionSort (· ≤ ·) others.dedup).symm)
  exact hsorted.eq_of_pairwise' (List.pairwise_insertionSort (· ≤ ·) _) (List.pairwise_insertionSort (· ≤ ·) _)

/-- One of the given edges leads from the first node to the second one. -/
def Depends (dependencies : List (Sourced ArtifactDependency)) (source target : ArtifactDependencyNode) :
    Prop :=
  (source, target) ∈ artifactEdges dependencies

theorem mem_artifactTargets :
    target ∈ artifactTargets dependencies source ↔ Depends dependencies source target := by
  unfold artifactTargets Depends
  rw [mem_ordered, List.mem_map]
  constructor
  · rintro ⟨edge, hedge, rfl⟩
    obtain ⟨hmem, hsource⟩ := List.mem_filter.mp hedge
    rw [← of_decide_eq_true hsource]
    exact hmem
  · intro h
    exact ⟨(source, target), List.mem_filter.mpr ⟨h, decide_eq_true rfl⟩, rfl⟩

theorem edge_artifactTargets : Edge (artifactTargets dependencies) = Depends dependencies := by
  funext source target
  exact propext mem_artifactTargets

theorem mem_artifactNodes (h : Depends dependencies source target) :
    source ∈ artifactNodes dependencies ∧ target ∈ artifactNodes dependencies := by
  unfold artifactNodes
  rw [mem_ordered, mem_ordered, List.mem_flatMap, List.mem_flatMap]
  exact ⟨⟨_, h, List.mem_cons_self⟩, ⟨_, h, List.mem_cons_of_mem _ List.mem_cons_self⟩⟩

theorem artifactNodes_closed (dependencies : List (Sourced ArtifactDependency)) : ∀ source ∈ artifactNodes dependencies,
    ∀ target ∈ artifactTargets dependencies source, target ∈ artifactNodes dependencies :=
  fun _ _ _ htarget => (mem_artifactNodes (mem_artifactTargets.mp htarget)).2

/-- The graph depends on which edges are given, not on their order or how often. -/
theorem graph_congr (h : ∀ source target, Depends dependencies source target ↔ Depends others source target) :
    artifactNodes dependencies = artifactNodes others ∧ artifactTargets dependencies = artifactTargets others := by
  constructor
  · refine ordered_congr fun node => ?_
    rw [List.mem_flatMap, List.mem_flatMap]
    constructor
    · rintro ⟨edge, hedge, hnode⟩
      exact ⟨edge, (h edge.1 edge.2).mp hedge, hnode⟩
    · rintro ⟨edge, hedge, hnode⟩
      exact ⟨edge, (h edge.1 edge.2).mpr hedge, hnode⟩
  · funext node
    refine ordered_congr fun target => ?_
    have hboth : target ∈ artifactTargets dependencies node ↔ target ∈ artifactTargets others node := by
      rw [mem_artifactTargets, mem_artifactTargets]
      exact h node target
    unfold artifactTargets at hboth
    rw [mem_ordered, mem_ordered] at hboth
    exact hboth

/-! ## Validation -/

/-- Both endpoints of every edge are declared. -/
def EndpointsDeclared (application : Application) (dependencies : List (Sourced ArtifactDependency)) : Prop :=
  ∀ source target, Depends dependencies source target →
    application.validateArtifactDependencyNode source = .ok ()
      ∧ application.validateArtifactDependencyNode target = .ok ()

theorem EndpointsDeclared.congr (h : EndpointsDeclared application dependencies)
    (hedges : ∀ source target, Depends dependencies source target ↔ Depends others source target) :
    EndpointsDeclared application others :=
  fun source target hdepends => h source target ((hedges source target).mpr hdepends)

theorem EndpointsDeclared.validates (h : EndpointsDeclared application dependencies) :
    dependencies.forM application.validateArtifactDependency = .ok () := by
  have hall : ∀ dependency ∈ dependencies, application.validateArtifactDependency dependency = .ok () := by
    intro dependency hdependency
    obtain ⟨hsource, htarget⟩ := h dependency.value.source.value dependency.value.target.value
      (List.mem_map.mpr ⟨dependency, hdependency, rfl⟩)
    unfold Application.validateArtifactDependency
    rw [hsource]
    exact htarget
  clear h
  induction dependencies with
  | nil => rfl
  | cons dependency rest ih =>
    show (application.validateArtifactDependency dependency >>= fun _ =>
      rest.forM application.validateArtifactDependency) = .ok ()
    rw [hall dependency List.mem_cons_self]
    exact ih fun other hother => hall other (List.mem_cons_of_mem dependency hother)

/-- With declared references and endpoints only the search decides. -/
theorem validateImageArtifactDependencies_eq
    (hreferences : application.validateImageArtifactReferences = .ok ())
    (hdeclared : EndpointsDeclared application dependencies) (fuel : Nat) :
    application.validateImageArtifactDependencies fuel dependencies
      = reported
          (detectAll (artifactTargets dependencies) fuel Search.start (artifactNodes dependencies)) := by
  unfold Application.validateImageArtifactDependencies
  rw [hreferences, hdeclared.validates]
  rfl

/-- What the validation of a graph with declared endpoints comes to. -/
structure DecidesCycles (dependencies : List (Sourced ArtifactDependency))
    (result : Except ModelError Unit) : Prop where
  accepts : result = .ok () ↔ ¬ ∃ node, Relation.TransGen (Depends dependencies) node node
  reports : ∀ names, result = .error (.imageArtifactDependencyCycle names) →
    ∃ cycle : List ArtifactDependencyNode, names = cycle.map ArtifactDependencyNode.displayName
      ∧ 2 ≤ cycle.length
      ∧ cycle.head? = cycle.getLast? ∧ cycle.IsChain (Depends dependencies)

theorem transGen_mem (h : Relation.TransGen (Depends dependencies) node node) :
    node ∈ artifactNodes dependencies := by
  obtain ⟨next, hedge, -⟩ := Relation.TransGen.head'_iff.mp h
  exact (mem_artifactNodes hedge).1

/-- The validation ends on every graph, accepts exactly the graphs without a cycle, reports a cycle
of the given edges, and depends only on which edges are given. -/
theorem artifact_validation_decides (application : Application)
    (hreferences : application.validateImageArtifactReferences = .ok ())
    (dependencies : List (Sourced ArtifactDependency))
    (hdeclared : EndpointsDeclared application dependencies) :
    ∃ result, DecidesCycles dependencies result
      ∧ ∀ others, (∀ source target, Depends dependencies source target ↔ Depends others source target) →
        ∀ fuel, (artifactNodes others).length < fuel →
          application.validateImageArtifactDependencies fuel others = some result := by
  have hspec := detectAll_spec (artifactNodes_closed dependencies)
    (Nat.lt_succ_self (artifactNodes dependencies).length)
  have hsame : ∀ others,
      (∀ source target, Depends dependencies source target ↔ Depends others source target) →
      ∀ fuel, (artifactNodes others).length < fuel →
        application.validateImageArtifactDependencies fuel others
          = reported (detectAll (artifactTargets dependencies) ((artifactNodes dependencies).length + 1)
              Search.start (artifactNodes dependencies)) := by
    intro others hedges fuel hfuel
    obtain ⟨hnodes, htargets⟩ := graph_congr hedges
    rw [validateImageArtifactDependencies_eq hreferences (hdeclared.congr hedges), ← hnodes, ← htargets]
    rw [← hnodes] at hfuel
    refine congrArg reported (detectAll_more hfuel fun hunfinished => ?_)
    rw [hunfinished] at hspec
    exact hspec
  cases hsearch : detectAll (artifactTargets dependencies) ((artifactNodes dependencies).length + 1)
      Search.start (artifactNodes dependencies) with
  | ok found =>
    rw [hsearch] at hspec
    refine ⟨.ok (), ⟨⟨fun _ => ?_, fun _ => rfl⟩, fun names hnames => (nomatch hnames)⟩,
      fun others hedges fuel hfuel => ?_⟩
    · rintro ⟨node, hcycle⟩
      refine acyclic_of_acc (hspec node (transGen_mem hcycle)) ?_
      rw [edge_artifactTargets]
      exact hcycle
    · rw [hsame others hedges fuel hfuel, hsearch]
      rfl
  | error stop =>
    rw [hsearch] at hspec
    cases stop with
    | unfinished => exact absurd hspec id
    | cycle cycle =>
      have hcycle : Cycle (artifactTargets dependencies) cycle := hspec
      have hchain : cycle.IsChain (Depends dependencies) := by
        rw [← edge_artifactTargets]
        exact hcycle.chain
      refine ⟨.error (.imageArtifactDependencyCycle (cycle.map ArtifactDependencyNode.displayName)),
        ⟨⟨fun hok => (nomatch hok), fun hacyclic => ?_⟩, fun names hnames => ?_⟩,
        fun others hedges fuel hfuel => ?_⟩
      · have hwalk := hcycle.transGen
        rw [edge_artifactTargets] at hwalk
        exact absurd hwalk hacyclic
      · refine ⟨cycle, ?_, hcycle.long, hcycle.closed, hchain⟩
        exact (ModelError.imageArtifactDependencyCycle.inj (Except.error.inj hnames)).symm
      · rw [hsame others hedges fuel hfuel, hsearch]
        rfl

def cacheName : Identifier := ⟨"cache", by decide +kernel⟩

/-- A volume and the build that its image comes from. -/
def cacheApplication : Application :=
  { Application.new cacheName with
    imageBuilds := [.generated ⟨cacheName, .application⟩]
    volumes := [.generated ⟨cacheName, .application, none, none, none, none, none, none, none, [], none,
      none, none, none, none, some (.generated (.imageBuild cacheName))⟩] }

def cacheDependency (source target : ArtifactDependencyNode) : Sourced ArtifactDependency :=
  .generated ⟨.generated source, .generated target⟩

/-- The volume needs its image, and the build needs the volume. -/
def cacheDependencies : List (Sourced ArtifactDependency) :=
  [cacheDependency (.volume cacheName) (.imageBuild cacheName),
    cacheDependency (.imageBuild cacheName) (.volume cacheName)]

example : cacheApplication.validateImageArtifactDependencies 3 cacheDependencies
    = some (.error (.imageArtifactDependencyCycle
      ["volume:cache", "image build:cache", "volume:cache"])) := by
  decide +kernel

theorem artifact_validation_decides_cache :
    ∃ result, DecidesCycles cacheDependencies result
      ∧ ∀ others,
        (∀ source target, Depends cacheDependencies source target ↔ Depends others source target) →
          ∀ fuel, (artifactNodes others).length < fuel →
            cacheApplication.validateImageArtifactDependencies fuel others = some result := by
  refine artifact_validation_decides cacheApplication (by decide +kernel) cacheDependencies ?_
  intro source target hdepends
  simp only [Depends, artifactEdges, cacheDependencies, List.map_cons, List.map_nil, List.mem_cons,
    List.not_mem_nil, or_false, Prod.mk.injEq] at hdepends
  rcases hdepends with ⟨rfl, rfl⟩ | ⟨rfl, rfl⟩
  · decide +kernel
  · decide +kernel

end Boxferry.Model
