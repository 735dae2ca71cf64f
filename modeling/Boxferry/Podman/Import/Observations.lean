import Boxferry.Model.Application
import Boxferry.Podman.Deployment

/-! # Podman observations

What an acquired Podman inventory says about containers, networks, volumes,
secrets, pods and images. Every observed value carries the origin that decides
whether it may become desired state; collections, rows and fields of rows are
observed separately. -/
namespace Boxferry.Podman.Import
open Model
set_option autoImplicit false

/-! ## Observed fields -/

/-- Where an observed value comes from. `unreviewed` stands for origins of later library versions. -/
inductive ObservationOrigin where
  | configured
  | effective
  | runtimeAssigned
  | localResolution
  | unreviewed
deriving DecidableEq

structure Observed (α : Type) where
  origin : ObservationOrigin
  value : α
deriving DecidableEq

inductive ObservationField (α : Type) where
  | observed (observation : Observed α)
  | absent
  | notApplicable
  | unavailable
  | malformed
  | versionInapplicable
  | unmodelled
  | unreviewed
deriving DecidableEq

namespace ObservationField
variable {α : Type}

def observed? : ObservationField α → Option (Observed α)
  | .observed observation => some observation
  | _ => none

def isObserved (field : ObservationField α) : Bool := field.observed?.isSome

/-- A value observed with an origin. -/
def of (origin : ObservationOrigin) (value : α) : ObservationField α := .observed ⟨origin, value⟩

@[simp] theorem observed?_observed (observation : Observed α) :
    (observed observation).observed? = some observation := rfl

theorem observed?_eq_some {field : ObservationField α} {observation : Observed α} :
    field.observed? = some observation ↔ field = .observed observation := by
  cases field <;> simp [observed?]

end ObservationField

/-! ## Identities and findings -/

structure ResourceIdentity where
  kind : ResourceKind
  id : String
  name : Option String
deriving DecidableEq

/-- `identity_name`. -/
def ResourceIdentity.shownName (identity : ResourceIdentity) : String := identity.name.getD identity.id

/-- Whether a reference names the resource by its id or by its name. -/
def ResourceIdentity.answersTo (identity : ResourceIdentity) (reference : String) : Bool :=
  identity.id = reference || identity.name = some reference

/-- The finding codes of the native library that the importer tells apart. -/
inductive FindingCode where
  | inventoryHttpStatus
  | inventoryJson
  | inventoryShape
  | resourceUnavailable
  | resourceMalformed
  | relationshipConflict
  | unresolvedRelationship
  | podMembershipConflict
  | selectorUnresolved
  | selectorAmbiguous
  | relationshipAmbiguous
  | unknownFieldOverflow
  | nativeFieldUnsupported
  | advisoryLabelIncomplete
  | advisoryLabelConflict
  | creationEvidenceConflict
  | other (code : String)
deriving DecidableEq

structure InventoryFinding where
  code : FindingCode
  resource : Option ResourceIdentity
  fieldPath : Option String
  occurrence : Option Nat
deriving DecidableEq

structure DiscoveryFinding where
  code : FindingCode
  resource : Option ResourceIdentity
  selector : Option (ResourceKind × String)
  labelSelector : Option String
  fieldPath : Option String
deriving DecidableEq

inductive ResourceObservationState where
  | complete
  | unavailable
  | malformed
  | unreviewed
deriving DecidableEq

structure ResourceHeader where
  identity : ResourceIdentity
  state : ResourceObservationState
  findings : List InventoryFinding
deriving DecidableEq

/-! ## Containers -/

/-- A protected environment value; only the caller can authorize its text. -/
inductive ProtectedEnvironmentValue where
  | authorizedOpaque (value : String)
  | redacted
  | unreviewed
deriving DecidableEq

structure ProtectedEnvironmentEntry where
  name : String
  value : ProtectedEnvironmentValue
deriving DecidableEq

inductive NativeRestartPolicyName where
  | no
  | always
  | onFailure
  | unlessStopped
  | unreviewed
deriving DecidableEq

structure NativeRestartPolicyObservation where
  name : ObservationField NativeRestartPolicyName
  maximumRetryCount : ObservationField UInt64
deriving DecidableEq

inductive NativeHealthCommand where
  | disabled
  | shell (arguments : List String)
  | exec (arguments : List String)
  | unreviewed
deriving DecidableEq

structure NativeHealthCheckObservation where
  command : ObservationField NativeHealthCommand
  interval : ObservationField Int
  timeout : ObservationField Int
  startPeriod : ObservationField Int
  retries : ObservationField Int
deriving DecidableEq

inductive ContainerMountKind where
  | bind
  | namedVolume
  | other
deriving DecidableEq

inductive ContainerMountSource where
  | namedVolume (name : String)
  | localBindPath (path : String)
  | other
deriving DecidableEq

inductive ContainerMountSelinuxRelabel where
  | shared
  | «private»
  | unreviewed
deriving DecidableEq

structure ContainerMountObservation where
  kind : ContainerMountKind
  source : ObservationField ContainerMountSource
  destination : ObservationField String
  writable : ObservationField Bool
  selinuxRelabel : ObservationField ContainerMountSelinuxRelabel
  localBackingPath : ObservationField String
  options : ObservationField (List String)
  propagation : ObservationField String
  subpath : ObservationField String
deriving DecidableEq

inductive AuthoredImageSpellingHint where
  | matchesConfiguredImage
  | matchesLocalImageId
  | contradictory
  | unreviewed
deriving DecidableEq

inductive AuthoredMountRelabelHint where
  | shared (mountIndex : Nat)
  | «private» (mountIndex : Nat)
  | contradictory
  | unreviewed
deriving DecidableEq

structure ContainerCreationEvidence where
  image : ObservationField AuthoredImageSpellingHint
  mountRelabels : ObservationField (List AuthoredMountRelabelHint)
deriving DecidableEq

structure ContainerSecretGrantObservation where
  reference : ObservationField String
  uid : ObservationField Nat
  gid : ObservationField Nat
  mode : ObservationField Nat
deriving DecidableEq

inductive NativeNamespaceMode where
  | host
  | other (mode : String)
deriving DecidableEq

structure NativeNamespacesObservation where
  uts : ObservationField NativeNamespaceMode
deriving DecidableEq

/-! ## Networking -/

/-- A parsed address in the spelling it prints. -/
structure NativeIpAddress where
  spelling : String
  isIpv6 : Bool
deriving DecidableEq

inductive NativePortProtocol where
  | tcp
  | udp
  | sctp
  | unreviewed
deriving DecidableEq

structure NativePortBindingObservation where
  containerPort : UInt16
  protocol : NativePortProtocol
  hostIp : ObservationField NativeIpAddress
  hostPort : ObservationField UInt16
deriving DecidableEq

inductive NativeNetworkAliasKind where
  | effectiveCandidate
  | runtimeContainerId
  | unreviewed
deriving DecidableEq

structure NativeNetworkAlias where
  kind : NativeNetworkAliasKind
  spelling : String
deriving DecidableEq

structure NativeNetworkAttachment where
  network : String
  aliases : ObservationField (List NativeNetworkAlias)
deriving DecidableEq

structure NativeNetworkingObservation where
  portBindings : ObservationField (List NativePortBindingObservation)
  dnsServers : ObservationField (List NativeIpAddress)
  dnsSearch : ObservationField (List String)
  dnsOptions : ObservationField (List String)
  networks : ObservationField (List String)
  networkAttachments : ObservationField (List NativeNetworkAttachment)
  createNetNs : ObservationField Bool
  hostNetwork : ObservationField Bool
  hostEntries : ObservationField String
  networkOptions : ObservationField String
  noManageResolvConf : ObservationField Bool
  noManageHosts : ObservationField Bool
  staticIp : ObservationField String
  staticMac : ObservationField String
deriving DecidableEq

/-! ## Resource details -/

/-- One container. Fields that the importer only reports keep their native text. -/
structure ContainerObservation where
  infra : ObservationField Bool
  configuredImage : ObservationField String
  localImageId : ObservationField String
  labels : ObservationField (List (String × String))
  environment : ObservationField (List ProtectedEnvironmentEntry)
  command : ObservationField (List String)
  entrypoint : ObservationField (List String)
  user : ObservationField String
  workingDirectory : ObservationField String
  hostname : ObservationField String
  podMembership : ObservationField String
  nativeDependencies : ObservationField (List String)
  mounts : ObservationField (List ContainerMountObservation)
  creationEvidence : ObservationField ContainerCreationEvidence
  secretGrants : ObservationField (List ContainerSecretGrantObservation)
  memorySwappiness : ObservationField String
  restartPolicy : ObservationField NativeRestartPolicyObservation
  healthCheck : ObservationField NativeHealthCheckObservation
  healthFailureAction : ObservationField String
  startupHealthCheck : ObservationField String
  logging : ObservationField String
  security : ObservationField String
  namespaces : ObservationField NativeNamespacesObservation
  resourceControls : ObservationField String
  networking : ObservationField NativeNetworkingObservation
deriving DecidableEq

/-- A container of which nothing is observed. -/
def ContainerObservation.unobserved : ContainerObservation where
  infra := .absent
  configuredImage := .absent
  localImageId := .absent
  labels := .absent
  environment := .absent
  command := .absent
  entrypoint := .absent
  user := .absent
  workingDirectory := .absent
  hostname := .absent
  podMembership := .absent
  nativeDependencies := .absent
  mounts := .absent
  creationEvidence := .absent
  secretGrants := .absent
  memorySwappiness := .absent
  restartPolicy := .absent
  healthCheck := .absent
  healthFailureAction := .absent
  startupHealthCheck := .absent
  logging := .absent
  security := .absent
  namespaces := .absent
  resourceControls := .absent
  networking := .absent

structure NativeNetworkLeaseRange where
  startIp : ObservationField NativeIpAddress
  endIp : ObservationField NativeIpAddress
deriving DecidableEq

structure NativeNetworkSubnetObservation where
  cidr : ObservationField String
  gateway : ObservationField NativeIpAddress
  leaseRange : ObservationField NativeNetworkLeaseRange
deriving DecidableEq

structure NetworkObservation where
  labels : ObservationField (List (String × String))
  internal : ObservationField Bool
  subnets : ObservationField (List NativeNetworkSubnetObservation)
  routes : ObservationField String
  options : ObservationField String
deriving DecidableEq

structure VolumeObservation where
  labels : ObservationField (List (String × String))
  driver : ObservationField String
  uid : ObservationField Nat
  gid : ObservationField Nat
  createdAt : ObservationField String
  anonymous : ObservationField Bool
deriving DecidableEq

structure SecretObservation where
  driver : ObservationField String
  labels : ObservationField (List (String × String))
  createdAt : ObservationField String
  updatedAt : ObservationField String
deriving DecidableEq

structure PodObservation where
  networking : ObservationField NativeNetworkingObservation
  createInfra : ObservationField Bool
  labels : ObservationField (List (String × String))
deriving DecidableEq

structure ImageObservation where
  labels : ObservationField (List (String × String))
  repoTags : ObservationField (List String)
  repoDigests : ObservationField (List String)
  environment : ObservationField (List ProtectedEnvironmentEntry)
  digest : ObservationField String
  created : ObservationField String
  author : ObservationField String
  architecture : ObservationField String
  operatingSystem : ObservationField String
  manifestType : ObservationField String
deriving DecidableEq

inductive ResourceDetails where
  | container (details : ContainerObservation)
  | network (details : NetworkObservation)
  | volume (details : VolumeObservation)
  | secret (details : SecretObservation)
  | pod (details : PodObservation)
  | image (details : ImageObservation)
  | missing
deriving DecidableEq

structure ResourceObservation where
  header : ResourceHeader
  details : ResourceDetails
deriving DecidableEq

/-! ## Inventory, discovery and source -/

structure InventorySection where
  kind : ResourceKind
  findings : List InventoryFinding
deriving DecidableEq

structure ResourceInventory where
  sections : List InventorySection
  observations : List ResourceObservation
deriving DecidableEq

def ResourceInventory.observation (inventory : ResourceInventory) (identity : ResourceIdentity) :
    Option ResourceObservation :=
  inventory.observations.find? fun observation => observation.header.identity = identity

structure DiscoveryGroup where
  id : ResourceIdentity
  members : List ResourceIdentity
  prerequisites : List ResourceIdentity
deriving DecidableEq

structure DiscoveryDependency where
  dependent : ResourceIdentity
  prerequisite : ResourceIdentity
deriving DecidableEq

structure DiscoveryExplanation where
  resource : ResourceIdentity
  stoppedSharedBoundary : Bool
deriving DecidableEq

structure ResourceGraph where
  resolvedRoots : List ResourceIdentity
  groups : List DiscoveryGroup
  sharedPrerequisites : List ResourceIdentity
  dependencies : List DiscoveryDependency
  explanations : List DiscoveryExplanation
  findings : List DiscoveryFinding
  allRequested : Bool
  requestedLabelRoots : List String
  requestedRoots : List ResourceKind
deriving DecidableEq

structure PodmanPromotionPolicy where
  effectiveBindMounts : Bool := false
  effectiveNamedVolumeMounts : Bool := false
  effectiveNamedNetworks : Bool := false
  portableEffectiveSettings : Bool := false
deriving DecidableEq

def PodmanPromotionPolicy.conservative : PodmanPromotionPolicy := {}

/-- One explicit import source. The engine and API versions are evidence in diagnostics. -/
structure PodmanSource where
  applicationName : Identifier
  inventory : ResourceInventory
  graph : ResourceGraph
  promotionPolicy : PodmanPromotionPolicy
  observedEngineVersion : String
  observedApiVersion : String

/-- The parts of the native library that the importer relies on without reading them: the text and
message of a finding code, the rank of a kind, and the order of a set of identities. -/
structure NativeLibrary where
  codeText : FindingCode → String
  codeMessage : FindingCode → String
  canonicalRank : ResourceKind → Nat
  precedes : ResourceIdentity → ResourceIdentity → Bool

/-- A library that orders identities by their ids and says nothing about its findings. -/
def NativeLibrary.plain : NativeLibrary where
  codeText _ := ""
  codeMessage _ := ""
  canonicalRank _ := 0
  precedes left right := decide (left.id ≤ right.id)

/-- A source that selects and observes these resources completely. -/
def completeSource (resources : List (ResourceIdentity × ResourceDetails))
    (policy : PodmanPromotionPolicy) : PodmanSource where
  applicationName := ⟨"app", Identifier.valid_app⟩
  inventory := ⟨[], resources.map fun resource => ⟨⟨resource.1, .complete, []⟩, resource.2⟩⟩
  graph := ⟨resources.map Prod.fst, [], [], [], [], [], false, [], []⟩
  promotionPolicy := policy
  observedEngineVersion := ""
  observedApiVersion := ""

def soleContainerSource (identity : ResourceIdentity) (details : ContainerObservation)
    (policy : PodmanPromotionPolicy) : PodmanSource :=
  completeSource [(identity, .container details)] policy

end Boxferry.Podman.Import
