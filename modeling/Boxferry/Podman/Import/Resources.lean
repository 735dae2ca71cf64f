import Mathlib.Data.List.Sort
import Boxferry.Model.Text
import Boxferry.Podman.Import.Events

/-! # Selection, findings and plain resources

Which resources an import selects, what the native library found about them,
and the mapping of networks, volumes, secrets and images. -/
namespace Boxferry.Podman.Import
open Engine Model
set_option autoImplicit false

/-- The importer's inputs. -/
structure Mapping where
  native : NativeLibrary
  source : PodmanSource

/-! ## Native findings -/

def invalidInventoryFinding (code : FindingCode) : Bool :=
  code ∈ [.inventoryHttpStatus, .inventoryJson, .inventoryShape, .resourceUnavailable,
    .resourceMalformed, .relationshipConflict, .unresolvedRelationship, .podMembershipConflict]

def invalidDiscoveryFinding (code : FindingCode) : Bool :=
  code ∈ [.selectorUnresolved, .selectorAmbiguous, .relationshipAmbiguous]

def optionalCreationFinding (finding : InventoryFinding) : Bool :=
  finding.code = .resourceMalformed && finding.fieldPath = some "$.Config.CreateCommand" &&
    finding.resource.any fun identity => identity.kind = .container

def networkMappingLimitationSubject (sectionKind : ResourceKind) (finding : InventoryFinding) :
    Option Subject :=
  if sectionKind ≠ .network ∨ finding.code ≠ .nativeFieldUnsupported then none
  else do
    let field ← match ← finding.fieldPath with
      | "$.driver" => some "driver"
      | "$.ipam_options" => some "ipam_driver"
      | "$.ipv6_enabled" => some "native_ipv6_enabled"
      | _ => none
    let identity ← finding.resource
    some (.part .network identity [.field field])

def creationConflictSubject (finding : InventoryFinding) : Option Subject := do
  let identity ← finding.resource
  if identity.kind ≠ .container then none
  else match finding.occurrence with
    | none => some (.part .container identity [.field "image", .field "authored_spelling"])
    | some position => some (.part .container identity
        [.field "creation_evidence", .field "mount_relabels", .index position])

/-- A finding that gets an event of its own, or none when it is reported in its group. -/
def findingEvent (located : LocatedFinding) : Option Event :=
  let finding := located.finding
  if optionalCreationFinding finding then
    some (.nativeMappingLimitation located
      ((finding.resource.map fun identity =>
        Subject.part .container identity [.field "creation_evidence"]).getD .creationEvidence)
      "optional recorded creation evidence was malformed; typed inspect intent remains usable"
      "Recreate the container with a supported podman create or run command if authored image or relabel corroboration is required; no automatic promotion exists.")
  else match networkMappingLimitationSubject located.sectionKind finding with
    | some subject => some (.nativeMappingLimitation located subject
        "PodmanLens does not expose this network value through its typed public contract"
        "Author this network field separately on the target; no BoxFerry promotion option can recover it from current PodmanLens evidence.")
    | none =>
      if finding.code = .creationEvidenceConflict then
        some (.nativeMappingLimitation located
          ((creationConflictSubject finding).getD .creationEvidence)
          "recorded creation evidence conflicts with typed inspect evidence and was ignored"
          "Review and author the affected field separately; conflicting creation evidence has no automatic promotion.")
      else if invalidInventoryFinding finding.code then some (.inventoryFinding located)
      else none

/-- Complete, or malformed in nothing but optional creation evidence. -/
def ResourceHeader.isComplete (header : ResourceHeader) : Bool :=
  header.state = .complete ||
    (header.state = .malformed && !header.findings.isEmpty &&
      header.findings.all optionalCreationFinding)

/-- A finding of the header is taken to explain why the resource is not usable. -/
def ResourceHeader.hasCausalFinding (header : ResourceHeader) : Bool :=
  header.findings.any fun finding => invalidInventoryFinding finding.code

/-! ## Selection -/

/-- `selected_identities`, before they are ordered. -/
def ResourceGraph.mentioned (graph : ResourceGraph) : List ResourceIdentity :=
  graph.resolvedRoots ++
    graph.groups.flatMap (fun group => group.id :: group.members ++ group.prerequisites) ++
    graph.sharedPrerequisites ++
    graph.dependencies.flatMap fun dependency => [dependency.dependent, dependency.prerequisite]

namespace Mapping
variable (m : Mapping)

def selected : List ResourceIdentity :=
  m.source.graph.mentioned.dedup.insertionSort fun left right => m.native.precedes left right = true

/-- `observations`: the acquired observations of the selected resources of a kind, in order. -/
def observations (kind : ResourceKind) : List ResourceObservation :=
  (m.selected.filter fun identity => identity.kind = kind).filterMap
    m.source.inventory.observation

/-- `resolve_name`: the name of the one selected resource that a reference names. -/
def resolveName (kind : ResourceKind) (reference : String) : Option Identifier :=
  match m.selected.filter fun identity => identity.kind = kind && identity.answersTo reference with
  | [identity] => (Identifier.new identity.shownName).toOption
  | _ => none

/-! ## Reported findings -/

def inventorySectionIsRelevant (kind : ResourceKind) : Bool :=
  let graph := m.source.graph
  graph.allRequested || !graph.requestedLabelRoots.isEmpty || kind ∈ graph.requestedRoots ||
    m.selected.any fun identity => identity.kind = kind

def sectionFindings : List LocatedFinding :=
  (m.source.inventory.sections.filter fun part => m.inventorySectionIsRelevant part.kind).flatMap
    fun part => (part.findings.filter fun finding => finding.resource.isNone).map
      fun finding => ⟨part.kind, none, finding⟩

def headerFindings (observation : ResourceObservation) : List LocatedFinding :=
  observation.header.findings.map fun finding =>
    ⟨observation.header.identity.kind, some observation.header.state, finding⟩

def inventoryFindings : List LocatedFinding :=
  m.sectionFindings ++
    (m.selected.filterMap m.source.inventory.observation).flatMap headerFindings

/-- The key that findings reported together share, in the order of the groups. -/
def groupKey (located : LocatedFinding) : List (List String) :=
  [[m.native.codeText located.finding.code], [resourceKindName located.sectionKind],
    (located.finding.resource.map resourceLocator).toList,
    (located.state.map observationStateName).toList]

def ordinaryFindings : List LocatedFinding :=
  m.inventoryFindings.filter fun located => (findingEvent located).isNone

/-- The findings without an event of their own, one group for each key. -/
def ordinaryGroups : List (List LocatedFinding) :=
  (((m.ordinaryFindings.map m.groupKey).dedup.insertionSort fun left right => ¬ right < left).map
    fun key => m.ordinaryFindings.filter fun located => m.groupKey located = key)

def discoveryFindingIsRelevant (finding : DiscoveryFinding) : Bool :=
  finding.code ∉ [FindingCode.advisoryLabelIncomplete, .advisoryLabelConflict] &&
    finding.resource.all fun identity => identity ∈ m.selected

def discoveryEvent (finding : DiscoveryFinding) : Event :=
  if invalidDiscoveryFinding finding.code then .discoveryFinding finding
  else .nativeDiscoveryFinding finding

def reportNativeFindings : Imported Unit := do
  (m.inventoryFindings.filterMap findingEvent).forM Reports.report
  m.ordinaryGroups.forM fun findings => Reports.report (.nativeInventoryFindings findings)
  (m.source.graph.findings.filter m.discoveryFindingIsRelevant).forM fun finding =>
    Reports.report (discoveryEvent finding)

def reportMissingSelectedObservations : Imported Unit :=
  (m.selected.filter fun identity => (m.source.inventory.observation identity).isNone).forM
    fun identity => identityConflict (.selected identity)
      "selected discovery identity is absent from the supplied Podman inventory"

/-! ## Completeness -/

def requireComplete (header : ResourceHeader) (subject : Subject) : Imported Bool :=
  if header.isComplete then pure true
  else if header.hasCausalFinding then pure false
  else do
    Reports.report (.invalidObservation subject "selected native resource is unavailable or malformed")
    pure false

@[simp] theorem value_requireComplete (header : ResourceHeader) (subject : Subject) :
    (requireComplete header subject).value = header.isComplete := by
  unfold requireComplete
  cases header.isComplete <;> cases header.hasCausalFinding <;> rfl

def identifier (subject : Subject) (identity : ResourceIdentity) : Imported (Option Identifier) :=
  match Identifier.new identity.shownName with
  | .ok name => pure (some name)
  | .error error => do
    modelError subject error
    pure none

def kindsDisagree (subject : Subject) : Imported Unit :=
  invalid subject "native resource kind and details disagree"

@[simp] theorem value_identifier (subject : Subject) (identity : ResourceIdentity) :
    (identifier subject identity).value = (Identifier.new identity.shownName).toOption := by
  unfold identifier
  cases Identifier.new identity.shownName <;> rfl

/-! ## Labels -/

def composeLifecycleLabelPrefix : String := "com.docker.compose."

def isComposeLifecycleLabel (name : String) : Bool := startsWith name composeLifecycleLabelPrefix

/-- One label, kept in order unless it belongs to the Compose lifecycle. -/
def mapLabel (subject : Subject) (kept : List (Sourced MetadataLabel)) (label : String × String) :
    Imported (List (Sourced MetadataLabel)) :=
  if isComposeLifecycleLabel label.1 then pure kept
  else match Identifier.new label.1 with
    | .ok name => pure (kept ++ [sourced ⟨name, .plain label.2⟩])
    | .error error => do
      modelError subject error
      pure kept

/-- The labels a resource keeps. -/
def mapLabels (subject : Subject) (field : ObservationField (List (String × String))) :
    Imported (List (Sourced MetadataLabel)) := do
  match ← configured field (subject.field "labels") with
  | some labels => labels.foldlM (mapLabel (subject.field "labels")) []
  | none => pure []

/-- A label collection that starts with its first label. -/
def labelCollection (labels : List (Sourced MetadataLabel)) : Option (List (Sourced MetadataLabel)) :=
  if labels.isEmpty then none else some labels

/-! ## Networks -/

def authorizedPortable : Bool := m.source.promotionPolicy.portableEffectiveSettings

def promotedResourceOwnership (identity : ResourceIdentity) (promoted : Bool) : ResourceOwnership :=
  if !promoted then .uncertain
  else if m.source.graph.explanations.any fun explanation =>
      explanation.resource = identity && explanation.stoppedSharedBoundary then .external
  else .application

def reportOwnership (subject : Subject) (ownership : ResourceOwnership) : Imported Unit :=
  if ownership = .application then Reports.report (.inferredOwnership (subject.field "ownership"))
  else pure ()

def mapNetworkInternal (subject : Subject) (field : ObservationField Bool) (network : Network) :
    Imported Network := do
  let fieldSubject := subject.field "internal"
  match ← portableSetting field fieldSubject m.authorizedPortable
      "effective network-internal state needs explicit promotion policy" with
  | none => pure network
  | some (internal, promoted) => do
    Reports.onlyIf promoted (approximateWithFlag fieldSubject
      "effective network-internal state explicitly promoted as portable intent"
      portableEffectiveSettingsFlag)
    pure { network with internal := some (portableSourced internal promoted) }

def leaseRangeSpelling (first last : NativeIpAddress) : Option String :=
  if first.isIpv6 = last.isIpv6 then some (first.spelling ++ "-" ++ last.spelling) else none

/-- `NetworkIpamConfig::set_ip_range`, reported under its own subject. -/
def setIpRange (rangeSubject : Subject) (config : NetworkIpamConfig)
    (range : Sourced ProtectedString) : Imported NetworkIpamConfig :=
  match validateText "network IPAM IP range" range.value.expose with
  | .ok () => pure { config with ipRange := some range }
  | .error error => do
    modelError rangeSubject error
    pure config

def mapNetworkLeaseRange (rowSubject : Subject) (field : ObservationField NativeNetworkLeaseRange)
    (promoted : Bool) (config : NetworkIpamConfig) : Imported NetworkIpamConfig := do
  let rangeSubject := rowSubject.field "lease_range"
  match ← portableSetting field rangeSubject m.authorizedPortable
      "effective network lease range needs explicit promotion policy" with
  | none => pure config
  | some (range, _) =>
    match ← portableSetting range.startIp (rangeSubject.field "start_ip") m.authorizedPortable
        "effective network lease-range start needs explicit promotion policy" with
    | none => pure config
    | some (first, _) =>
      match ← portableSetting range.endIp (rangeSubject.field "end_ip") m.authorizedPortable
          "effective network lease-range end needs explicit promotion policy" with
      | none => pure config
      | some (last, _) =>
        match leaseRangeSpelling first last with
        | some spelling =>
          setIpRange rangeSubject config (portableSourced (.plain spelling) promoted)
        | none => do
          observationOnly rangeSubject field
            "effective network lease-range endpoints use different address families"
          pure config

def setGateway (subject : Subject) (config : NetworkIpamConfig) (gateway : Sourced ProtectedString) :
    Imported NetworkIpamConfig :=
  match validateText "network IPAM gateway" gateway.value.expose with
  | .ok () => pure { config with gateway := some gateway }
  | .error error => do
    modelError subject error
    pure config

def mapNetworkGateway (rowSubject : Subject) (field : ObservationField NativeIpAddress)
    (promoted : Bool) (config : NetworkIpamConfig) : Imported NetworkIpamConfig := do
  let gatewaySubject := rowSubject.field "gateway"
  match ← portableSetting field gatewaySubject m.authorizedPortable
      "effective network gateway needs explicit promotion policy" with
  | none => pure config
  | some (gateway, _) =>
    setGateway gatewaySubject config (portableSourced (.plain gateway.spelling) promoted)

/-- `NetworkIpamConfig::new`. -/
def newIpamConfig (subnet : Sourced ProtectedString) : Except ModelError NetworkIpamConfig := do
  validateText "network IPAM subnet" subnet.value.expose
  .ok { subnet }

def hasIpv6Address (cidr : String) : Bool :=
  (splitOnce '/' cidr).any fun parts => IpText.parse parts.1 = some .v6

/-- One row of address management: the network so far, and whether a row is an IPv6 one. -/
structure IpamRows where
  configs : List (Sourced NetworkIpamConfig) := []
  hasIpv6Subnet : Bool := false

def mapNetworkSubnet (fieldSubject : Subject) (promoted : Bool) (rows : IpamRows)
    (item : NativeNetworkSubnetObservation × Nat) : Imported IpamRows := do
  let rowSubject := fieldSubject.index item.2
  match ← portableSetting item.1.cidr (rowSubject.field "subnet") m.authorizedPortable
      "effective network subnet needs explicit promotion policy" with
  | none => pure rows
  | some (cidr, _) =>
    match newIpamConfig (portableSourced (.plain cidr) promoted) with
    | .error error => do
      modelError (rowSubject.field "subnet") error
      pure rows
    | .ok config => do
      let config ← m.mapNetworkGateway rowSubject item.1.gateway promoted config
      let config ← m.mapNetworkLeaseRange rowSubject item.1.leaseRange promoted config
      pure ⟨rows.configs ++ [portableSourced config promoted],
        rows.hasIpv6Subnet || hasIpv6Address cidr⟩

def mapNetworkIpam (subject : Subject)
    (field : ObservationField (List NativeNetworkSubnetObservation)) (network : Network) :
    Imported Network := do
  let fieldSubject := subject.field "ipam"
  match ← portableSetting field fieldSubject m.authorizedPortable
      "effective network subnet and address-allocation settings need explicit promotion policy" with
  | none => pure network
  | some (subnets, promoted) => do
    let rows ← subnets.zipIdx.foldlM (m.mapNetworkSubnet fieldSubject promoted) {}
    Reports.onlyIf (promoted && !rows.configs.isEmpty) (approximateWithFlag fieldSubject
      "effective network subnet and gateway settings explicitly promoted as portable IPAM intent"
      portableEffectiveSettingsFlag)
    pure { network with
      ipamConfigs := if rows.configs.isEmpty then network.ipamConfigs else some rows.configs
      ipv6 := if rows.hasIpv6Subnet then some (portableSourced true promoted) else network.ipv6 }

/-- The application after an addition, or as it was when the addition is refused. -/
def settle (subject : Subject) (application : Application) (result : Except ModelError Application) :
    Imported Application :=
  match result with
  | .ok grown => pure grown
  | .error error => do
    modelError subject error
    pure application

@[simp] theorem value_settle (subject : Subject) (application : Application)
    (result : Except ModelError Application) :
    (settle subject application result).value = result.toOption.getD application := by
  cases result <;> rfl

def buildNetwork (subject : Subject) (identity : ResourceIdentity) (details : NetworkObservation)
    (name : Identifier) : Imported Network := do
  let ownership := m.promotedResourceOwnership identity
    m.source.promotionPolicy.effectiveNamedNetworks
  reportOwnership subject ownership
  let labels ← mapLabels subject details.labels
  let network : Network := { name, ownership, labels := labelCollection labels }
  let network ← m.mapNetworkInternal subject details.internal network
  let network ← m.mapNetworkIpam subject details.subnets network
  observationOnly (subject.field "routes") details.routes
    "native network routes have no neutral desired-state field"
  observationOnly (subject.field "options") details.options
    "network option values are intentionally not exposed by PodmanLens"
  exact subject
  pure network

def mapNetwork (application : Application) (observation : ResourceObservation) :
    Imported Application := do
  let identity := observation.header.identity
  let subject := Subject.ofResource identity
  if ← requireComplete observation.header subject then
    match observation.details with
    | .network details =>
      match ← identifier subject identity with
      | none => pure application
      | some name => do
        let network ← m.buildNetwork subject identity details name
        settle subject application (application.addNetwork (sourced network))
    | _ => do
      kindsDisagree subject
      pure application
  else pure application

/-! ## Volumes, secrets and images -/

def buildVolume (subject : Subject) (identity : ResourceIdentity) (details : VolumeObservation)
    (name : Identifier) : Imported Volume := do
  let ownership := m.promotedResourceOwnership identity
    m.source.promotionPolicy.effectiveNamedVolumeMounts
  reportOwnership subject ownership
  let labels ← mapLabels subject details.labels
  observationOnly (subject.field "driver") details.driver
    "effective volume driver is observation-only"
  observationOnly (subject.field "uid") details.uid
    "effective volume ownership is observation-only"
  observationOnly (subject.field "gid") details.gid
    "effective volume ownership is observation-only"
  observationOnly (subject.field "created_at") details.createdAt
    "volume creation time is runtime evidence only"
  observationOnly (subject.field "anonymous") details.anonymous
    "anonymous-volume classification is runtime evidence only"
  exact subject
  pure { name, ownership, labels := labelCollection labels }

def mapVolume (application : Application) (observation : ResourceObservation) :
    Imported Application := do
  let identity := observation.header.identity
  let subject := Subject.ofResource identity
  if ← requireComplete observation.header subject then
    match observation.details with
    | .volume details =>
      match ← identifier subject identity with
      | none => pure application
      | some name => do
        let volume ← m.buildVolume subject identity details name
        settle subject application (application.addVolume (sourced volume))
    | _ => do
      kindsDisagree subject
      pure application
  else pure application

def reportSecretFields (subject : Subject) (details : SecretObservation) : Imported Unit := do
  observationOnly (subject.field "driver") details.driver
    "secret metadata does not contain deployable secret material"
  observationOnly (subject.field "labels") details.labels
    "neutral secret metadata has no label field"
  observationOnly (subject.field "created_at") details.createdAt
    "secret creation time is runtime evidence only"
  observationOnly (subject.field "updated_at") details.updatedAt
    "secret update time is runtime evidence only"
  exact subject

def mapSecret (application : Application) (observation : ResourceObservation) :
    Imported Application := do
  let identity := observation.header.identity
  let subject := Subject.ofResource identity
  if ← requireComplete observation.header subject then
    match observation.details with
    | .secret details =>
      match ← identifier subject identity with
      | none => pure application
      | some name => do
        reportSecretFields subject details
        settle subject application
          (application.addSecret (sourced { name, ownership := .uncertain }))
    | _ => do
      kindsDisagree subject
      pure application
  else pure application

def reportImageFields (subject : Subject) (details : ImageObservation) : Imported Unit := do
  observationOnly (subject.field "labels") details.labels
    "runtime image labels are evidence, not authored acquisition"
  observationOnly (subject.field "repo_tags") details.repoTags
    "local repository tags must not replace configured image intent"
  observationOnly (subject.field "repo_digests") details.repoDigests
    "local repository digests must not replace configured image intent"
  observationOnly (subject.field "environment") details.environment
    "protected image defaults are observation-only"
  observationOnly (subject.field "digest") details.digest
    "local image digest is resolution evidence only"
  observationOnly (subject.field "created") details.created
    "image creation time is runtime evidence only"
  observationOnly (subject.field "author") details.author
    "image author is metadata evidence only"
  observationOnly (subject.field "architecture") details.architecture
    "image architecture is metadata evidence only"
  observationOnly (subject.field "operating_system") details.operatingSystem
    "image operating system is metadata evidence only"
  observationOnly (subject.field "manifest_type") details.manifestType
    "image manifest type is metadata evidence only"

def mapImage (observation : ResourceObservation) : Imported Unit := do
  let subject := Subject.ofResource observation.header.identity
  if ← requireComplete observation.header subject then
    match observation.details with
    | .image details => reportImageFields subject details
    | _ => kindsDisagree subject
  else pure ()

end Mapping
end Boxferry.Podman.Import
