import Boxferry.Podman.Import.Networking

/-! # The Podman importer

Networks, volumes, secrets, containers, pods and images of a source are mapped
in this order. A container records the names its service is found under and the
pod it belongs to; a pod collects the services of its members. -/
namespace Boxferry.Podman.Import
open Engine Model
set_option autoImplicit false

/-- The application so far, the service names by native id and native name, and the pods that
containers belong to by native id. The newest entry of a key is the one that counts. -/
structure MappingState where
  application : Application
  serviceNames : List (String × Identifier) := []
  podMemberships : List (String × Identifier) := []

/-! ## Infra containers -/

def reportInfraContainerFields (subject : Subject) (details : ContainerObservation) :
    Imported Unit := do
  let reason := "infra-container field is runtime topology evidence only"
  observationOnly (subject.field "configured_image") details.configuredImage reason
  observationOnly (subject.field "labels") details.labels reason
  observationOnly (subject.field "local_image_id") details.localImageId reason
  observationOnly (subject.field "environment") details.environment reason
  observationOnly (subject.field "command") details.command reason
  observationOnly (subject.field "entrypoint") details.entrypoint reason
  observationOnly (subject.field "user") details.user reason
  observationOnly (subject.field "working_directory") details.workingDirectory reason
  observationOnly (subject.field "hostname") details.hostname reason
  observationOnly (subject.field "pod_membership") details.podMembership reason
  observationOnly (subject.field "native_dependencies") details.nativeDependencies reason
  observationOnly (subject.field "mounts") details.mounts reason
  reportCreationEvidence subject details
  match details.mounts.observed? with
  | some mounts => mounts.value.zipIdx.forM fun item =>
      reportUnpromotedMount ((subject.field "mounts").index item.2) item.1 none
  | none => pure ()
  reportSecretGrants (subject.field "secret_grants") details.secretGrants
  observationOnly (subject.field "memory_swappiness") details.memorySwappiness reason
  observationOnly (subject.field "restart_policy") details.restartPolicy reason
  observationOnly (subject.field "health_check") details.healthCheck reason
  observationOnly (subject.field "health_failure_action") details.healthFailureAction reason
  observationOnly (subject.field "startup_health_check") details.startupHealthCheck reason
  observationOnly (subject.field "logging") details.logging reason
  observationOnly (subject.field "security") details.security reason
  observationOnly (subject.field "namespaces") details.namespaces reason
  observationOnly (subject.field "resource_controls") details.resourceControls reason
  reportNetworkingOnly (subject.field "networking") details.networking

/-- The infra classification is read from any observed value, whatever its origin. -/
def isInfra (details : ContainerObservation) : Bool :=
  details.infra.observed?.any Observed.value

/-! ## Containers -/

/-- Reports the settings of a container that have no neutral field. -/
def reportContainerRemainders (subject : Subject) (details : ContainerObservation) :
    Imported Unit := do
  observationOnly (subject.field "health_failure_action") details.healthFailureAction
    "effective health failure action has no complete neutral equivalent"
  observationOnly (subject.field "startup_healthcheck") details.startupHealthCheck
    "startup health has no complete neutral equivalent"
  observationOnly (subject.field "logging") details.logging
    "effective logging needs explicit promotion policy"
  observationOnly (subject.field "security") details.security
    "effective security settings need explicit promotion policy"
  observationOnly (subject.field "namespaces") details.namespaces
    "effective namespace settings need explicit promotion policy"
  observationOnly (subject.field "resource_controls") details.resourceControls
    "effective resource controls need explicit promotion policy"

namespace Mapping
variable (m : Mapping)

/-- The pod a container belongs to, when its configured reference resolves. -/
def mapPodMembership (subject : Subject) (details : ContainerObservation) :
    Imported (Option Identifier) := do
  let fieldSubject := subject.field "pod_membership"
  match ← configured details.podMembership fieldSubject with
  | none => pure none
  | some reference =>
    match m.resolveName .pod reference with
    | some group => pure (some group)
    | none => do
      identityConflict fieldSubject "pod reference does not resolve to exactly one selected pod"
      pure none

def buildService (subject : Subject) (identity : ResourceIdentity) (details : ContainerObservation)
    (name : Identifier) : Imported Service := do
  let service ← mapConfiguredImage subject details { name }
  reportCreationEvidence subject details
  let service ← mapConfiguredSettings subject identity.id details service
  let service ← mapContainerLabels subject details.labels service
  let service ← m.mapMounts subject details service
  let service ← m.mapContainerNetworks subject details service
  let service ← m.mapDependencies subject details service
  let service ← m.mapPortableEnvironment subject details.environment service
  reportSecretGrants (subject.field "secret_grants") details.secretGrants
  observationOnly (subject.field "memory_swappiness") details.memorySwappiness
    "configured memory swappiness has no neutral field"
  let service ← m.mapPortableRestartPolicy subject details.restartPolicy service
  let service ← m.mapPortableHealthcheck subject details.healthCheck service
  reportContainerRemainders subject details
  exact subject
  pure service

/-- The names a container's service is found under. -/
def serviceKeys (identity : ResourceIdentity) : List String := identity.name.toList ++ [identity.id]

/-- Records the names of a service and the pod of its container. -/
def record (state : MappingState) (identity : ResourceIdentity) (name : Identifier)
    (group : Option Identifier) : MappingState :=
  { state with
    serviceNames := (serviceKeys identity).map (fun key => (key, name)) ++ state.serviceNames
    podMemberships := group.toList.map (fun group => (identity.id, group)) ++ state.podMemberships }

def mapServiceContainer (subject : Subject) (identity : ResourceIdentity)
    (details : ContainerObservation) (state : MappingState) : Imported MappingState := do
  match ← identifier subject identity with
  | none => pure state
  | some name => do
    let group ← m.mapPodMembership subject details
    let state := record state identity name group
    let service ← m.buildService subject identity details name
    let application ← settle subject state.application
      (state.application.addService (sourced service))
    pure { state with application }

def mapContainer (state : MappingState) (observation : ResourceObservation) :
    Imported MappingState := do
  let identity := observation.header.identity
  let subject := Subject.ofResource identity
  if ← requireComplete observation.header subject then
    match observation.details with
    | .container details => do
      observationOnly (subject.field "infra") details.infra
        "infra-container classification is runtime topology evidence"
      if isInfra details then do
        exact (subject.field "pod_infra")
        reportInfraContainerFields subject details
        pure state
      else m.mapServiceContainer subject identity details state
    | _ => do
      kindsDisagree subject
      pure state
  else pure state

/-! ## Pods -/

/-- The service that a container contributes to a group. -/
def memberOf (state : MappingState) (name : Identifier) (container : ResourceObservation) :
    Option Identifier :=
  let id := container.header.identity.id
  if state.podMemberships.lookup id = some name then state.serviceNames.lookup id else none

def addMember (subject : Subject) (group : ServiceGroup) (member : Identifier) :
    Imported ServiceGroup :=
  match group.addMember (sourced member) with
  | .ok grown => do
    exact (subject.field "members")
    pure grown
  | .error error => do
    modelError (subject.field "members") error
    pure group

def reportPodFields (subject : Subject) (details : PodObservation) : Imported Unit := do
  reportNetworkingOnly (subject.field "runtime") details.networking
  observationOnly (subject.field "create_infra") details.createInfra
    "Podman infra-container creation is native runtime evidence"
  observationOnly (subject.field "labels") details.labels
    "neutral service groups have no metadata-label field"
  exact subject

def mapPod (state : MappingState) (observation : ResourceObservation) : Imported MappingState := do
  let identity := observation.header.identity
  let subject := Subject.ofResource identity
  if ← requireComplete observation.header subject then
    match observation.details with
    | .pod details =>
      match ← identifier subject identity with
      | none => pure state
      | some name => do
        let group ← ((m.observations .container).filterMap (memberOf state name)).foldlM
          (addMember subject) (ServiceGroup.new name .uncertain)
        reportPodFields subject details
        let application ← settle subject state.application
          (state.application.addServiceGroup (sourced group))
        pure { state with application }
    | _ => do
      kindsDisagree subject
      pure state
  else pure state

/-! ## The whole import -/

def mapResources : Imported MappingState := do
  let application ← (m.observations .network).foldlM m.mapNetwork
    (Application.new m.source.applicationName)
  let application ← (m.observations .volume).foldlM m.mapVolume application
  let application ← (m.observations .secret).foldlM mapSecret application
  let state ← (m.observations .container).foldlM m.mapContainer { application }
  (m.observations .pod).foldlM m.mapPod state

def map : Imported Application := do
  m.reportMissingSelectedObservations
  m.reportNativeFindings
  exact .application
  let state ← m.mapResources
  (m.observations .image).forM mapImage
  pure state.application

/-- The application an import returns. -/
def application : Application := m.map.value

/-- The import records no diagnostic of error severity. -/
def Clean : Prop := ∀ event ∈ m.map.log, event.isError = false

end Mapping
end Boxferry.Podman.Import
