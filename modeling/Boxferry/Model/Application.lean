import Boxferry.Library.Naming
import Boxferry.Model.Metadata
import Boxferry.Model.Service

/-! # Applications

The ordered multi-service application graph and the operations that grow it.
Operations return the first violated check and leave the caller's graph
unchanged; resources keep their declaration order. -/
namespace Boxferry.Model
set_option autoImplicit false

/-! ## Resources -/

inductive ResourceOwnership where
  | application
  | external
  | implicit
  | uncertain
deriving DecidableEq

/-- The explicit source of an image-backed volume. -/
inductive VolumeImageSource where
  | literal (image : ProtectedString)
  | imageAcquisition (name : Identifier)
  | imageBuild (name : Identifier)
deriving DecidableEq

structure Volume where
  name : Identifier
  ownership : ResourceOwnership
  runtimeName : Option (Sourced ProtectedString) := none
  serviceName : Option (Sourced ProtectedString) := none
  driver : Option (Sourced ProtectedString) := none
  device : Option (Sourced ProtectedString) := none
  volumeType : Option (Sourced ProtectedString) := none
  options : Option (Sourced ProtectedString) := none
  labels : Option (List (Sourced MetadataLabel)) := none
  labelsOrigins : List Provenance := []
  copy : Option (Sourced Bool) := none
  user : Option (Sourced ProtectedString) := none
  group : Option (Sourced ProtectedString) := none
  uid : Option (Sourced ProtectedString) := none
  gid : Option (Sourced ProtectedString) := none
  imageSource : Option (Sourced VolumeImageSource) := none
deriving DecidableEq

/-- One driver-specific network option with independently sourced key and value. -/
structure NetworkDriverOption where
  name : Sourced Identifier
  value : Sourced ProtectedString
deriving DecidableEq

/-- One explicitly associated address-management row. -/
structure NetworkIpamConfig where
  subnet : Sourced ProtectedString
  gateway : Option (Sourced ProtectedString) := none
  ipRange : Option (Sourced ProtectedString) := none
deriving DecidableEq

structure Network where
  name : Identifier
  ownership : ResourceOwnership
  runtimeName : Option (Sourced ProtectedString) := none
  driver : Option (Sourced ProtectedString) := none
  driverOptions : Option (List (Sourced NetworkDriverOption)) := none
  driverOptionsOrigins : List Provenance := []
  labels : Option (List (Sourced MetadataLabel)) := none
  labelsOrigins : List Provenance := []
  internal : Option (Sourced Bool) := none
  ipv6 : Option (Sourced Bool) := none
  ipamDriver : Option (Sourced ProtectedString) := none
  ipamConfigs : Option (List (Sourced NetworkIpamConfig)) := none
  ipamConfigsOrigins : List Provenance := []
deriving DecidableEq

inductive ConfigMaterial where
  | file (path : ProtectedString)
  | environment (name : ProtectedString)
  | content (content : ProtectedString)
deriving DecidableEq

structure Config where
  name : Identifier
  ownership : ResourceOwnership
  runtimeName : Option (Sourced ProtectedString) := none
  material : Option (Sourced ConfigMaterial) := none
deriving DecidableEq

inductive SecretMaterial where
  | file (path : ProtectedString)
  | environment (name : ProtectedString)
deriving DecidableEq

structure Secret where
  name : Identifier
  ownership : ResourceOwnership
  runtimeName : Option (Sourced ProtectedString) := none
  material : Option (Sourced SecretMaterial) := none
deriving DecidableEq

structure ImageAcquisition where
  name : Identifier
  ownership : ResourceOwnership
deriving DecidableEq

structure ImageBuild where
  name : Identifier
  ownership : ResourceOwnership
deriving DecidableEq

inductive GroupExitPolicy where
  | stop
  | continue
  | raw (policy : ProtectedString)
deriving DecidableEq

/-- Native runtime settings owned by one service group. -/
structure ServiceGroupRuntime where
  runtimeName : Option (Sourced ProtectedString) := none
  serviceName : Option (Sourced ProtectedString) := none
  hostMappings : Option (List (Sourced HostMapping)) := none
  hostMappingsOrigins : List Provenance := []
  ports : Option (List (Sourced Port)) := none
  portsOrigins : List Provenance := []
  networks : Option (List (Sourced NetworkAttachment)) := none
  networksOrigins : List Provenance := []
  userNamespace : Option (Sourced ProtectedString) := none
  mounts : Option (List (Sourced Mount)) := none
  mountsOrigins : List Provenance := []
  shmSize : Option (Sourced ProtectedString) := none
  exitPolicy : Option (Sourced GroupExitPolicy) := none
  stopTimeout : Option (Sourced StopTimeout) := none
deriving DecidableEq

/-- One structural group of application services. No service is a member twice. -/
structure ServiceGroup where
  name : Identifier
  ownership : ResourceOwnership
  members : List (Sourced Identifier)
  runtime : Option (Sourced ServiceGroupRuntime)
  distinct : (members.map Sourced.value).Nodup

namespace ServiceGroup

def new (name : Identifier) (ownership : ResourceOwnership) : ServiceGroup :=
  ⟨name, ownership, [], none, List.nodup_nil⟩

/-- Appends one uniquely named member in source order. -/
def addMember (group : ServiceGroup) (member : Sourced Identifier) : Except ModelError ServiceGroup :=
  if h : member.value ∈ group.members.map Sourced.value then
    .error (.duplicateServiceGroupMember group.name.asStr member.value.asStr)
  else
    .ok { group with
      members := group.members ++ [member]
      distinct := Naming.nodup_append group.distinct h }

def setRuntime (group : ServiceGroup) (runtime : Sourced ServiceGroupRuntime) : ServiceGroup :=
  { group with runtime := some runtime }

end ServiceGroup

/-! ## Retained native evidence -/

/-- Resource-qualified opaque source fact retained for explanation, never execution. -/
inductive RetainedNativeEvidenceSubject where
  | quadletServicePodmanArgs (name : Identifier)
  | quadletVolumeContainersConfModules (name : Identifier)
  | quadletVolumeGlobalArgs (name : Identifier)
  | quadletVolumePodmanArgs (name : Identifier)
deriving DecidableEq

namespace RetainedNativeEvidenceSubject

def conversionSubject : RetainedNativeEvidenceSubject → String
  | .quadletServicePodmanArgs name => "services." ++ name.asStr ++ ".podman_args"
  | .quadletVolumeContainersConfModules name =>
    "volumes." ++ name.asStr ++ ".containers_conf_modules"
  | .quadletVolumeGlobalArgs name => "volumes." ++ name.asStr ++ ".global_args"
  | .quadletVolumePodmanArgs name => "volumes." ++ name.asStr ++ ".podman_args"

/-- The resource kind and name a subject belongs to. -/
def owner : RetainedNativeEvidenceSubject → String × Identifier
  | .quadletServicePodmanArgs name => ("service", name)
  | .quadletVolumeContainersConfModules name => ("volume", name)
  | .quadletVolumeGlobalArgs name => ("volume", name)
  | .quadletVolumePodmanArgs name => ("volume", name)

end RetainedNativeEvidenceSubject

inductive RetainedNativeEvidenceEvent where
  | value (segments : List (Sourced ProtectedString))
  | reset (segments : List (Sourced ProtectedString))
deriving DecidableEq

def RetainedNativeEvidenceEvent.physicalSegments :
    RetainedNativeEvidenceEvent → List (Sourced ProtectedString)
  | .value segments | .reset segments => segments

/-- One provenance-bearing native evidence event with protected, sourced segments. -/
structure RetainedNativeEvidence where
  subject : RetainedNativeEvidenceSubject
  event : Sourced RetainedNativeEvidenceEvent
  authored : event.origins ≠ []
  nonempty : event.value.physicalSegments ≠ []
  segmentsAuthored : ∀ segment ∈ event.value.physicalSegments, segment.origins ≠ []
  segmentsProtected : ∀ segment ∈ event.value.physicalSegments, segment.value.isSensitive = true

/-! ## Application graph -/

/-- One ordered multi-service application graph. -/
structure Application where
  name : Identifier
  retainedNativeEvidence : List RetainedNativeEvidence
  vendorMetadata : List VendorMetadata
  imageAcquisitions : List (Sourced ImageAcquisition)
  imageBuilds : List (Sourced ImageBuild)
  services : List (Sourced Service)
  serviceGroups : List (Sourced ServiceGroup)
  volumes : List (Sourced Volume)
  networks : List (Sourced Network)
  configs : List (Sourced Config)
  secrets : List (Sourced Secret)

def ensureUnique (kind : String) (name : Identifier) (existing : List Identifier) :
    Except ModelError Unit :=
  if name ∈ existing then .error (.duplicateResource kind name.asStr) else .ok ()

/-- A service's artifact reference, if any, names a declared resource. -/
def ensureDeclared (reference : Option (Sourced Identifier)) (declared : List Identifier)
    (unknown : String → ModelError) : Except ModelError Unit :=
  match reference with
  | none => .ok ()
  | some name => if name.value ∉ declared then .error (unknown name.value.asStr) else .ok ()

/-- Accounting bytes of a metadata list on top of `bytes`. -/
def measureVendorMetadata : List VendorMetadata → Nat → Except MetadataError Nat
  | [], bytes => .ok bytes
  | item :: rest, bytes => do
    let size ← item.measure
    match checkedAdd bytes size with
    | none => .error .limit
    | some total => measureVendorMetadata rest total

namespace Application

def new (name : Identifier) : Application :=
  ⟨name, [], [], [], [], [], [], [], [], [], []⟩

/-! ### Names in declaration order -/

def imageAcquisitionNames (application : Application) : List Identifier :=
  application.imageAcquisitions.map fun entry => entry.value.name

def imageBuildNames (application : Application) : List Identifier :=
  application.imageBuilds.map fun entry => entry.value.name

def serviceNames (application : Application) : List Identifier :=
  application.services.map fun entry => entry.value.name

def serviceGroupNames (application : Application) : List Identifier :=
  application.serviceGroups.map fun entry => entry.value.name

def volumeNames (application : Application) : List Identifier :=
  application.volumes.map fun entry => entry.value.name

def networkNames (application : Application) : List Identifier :=
  application.networks.map fun entry => entry.value.name

def configNames (application : Application) : List Identifier :=
  application.configs.map fun entry => entry.value.name

def secretNames (application : Application) : List Identifier :=
  application.secrets.map fun entry => entry.value.name

/-! ### Operations -/

def addVendorMetadata (application : Application) (metadata : VendorMetadata) :
    Except MetadataError Application :=
  let unknown := match metadata.scope with
    | .application => false
    | .service owner => owner ∉ application.serviceNames
  if unknown then .error .unknownOwner
  else if application.vendorMetadata.any (fun existing =>
      existing.scope = metadata.scope ∧
        existing.nameSpace.value.expose = metadata.nameSpace.value.expose) then
    .error .duplicate
  else do
    let first ← metadata.measure
    let bytes ← measureVendorMetadata application.vendorMetadata first
    if metadataMaxBytes < bytes then .error .limit
    else .ok { application with vendorMetadata := application.vendorMetadata ++ [metadata] }

def addRetainedNativeEvidence (application : Application) (evidence : RetainedNativeEvidence) :
    Except ModelError Application :=
  let (kind, name) := evidence.subject.owner
  let present :=
    if kind = "service" then decide (name ∈ application.serviceNames)
    else if kind = "volume" then decide (name ∈ application.volumeNames)
    else false
  if present then
    .ok { application with
      retainedNativeEvidence := application.retainedNativeEvidence ++ [evidence] }
  else .error (.unknownNativeEvidenceOwner kind name.asStr)

def addImageAcquisition (application : Application) (acquisition : Sourced ImageAcquisition) :
    Except ModelError Application := do
  ensureUnique "image acquisition" acquisition.value.name application.imageAcquisitionNames
  .ok { application with imageAcquisitions := application.imageAcquisitions ++ [acquisition] }

def addImageBuild (application : Application) (build : Sourced ImageBuild) :
    Except ModelError Application := do
  ensureUnique "image build" build.value.name application.imageBuildNames
  .ok { application with imageBuilds := application.imageBuilds ++ [build] }

def addService (application : Application) (service : Sourced Service) :
    Except ModelError Application := do
  ensureUnique "service" service.value.name application.serviceNames
  service.value.validateImageSourceExclusivity
  service.value.validateDeferred
  ensureDeclared service.value.imageAcquisition application.imageAcquisitionNames
    (.unknownImageAcquisitionReference service.value.name.asStr)
  ensureDeclared service.value.imageBuild application.imageBuildNames
    (.unknownImageBuildReference service.value.name.asStr)
  .ok { application with services := application.services ++ [service] }

/-- The group that already has a member of this name. -/
def groupOf (application : Application) (member : Identifier) : Option (Sourced ServiceGroup) :=
  application.serviceGroups.find? fun candidate =>
    candidate.value.members.any fun existing => existing.value = member

/-- Every member of a new group is declared and belongs to no group yet. -/
def checkGroupMembers (application : Application) (group : ServiceGroup) :
    List (Sourced Identifier) → Except ModelError Unit
  | [] => .ok ()
  | member :: rest =>
    if member.value ∉ application.serviceNames then
      .error (.unknownServiceGroupMember group.name.asStr member.value.asStr)
    else
      match application.groupOf member.value with
      | some existing =>
        .error (.serviceInMultipleGroups member.value.asStr existing.value.name.asStr
          group.name.asStr)
      | none => checkGroupMembers application group rest

def addServiceGroup (application : Application) (group : Sourced ServiceGroup) :
    Except ModelError Application := do
  ensureUnique "service group" group.value.name application.serviceGroupNames
  application.checkGroupMembers group.value group.value.members
  .ok { application with serviceGroups := application.serviceGroups ++ [group] }

def addVolume (application : Application) (volume : Sourced Volume) :
    Except ModelError Application := do
  ensureUnique "volume" volume.value.name application.volumeNames
  .ok { application with volumes := application.volumes ++ [volume] }

def addNetwork (application : Application) (network : Sourced Network) :
    Except ModelError Application := do
  ensureUnique "network" network.value.name application.networkNames
  .ok { application with networks := application.networks ++ [network] }

def addConfig (application : Application) (config : Sourced Config) :
    Except ModelError Application := do
  ensureUnique "config" config.value.name application.configNames
  .ok { application with configs := application.configs ++ [config] }

def addSecret (application : Application) (secret : Sourced Secret) :
    Except ModelError Application := do
  ensureUnique "secret" secret.value.name application.secretNames
  .ok { application with secrets := application.secrets ++ [secret] }

end Application

/-- Literal and opaque-source values are withheld; every other value is kept. -/
def EnvironmentValue.withhold : EnvironmentValue → EnvironmentValue
  | .literal _ | .unresolvedSource _ _ => .required
  | value => value

/-- The service with its literal and opaque-source environment values withheld. -/
def Service.withholdLiteralEnvironmentValues (service : Service) : Service :=
  { service with
    environment := service.environment.map fun entry =>
      { entry with value := { entry.value with value := entry.value.value.withhold } } }

/-- Withholds literal and opaque-source service environment values, retaining names and origins. -/
def Application.withholdLiteralEnvironmentValues (application : Application) : Application :=
  { application with
    services := application.services.map fun entry =>
      { entry with value := entry.value.withholdLiteralEnvironmentValues } }

end Boxferry.Model
