import Boxferry.Podman.Deployment

/-! # The Podman exporter

The mapping of an application to a deployment intent. Identities of containers
and volumes are prepared once, before anything refers to them. -/
namespace Boxferry.Podman
open Engine Model
set_option autoImplicit false

abbrev Mapped (α : Type) : Type := Reports Event α

abbrev Building (α : Type) : Type := Attempts Event NativeError α

/-- The exporter's inputs. `quoted` is the debug spelling of a text in a message. -/
structure Mapping where
  lens : PodmanLens
  application : Application
  quoted : String → String

/-- The native identities of the logical services and volumes. -/
structure Identities where
  containers : List (String × DeploymentResourceId) := []
  volumes : List (String × String) := []

def exact (subject : Subject) : Mapped Unit := Reports.report (.exact subject)

def unsupported (subject : Subject) (summary : String) : Mapped Unit :=
  Reports.report (.unsupported subject summary)

def error (subject : Subject) (summary : String) : Mapped Unit :=
  Reports.report (.error subject summary)

def nativeError (subject : Subject) (reason : NativeError) : Mapped Unit :=
  Reports.report (.nativeError subject reason)

/-- Reports every populated field of a resource under its own reason. -/
def reportFields (kind : SubjectKind) (name : String) (fields : List (String × String × Bool)) :
    Mapped Unit :=
  (fields.filter fun field => field.2.2).forM fun field =>
    unsupported (.part kind name field.1) field.2.1

/-- `add_resource_result`. -/
def addResourceResult (subject : Subject) (result : Building DeploymentResource) : Mapped Unit := do
  match ← result.run with
  | .ok added => do
    Reports.report (.resource added)
    exact subject
  | .error reason => nativeError subject reason

namespace Mapping
variable (m : Mapping)

/-- One call of the native library. -/
def call (native : NativeCall) : Building Unit := Attempts.ensure (m.lens.rejects native)

/-! ## Container identities -/

/-- The names already taken and the identities found, while services are prepared. -/
structure ContainerIdentities where
  owners : List (String × String) := []
  identities : List (String × DeploymentResourceId) := []

/-- A service takes its public native name. -/
def identifyContainer (state : ContainerIdentities) (logicalName targetName : String) :
    Mapped ContainerIdentities := do
  let subject : Subject := .part .service logicalName "runtime_name"
  let identity : DeploymentResourceId := ⟨.container, targetName⟩
  match m.lens.rejects (.resourceId identity) with
  | some reason => do
    nativeError subject reason
    pure state
  | none => do
    let identities := (logicalName, identity) :: state.identities
    match state.owners.lookup targetName with
    | some first => do
      error subject
        ("Podman container identity resolves to the same name as logical service " ++
          m.quoted first)
      pure ⟨state.owners, identities⟩
    | none => pure ⟨(targetName, logicalName) :: state.owners, identities⟩

def prepareContainerIdentity (state : ContainerIdentities) (service : Sourced Service) :
    Mapped ContainerIdentities :=
  let logicalName := service.value.name.asStr
  match service.value.runtimeName with
  | some name =>
    if name.value.isSensitive then do
      error (.part .service logicalName "runtime_name")
        "Protected Podman container runtime names cannot be emitted as target resource identities"
      pure state
    else m.identifyContainer state logicalName name.value.expose
  | none => m.identifyContainer state logicalName logicalName

def prepareContainerIdentities : Mapped (List (String × DeploymentResourceId)) := do
  let state ← m.application.services.foldlM m.prepareContainerIdentity {}
  pure state.identities

/-! ## Volume identities -/

structure VolumeIdentities where
  owners : List (String × String) := []
  identities : List (String × String) := []

/-- The native name of a volume, unless it is protected. -/
def volumeTarget (volume : Volume) : Option String :=
  match volume.runtimeName with
  | none => some volume.name.asStr
  | some name => if name.value.isSensitive then none else some name.value.expose

def prepareVolumeIdentity (state : VolumeIdentities) (volume : Sourced Volume) :
    Mapped VolumeIdentities :=
  let logicalName := volume.value.name.asStr
  let subject : Subject := .part .volume logicalName "runtime_name"
  match volumeTarget volume.value with
  | none => do
    error subject
      "Protected Podman volume runtime names cannot be emitted as target resource identities"
    pure state
  | some targetName => do
    let identities := (logicalName, targetName) :: state.identities
    match state.owners.lookup targetName with
    | some first => do
      error subject
        ("Podman volume identity resolves to the same name as logical volume " ++ m.quoted first)
      pure ⟨state.owners, identities⟩
    | none => pure ⟨(targetName, logicalName) :: state.owners, identities⟩

def mountPart (index : Nat) (part : String) : String := "mounts[" ++ toString index ++ "]." ++ part

/-- Reports a named-volume mount that no declaration answers. -/
def reportMissingVolume (service : Service) (item : Sourced Mount × Nat) : Mapped Unit :=
  match item.1.value.source with
  | .volume name =>
    if name.asStr ∈ m.application.volumeNames.map Identifier.asStr then pure ()
    else error (.part .service service.name.asStr (mountPart item.2 "source"))
      "Named volume mount has no matching logical volume declaration"
  | _ => pure ()

def reportMissingVolumes (service : Sourced Service) : Mapped Unit :=
  service.value.mounts.zipIdx.forM (m.reportMissingVolume service.value)

def prepareVolumeIdentities : Mapped (List (String × String)) := do
  let state ← m.application.volumes.foldlM m.prepareVolumeIdentity {}
  m.application.services.forM m.reportMissingVolumes
  pure state.identities

/-! ## Resources -/

section Resources
variable (identities : Identities)

/-- `resource_id`. A container is found by its logical name only. -/
def resourceId (kind : ResourceKind) (name : String) : Building DeploymentResourceId :=
  if kind = .container then
    match identities.containers.lookup name with
    | some identity => pure identity
    | none => throw m.lens.invalidDeploymentIntent
  else do
    m.call (.resourceId ⟨kind, name⟩)
    pure ⟨kind, name⟩

/-- A managed resource, or a precondition when the application does not own it. -/
def owned (ownership : ResourceOwnership) (id : DeploymentResourceId)
    (managed : DeploymentResource) : Building DeploymentResource := do
  let added := if ownership = .application then managed else .externalPrecondition id
  m.call (.resource added)
  pure added

/-- The fields of a network without a native mapping. -/
def networkFields (network : Network) : List (String × String × Bool) := [
  ("runtime_name", "PodmanLens network intent does not expose neutral runtime names; no automatic promotion exists",
    network.runtimeName.isSome),
  ("driver", "PodmanLens network intent does not expose neutral network drivers; no automatic promotion exists",
    network.driver.isSome),
  ("driver_options", "PodmanLens network intent does not expose neutral driver options; no automatic promotion exists",
    network.driverOptions.any fun options => !options.isEmpty),
  ("labels", "PodmanLens network intent does not expose neutral labels; no automatic promotion exists",
    network.labels.any fun labels => !labels.isEmpty),
  ("internal", "PodmanLens network intent does not expose neutral internal state; no automatic promotion exists",
    network.internal.isSome),
  ("ipv6", "PodmanLens network intent does not expose neutral IPv6 state; no automatic promotion exists",
    network.ipv6.isSome),
  ("ipam_driver", "PodmanLens network intent does not expose neutral IPAM drivers; no automatic promotion exists",
    network.ipamDriver.isSome),
  ("ipam_configs", "PodmanLens network intent does not expose neutral IPAM configuration rows; no automatic promotion exists",
    network.ipamConfigs.isSome)]

def mapNetwork (network : Sourced Network) : Mapped Unit := do
  let network := network.value
  let name := network.name.asStr
  addResourceResult (.resource .network name) do
    let id ← m.resourceId identities .network name
    m.owned network.ownership id (.network id)
  reportFields .network name (networkFields network)

/-- The settings of a volume that its mapping reports together. -/
def volumeSettings (volume : Volume) : Bool :=
  volume.driver.isSome || volume.device.isSome || volume.volumeType.isSome ||
    volume.options.isSome || volume.labels.isSome || volume.user.isSome || volume.group.isSome ||
    volume.uid.isSome || volume.gid.isSome || volume.imageSource.isSome

def volumeFields (volume : Volume) : List (String × String × Bool) := [
  ("settings", "PodmanLens volume intent does not yet expose all neutral volume settings",
    volumeSettings volume)]

def mapVolume (volume : Sourced Volume) : Mapped Unit :=
  let volume := volume.value
  let name := volume.name.asStr
  match identities.volumes.lookup name with
  | none => pure ()
  | some identity => do
    addResourceResult (.resource .volume name) do
      let id ← m.resourceId identities .volume identity
      m.owned volume.ownership id (.volume id)
    reportFields .volume name (volumeFields volume)

def secretFields (secret : Secret) : List (String × String × Bool) := [
  ("runtime_name", "runtime secret names are not yet represented by PodmanLens deployment identities",
    secret.runtimeName.isSome),
  ("material", "application-managed secret requires caller-supplied deployment material",
    secret.ownership = .application && secret.material.isNone)]

def mapSecret (secret : Sourced Secret) : Mapped Unit := do
  let secret := secret.value
  let name := secret.name.asStr
  addResourceResult (.resource .secret name) do
    let id ← m.resourceId identities .secret name
    if secret.ownership = .application then do
      let reference := "boxferry-secret-" ++ name
      m.call (.sensitiveInputReference reference)
      m.call (.resource (.secret id reference))
      pure (.secret id reference)
    else m.owned secret.ownership id (.externalPrecondition id)
  reportFields .secret name (secretFields secret)

/-- Adds a member of a pod under its container identity. -/
def addMember (pod : PodIntent) (member : Sourced Identifier) : Building PodIntent := do
  let identity ← m.resourceId identities .container member.value.asStr
  let pod := { pod with members := pod.members ++ [identity] }
  m.call (.podMember pod)
  pure pod

def groupFields (group : ServiceGroup) : List (String × String × Bool) := [
  ("runtime", "PodmanLens pod intent does not yet expose neutral group runtime settings",
    group.runtime.isSome)]

def mapGroup (group : Sourced ServiceGroup) : Mapped Unit :=
  let group := group.value
  let name := group.name.asStr
  if group.ownership ≠ .application then do
    unsupported (.part .group name "ownership")
      "runtime-imported or externally owned pod topology is not a Podman external precondition"
    unsupported (.part .group name "members")
      "runtime-imported pod membership is omitted unless pod lifecycle ownership is authored"
  else do
    addResourceResult (.resource .group name) do
      let id ← m.resourceId identities .pod name
      m.call (.resource (.pod ⟨id, []⟩))
      let pod ← group.members.foldlM (m.addMember identities) ⟨id, []⟩
      pure (.pod pod)
    reportFields .group name (groupFields group)

/-- The application-owned group of a service. -/
def groupFor (service : String) : Option String :=
  (m.application.serviceGroups.find? fun group =>
    group.value.ownership = .application &&
      group.value.members.any fun member => member.value.asStr = service).map
    fun group => group.value.name.asStr

end Resources

/-! ## Container settings -/

section Settings
variable (service : Service)

def servicePart (part : String) : Subject := .part .service service.name.asStr part

/-- Reports a part of a service inside a native transaction. -/
def lose (part summary : String) : Building Unit :=
  Attempts.report (.unsupported (servicePart service part) summary)

def setCommand (arguments : List String) : Building (Option (List String)) := do
  m.call (.argumentArray arguments)
  m.call (.containerCommand arguments)
  pure (some arguments)

def mapCommand : Building (Option (List String)) :=
  match service.command.map Sourced.value with
  | none => pure none
  | some (.exec arguments) => m.setCommand (arguments.map ProtectedString.expose)
  | some (.shell command) => m.setCommand ["/bin/sh", "-c", command.expose]
  | some .empty => do
    lose service "command" "PodmanLens requires nonempty command arrays"
    pure none

def setEntrypoint (arguments : List String) : Building (Option (List String)) := do
  m.call (.argumentArray arguments)
  m.call (.containerEntrypoint arguments)
  pure (some arguments)

def mapEntrypoint : Building (Option (List String)) :=
  match service.entrypoint.map Sourced.value with
  | none => pure none
  | some (.exec arguments) => m.setEntrypoint (arguments.map ProtectedString.expose)
  | some (.shell command) => m.setEntrypoint ["/bin/sh", "-c", command.expose]
  | some .empty => do
    lose service "entrypoint" "PodmanLens requires nonempty entrypoint arrays"
    pure none

/-- The native spelling of a user with an optional group. -/
def userSpelling (user : ProtectedString) (group : Option ProtectedString) : String :=
  match group with
  | some group => user.expose ++ ":" ++ group.expose
  | none => user.expose

def mapUser : Building (Option String) :=
  match service.user with
  | some user => do
    let spelling := userSpelling user.value (service.group.map Sourced.value)
    m.call (.containerUser spelling)
    pure (some spelling)
  | none => do
    if service.group.isSome then
      lose service "group" "Podman user syntax cannot express a group without a user"
    pure none

/-- The path without trailing slashes, unless it is a single byte. -/
def normalizedWorkdir (spelling : String) : String :=
  if 1 < len spelling then
    String.ofList (spelling.toList.reverse.dropWhile (· = '/')).reverse
  else spelling

def mapWorkdir : Building (Option String) :=
  match service.workingDirectory with
  | none => pure none
  | some workdir =>
    let path := normalizedWorkdir workdir.value.expose
    match m.lens.rejects (.absoluteContainerPath path) <|> m.lens.rejects (.containerWorkdir path) with
    | none => pure (some path)
    | some _ => do
      lose service "working_directory"
        "PodmanLens requires a normalized absolute container working directory"
      pure none

def mapHostname : Building (Option String) :=
  match service.hostname with
  | none => pure none
  | some hostname => do
    m.call (.containerHostname hostname.value.expose)
    pure (some hostname.value.expose)

def mapLabel (labels : List (String × String)) (label : Sourced MetadataLabel) :
    Building (List (String × String)) := do
  let name := label.value.name.asStr
  let value := label.value.value.expose
  m.call (.labelKey name)
  match m.lens.rejects (.publicLabelValue value) with
  | none => do
    let labels := labels ++ [(name, value)]
    m.call (.containerLabels labels)
    pure labels
  | some _ => do
    lose service ("labels." ++ name)
      "PodmanLens cannot render this label value within its bounded public-value contract"
    pure labels

/-- Why an environment value has no public native spelling. -/
def environmentLoss : EnvironmentValue → Option String
  | .literal value =>
    if value.isSensitive then
      some "environment value requires external or sensitive-input planning not available from the neutral field"
    else none
  | .unresolvedSource _ _ => some "resolve authored source environment syntax before Podman output"
  | .deferred _ =>
    some "deferred service execution expressions require explicit resolution before Podman output"
  | .required => some "environment value was withheld; supply this named value on the target before use"
  | .host | .unset =>
    some "environment value requires external or sensitive-input planning not available from the neutral field"

def literalText : EnvironmentValue → String
  | .literal value => value.expose
  | _ => ""

def mapEnvironmentVariable (environment : List (String × String))
    (entry : Sourced EnvironmentVariable) : Building (List (String × String)) := do
  let name := entry.value.name.asStr
  match environmentLoss entry.value.value with
  | some summary => do
    lose service ("environment." ++ name) summary
    pure environment
  | none => do
    let value := literalText entry.value.value
    m.call (.publicEnvironmentValue value)
    m.call (.environmentName name)
    let environment := environment ++ [(name, value)]
    m.call (.containerEnvironment environment)
    pure environment

/-- The environment in the order of its names. -/
def sortedEnvironment : List (Sourced EnvironmentVariable) :=
  service.environment.mergeSort fun left right => left.value.name.asStr ≤ right.value.name.asStr

def mapRestartPolicy : Building (Option ContainerRestartPolicy) :=
  match service.restartPolicy.map Sourced.value with
  | none => pure none
  | some .never => set .no
  | some .always => set .always
  | some (.onFailure none) => set .onFailure
  | some .unlessStopped => set .unlessStopped
  | some (.onFailure (some _)) => do
    lose service "restart_policy" "PodmanLens restart intent does not retain finite retry count"
    set .onFailure
where
  set (policy : ContainerRestartPolicy) : Building (Option ContainerRestartPolicy) := do
    m.call (.restartPolicy policy)
    pure (some policy)

/-- `map_service_settings`. -/
def mapServiceSettings : Building ContainerSettings := do
  let command ← m.mapCommand service
  let entrypoint ← m.mapEntrypoint service
  let user ← m.mapUser service
  let workdir ← m.mapWorkdir service
  let hostname ← m.mapHostname service
  let labels ← service.labels.foldlM (m.mapLabel service) []
  let environment ← (sortedEnvironment service).foldlM (m.mapEnvironmentVariable service) []
  let restartPolicy ← m.mapRestartPolicy service
  pure ⟨command, entrypoint, user, workdir, hostname, labels, environment, restartPolicy⟩

end Settings

/-! ## Mounts and networks -/

section Attachments
variable (identities : Identities) (service : Service)

def mountAccess (mount : Mount) : MountAccess := if mount.readOnly then .readOnly else .readWrite

/-- Why a mount source other than a named volume has no native intent. -/
def sourceLoss : MountSource → String
  | .hostPath _ =>
    "PodmanLens deployment intent does not expose host bind sources; no automatic promotion exists"
  | .anonymous =>
    "PodmanLens deployment intent does not expose anonymous mount sources; no automatic promotion exists"
  | _ => "future neutral mount source is not reviewed for Podman; no automatic promotion exists"

def reportRelabel (mount : Mount) (index : Nat) : Building Unit :=
  if mount.selinuxRelabel.isSome then
    lose service (mountPart index "selinux_relabel")
      "PodmanLens named-volume intent does not expose SELinux relabel mode"
  else pure ()

def mapMount (mounts : List ContainerMount) (item : Sourced Mount × Nat) :
    Building (List ContainerMount) := do
  let mount := item.1.value
  m.call (.absoluteContainerPath mount.target)
  match mount.source with
  | .volume name =>
    match identities.volumes.lookup name.asStr with
    | none => pure mounts
    | some identity => do
      let source ← m.resourceId identities .volume identity
      let added : ContainerMount := .namedVolume source mount.target (mountAccess mount)
      m.call (.mount added)
      reportRelabel service mount item.2
      pure (mounts ++ [added])
  | source => do
    lose service (mountPart item.2 "source") (sourceLoss source)
    reportRelabel service mount item.2
    pure mounts

def tmpfsPart (index : Nat) : String := "tmpfs[" ++ toString index ++ "]"

def mapTmpfs (mounts : List ContainerMount) (item : Sourced ProtectedString × Nat) :
    Building (List ContainerMount) :=
  let part := tmpfsPart item.2
  if item.1.value.isSensitive then do
    Attempts.report (.error (servicePart service part)
      "sensitive tmpfs destination cannot be rendered without exposing protected input")
    pure mounts
  else do
    let spelling := item.1.value.expose
    let destination := String.ofList (spelling.toList.takeWhile (· ≠ ':'))
    m.call (.absoluteContainerPath destination)
    if containsChar spelling ':' then
      lose service (part ++ ".options")
        "tmpfs options are not represented by the current PodmanLens tmpfs intent"
    else Attempts.report (.exact (servicePart service part))
    pure (mounts ++ [.tmpfs destination .readWrite])

/-- `map_service_mounts`. -/
def mapServiceMounts : Building (List ContainerMount) := do
  let mounts ← service.mounts.zipIdx.foldlM (m.mapMount identities service) []
  match service.tmpfs with
  | none => pure mounts
  | some tmpfs => do
    if tmpfs.isEmpty then
      Attempts.report (.exact (servicePart service "tmpfs"))
    tmpfs.zipIdx.foldlM (m.mapTmpfs service) mounts

def networkPart (index : Nat) : String := "networks[" ++ toString index ++ "]"

/-- Adds the aliases of an attachment up to the first one the library refuses. -/
def addAliases (part : String) (attachment : AttachedNetwork) :
    List (Sourced ProtectedString × Nat) → Mapped (Option AttachedNetwork)
  | [] => pure (some attachment)
  | (spelling, index) :: rest => do
    let attachment := { attachment with aliases := attachment.aliases ++ [spelling.value.expose] }
    match m.lens.rejects (.networkAttachment attachment) with
    | some reason => do
      nativeError (servicePart service (part ++ ".aliases[" ++ toString index ++ "]")) reason
      pure none
    | none => addAliases part attachment rest

def mapServiceNetwork (networks : List AttachedNetwork) (item : Sourced NetworkAttachment × Nat) :
    Mapped (List AttachedNetwork) := do
  let network := item.1.value
  let part := networkPart item.2
  let id : DeploymentResourceId := ⟨.network, network.network.asStr⟩
  match m.lens.rejects (.resourceId id) <|> m.lens.rejects (.networkAttachment ⟨id, []⟩) with
  | some reason => do
    nativeError (servicePart service part) reason
    pure networks
  | none => do
    match ← m.addAliases service part ⟨id, []⟩ network.aliases.zipIdx with
    | none => pure networks
    | some attachment => do
      if network.ipv4Address.isSome || network.ipv6Address.isSome then
        unsupported (servicePart service (part ++ ".addresses"))
          "static neutral network addresses are not yet mapped to PodmanLens attachment intent"
      match m.lens.rejects (.containerNetworks (networks ++ [attachment])) with
      | some reason => do
        nativeError (servicePart service part) reason
        pure networks
      | none => pure (networks ++ [attachment])

end Attachments

/-! ## Services -/

section Services
variable (identities : Identities) (service : Service)

def imageName : String := service.name.asStr ++ "-image"

def mapPullPolicy : Building ImagePullPolicy :=
  match service.pullPolicy.map Sourced.value with
  | some .always => pure .always
  | some .never => pure .never
  | some .missing | none => pure .missing
  | some _ => do
    lose service "pull_policy" "future neutral pull policy is not reviewed for Podman"
    pure .missing

def buildImage (image : ImageReference) : Building DeploymentResource := do
  let id ← m.resourceId identities .image (imageName service)
  m.call (.imageSource image.asStr)
  let policy ← mapPullPolicy service
  let added : DeploymentResource := .image id image.asStr policy
  m.call (.resource added)
  pure added

def joinPod (container : DeploymentResourceId) : Building (Option DeploymentResourceId) :=
  match m.groupFor service.name.asStr with
  | none => pure none
  | some group => do
    let pod ← m.resourceId identities .pod group
    m.call (.containerPod container pod)
    pure (some pod)

def buildContainer : Building ContainerIntent := do
  let id ← m.resourceId identities .container service.name.asStr
  let image ← m.resourceId identities .image (imageName service)
  m.call (.resource (.container { id, image }))
  let pod ← m.joinPod identities service id
  let settings ← m.mapServiceSettings service
  let mounts ← m.mapServiceMounts identities service
  let networks ← ExceptT.lift (service.networks.zipIdx.foldlM (m.mapServiceNetwork service) [])
  pure ⟨id, image, pod, settings, mounts, networks⟩

/-- The fields of a service without a native mapping. -/
def unmappedFields : List (String × Bool) := [
  ("execution_environment", service.executionEnvironment.isSome),
  ("rootfs", service.rootfs.isSome),
  ("image_acquisition", service.imageAcquisition.isSome),
  ("image_build", service.imageBuild.isSome),
  ("startup_notification", service.startupNotification.isSome),
  ("run_init", service.runInit.isSome),
  ("stop_timeout", service.stopTimeout.isSome),
  ("memory_limit", service.memoryLimit.isSome),
  ("exposed_ports", service.exposedPorts.isSome),
  ("healthcheck", service.healthcheck.isSome),
  ("annotations", service.annotations.isSome),
  ("logging", service.logging.isSome),
  ("reload_action", service.reloadAction.isSome),
  ("user_namespace", service.userNamespace.isSome),
  ("supplementary_groups", !service.supplementaryGroups.isEmpty),
  ("read_only_root_filesystem", service.readOnlyRootFilesystem.isSome),
  ("dns_servers", service.dnsServers.isSome),
  ("dns_options", service.dnsOptions.isSome),
  ("dns_search_domains", service.dnsSearchDomains.isSome),
  ("security_options", service.securityOptions.isSome),
  ("pids_limit", service.pidsLimit.isSome),
  ("shm_size", service.shmSize.isSome),
  ("cap_add", service.capAdd.isSome),
  ("cap_drop", service.capDrop.isSome),
  ("sysctls", service.sysctls.isSome),
  ("ulimits", service.ulimits.isSome),
  ("devices", service.devices.isSome),
  ("stop_signal", service.stopSignal.isSome),
  ("environment_files", !service.environmentFiles.isEmpty),
  ("host_mappings", !service.hostMappings.isEmpty),
  ("ports", !service.ports.isEmpty),
  ("config_grants", !service.configGrants.isEmpty),
  ("secret_grants", !service.secretGrants.isEmpty)]

def unmappedReason : String := "neutral service field has no reviewed PodmanLens mapping yet"

def serviceFields : List (String × String × Bool) :=
  (unmappedFields service).map fun field => (field.1, unmappedReason, field.2)

def mapService : Mapped Unit :=
  match service.image with
  | none => error (servicePart service "image") "Podman container export requires an image reference"
  | some image => do
    addResourceResult (servicePart service "image") (m.buildImage identities service image.value)
    let result ← (m.buildContainer identities service).run
    if result.isOk && service.runtimeName.isSome then
      exact (servicePart service "runtime_name")
    match result with
    | .ok container => do
      Reports.report (.resource (.container container))
      exact (.resource .service service.name.asStr)
    | .error reason => nativeError (.resource .service service.name.asStr) reason
    reportFields .service service.name.asStr (serviceFields service)

end Services

/-! ## Dependencies -/

section Dependencies
variable (identities : Identities)

def dependencyPart (index : Nat) : String := "dependencies[" ++ toString index ++ "]"

def buildDependency (service : Service) (dependency : ServiceDependency) :
    Building StartupDependency := do
  let predecessor ← m.resourceId identities .container dependency.service.asStr
  let dependent ← m.resourceId identities .container service.name.asStr
  m.call (.startupDependency ⟨predecessor, dependent⟩)
  pure ⟨predecessor, dependent⟩

def mapDependency (service : Service) (item : Sourced ServiceDependency × Nat) : Mapped Unit := do
  let dependency := item.1.value
  let part := dependencyPart item.2
  match ← (m.buildDependency identities service dependency).run with
  | .ok edge => do
    Reports.report (.dependency edge)
    exact (servicePart service part)
  | .error reason => nativeError (servicePart service part) reason
  if dependency.condition.isSome || dependency.restart.isSome || dependency.required.isSome then
    unsupported (servicePart service (part ++ ".options"))
      "Podman startup edges do not represent Compose dependency options"

def mapDependencies (service : Sourced Service) : Mapped Unit :=
  service.value.dependencies.zipIdx.forM (m.mapDependency identities service.value)

end Dependencies

/-! ## The application -/

/-- The part of `map_application` that refers to prepared identities. -/
def mapResources (identities : Identities) : Mapped Unit := do
  m.application.networks.forM (m.mapNetwork identities)
  m.application.volumes.forM (m.mapVolume identities)
  m.application.secrets.forM (m.mapSecret identities)
  m.application.serviceGroups.forM (m.mapGroup identities)
  m.application.services.forM fun service => m.mapService identities service.value
  m.application.services.forM (m.mapDependencies identities)

def prepareIdentities : Mapped Identities := do
  exact .application
  let volumes ← m.prepareVolumeIdentities
  let containers ← m.prepareContainerIdentities
  pure ⟨containers, volumes⟩

def mapApplication : Mapped Unit := do
  let identities ← m.prepareIdentities
  m.mapResources identities

/-- The deployment intent after the whole mapping. -/
def intent : Option DeploymentIntent := keptIntent m.mapApplication.log

/-- The artifacts of the exported candidate. -/
def candidate : Option String := m.intent.bind m.lens.render

end Mapping
end Boxferry.Podman
