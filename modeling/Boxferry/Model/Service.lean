import Boxferry.Library.IpText
import Boxferry.Model.Deferred

/-! # Services

One application service with its ordered attachments. Every value that the
source admits through a checking constructor carries the check it passed. -/
namespace Boxferry.Model
set_option autoImplicit false

/-! ## Images -/

def validateComponent (kind value : String) : Except ModelError Unit := validateText kind value

/-- Splits `name:tag` at the last colon unless a slash follows it. -/
def splitTag (nameAndTag : String) : String × Option String :=
  let chars := nameAndTag.toList
  let tail := (chars.reverse.takeWhile fun ch => ch ≠ ':' ∧ ch ≠ '/').reverse
  let before := chars.take (chars.length - tail.length)
  if before.getLast? = some ':' then (String.ofList before.dropLast, some (String.ofList tail))
  else (nameAndTag, none)

/-- A preserved image reference with optional tag and digest components. -/
structure ImageReference where
  asStr : String
  repository : String
  tag : Option String
  digest : Option String
deriving DecidableEq

/-- `ImageReference::parse`: component structure is checked, spelling is kept. -/
def ImageReference.parse (authored : String) : Except ModelError ImageReference := do
  validateComponent "image reference" authored
  let parts := (authored.toList.splitOn '@').map String.ofList
  let nameAndTag := parts.headD ""
  let digest := parts[1]?
  if 2 < parts.length then
    .error (.invalidImageReference "multiple `@` digest separators are not supported")
  match digest with
  | some value => validateComponent "image digest" value
  | none => .ok ()
  let (repository, tag) := splitTag nameAndTag
  validateComponent "image repository" repository
  match tag with
  | some value => validateComponent "image tag" value
  | none => .ok ()
  .ok ⟨authored, repository, tag, digest⟩

/-! ## Commands and lifecycle -/

/-- How a service command overrides the image command. -/
inductive Command where
  | exec (arguments : List ProtectedString)
  | shell (text : ProtectedString)
  | empty
deriving DecidableEq

inductive StartupNotification where
  | runtime
  | application
  | healthy
deriving DecidableEq

/-- How a service overrides the image entrypoint. -/
inductive Entrypoint where
  | exec (arguments : List ProtectedString)
  | shell (text : ProtectedString)
  | empty
deriving DecidableEq

inductive PullPolicy where
  | always
  | missing
  | never
  | ifNotPresent
  | build
  | daily
  | weekly
  | every (interval : ProtectedString)
  | raw (policy : ProtectedString)
deriving DecidableEq

/-- Raw-preserving stop grace duration. -/
structure StopTimeout where
  asStr : String
  valid : validateText "stop timeout" asStr = .ok ()
deriving DecidableEq

def StopTimeout.new (value : String) : Except ModelError StopTimeout :=
  match h : validateText "stop timeout" value with
  | .ok () => .ok ⟨value, h⟩
  | .error error => .error error

inductive Protocol where
  | tcp
  | udp
  | sctp
  | other (name : String)
deriving DecidableEq

/-- A container port exposed without publishing it to a host. -/
structure ExposedPort where
  container : UInt16
  protocol : Protocol
  nonzero : container ≠ 0
deriving DecidableEq

def ExposedPort.new (container : UInt16) (protocol : Protocol) : Except ModelError ExposedPort :=
  if h : container = 0 then .error .zeroContainerPort else .ok ⟨container, protocol, h⟩

/-- Container-level automatic restart intent; a retry limit is never zero. -/
inductive RestartPolicy where
  | never
  | always
  | onFailure (maximumRetries : Option {retries : UInt64 // retries ≠ 0})
  | unlessStopped
deriving DecidableEq

/-! ## Health checks -/

inductive HealthcheckCommand where
  | exec (arguments : List ProtectedString)
  | shell (text : ProtectedString)
deriving DecidableEq

structure HealthcheckDuration where
  asStr : String
  valid : validateText "health-check duration" asStr = .ok ()
deriving DecidableEq

def HealthcheckDuration.new (value : String) : Except ModelError HealthcheckDuration :=
  match h : validateText "health-check duration" value with
  | .ok () => .ok ⟨value, h⟩
  | .error error => .error error

/-- The checks of `HealthcheckRetries::new`. -/
def validateRetries (value : String) : Except ModelError Unit := do
  validateText "health-check retries" value
  if (Utf8Text.bytes value).all (fun byte => 48 ≤ byte && byte ≤ 57) then .ok ()
  else .error .invalidHealthcheckRetries

structure HealthcheckRetries where
  asStr : String
  valid : validateRetries asStr = .ok ()
deriving DecidableEq

def HealthcheckRetries.new (value : String) : Except ModelError HealthcheckRetries :=
  match h : validateRetries value with
  | .ok () => .ok ⟨value, h⟩
  | .error error => .error error

/-- Service health-check intent with field-level provenance. -/
structure Healthcheck where
  command : Option (Sourced HealthcheckCommand) := none
  disabled : Option (Sourced Bool) := none
  interval : Option (Sourced HealthcheckDuration) := none
  timeout : Option (Sourced HealthcheckDuration) := none
  retries : Option (Sourced HealthcheckRetries) := none
  startPeriod : Option (Sourced HealthcheckDuration) := none
  startInterval : Option (Sourced HealthcheckDuration) := none
deriving DecidableEq

/-! ## Environment -/

/-- Source of an environment variable's value. -/
inductive EnvironmentValue where
  | literal (value : ProtectedString)
  | deferred (expression : DeferredExpression)
  | unresolvedSource (sourceFormat : Identifier) (expression : ProtectedString)
  | required
  | host
  | unset
deriving DecidableEq

structure EnvironmentVariable where
  name : Identifier
  value : EnvironmentValue
deriving DecidableEq

inductive EnvironmentFileSyntax where
  | short
  | long
deriving DecidableEq

inductive EnvironmentFileFormat where
  | raw
deriving DecidableEq

/-- One ordered environment-file declaration; importing it never reads the file. -/
structure EnvironmentFile where
  path : ProtectedString
  syntaxFamily : EnvironmentFileSyntax
  required : Option (Sourced Bool)
  format : Option (Sourced EnvironmentFileFormat)
  valid : validateText "environment-file path" path.expose = .ok ()
deriving DecidableEq

/-! ## Metadata, logging and reload -/

structure MetadataLabel where
  name : Identifier
  value : ProtectedString
deriving DecidableEq

structure Annotation where
  name : Sourced Identifier
  value : Sourced ProtectedString
deriving DecidableEq

structure LoggingOption where
  name : Sourced Identifier
  value : Sourced ProtectedString
deriving DecidableEq

/-- A missing options collection differs from an explicit empty collection. -/
structure Logging where
  driver : Option (Sourced ProtectedString) := none
  options : Option (List (Sourced LoggingOption)) := none
  optionsOrigins : List Provenance := []
deriving DecidableEq

inductive ReloadAction where
  | command (command : Command)
  | signal (signal : ProtectedString)
deriving DecidableEq

/-! ## Hosts, ports, mounts and networks -/

inductive HostAddressKind where
  | ipv4
  | ipv6 (bracketed : Bool)
  | hostGateway
  | other
deriving DecidableEq

/-- The text between one leading `[` and one trailing `]`, or the text itself. -/
def unbracketed (raw : String) : String :=
  match raw.toList with
  | '[' :: rest => if rest.getLast? = some ']' then String.ofList rest.dropLast else raw
  | _ => raw

/-- The conservative lexical classification of a host-mapping address. -/
def classifyHostAddress (raw : String) : HostAddressKind :=
  if raw = "host-gateway" then .hostGateway
  else
    match IpText.parse (unbracketed raw) with
    | some .v4 => .ipv4
    | some .v6 => .ipv6 (raw.toList.head? == some '[' && raw.toList.getLast? == some ']')
    | none => .other

/-- One raw-preserving address or runtime token used by a service host mapping. -/
structure HostAddress where
  raw : String
  valid : validateText "host mapping address" raw = .ok ()
deriving DecidableEq

namespace HostAddress

def new (raw : String) : Except ModelError HostAddress :=
  match h : validateText "host mapping address" raw with
  | .ok () => .ok ⟨raw, h⟩
  | .error error => .error error

def kind (address : HostAddress) : HostAddressKind := classifyHostAddress address.raw

end HostAddress

structure HostMapping where
  hostname : Identifier
  address : HostAddress
deriving DecidableEq

/-- One container port published to a fixed or automatically allocated host port. -/
structure Port where
  container : UInt16
  published : Option UInt16
  hostAddress : Option String
  protocol : Protocol
  nonzero : container ≠ 0
deriving DecidableEq

theorem Port.nonzero_http : (80 : UInt16) ≠ 0 := by decide

def Port.new (container : UInt16) (published : Option UInt16) (hostAddress : Option String)
    (protocol : Protocol) : Except ModelError Port :=
  if h : container = 0 then .error .zeroContainerPort
  else .ok ⟨container, published, hostAddress, protocol, h⟩

inductive MountSource where
  | volume (name : Identifier)
  | hostPath (path : String)
  | deferredHostPath (expression : DeferredExpression)
  | anonymous
deriving DecidableEq

inductive SelinuxRelabel where
  | shared
  | «private»
deriving DecidableEq

/-- One service storage attachment. -/
structure Mount where
  source : MountSource
  target : String
  readOnly : Bool
  selinuxRelabel : Option SelinuxRelabel
  pathsAreLiteral : Bool
  valid : validateText "mount target" target = .ok ()
deriving DecidableEq

theorem Mount.valid_data : validateText "mount target" "/data" = .ok () := by decide

/-- One service attachment to an application network. -/
structure NetworkAttachment where
  network : Identifier
  aliases : List (Sourced ProtectedString)
  ipv4Address : Option (Sourced ProtectedString)
  ipv6Address : Option (Sourced ProtectedString)
deriving DecidableEq

/-! ## Dependencies, limits and grants -/

inductive ServiceDependencyCondition where
  | started
  | healthy
  | completedSuccessfully
  | other (condition : ProtectedString)
deriving DecidableEq

/-- One ordered dependency edge from a service to another application service. -/
structure ServiceDependency where
  service : Identifier
  condition : Option (Sourced ServiceDependencyCondition)
  restart : Option (Sourced Bool)
  required : Option (Sourced Bool)
deriving DecidableEq

structure KernelParameter where
  name : ProtectedString
  value : ProtectedString
deriving DecidableEq

structure ResourceLimit where
  name : ProtectedString
  soft : Option (Sourced ProtectedString)
  hard : Option (Sourced ProtectedString)
deriving DecidableEq

inductive Device where
  | short (value : ProtectedString)
  | long (source target permissions : Option (Sourced ProtectedString))
deriving DecidableEq

inductive SecurityOption where
  | appArmor (profile : ProtectedString)
  | noNewPrivileges (enabled : Bool)
  | seccompProfile (profile : ProtectedString)
  | securityLabelDisable (disabled : Bool)
  | securityLabelFileType (fileType : ProtectedString)
  | securityLabelLevel (level : ProtectedString)
  | securityLabelNested (enabled : Bool)
  | securityLabelType (label : ProtectedString)
  | mask (paths : ProtectedString)
  | unmask (paths : ProtectedString)
deriving DecidableEq

inductive ResourceGrantSyntax where
  | short
  | long
deriving DecidableEq

/-- One ordered service grant of a configuration or secret resource. -/
structure ResourceGrant where
  source : ProtectedString
  syntaxFamily : ResourceGrantSyntax
  target : Option (Sourced ProtectedString)
  uid : Option (Sourced ProtectedString)
  gid : Option (Sourced ProtectedString)
  mode : Option (Sourced ProtectedString)
  valid : validateText "resource grant source" source.expose = .ok ()
deriving DecidableEq

/-! ## Service -/

/-- One application service with ordered attachments and source provenance. -/
structure Service where
  name : Identifier
  runtimeName : Option (Sourced ProtectedString) := none
  rootfs : Option (Sourced ProtectedString) := none
  image : Option (Sourced ImageReference) := none
  imageAcquisition : Option (Sourced Identifier) := none
  imageBuild : Option (Sourced Identifier) := none
  command : Option (Sourced Command) := none
  startupNotification : Option (Sourced StartupNotification) := none
  entrypoint : Option (Sourced Entrypoint) := none
  runInit : Option (Sourced Bool) := none
  stopTimeout : Option (Sourced StopTimeout) := none
  pullPolicy : Option (Sourced PullPolicy) := none
  memoryLimit : Option (Sourced ProtectedString) := none
  exposedPorts : Option (List (Sourced ExposedPort)) := none
  exposedPortsOrigins : List Provenance := []
  restartPolicy : Option (Sourced RestartPolicy) := none
  healthcheck : Option (Sourced Healthcheck) := none
  labels : List (Sourced MetadataLabel) := []
  annotations : Option (List (Sourced Annotation)) := none
  annotationsOrigins : List Provenance := []
  logging : Option (Sourced Logging) := none
  reloadAction : Option (Sourced ReloadAction) := none
  user : Option (Sourced ProtectedString) := none
  group : Option (Sourced ProtectedString) := none
  userNamespace : Option (Sourced ProtectedString) := none
  supplementaryGroups : List (Sourced ProtectedString) := []
  workingDirectory : Option (Sourced ProtectedString) := none
  readOnlyRootFilesystem : Option (Sourced Bool) := none
  hostname : Option (Sourced ProtectedString) := none
  dnsServers : Option (List (Sourced ProtectedString)) := none
  dnsServersOrigins : List Provenance := []
  dnsOptions : Option (List (Sourced ProtectedString)) := none
  dnsOptionsOrigins : List Provenance := []
  dnsSearchDomains : Option (List (Sourced ProtectedString)) := none
  dnsSearchDomainsOrigins : List Provenance := []
  securityOptions : Option (List (Sourced SecurityOption)) := none
  securityOptionsOrigins : List Provenance := []
  pidsLimit : Option (Sourced ProtectedString) := none
  shmSize : Option (Sourced ProtectedString) := none
  capAdd : Option (List (Sourced ProtectedString)) := none
  capAddOrigins : List Provenance := []
  capDrop : Option (List (Sourced ProtectedString)) := none
  capDropOrigins : List Provenance := []
  tmpfs : Option (List (Sourced ProtectedString)) := none
  tmpfsOrigins : List Provenance := []
  sysctls : Option (List (Sourced KernelParameter)) := none
  sysctlsOrigins : List Provenance := []
  ulimits : Option (List (Sourced ResourceLimit)) := none
  ulimitsOrigins : List Provenance := []
  devices : Option (List (Sourced Device)) := none
  devicesOrigins : List Provenance := []
  stopSignal : Option (Sourced ProtectedString) := none
  environment : List (Sourced EnvironmentVariable) := []
  environmentFiles : List (Sourced EnvironmentFile) := []
  executionEnvironment : Option (Sourced ServiceExecutionEnvironment) := none
  hostMappings : List (Sourced HostMapping) := []
  ports : List (Sourced Port) := []
  mounts : List (Sourced Mount) := []
  configGrants : List (Sourced ResourceGrant) := []
  secretGrants : List (Sourced ResourceGrant) := []
  networks : List (Sourced NetworkAttachment) := []
  dependencies : List (Sourced ServiceDependency) := []

namespace Service

/-- `Service::ensure_rootfs_is_compatible`. -/
def ensureRootfsIsCompatible (service : Service) : Except ModelError Unit :=
  if service.image.isSome then .error (.rootfsImageSourceConflict service.name.asStr "image")
  else if service.imageAcquisition.isSome then
    .error (.rootfsImageSourceConflict service.name.asStr "image acquisition")
  else if service.imageBuild.isSome then
    .error (.rootfsImageSourceConflict service.name.asStr "image build")
  else .ok ()

def validateImageSourceExclusivity (service : Service) : Except ModelError Unit :=
  if service.rootfs.isSome then service.ensureRootfsIsCompatible else .ok ()

/-- The expressions evaluated in the service execution environment. -/
def deferredExpressions (service : Service) : List DeferredExpression :=
  service.environment.filterMap (fun entry =>
    match entry.value.value with
    | .deferred expression => some expression
    | _ => none) ++
  service.mounts.filterMap (fun entry =>
    match entry.value.source with
    | .deferredHostPath expression => some expression
    | _ => none)

/-- Every deferred host-bind source of a mount list has a supported shape. -/
def validateHostBinds : List (Sourced Mount) → Except ModelError Unit
  | [] => .ok ()
  | mount :: rest =>
    match mount.value.source with
    | .deferredHostPath expression => do
      expression.validateHostBind
      validateHostBinds rest
    | _ => validateHostBinds rest

/-- The inline text bound to the leading reference of a deferred host bind. -/
def inlineBindRoot (plan : ServiceExecutionEnvironment) (mount : Mount) : Option String :=
  match mount.source with
  | .deferredHostPath expression =>
    match expression.segments with
    | ⟨.reference name, _⟩ :: _ =>
      (plan.assignments.find? fun item => item.value.name = name).map
        fun item => item.value.value.expose
    | _ => none
  | _ => none

def unsafeBindRoot (value : String) : Bool :=
  !startsWith value "/" || value.toList.any (fun ch => isControl ch || ch == ':')

/-- `deferred::validate_service`: every used reference is declared and bound. -/
def validateDeferred (service : Service) : Except ModelError Unit := do
  let used := (service.deferredExpressions.flatMap DeferredExpression.references).toFinset
  validateHostBinds service.mounts
  match service.executionEnvironment with
  | none =>
    if used = ∅ then .ok ()
    else .error (.invalidDeferred "deferred references require an explicit execution environment")
  | some plan =>
    let plan := plan.value
    if plan.files.isEmpty && service.mounts.any (fun mount =>
        ((inlineBindRoot plan mount.value).map unsafeBindRoot).getD false) then
      .error (.invalidDeferred
        "inline bind root must be nonempty absolute and free of colon or control characters")
    else
      let declared := (plan.references.map Sourced.value).toFinset
      let provided := (plan.assignments.map (fun item => item.value.name)).toFinset
      if used ≠ declared ∨ used = ∅ ∨ (plan.files.isEmpty ∧ ¬ used ⊆ provided) then
        .error (.invalidDeferred
          "every used reference must be declared and externally bound; unused plans are forbidden")
      else .ok ()

end Service
end Boxferry.Model
