import Boxferry.Podman.Import.Subjects

/-! # The evidence of a container

What the observations of a container give evidence of, part by part: when a part
may become intent, when a service carries it, and the subject that decisions
about it are recorded for. A part has the origin of its own observation, whatever
the observations around it are. -/
namespace Boxferry.Podman.Import
open Engine Model Mapping
set_option autoImplicit false

inductive HealthSetting where
  | interval
  | timeout
  | startPeriod

def HealthSetting.name : HealthSetting → String
  | .interval => "interval"
  | .timeout => "timeout"
  | .startPeriod => "start_period"

def HealthSetting.observed (health : NativeHealthCheckObservation) :
    HealthSetting → ObservationField Int
  | .interval => health.interval
  | .timeout => health.timeout
  | .startPeriod => health.startPeriod

def HealthSetting.kept (healthcheck : Healthcheck) :
    HealthSetting → Option (Sourced HealthcheckDuration)
  | .interval => healthcheck.interval
  | .timeout => healthcheck.timeout
  | .startPeriod => healthcheck.startPeriod

inductive Evidence where
  | command
  | entrypoint
  | user
  | workingDirectory
  | hostname
  | label (name value : String)
  | environmentEntry (entry : ProtectedEnvironmentEntry)
  | restartPolicy
  | retryLimit
  | healthCommand
  | healthDuration (setting : HealthSetting)
  | healthRetries
  | dnsServer (address : NativeIpAddress)
  | dnsSearch (domain : String)
  | dnsOption (option : String)
  | portBinding (position : Nat) (binding : NativePortBindingObservation)
  | networkReference (reference : String)
  | networkAlias (reference : String) (entry : NativeNetworkAlias)
  | dependency (reference : String)

/-! ## Values of a service -/

def policyName : RestartPolicy → NativeRestartPolicyName
  | .never => .no
  | .always => .always
  | .onFailure _ => .onFailure
  | .unlessStopped => .unlessStopped

/-- The health check carries the command. -/
def CarriesCommand (healthcheck : Healthcheck) : NativeHealthCommand → Prop
  | .disabled => healthcheck.disabled.map Sourced.value = some true
  | .shell arguments => healthcheck.command.map Sourced.value =
      some (.shell (.sensitive (" ".intercalate arguments)))
  | .exec arguments => healthcheck.command.map Sourced.value =
      some (.exec (arguments.map ProtectedString.sensitive))
  | .unreviewed => False

/-- The port publishes the binding with all of its observed host fields. -/
structure Publishes (binding : NativePortBindingObservation) (port : Port) : Prop where
  container : port.container = binding.containerPort
  protocol : portProtocol binding.protocol = some port.protocol
  published : port.published = binding.hostPort.observed?.map Observed.value
  hostAddress : port.hostAddress =
    binding.hostIp.observed?.map fun address => address.value.spelling

/-! ## Parts of a container -/

namespace Mapping
variable (m : Mapping)

/-- The networking of a container, whatever the origin of its observation is. -/
def networkingOf (details : ContainerObservation) : Option NativeNetworkingObservation :=
  details.networking.observed?.map Observed.value

/-- The aliases observed for a network reference, with the origin of that observation. -/
def aliasesOf (networking : NativeNetworkingObservation) (reference : String) :
    ObservationField (List NativeNetworkAlias) :=
  ((networking.networkAttachments.observed?.bind fun attachments =>
    attachments.value.find? fun attachment => attachment.network = reference).map
      NativeNetworkAttachment.aliases).getD .absent

/-- A value whose own origin lets it become intent. -/
def mayPass {α : Type} (field : ObservationField α) : Option α :=
  (field.portable? m.authorizedPortable).map Prod.fst

/-- The network references that may become intent: configured, or effective and authorized. -/
def mayAttach (networking : NativeNetworkingObservation) : List String :=
  match networking.networks.observed? with
  | some references =>
    if references.origin = .configured ∨
        (references.origin = .effective ∧ m.source.promotionPolicy.effectiveNamedNetworks = true) then
      references.value
    else []
  | none => []

/-- The part is observed, and its own origin is configured or effective and authorized. The labels of
the Compose lifecycle, empty user spellings and container ids among aliases are left out; a retry
count of zero is no limit. -/
def Eligible (details : ContainerObservation) : Evidence → Prop
  | .command => details.command.configured?.isSome
  | .entrypoint => details.entrypoint.configured?.isSome
  | .user => ∃ spelling, details.user.configured? = some spelling ∧ spelling.isEmpty = false
  | .workingDirectory => details.workingDirectory.configured?.isSome
  | .hostname => details.hostname.configured?.isSome
  | .label name value => ∃ labels, details.labels.configured? = some labels ∧
      (name, value) ∈ labels ∧ isComposeLifecycleLabel name = false
  | .environmentEntry entry => ∃ entries, m.mayPass details.environment = some entries ∧ entry ∈ entries
  | .restartPolicy => ∃ restart, details.restartPolicy.observed? = some restart ∧
      (m.mayPass restart.value.name).isSome
  | .retryLimit => ∃ restart count, details.restartPolicy.observed? = some restart ∧
      m.mayPass restart.value.maximumRetryCount = some count ∧ count ≠ 0
  | .healthCommand => ∃ health, details.healthCheck.observed? = some health ∧
      (m.mayPass health.value.command).isSome
  | .healthDuration setting => ∃ health, details.healthCheck.observed? = some health ∧
      (m.mayPass (setting.observed health.value)).isSome
  | .healthRetries => ∃ health, details.healthCheck.observed? = some health ∧
      (m.mayPass health.value.retries).isSome
  | .dnsServer address => ∃ networking entries, networkingOf details = some networking ∧
      m.mayPass networking.dnsServers = some entries ∧ address ∈ entries
  | .dnsSearch domain => ∃ networking entries, networkingOf details = some networking ∧
      m.mayPass networking.dnsSearch = some entries ∧ domain ∈ entries
  | .dnsOption option => ∃ networking entries, networkingOf details = some networking ∧
      m.mayPass networking.dnsOptions = some entries ∧ option ∈ entries
  | .portBinding position binding => ∃ networking bindings, networkingOf details = some networking ∧
      m.mayPass networking.portBindings = some bindings ∧ bindings[position]? = some binding
  | .networkReference reference => ∃ networking, networkingOf details = some networking ∧
      reference ∈ m.mayAttach networking
  | .networkAlias reference entry => ∃ networking references aliases,
      networkingOf details = some networking ∧ networking.networks.observed? = some references ∧
        reference ∈ references.value ∧ m.mayPass (aliasesOf networking reference) = some aliases ∧
          entry ∈ aliases ∧ entry.kind ≠ .runtimeContainerId
  | .dependency reference => ∃ references, details.nativeDependencies.configured? = some references ∧
      reference ∈ references

/-- The service carries the part with the value that is observed. -/
def Carries (details : ContainerObservation) (service : Service) : Evidence → Prop
  | .command => ∃ arguments, details.command.configured? = some arguments ∧
      service.command.map Sourced.value = some (commandOf arguments)
  | .entrypoint => ∃ arguments, details.entrypoint.configured? = some arguments ∧
      service.entrypoint.map Sourced.value = some (entrypointOf arguments)
  | .user => ∃ spelling, details.user.configured? = some spelling ∧
      service.user.map Sourced.value = (userOf spelling).1.map ProtectedString.plain ∧
      service.group.map Sourced.value = (userOf spelling).2.map ProtectedString.plain
  | .workingDirectory => ∃ path, details.workingDirectory.configured? = some path ∧
      service.workingDirectory.map Sourced.value = some (.plain path)
  | .hostname => ∃ hostname, details.hostname.configured? = some hostname ∧
      service.hostname.map Sourced.value = some (.plain hostname)
  | .label name value => ∃ label ∈ service.labels, label.value.name.asStr = name ∧
      label.value.value = .plain value
  | .environmentEntry entry => ∃ entryVariable ∈ service.environment,
      entryVariable.value.name.asStr = entry.name ∧ ∃ text, entry.value = .authorizedOpaque text ∧
        entryVariable.value.value = .literal (.sensitive text)
  | .restartPolicy => ∃ restart name, details.restartPolicy.observed? = some restart ∧
      m.mayPass restart.value.name = some name ∧
        service.restartPolicy.map (fun policy => policyName policy.value) = some name
  | .retryLimit => ∃ restart count, details.restartPolicy.observed? = some restart ∧
      m.mayPass restart.value.maximumRetryCount = some count ∧
        service.restartPolicy.map Sourced.value = some (.onFailure (Mapping.retryLimit (some count)))
  | .healthCommand => ∃ health command healthcheck, details.healthCheck.observed? = some health ∧
      m.mayPass health.value.command = some command ∧
        service.healthcheck = some healthcheck ∧ CarriesCommand healthcheck.value command
  | .healthDuration setting => ∃ health value healthcheck, details.healthCheck.observed? = some health ∧
      m.mayPass (setting.observed health.value) = some value ∧
        service.healthcheck = some healthcheck ∧
          (setting.kept healthcheck.value).map (fun duration => duration.value.asStr) =
            some (toString value ++ "ns")
  | .healthRetries => ∃ health value healthcheck, details.healthCheck.observed? = some health ∧
      m.mayPass health.value.retries = some value ∧ service.healthcheck = some healthcheck ∧
        healthcheck.value.retries.map (fun retries => retries.value.asStr) = some (toString value)
  | .dnsServer address => ∃ entries, service.dnsServers = some entries ∧
      ∃ server ∈ entries, server.value = .plain address.spelling
  | .dnsSearch domain => ∃ entries, service.dnsSearchDomains = some entries ∧
      ∃ kept ∈ entries, kept.value = .plain domain
  | .dnsOption option => ∃ entries, service.dnsOptions = some entries ∧
      ∃ kept ∈ entries, kept.value = .plain option
  | .portBinding _ binding => ∃ port ∈ service.ports, Publishes binding port.value
  | .networkReference reference => ∃ name, m.resolveName .network reference = some name ∧
      ∃ network ∈ service.networks, network.value.network = name
  | .networkAlias reference entry => ∃ name, m.resolveName .network reference = some name ∧
      ∃ network ∈ service.networks, network.value.network = name ∧
        ∃ kept ∈ network.value.aliases, kept.value = .plain entry.spelling
  | .dependency reference => ∃ name, m.resolveName .container reference = some name ∧
      ∃ dependency ∈ service.dependencies, dependency.value.service = name

/-- The subject of a container's networking: a member of a pod has one of its own. -/
def networkSubject (identity : ResourceIdentity) (details : ContainerObservation) : Subject :=
  (Subject.ofResource identity).field
    (if details.podMembership.isObserved then "pod_member_networking" else "networks")

/-- The subject of one part. The rows of a pod member's port bindings are decided on together, and a
network that is not resolved has no subject for its aliases. -/
def subjectOf (identity : ResourceIdentity) (details : ContainerObservation) : Evidence → Subject
  | .command => (Subject.ofResource identity).field "command"
  | .entrypoint => (Subject.ofResource identity).field "entrypoint"
  | .user => (Subject.ofResource identity).field "user"
  | .workingDirectory => (Subject.ofResource identity).field "working_directory"
  | .hostname => (Subject.ofResource identity).field "hostname"
  | .label _ _ => (Subject.ofResource identity).field "labels"
  | .environmentEntry entry => ((Subject.ofResource identity).field "environment").entry entry.name
  | .restartPolicy => (Subject.ofResource identity).field "restart_policy"
  | .retryLimit =>
    ((Subject.ofResource identity).field "restart_policy").field "maximum_retry_count"
  | .healthCommand => ((Subject.ofResource identity).field "healthcheck").field "command"
  | .healthDuration setting =>
    ((Subject.ofResource identity).field "healthcheck").field setting.name
  | .healthRetries => ((Subject.ofResource identity).field "healthcheck").field "retries"
  | .dnsServer _ => (networkSubject identity details).field "dns_servers"
  | .dnsSearch _ => (networkSubject identity details).field "dns_search"
  | .dnsOption _ => (networkSubject identity details).field "dns_options"
  | .portBinding position _ =>
    if details.podMembership.isObserved then (networkSubject identity details).field "port_bindings"
    else ((networkSubject identity details).field "port_bindings").index position
  | .networkReference _ =>
    if details.podMembership.isObserved then (networkSubject identity details).field "references"
    else networkSubject identity details
  | .networkAlias reference _ =>
    match m.resolveName .network reference with
    | some name => ((networkSubject identity details).entry name.asStr).field "aliases"
    | none =>
      if details.podMembership.isObserved then
        ((networkSubject identity details).entry reference).field "aliases"
      else networkSubject identity details
  | .dependency _ => (Subject.ofResource identity).field "dependencies"

/-- Some outcome of the import other than an exact one is about the part. -/
def Accounted (container : ServiceContainer) (part : Evidence) : Prop :=
  ∃ event ∈ m.map.log, event.Loses (m.subjectOf container.identity container.details part)

/-- Every part that may become intent is in the service that was added, or accounted for. -/
def HidesNothing : Prop :=
  ∀ container ∈ m.serviceContainers, m.service container ∈ m.application.services →
    ∀ part, m.Eligible container.details part →
      m.Carries container.details (m.service container).value part ∨ m.Accounted container part

/-! ## Reported parts -/

/-- A step is reached in the report of a sequence of steps. -/
def Reaches {α β : Type} (step : Service → Imported α) (steps : Imported β) : Prop :=
  ∃ service, (step service).log ⊆ steps.log

theorem reaches_first {α β : Type} {step : Service → Imported α} {service : Service}
    {next : α → Imported β} : Reaches step (step service >>= next) :=
  ⟨service, fun _ h => Reports.mem_log_bind.mpr (Or.inl h)⟩

theorem Reaches.after {α β γ : Type} {step : Service → Imported α} {first : Imported β}
    {next : β → Imported γ} (h : Reaches step (next first.value)) : Reaches step (first >>= next) := by
  obtain ⟨service, hlog⟩ := h
  exact ⟨service, fun _ h => Reports.mem_log_bind.mpr (Or.inr (hlog h))⟩

section Pieces
variable (subject : Subject) (identity : ResourceIdentity) (details : ContainerObservation)
  (name : Identifier)

theorem reaches_settings : Reaches (mapConfiguredSettings subject identity.id details)
    (m.buildService subject identity details name) := by
  unfold buildService
  iterate 2 apply Reaches.after
  exact reaches_first

theorem reaches_labels : Reaches (mapContainerLabels subject details.labels)
    (m.buildService subject identity details name) := by
  unfold buildService
  iterate 3 apply Reaches.after
  exact reaches_first

theorem reaches_networks : Reaches (m.mapContainerNetworks subject details)
    (m.buildService subject identity details name) := by
  unfold buildService
  iterate 5 apply Reaches.after
  exact reaches_first

theorem reaches_dependencies : Reaches (m.mapDependencies subject details)
    (m.buildService subject identity details name) := by
  unfold buildService
  iterate 6 apply Reaches.after
  exact reaches_first

theorem reaches_environment : Reaches (m.mapPortableEnvironment subject details.environment)
    (m.buildService subject identity details name) := by
  unfold buildService
  iterate 7 apply Reaches.after
  exact reaches_first

theorem reaches_restartPolicy : Reaches (m.mapPortableRestartPolicy subject details.restartPolicy)
    (m.buildService subject identity details name) := by
  unfold buildService
  iterate 10 apply Reaches.after
  exact reaches_first

theorem reaches_healthcheck : Reaches (m.mapPortableHealthcheck subject details.healthCheck)
    (m.buildService subject identity details name) := by
  unfold buildService
  iterate 11 apply Reaches.after
  exact reaches_first

end Pieces

theorem accounted_of_step {container : ServiceContainer} (h : container ∈ m.serviceContainers)
    {part : Evidence} {α : Type} {step : Service → Imported α}
    (hreached : Reaches step (m.buildService (Subject.ofResource container.identity)
      container.identity container.details container.name))
    (hloses : ∀ service, ∃ event ∈ (step service).log,
      event.Loses (m.subjectOf container.identity container.details part)) :
    m.Accounted container part := by
  obtain ⟨service, hlog⟩ := hreached
  obtain ⟨event, hevent, hloses⟩ := hloses service
  exact ⟨event, m.buildService_reported h (hlog hevent), hloses⟩

end Mapping
end Boxferry.Podman.Import
