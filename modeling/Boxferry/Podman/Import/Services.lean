import Boxferry.Podman.Import.Kept

/-! # The services of an import

The containers that become services, what each part of a service is, and that the
report of building one is part of the report of the import. -/
namespace Boxferry.Podman.Import
open Engine Model Mapping
set_option autoImplicit false

/-! ## Containers that become services -/

/-- The name a complete observation is declared under. -/
def declaredName (observation : ResourceObservation) : Option Identifier :=
  if observation.header.isComplete then
    (Identifier.new observation.header.identity.shownName).toOption
  else none

/-- A container that becomes a service, with the name of the service. -/
structure ServiceContainer where
  identity : ResourceIdentity
  details : ContainerObservation
  name : Identifier
deriving DecidableEq

/-- The container is the infra container of a pod. -/
def ResourceObservation.isInfra (observation : ResourceObservation) : Bool :=
  match observation.details with
  | .container details => Import.isInfra details
  | _ => false

/-- A complete resource is declared, unless it is the infra container of a pod. -/
def ResourceObservation.isDeclared (observation : ResourceObservation) : Bool :=
  observation.header.isComplete && !observation.isInfra

def serviceContainer? (observation : ResourceObservation) : Option ServiceContainer :=
  match observation.details with
  | .container details =>
    if Import.isInfra details then none
    else (declaredName observation).map (⟨observation.header.identity, details, ·⟩)
  | _ => none

def ServiceContainer.answersTo (container : ServiceContainer) (reference : String) : Bool :=
  container.identity.answersTo reference

theorem identity_serviceContainer {observation : ResourceObservation} {container : ServiceContainer}
    (h : serviceContainer? observation = some container) :
    observation.header.identity = container.identity ∧
      observation.details = .container container.details ∧
        isInfra container.details = false ∧ declaredName observation = some container.name := by
  unfold serviceContainer? at h
  cases hdetails : observation.details with
  | container details =>
    rw [hdetails] at h
    cases hinfra : Import.isInfra details with
    | true => simp [hinfra] at h
    | false =>
      simp only [hinfra, Bool.false_eq_true, if_false, Option.map_eq_some_iff] at h
      obtain ⟨name, hname, rfl⟩ := h
      exact ⟨rfl, rfl, hinfra, hname⟩
  | _ =>
    rw [hdetails] at h
    cases h

theorem Identifier.new_eq_ok {value : String} {name : Identifier} :
    Identifier.new value = .ok name ↔ value = name.asStr := by
  constructor
  · intro h
    exact (Identifier.new_asStr h).symm
  · intro h
    rw [h]
    exact Identifier.new_ok name.valid

theorem declaredName_eq_some {observation : ResourceObservation} {name : Identifier} :
    declaredName observation = some name ↔ observation.header.isComplete = true ∧
      observation.header.identity.shownName = name.asStr := by
  unfold declaredName
  cases hcomplete : observation.header.isComplete with
  | false => simp
  | true =>
    rw [if_pos rfl, ← Identifier.new_eq_ok]
    cases Identifier.new observation.header.identity.shownName <;> simp [Except.toOption]

namespace Mapping
variable (m : Mapping)

def serviceContainers : List ServiceContainer :=
  (m.observations .container).filterMap serviceContainer?

def service (container : ServiceContainer) : Sourced Service :=
  sourced (m.serviceOf container.identity container.details container.name)

/-! ## The parts of a service -/

/-- The user and the group that a spelling names. -/
def userOf (spelling : String) : Option String × Option String :=
  if spelling.isEmpty then (none, none)
  else match splitOnce ':' spelling with
    | some (user, group) =>
      if !user.isEmpty && !group.isEmpty && !containsChar group ':' then (some user, some group)
      else (some spelling, none)
    | none => (some spelling, none)

def keptUser (details : ContainerObservation) : Option (Sourced ProtectedString) :=
  (details.user.configured?.bind fun spelling => (userOf spelling).1).map fun user =>
    sourced (.plain user)

def keptUserGroup (details : ContainerObservation) : Option (Sourced ProtectedString) :=
  (details.user.configured?.bind fun spelling => (userOf spelling).2).map fun group =>
    sourced (.plain group)

theorem withSettings_eq (nativeId : String) (details : ContainerObservation) (service : Service)
    (huser : service.user = none) (hgroup : service.group = none) :
    withSettings nativeId details service = { service with
      command := details.command.configured?.map fun arguments => sourced (commandOf arguments)
      entrypoint := details.entrypoint.configured?.map fun arguments =>
        sourced (entrypointOf arguments)
      workingDirectory := details.workingDirectory.configured?.map fun path => sourced (.plain path)
      hostname := (keptHostname nativeId details).map fun hostname => sourced (.plain hostname)
      user := keptUser details
      group := keptUserGroup details } := by
  unfold withSettings keptUser keptUserGroup
  cases details.user.configured? with
  | none =>
    simp only [Option.bind_none, Option.map_none, huser, hgroup]
  | some spelling =>
    simp only [Option.bind_some]
    unfold applyUser userOf setUser
    by_cases hempty : spelling.isEmpty = true
    · simp only [hempty, if_true, Option.map_none, huser, hgroup]
    · simp only [hempty, Bool.false_eq_true, if_false]
      cases splitOnce ':' spelling with
      | none => simp [hgroup]
      | some parts =>
        obtain ⟨user, group⟩ := parts
        simp only
        by_cases hparts : (!user.isEmpty && !group.isEmpty && !containsChar group ':') = true
        · simp only [hparts, if_true, Option.map_some]
        · simp only [hparts, Bool.false_eq_true, if_false, Option.map_some, Option.map_none, hgroup]

theorem withNetworks_eq (details : ContainerObservation) (service : Service)
    (hservers : service.dnsServers = none) (hdomains : service.dnsSearchDomains = none)
    (hoptions : service.dnsOptions = none) :
    m.withNetworks details service = { service with
      ports := service.ports ++
        (ownNetworking details).elim [] fun networking => m.keptPorts networking.portBindings
      dnsServers := (ownNetworking details).bind fun networking =>
        m.keptDns networking.dnsServers NativeIpAddress.spelling
      dnsSearchDomains := (ownNetworking details).bind fun networking =>
        m.keptDns networking.dnsSearch id
      dnsOptions := (ownNetworking details).bind fun networking => m.keptDns networking.dnsOptions id
      networks := service.networks ++ (ownNetworking details).elim [] m.keptAttachments } := by
  unfold withNetworks
  cases ownNetworking details with
  | none =>
    cases service
    cases hservers
    cases hdomains
    cases hoptions
    simp
  | some networking => rfl

theorem setRestartPolicy_eq (service : Service) (policy : Option (Sourced RestartPolicy)) :
    setRestartPolicy service policy =
      { service with restartPolicy := policy.or service.restartPolicy } := by
  cases policy <;> rfl

theorem setHealthcheck_eq (service : Service) (healthcheck : Option (Sourced Healthcheck)) :
    setHealthcheck service healthcheck =
      { service with healthcheck := healthcheck.or service.healthcheck } := by
  cases healthcheck <;> rfl

theorem serviceOf_eq (identity : ResourceIdentity) (details : ContainerObservation)
    (name : Identifier) : m.serviceOf identity details name =
      { name
        image := keptImage details
        command := details.command.configured?.map fun arguments => sourced (commandOf arguments)
        entrypoint := details.entrypoint.configured?.map fun arguments =>
          sourced (entrypointOf arguments)
        workingDirectory := details.workingDirectory.configured?.map fun path => sourced (.plain path)
        hostname := (keptHostname identity.id details).map fun hostname => sourced (.plain hostname)
        user := keptUser details
        group := keptUserGroup details
        labels := keptLabels details.labels
        mounts := m.keptMounts details
        ports := (ownNetworking details).elim [] fun networking => m.keptPorts networking.portBindings
        dnsServers := (ownNetworking details).bind fun networking =>
          m.keptDns networking.dnsServers NativeIpAddress.spelling
        dnsSearchDomains := (ownNetworking details).bind fun networking =>
          m.keptDns networking.dnsSearch id
        dnsOptions := (ownNetworking details).bind fun networking =>
          m.keptDns networking.dnsOptions id
        networks := (ownNetworking details).elim [] m.keptAttachments
        dependencies := m.keptDependencies details
        environment := m.keptEnvironment details.environment
        restartPolicy := m.keptRestartPolicy details.restartPolicy
        healthcheck := m.keptHealthcheck details.healthCheck } := by
  unfold serviceOf
  extract_lets blank settled labelled networked dependent supplied restarting
  have hsettled := withSettings_eq identity.id details blank rfl rfl
  have hlabelled : labelled.dnsServers = none ∧ labelled.dnsSearchDomains = none ∧
      labelled.dnsOptions = none := by
    simp only [labelled, settled, hsettled]
    exact ⟨rfl, rfl, rfl⟩
  have hnetworked := m.withNetworks_eq details (addMounts labelled (m.keptMounts details))
    hlabelled.1 hlabelled.2.1 hlabelled.2.2
  rw [setHealthcheck_eq]
  simp only [restarting, setRestartPolicy_eq, supplied, addVariables, dependent, addDependencies,
    networked, hnetworked, addMounts, labelled, settled, hsettled, blank, List.nil_append,
    Option.or_none]

@[simp] theorem name_serviceOf (identity : ResourceIdentity) (details : ContainerObservation)
    (name : Identifier) : (m.serviceOf identity details name).name = name := by
  rw [serviceOf_eq]

/-! ## The report of a service -/

/-- What building the service of a container reports is reported by the import. -/
theorem buildService_reported {container : ServiceContainer} (h : container ∈ m.serviceContainers)
    {event : Event} (hevent : event ∈ (m.buildService (Subject.ofResource container.identity)
      container.identity container.details container.name).log) : event ∈ m.map.log := by
  unfold serviceContainers at h
  obtain ⟨observation, hmem, hcontainer⟩ := List.mem_filterMap.mp h
  obtain ⟨hidentity, hdetails, hinfra, hname⟩ := identity_serviceContainer hcontainer
  obtain ⟨hcomplete, hshown⟩ := declaredName_eq_some.mp hname
  have hstep (state : MappingState) : event ∈ (m.mapContainer state observation).log := by
    have hnew : Identifier.new container.identity.shownName = .ok container.name := by
      rw [Identifier.new_eq_ok, ← hidentity]
      exact hshown
    unfold mapContainer
    simp only [Reports.mem_log_bind, value_requireComplete, hcomplete, if_true, hdetails, hinfra,
      Bool.false_eq_true, if_false, hidentity]
    unfold mapServiceContainer
    simp only [Reports.mem_log_bind, value_identifier, hnew, Except.toOption]
    exact Or.inr (Or.inr (Or.inr (Or.inr (Or.inl hevent))))
  unfold map mapResources
  simp only [Reports.mem_log_bind]
  refine Or.inr (Or.inr (Or.inr (Or.inl (Or.inr (Or.inr (Or.inr (Or.inl ?_)))))))
  exact Reports.mem_log_foldlM hmem hstep _

end Mapping
end Boxferry.Podman.Import
