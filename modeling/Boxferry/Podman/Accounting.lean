import Boxferry.Podman.KeptRuns

/-! # Accounting for neutral fields

Which populated fields of an application a kept intent carries or reports. -/
namespace Boxferry.Podman
open Engine Model
set_option autoImplicit false

/-! ## Accounted fields -/

/-- Every populated field of a resource has a reported part. An explicitly empty collection asks
for nothing that a fresh native resource does not have. -/
def Covered (kind : SubjectKind) (name : Identifier) (reported : List Subject)
    (fields : List (Bool × String)) : Prop :=
  ∀ field ∈ fields, field.1 = true → .part kind name.asStr field.2 ∈ reported

/-- Some decision other than exact is about a path or a part of it. -/
def ReportedUnder (path : String) (reported : List Subject) : Prop :=
  ∃ subject ∈ reported, path.toList <+: subject.render.toList

structure NetworkAccounted (network : Sourced Network) (intent : DeploymentIntent)
    (reported : List Subject) : Prop where
  declared : networkResource network ∈ intent.resources
  fields : Covered .network network.value.name reported [
    (network.value.runtimeName.isSome, "runtime_name"),
    (network.value.driver.isSome, "driver"),
    (network.value.driverOptions.any fun options => !options.isEmpty, "driver_options"),
    (network.value.labels.any fun labels => !labels.isEmpty, "labels"),
    (network.value.internal.isSome, "internal"),
    (network.value.ipv6.isSome, "ipv6"),
    (network.value.ipamDriver.isSome, "ipam_driver"),
    (network.value.ipamConfigs.isSome, "ipam_configs")]

/-- The runtime name of a volume is part of its identity. -/
structure VolumeAccounted (volume : Sourced Volume) (intent : DeploymentIntent)
    (reported : List Subject) : Prop where
  declared : volumeResource volume ∈ intent.resources
  fields : Covered .volume volume.value.name reported [
    (volume.value.serviceName.isSome, "settings"),
    (volume.value.driver.isSome, "settings"),
    (volume.value.device.isSome, "settings"),
    (volume.value.volumeType.isSome, "settings"),
    (volume.value.options.isSome, "settings"),
    (volume.value.labels.isSome, "settings"),
    (volume.value.copy.isSome, "settings"),
    (volume.value.user.isSome, "settings"),
    (volume.value.group.isSome, "settings"),
    (volume.value.uid.isSome, "settings"),
    (volume.value.gid.isSome, "settings"),
    (volume.value.imageSource.isSome, "settings")]

structure SecretAccounted (secret : Sourced Secret) (intent : DeploymentIntent)
    (reported : List Subject) : Prop where
  declared : secretResource secret ∈ intent.resources
  fields : Covered .secret secret.value.name reported [
    (secret.value.runtimeName.isSome, "runtime_name"),
    (secret.value.material.isSome, "material")]

/-- A pod carries the ownership and the members of a group. -/
structure GroupAccounted (application : Application) (group : Sourced ServiceGroup)
    (intent : DeploymentIntent) (reported : List Subject) : Prop where
  topology : (∃ pod, .pod pod ∈ intent.resources ∧ pod.id = ⟨.pod, group.value.name.asStr⟩ ∧
      pod.members.map some = group.value.members.map fun member =>
        serviceIdentity? application member.value.asStr) ∨
    Covered .group group.value.name reported [(true, "ownership"), (true, "members")]
  fields : Covered .group group.value.name reported [(group.value.runtime.isSome, "runtime")]

/-- A container, its image and its startup edges carry the fields of a service. -/
structure ServiceAccounted (m : Mapping) (service : Sourced Service) (intent : DeploymentIntent)
    (log : List Event) : Prop where
  container : ∃ identities container, Prepared m identities ∧ .container container ∈ intent.resources ∧
    container.id = containerId service ∧ ContainerCarry m identities service.value container log
  image : ∃ image policy, service.value.image = some image ∧
    .image ⟨.image, Mapping.imageName service.value⟩ image.value.asStr policy ∈ intent.resources ∧
    ∀ neutral, service.value.pullPolicy = some neutral →
      CarriedOrLost (pullPolicy? neutral.value = some policy) log service.value ["pull_policy"]
  dependencies : ∀ item ∈ service.value.dependencies.zipIdx,
    (∃ edge ∈ intent.dependencies, edge.dependent = containerId service ∧
      serviceIdentity? m.application item.1.value.service.asStr = some edge.predecessor) ∧
    Covered .service service.value.name (lost log) [
      (item.1.value.condition.isSome, Mapping.dependencyPart item.2 ++ ".options"),
      (item.1.value.restart.isSome, Mapping.dependencyPart item.2 ++ ".options"),
      (item.1.value.required.isSome, Mapping.dependencyPart item.2 ++ ".options")]
  fields : Covered .service service.value.name (lost log) [
    (service.value.executionEnvironment.isSome, "execution_environment"),
    (service.value.rootfs.isSome, "rootfs"),
    (service.value.imageAcquisition.isSome, "image_acquisition"),
    (service.value.imageBuild.isSome, "image_build"),
    (service.value.startupNotification.isSome, "startup_notification"),
    (service.value.runInit.isSome, "run_init"),
    (service.value.stopTimeout.isSome, "stop_timeout"),
    (service.value.memoryLimit.isSome, "memory_limit"),
    (service.value.exposedPorts.isSome, "exposed_ports"),
    (service.value.healthcheck.isSome, "healthcheck"),
    (service.value.annotations.isSome, "annotations"),
    (service.value.logging.isSome, "logging"),
    (service.value.reloadAction.isSome, "reload_action"),
    (service.value.userNamespace.isSome, "user_namespace"),
    (!service.value.supplementaryGroups.isEmpty, "supplementary_groups"),
    (service.value.readOnlyRootFilesystem.isSome, "read_only_root_filesystem"),
    (service.value.dnsServers.isSome, "dns_servers"),
    (service.value.dnsOptions.isSome, "dns_options"),
    (service.value.dnsSearchDomains.isSome, "dns_search_domains"),
    (service.value.securityOptions.isSome, "security_options"),
    (service.value.pidsLimit.isSome, "pids_limit"),
    (service.value.shmSize.isSome, "shm_size"),
    (service.value.capAdd.isSome, "cap_add"),
    (service.value.capDrop.isSome, "cap_drop"),
    (service.value.sysctls.isSome, "sysctls"),
    (service.value.ulimits.isSome, "ulimits"),
    (service.value.devices.isSome, "devices"),
    (service.value.stopSignal.isSome, "stop_signal"),
    (!service.value.environmentFiles.isEmpty, "environment_files"),
    (!service.value.hostMappings.isEmpty, "host_mappings"),
    (!service.value.ports.isEmpty, "ports"),
    (!service.value.configGrants.isEmpty, "config_grants"),
    (!service.value.secretGrants.isEmpty, "secret_grants")]

/-- Every populated field of the application is carried or reported. Nothing in an intent stands
for a config, an image acquisition or an image build, so these are reported or dropped. -/
structure Accounted (m : Mapping) (intent : DeploymentIntent) (log : List Event) : Prop where
  networks : ∀ network ∈ m.application.networks, NetworkAccounted network intent (lost log)
  volumes : ∀ volume ∈ m.application.volumes, VolumeAccounted volume intent (lost log)
  secrets : ∀ secret ∈ m.application.secrets, SecretAccounted secret intent (lost log)
  configs : ∀ config ∈ m.application.configs,
    ReportedUnder ("configs." ++ config.value.name.asStr) (lost log)
  acquisitions : ∀ acquisition ∈ m.application.imageAcquisitions,
    ReportedUnder ("image_acquisitions." ++ acquisition.value.name.asStr) (lost log)
  builds : ∀ build ∈ m.application.imageBuilds,
    ReportedUnder ("image_builds." ++ build.value.name.asStr) (lost log)
  groups : ∀ group ∈ m.application.serviceGroups,
    GroupAccounted m.application group intent (lost log)
  services : ∀ service ∈ m.application.services, ServiceAccounted m service intent log

/-- The applications whose fields all have a mapping or a report. -/
structure FullyMapped (application : Application) : Prop where
  configs : application.configs = []
  acquisitions : application.imageAcquisitions = []
  builds : application.imageBuilds = []
  secrets : ∀ secret ∈ application.secrets, secret.value.material = none
  volumes : ∀ volume ∈ application.volumes,
    volume.value.serviceName.isSome = true ∨ volume.value.copy.isSome = true →
      Mapping.volumeSettings volume.value = true
  groups : ∀ group ∈ application.serviceGroups, group.value.runtime.isSome = true →
    group.value.ownership = .application

/-! ## Subjects of a kept run -/

/-- A named field that the mapping of a resource reports. -/
def ReportedField (fields : List (String × String × Bool)) (field : String) : Prop :=
  ∃ entry ∈ fields, entry.2.2 = true ∧ entry.1 = field

/-- Why a part of a resource is reported by a kept run. -/
def LostPart (application : Application) : SubjectKind → String → String → Prop
  | .network, name, field => ∃ network ∈ application.networks,
      network.value.name.asStr = name ∧ ReportedField (Mapping.networkFields network.value) field
  | .volume, name, field => ∃ volume ∈ application.volumes,
      volume.value.name.asStr = name ∧ ReportedField (Mapping.volumeFields volume.value) field
  | .secret, name, field => ∃ secret ∈ application.secrets,
      secret.value.name.asStr = name ∧ ReportedField (Mapping.secretFields secret.value) field
  | .group, name, field => ∃ group ∈ application.serviceGroups, group.value.name.asStr = name ∧
      (group.value.ownership = .application ∨ field = "ownership" ∨ field = "members")
  | .service, _, _ => True

section Lost
variable {m : Mapping} {identities : Identities}

theorem lost_lostFields {kind : SubjectKind} {name : String} {fields : List (String × String × Bool)}
    {subject : Subject} (h : subject ∈ lost (lostFields kind name fields)) :
    ∃ field, subject = .part kind name field ∧ ReportedField fields field := by
  obtain ⟨entry, hentry, hpopulated, hsubject⟩ := mem_lost_lostFields.mp h
  exact ⟨entry.1, hsubject, entry, hentry, hpopulated, rfl⟩

variable (h : KeptRun m identities)
include h

theorem KeptRun.lost_group {group : Sourced ServiceGroup} {subject : Subject}
    (hgroup : group ∈ m.application.serviceGroups)
    (hlost : subject ∈ lost (m.mapGroup identities group).log) :
    ∃ field, subject = .part .group group.value.name.asStr field ∧
      (group.value.ownership = .application ∨ field = "ownership" ∨ field = "members") := by
  by_cases howned : group.value.ownership = .application
  · obtain ⟨pod, -, -, hlog⟩ := mapGroup_kept howned (h.groups group hgroup)
    rw [hlog, lost_append, lost_addedEntries, List.nil_append] at hlost
    obtain ⟨field, hsubject, -⟩ := lost_lostFields hlost
    exact ⟨field, hsubject, Or.inl howned⟩
  · rw [(mapGroup_external howned).2.2, List.mem_cons, List.mem_singleton] at hlost
    rcases hlost with hsubject | hsubject
    · exact ⟨_, hsubject, Or.inr (Or.inl rfl)⟩
    · exact ⟨_, hsubject, Or.inr (Or.inr rfl)⟩

theorem KeptRun.lost_dependency {service : Sourced Service} {subject : Subject}
    (hservice : service ∈ m.application.services)
    (hlost : subject ∈ lost (m.mapDependencies identities service).log) :
    ∃ name field, subject = .part .service name field := by
  unfold Mapping.mapDependencies at hlost
  rw [Reports.log_forM, mem_lost_flatMap] at hlost
  obtain ⟨item, hitem, hsubject⟩ := hlost
  rw [(mapDependency_kept (h.dependencies service hservice item hitem)).2.2] at hsubject
  split at hsubject
  · exact ⟨_, _, List.mem_singleton.mp hsubject⟩
  · cases hsubject

/-- Every reported subject is a part of one resource, with a reason for its report. -/
theorem KeptRun.lost_part {subject : Subject} (hlost : subject ∈ lost (m.mapResources identities).log) :
    ∃ kind name field, subject = .part kind name field ∧ LostPart m.application kind name field := by
  rw [log_mapResources, h.networks_log, h.volumes_log, h.secrets_log] at hlost
  simp only [lost_append, List.mem_append, mem_lost_flatMap, lost_addedEntries, List.not_mem_nil,
    false_or] at hlost
  rcases hlost with hlost | hlost | hlost | hlost | hlost | hlost
  · obtain ⟨network, hnetwork, hsubject⟩ := hlost
    obtain ⟨field, rfl, hreported⟩ := lost_lostFields hsubject
    exact ⟨_, _, _, rfl, network, hnetwork, rfl, hreported⟩
  · obtain ⟨volume, hvolume, hsubject⟩ := hlost
    obtain ⟨field, rfl, hreported⟩ := lost_lostFields hsubject
    exact ⟨_, _, _, rfl, volume, hvolume, rfl, hreported⟩
  · obtain ⟨secret, hsecret, hsubject⟩ := hlost
    obtain ⟨field, rfl, hreported⟩ := lost_lostFields hsubject
    exact ⟨_, _, _, rfl, secret, hsecret, rfl, hreported⟩
  · obtain ⟨group, hgroup, hsubject⟩ := hlost
    obtain ⟨field, rfl, hreason⟩ := h.lost_group hgroup hsubject
    exact ⟨_, _, _, rfl, group, hgroup, rfl, hreason⟩
  · obtain ⟨service, hservice, hsubject⟩ := hlost
    obtain ⟨image, policy, container, hkept⟩ := h.service hservice
    obtain ⟨name, field, rfl⟩ := hkept.concerns subject hsubject
    exact ⟨_, _, _, rfl, trivial⟩
  · obtain ⟨service, hservice, hsubject⟩ := hlost
    obtain ⟨name, field, rfl⟩ := h.lost_dependency hservice hsubject
    exact ⟨_, _, _, rfl, trivial⟩

theorem KeptRun.lost_of {kind : SubjectKind} {name field : String}
    (hlost : .part kind name field ∈ lost (m.mapResources identities).log) :
    LostPart m.application kind name field := by
  obtain ⟨_, _, _, hsubject, hpart⟩ := h.lost_part hlost
  cases hsubject
  exact hpart

/-- No report of a kept run is about a path of another kind. -/
theorem KeptRun.not_reportedUnder {path : String} {first : Char} {rest : List Char}
    (hpath : path.toList = first :: rest) (hfirst : first ≠ 'n' ∧ first ≠ 'v' ∧ first ≠ 's' ∧ first ≠ 'g') :
    ¬ ReportedUnder path (lost (m.mapResources identities).log) := by
  rintro ⟨subject, hsubject, hbelow⟩
  obtain ⟨kind, name, field, rfl, -⟩ := h.lost_part hsubject
  rw [hpath] at hbelow
  have hhead : ∃ tail, (Subject.part kind name field).render.toList = first :: tail := by
    obtain ⟨tail, htail⟩ := hbelow
    exact ⟨rest ++ tail, htail.symm⟩
  obtain ⟨tail, htail⟩ := hhead
  simp only [Subject.render, String.toList_append, List.append_assoc] at htail
  cases kind with
  | network => exact hfirst.1 (List.cons.inj htail).1.symm
  | volume => exact hfirst.2.1 (List.cons.inj htail).1.symm
  | secret | service => exact hfirst.2.2.1 (List.cons.inj htail).1.symm
  | group => exact hfirst.2.2.2 (List.cons.inj htail).1.symm

end Lost

/-! ## Accounted resources -/

section Resources
variable {m : Mapping} {identities : Identities} (h : KeptRun m identities)
include h

/-- What the mapping of each resource adds to the report of the whole run. -/
theorem KeptRun.lost_resources :
    (∀ network ∈ m.application.networks, lost (lostFields .network network.value.name.asStr
      (Mapping.networkFields network.value)) ⊆ lost (m.mapResources identities).log) ∧
    (∀ volume ∈ m.application.volumes, lost (lostFields .volume volume.value.name.asStr
      (Mapping.volumeFields volume.value)) ⊆ lost (m.mapResources identities).log) ∧
    (∀ secret ∈ m.application.secrets, lost (lostFields .secret secret.value.name.asStr
      (Mapping.secretFields secret.value)) ⊆ lost (m.mapResources identities).log) ∧
    (∀ group ∈ m.application.serviceGroups,
      lost (m.mapGroup identities group).log ⊆ lost (m.mapResources identities).log) ∧
    (∀ service ∈ m.application.services,
      lost (m.mapService identities service.value).log ⊆ lost (m.mapResources identities).log) ∧
    ∀ service ∈ m.application.services,
      lost (m.mapDependencies identities service).log ⊆ lost (m.mapResources identities).log := by
  rw [log_mapResources, h.networks_log, h.volumes_log, h.secrets_log]
  simp only [lost_append]
  have hmem : ∀ {ι : Type} {items : List ι} {item : ι} {log : ι → List Event}, item ∈ items →
      lost (log item) ⊆ lost (items.flatMap log) :=
    fun hitem subject hsubject => mem_lost_flatMap.mpr ⟨_, hitem, hsubject⟩
  refine ⟨?_, ?_, ?_, ?_, ?_, ?_⟩
  · intro network hnetwork subject hsubject
    refine List.mem_append_left _ (hmem hnetwork ?_)
    rw [lost_append]
    exact List.mem_append_right _ hsubject
  · intro volume hvolume subject hsubject
    refine List.mem_append_right _ (List.mem_append_left _ (hmem hvolume ?_))
    rw [lost_append]
    exact List.mem_append_right _ hsubject
  · intro secret hsecret subject hsubject
    refine List.mem_append_right _ (List.mem_append_right _ (List.mem_append_left _ (hmem hsecret ?_)))
    rw [lost_append]
    exact List.mem_append_right _ hsubject
  · intro group hgroup subject hsubject
    simp only [List.mem_append]
    exact Or.inr (Or.inr (Or.inr (Or.inl (hmem hgroup hsubject))))
  · intro service hservice subject hsubject
    simp only [List.mem_append]
    exact Or.inr (Or.inr (Or.inr (Or.inr (Or.inl (hmem hservice hsubject)))))
  · intro service hservice subject hsubject
    simp only [List.mem_append]
    exact Or.inr (Or.inr (Or.inr (Or.inr (Or.inr (hmem hservice hsubject)))))

theorem KeptRun.group_accounted {group : Sourced ServiceGroup} {dependencies : List StartupDependency}
    (hgroup : group ∈ m.application.serviceGroups)
    (hmapped : group.value.runtime.isSome = true → group.value.ownership = .application) :
    GroupAccounted m.application group ⟨added (m.mapResources identities).log, dependencies⟩
      (lost (m.mapResources identities).log) := by
  have hlost := h.lost_resources.2.2.2.1 group hgroup
  by_cases howned : group.value.ownership = .application
  · obtain ⟨pod, hid, hmembers, hlog⟩ := mapGroup_kept howned (h.groups group hgroup)
    constructor
    · refine Or.inl ⟨pod, ?_, hid, ?_⟩
      · have hadded : .pod pod ∈ added (m.mapGroup identities group).log := by
          rw [hlog, added_append, added_addedEntries]
          exact List.mem_append_left _ (List.mem_singleton_self _)
        rw [h.added_resources]
        simp only [List.mem_append]
        exact Or.inr (Or.inr (Or.inr (Or.inl (List.mem_flatMap.mpr ⟨group, hgroup, hadded⟩))))
      · rw [hmembers]
        exact List.map_congr_left fun member _ => h.prepared.containers _
    · intro field hfield hpopulated
      rw [List.mem_singleton] at hfield
      rw [hfield] at hpopulated ⊢
      apply hlost
      rw [hlog, lost_append]
      exact List.mem_append_right _ (mem_lost_lostFields.mpr
        ⟨_, List.mem_singleton_self _, hpopulated, rfl⟩)
  · constructor
    · refine Or.inr fun field hfield _ => hlost ?_
      rw [(mapGroup_external howned).2.2]
      simp only [List.mem_cons, List.not_mem_nil, or_false] at hfield ⊢
      rcases hfield with rfl | rfl
      · exact Or.inl rfl
      · exact Or.inr rfl
    · intro field hfield hpopulated
      rw [List.mem_singleton] at hfield
      rw [hfield] at hpopulated
      exact absurd (hmapped hpopulated) howned

theorem KeptRun.service_accounted {service : Sourced Service} {log : List Event}
    (hservice : service ∈ m.application.services)
    (hlog : lost log = lost (m.mapResources identities).log) :
    ServiceAccounted m service
      ⟨added (m.mapResources identities).log, edges (m.mapResources identities).log⟩ log := by
  obtain ⟨image, policy, container, hkept⟩ := h.service hservice
  have hlost : lost (m.mapService identities service.value).log ⊆ lost log := by
    rw [hlog]
    exact h.lost_resources.2.2.2.2.1 service hservice
  have hadded : added (m.mapService identities service.value).log ⊆
      added (m.mapResources identities).log := by
    intro resource hresource
    rw [h.added_resources]
    simp only [List.mem_append]
    exact Or.inr (Or.inr (Or.inr (Or.inr (List.mem_flatMap.mpr ⟨service, hservice, hresource⟩))))
  rw [hkept.resources, List.cons_subset, List.cons_subset] at hadded
  constructor
  · refine ⟨identities, container, h.prepared, hadded.2.1, ?_, hkept.carried.mono hlost⟩
    have hidentity := hkept.carried.identity
    rw [h.prepared.containers, ← serviceKey, h.service_lookup hservice] at hidentity
    exact (Option.some.inj hidentity).symm
  · exact ⟨image, policy, hkept.source, hadded.1, fun neutral hneutral =>
      (hkept.pulled neutral hneutral).mono id hlost⟩
  · intro item hitem
    constructor
    · have hends : endpoints identities service.value item.1.value ∈
          (edges (m.mapResources identities).log).map edgeEnds := by
        rw [h.added_edges]
        exact List.mem_flatMap.mpr ⟨service, hservice,
          List.mem_map_of_mem (List.fst_mem_of_mem_zipIdx hitem)⟩
      obtain ⟨edge, hedge, hsame⟩ := List.mem_map.mp hends
      unfold edgeEnds endpoints at hsame
      rw [h.prepared.containers, h.prepared.containers, ← serviceKey, h.service_lookup hservice,
        Prod.mk.injEq] at hsame
      exact ⟨edge, hedge, Option.some.inj hsame.2, hsame.1.symm⟩
    · intro field hfield hpopulated
      have hoptions : hasOptions item.1.value = true ∧
          field.2 = Mapping.dependencyPart item.2 ++ ".options" := by
        unfold hasOptions
        simp only [List.mem_cons, List.not_mem_nil, or_false] at hfield
        rcases hfield with rfl | rfl | rfl
        all_goals simp only at hpopulated
        all_goals simp [hpopulated]
      rw [hlog, hoptions.2]
      apply h.lost_resources.2.2.2.2.2 service hservice
      unfold Mapping.mapDependencies
      rw [Reports.log_forM, mem_lost_flatMap]
      refine ⟨item, hitem, ?_⟩
      rw [(mapDependency_kept (h.dependencies service hservice item hitem)).2.2, if_pos hoptions.1]
      exact List.mem_singleton_self _
  · intro field hfield hpopulated
    apply hlost
    have hmem : field.swap ∈ Mapping.unmappedFields service.value := List.mem_map_of_mem hfield
    exact hkept.fields field.swap hmem hpopulated

theorem KeptRun.accounted {log : List Event} (hmapped : FullyMapped m.application)
    (hlog : lost log = lost (m.mapResources identities).log) :
    Accounted m ⟨added (m.mapResources identities).log, edges (m.mapResources identities).log⟩ log where
  networks network hnetwork := by
    constructor
    · show networkResource network ∈ added _
      rw [h.added_resources]
      exact List.mem_append_left _ (List.mem_map_of_mem hnetwork)
    · intro field hfield hpopulated
      rw [hlog]
      apply h.lost_resources.1 network hnetwork
      have hmem : field ∈ (Mapping.networkFields network.value).map fun entry => (entry.2.2, entry.1) :=
        hfield
      obtain ⟨entry, hentry, rfl⟩ := List.mem_map.mp hmem
      exact mem_lost_lostFields.mpr ⟨entry, hentry, hpopulated, rfl⟩
  volumes volume hvolume := by
    constructor
    · show volumeResource volume ∈ added _
      rw [h.added_resources]
      exact List.mem_append_right _ (List.mem_append_left _ (List.mem_map_of_mem hvolume))
    · intro field hfield hpopulated
      rw [hlog]
      apply h.lost_resources.2.1 volume hvolume
      rw [mem_lost_lostFields]
      have hsettings : Mapping.volumeSettings volume.value = true ∧ field.2 = "settings" := by
        have hothers := hmapped.volumes volume hvolume
        unfold Mapping.volumeSettings at hothers ⊢
        simp only [List.mem_cons, List.not_mem_nil, or_false] at hfield
        rcases hfield with rfl | rfl | rfl | rfl | rfl | rfl | rfl | rfl | rfl | rfl | rfl | rfl
        all_goals simp only at hpopulated
        all_goals refine ⟨?_, rfl⟩
        · exact hothers (Or.inl hpopulated)
        · simp [hpopulated]
        · simp [hpopulated]
        · simp [hpopulated]
        · simp [hpopulated]
        · simp [hpopulated]
        · exact hothers (Or.inr hpopulated)
        all_goals simp [hpopulated]
      exact ⟨_, List.mem_singleton_self _, hsettings.1, by rw [hsettings.2]⟩
  secrets secret hsecret := by
    constructor
    · show secretResource secret ∈ added _
      rw [h.added_resources]
      exact List.mem_append_right _ (List.mem_append_right _ (List.mem_append_left _
        (List.mem_map_of_mem hsecret)))
    · intro field hfield hpopulated
      rw [hlog]
      apply h.lost_resources.2.2.1 secret hsecret
      rw [mem_lost_lostFields]
      simp only [List.mem_cons, List.not_mem_nil, or_false] at hfield
      rcases hfield with rfl | rfl
      · exact ⟨_, List.mem_cons_self, hpopulated, rfl⟩
      · rw [hmapped.secrets secret hsecret] at hpopulated
        cases hpopulated
  configs := by simp [hmapped.configs]
  acquisitions := by simp [hmapped.acquisitions]
  builds := by simp [hmapped.builds]
  groups group hgroup := by
    rw [hlog]
    exact h.group_accounted hgroup (hmapped.groups group hgroup)
  services service hservice := h.service_accounted hservice hlog

/-- A resource that nothing stands for is dropped without a report. -/
theorem KeptRun.fullyMapped {intent : DeploymentIntent} {log : List Event}
    (haccounted : Accounted m intent log) (hlog : lost log = lost (m.mapResources identities).log) :
    FullyMapped m.application where
  configs := by
    refine List.eq_nil_iff_forall_not_mem.mpr fun config hconfig => ?_
    have hreported := haccounted.configs config hconfig
    rw [hlog] at hreported
    have hpath : ("configs." ++ config.value.name.asStr).toList =
        'c' :: ("onfigs.".toList ++ config.value.name.asStr.toList) := by
      rw [String.toList_append]
      rfl
    exact h.not_reportedUnder hpath (by decide) hreported
  acquisitions := by
    refine List.eq_nil_iff_forall_not_mem.mpr fun acquisition hacquisition => ?_
    have hreported := haccounted.acquisitions acquisition hacquisition
    rw [hlog] at hreported
    have hpath : ("image_acquisitions." ++ acquisition.value.name.asStr).toList =
        'i' :: ("mage_acquisitions.".toList ++ acquisition.value.name.asStr.toList) := by
      rw [String.toList_append]
      rfl
    exact h.not_reportedUnder hpath (by decide) hreported
  builds := by
    refine List.eq_nil_iff_forall_not_mem.mpr fun build hbuild => ?_
    have hreported := haccounted.builds build hbuild
    rw [hlog] at hreported
    have hpath : ("image_builds." ++ build.value.name.asStr).toList =
        'i' :: ("mage_builds.".toList ++ build.value.name.asStr.toList) := by
      rw [String.toList_append]
      rfl
    exact h.not_reportedUnder hpath (by decide) hreported
  secrets secret hsecret := by
    cases hmaterial : secret.value.material with
    | none => rfl
    | some material =>
      have hreported := (haccounted.secrets secret hsecret).fields (true, "material")
        (by simp [hmaterial]) rfl
      rw [hlog] at hreported
      obtain ⟨other, hother, hsame, entry, hentry, hpopulated, hname⟩ := h.lost_of hreported
      have hequal : other = secret :=
        List.inj_on_of_nodup_map h.wellFormed.secrets_unique hother hsecret (Identifier.ext_asStr hsame)
      subst hequal
      simp only [Mapping.secretFields, List.mem_cons, List.not_mem_nil, or_false] at hentry
      rcases hentry with rfl | rfl
      · simp at hname
      · simp [hmaterial] at hpopulated
  volumes volume hvolume hpopulated := by
    have hreported : .part .volume volume.value.name.asStr "settings" ∈ lost log := by
      have hfields := (haccounted.volumes volume hvolume).fields
      rcases hpopulated with hservice | hcopy
      · exact hfields (true, "settings") (by simp [hservice]) rfl
      · exact hfields (true, "settings") (by simp [hcopy]) rfl
    rw [hlog] at hreported
    obtain ⟨other, hother, hsame, entry, hentry, hsettings, -⟩ := h.lost_of hreported
    have hequal : other = volume :=
      List.inj_on_of_nodup_map h.wellFormed.volumes_unique hother hvolume (Identifier.ext_asStr hsame)
    subst hequal
    rw [Mapping.volumeFields, List.mem_singleton] at hentry
    rw [hentry] at hsettings
    exact hsettings
  groups group hgroup hruntime := by
    have hreported := (haccounted.groups group hgroup).fields (true, "runtime")
      (by simp [hruntime]) rfl
    rw [hlog] at hreported
    obtain ⟨other, hother, hsame, hreason⟩ := h.lost_of hreported
    have hequal : other = group :=
      List.inj_on_of_nodup_map h.wellFormed.groups_unique hother hgroup (Identifier.ext_asStr hsame)
    subst hequal
    rcases hreason with howned | hfield | hfield
    · exact howned
    · simp at hfield
    · simp at hfield

end Resources

/-- A kept intent accounts for every field exactly when the application is fully mapped. -/
theorem deployment_accounting {m : Mapping} {intent : DeploymentIntent}
    (happlication : m.application.WellFormed) (hintent : m.intent = some intent) :
    Accounted m intent m.mapApplication.log ↔ FullyMapped m.application := by
  obtain ⟨identities, hrun, rfl, hlost⟩ := keptRun_of_intent happlication hintent
  constructor
  · intro haccounted
    exact hrun.fullyMapped haccounted hlost
  · intro hmapped
    exact hrun.accounted hmapped hlost

/-! ## A volume that is not copied into -/

def volumeApplication (volume : Volume) : Application :=
  { Application.new ⟨"demo", Identifier.valid_demo⟩ with volumes := [⟨volume, []⟩] }

def volumeMapping (volume : Volume) : Mapping where
  lens := .permissive
  application := volumeApplication volume
  quoted := id

theorem volumeApplication_wellFormed (volume : Volume) : (volumeApplication volume).WellFormed :=
  { Application.new_wellFormed ⟨"demo", by decide⟩ with
    volumes_unique := List.nodup_singleton _
    evidence_owned := by simp [volumeApplication, Application.new] }

/-- A volume without content copying, as a service definition may ask for. -/
def uncopied : Volume where
  name := ⟨"data", Identifier.valid_data⟩
  ownership := .application
  copy := some ⟨false, []⟩

/-- A volume with a driver. -/
def driven : Volume where
  name := ⟨"data", Identifier.valid_data⟩
  ownership := .application
  driver := some ⟨⟨"local", false⟩, []⟩
  copy := some ⟨false, []⟩

theorem uncopied_dropped : (volumeMapping uncopied).application.WellFormed ∧
    ∃ intent, (volumeMapping uncopied).intent = some intent ∧
      ¬ Accounted (volumeMapping uncopied) intent (volumeMapping uncopied).mapApplication.log := by
  have hkept : (volumeMapping uncopied).intent.isSome = true := by decide +kernel
  have hnothing : lost (volumeMapping uncopied).mapApplication.log = [] := by decide +kernel
  obtain ⟨intent, hintent⟩ := Option.isSome_iff_exists.mp hkept
  refine ⟨volumeApplication_wellFormed uncopied, intent, hintent, fun haccounted => ?_⟩
  have hcopy := (haccounted.volumes ⟨uncopied, []⟩ (List.mem_singleton_self _)).fields (true, "settings")
    (by simp [uncopied]) rfl
  rw [hnothing] at hcopy
  cases hcopy

theorem deployment_accounting_driven : ∃ intent, (volumeMapping driven).intent = some intent ∧
    (Accounted (volumeMapping driven) intent (volumeMapping driven).mapApplication.log ↔
      FullyMapped (volumeApplication driven)) := by
  have hkept : (volumeMapping driven).intent.isSome = true := by decide +kernel
  obtain ⟨intent, hintent⟩ := Option.isSome_iff_exists.mp hkept
  exact ⟨intent, hintent, deployment_accounting (volumeApplication_wellFormed driven) hintent⟩

end Boxferry.Podman
