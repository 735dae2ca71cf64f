import Boxferry.Podman.Import.Mapping

/-! # What an import keeps

The service and the resources that observations turn into, without the
decisions recorded on the way. Every mapping step has the value stated here,
whatever subject it reports under. -/
namespace Boxferry.Podman.Import
open Engine Model Mapping
set_option autoImplicit false

/-! ## Labels and settings -/

def keptLabel (label : String × String) : List (Sourced MetadataLabel) :=
  if isComposeLifecycleLabel label.1 then []
  else (Identifier.new label.1).toOption.toList.map fun name => sourced ⟨name, .plain label.2⟩

def keptLabels (field : ObservationField (List (String × String))) : List (Sourced MetadataLabel) :=
  (field.configured?.getD []).flatMap keptLabel

theorem value_mapLabel (subject : Subject) (kept : List (Sourced MetadataLabel))
    (label : String × String) :
    (Mapping.mapLabel subject kept label).value = kept ++ keptLabel label := by
  unfold Mapping.mapLabel keptLabel
  split
  · simp
  · cases Identifier.new label.1 with
    | ok name => rfl
    | error error => exact (List.append_nil kept).symm

@[simp] theorem value_mapLabels (subject : Subject) (field : ObservationField (List (String × String))) :
    (Mapping.mapLabels subject field).value = keptLabels field := by
  unfold Mapping.mapLabels keptLabels
  rw [Reports.value_bind, value_configured]
  cases field.configured? with
  | none => rfl
  | some labels =>
    show (labels.foldlM (mapLabel (subject.field "labels")) []).value = _
    exact Reports.value_foldlM_gather id (· ++ ·) keptLabel (by simp) (by simp)
      (fun state label _ => value_mapLabel _ state label) []

def keptImage (details : ContainerObservation) : Option (Sourced ImageReference) :=
  (details.configuredImage.configured?.bind fun spelling =>
    (ImageReference.parse spelling).toOption).map sourced

@[simp] theorem value_parseConfiguredImage (subject : Subject) (details : ContainerObservation) :
    (parseConfiguredImage subject details.configuredImage).value = keptImage details := by
  unfold parseConfiguredImage keptImage
  rw [Reports.value_bind, value_configured]
  cases details.configuredImage.configured? with
  | none => rfl
  | some spelling => cases hparse : ImageReference.parse spelling <;> simp [hparse, Except.toOption]

@[simp] theorem value_mapConfiguredImage (subject : Subject) (details : ContainerObservation)
    (service : Service) :
    (mapConfiguredImage subject details service).value =
      { service with image := keptImage details } := by
  unfold mapConfiguredImage
  simp only [Reports.value_bind, value_parseConfiguredImage, Reports.value_pure]

def keptHostname (nativeId : String) (details : ContainerObservation) : Option String :=
  details.hostname.configured?.filter fun hostname => !rejectsHostname nativeId details hostname

/-- The service with the settings that are taken over as configured. -/
def withSettings (nativeId : String) (details : ContainerObservation) (service : Service) : Service :=
  let service := { service with
    command := details.command.configured?.map fun arguments => sourced (commandOf arguments)
    entrypoint := details.entrypoint.configured?.map fun arguments => sourced (entrypointOf arguments)
    workingDirectory := details.workingDirectory.configured?.map fun path => sourced (.plain path)
    hostname := (keptHostname nativeId details).map fun name => sourced (.plain name) }
  match details.user.configured? with
  | some spelling => applyUser service spelling
  | none => service

@[simp] theorem value_mapConfiguredSettings (subject : Subject) (nativeId : String)
    (details : ContainerObservation) (service : Service) :
    (mapConfiguredSettings subject nativeId details service).value =
      withSettings nativeId details service := by
  unfold mapConfiguredSettings withSettings keptHostname
  simp only [Reports.value_bind, value_configured, value_configuredUnless]
  rfl

@[simp] theorem value_mapContainerLabels (subject : Subject)
    (field : ObservationField (List (String × String))) (service : Service) :
    (mapContainerLabels subject field service).value =
      { service with labels := service.labels ++ keptLabels field } := by
  unfold mapContainerLabels
  rw [Reports.value_bind, value_mapLabels]
  rfl

/-! ## Collections of a service -/

def addMounts (service : Service) (mounts : List (Sourced Mount)) : Service :=
  { service with mounts := service.mounts ++ mounts }

def addPorts (service : Service) (ports : List (Sourced Port)) : Service :=
  { service with ports := service.ports ++ ports }

def addNetworks (service : Service) (networks : List (Sourced NetworkAttachment)) : Service :=
  { service with networks := service.networks ++ networks }

def addDependencies (service : Service) (dependencies : List (Sourced ServiceDependency)) : Service :=
  { service with dependencies := service.dependencies ++ dependencies }

def addVariables (service : Service) (entries : List (Sourced EnvironmentVariable)) : Service :=
  { service with environment := service.environment ++ entries }

@[simp] theorem addMounts_nil (service : Service) : addMounts service [] = service := by
  simp [addMounts]

@[simp] theorem addPorts_nil (service : Service) : addPorts service [] = service := by
  simp [addPorts]

@[simp] theorem addNetworks_nil (service : Service) : addNetworks service [] = service := by
  simp [addNetworks]

@[simp] theorem addDependencies_nil (service : Service) : addDependencies service [] = service := by
  simp [addDependencies]

@[simp] theorem addVariables_nil (service : Service) : addVariables service [] = service := by
  simp [addVariables]

theorem addMounts_append (service : Service) (first rest : List (Sourced Mount)) :
    addMounts (addMounts service first) rest = addMounts service (first ++ rest) := by
  simp [addMounts]

theorem addPorts_append (service : Service) (first rest : List (Sourced Port)) :
    addPorts (addPorts service first) rest = addPorts service (first ++ rest) := by
  simp [addPorts]

theorem addNetworks_append (service : Service) (first rest : List (Sourced NetworkAttachment)) :
    addNetworks (addNetworks service first) rest = addNetworks service (first ++ rest) := by
  simp [addNetworks]

theorem addDependencies_append (service : Service) (first rest : List (Sourced ServiceDependency)) :
    addDependencies (addDependencies service first) rest = addDependencies service (first ++ rest) := by
  simp [addDependencies]

theorem addVariables_append (service : Service) (first rest : List (Sourced EnvironmentVariable)) :
    addVariables (addVariables service first) rest = addVariables service (first ++ rest) := by
  simp [addVariables]

/-! ## Mounts -/

def keptRelabel (field : ObservationField ContainerMountSelinuxRelabel) : Option SelinuxRelabel :=
  field.configured?.bind fun relabel =>
    match relabel with
    | .shared => some .shared
    | .private => some .private
    | .unreviewed => none

@[simp] theorem value_mountRelabel (subject : Subject)
    (field : ObservationField ContainerMountSelinuxRelabel) :
    (mountRelabel subject field).value = keptRelabel field := by
  cases field with
  | observed observation =>
    obtain ⟨origin, value⟩ := observation
    cases origin <;> cases value <;> rfl
  | _ => rfl

namespace Mapping
variable (m : Mapping)

/-- The mount with the relabel of its observation. -/
def keptMountFrom (mount : ContainerMountObservation) (source : MountSource)
    (destination : Observed String) (writable : Observed Bool) : Option Mount :=
  (newMount source destination.value (!writable.value)).toOption.map fun mapped =>
    { mapped with selinuxRelabel := keptRelabel mount.selinuxRelabel }

def keptBindMount (mount : ContainerMountObservation) : Option Mount :=
  if m.source.promotionPolicy.effectiveBindMounts then
    (mountFields mount).bind fun (source, destination, writable) =>
      match source.value with
      | .localBindPath path =>
        if startsWith path "/" && promotable destination.origin && promotable writable.origin then
          keptMountFrom mount (.hostPath path) destination writable
        else none
      | _ => none
  else none

def keptVolumeMount (mount : ContainerMountObservation) : Option Mount :=
  (mountFields mount).bind fun (source, destination, writable) =>
    if promotable source.origin && promotable destination.origin && promotable writable.origin then
      match source.value with
      | .namedVolume name =>
        (m.resolveName .volume name).bind fun volume =>
          keptMountFrom mount (.volume volume) destination writable
      | _ => none
    else none

def keptMount (mount : ContainerMountObservation) : Option Mount :=
  match mount.kind with
  | .bind => m.keptBindMount mount
  | .namedVolume =>
    if m.source.promotionPolicy.effectiveNamedVolumeMounts then m.keptVolumeMount mount else none
  | .other => none

def keptMounts (details : ContainerObservation) : List (Sourced Mount) :=
  ((details.mounts.effective?.getD []).filterMap m.keptMount).map decisionSourced

theorem value_mapEffectiveBindMount (subject : Subject) (mount : ContainerMountObservation)
    (service : Service) :
    (m.mapEffectiveBindMount subject mount service).value =
      addMounts service ((m.keptBindMount mount).toList.map decisionSourced) := by
  unfold mapEffectiveBindMount keptBindMount
  cases m.source.promotionPolicy.effectiveBindMounts with
  | false => simp
  | true =>
    cases mountFields mount with
    | none => simp
    | some fields =>
      obtain ⟨source, destination, writable⟩ := fields
      cases hsource : source.value with
      | localBindPath path =>
        cases hpath : startsWith path "/" <;> cases hdestination : promotable destination.origin <;>
          cases hwritable : promotable writable.origin <;>
            simp [hsource, hpath, hdestination, hwritable]
        unfold keptMountFrom
        cases newMount (.hostPath path) destination.value (!writable.value) with
        | error error => simp [Except.toOption]
        | ok mapped => simp [addMounts, addMount, Except.toOption]
      | _ => simp [hsource]

theorem value_mapNamedVolumeMount (subject : Subject) (mount : ContainerMountObservation)
    (service : Service) :
    (m.mapNamedVolumeMount subject mount service).value =
      addMounts service ((m.keptVolumeMount mount).toList.map decisionSourced) := by
  unfold mapNamedVolumeMount keptVolumeMount
  cases mountFields mount with
  | none => simp
  | some fields =>
    obtain ⟨source, destination, writable⟩ := fields
    cases horigin : promotable source.origin <;> cases hdestination : promotable destination.origin <;>
      cases hwritable : promotable writable.origin <;>
        simp [horigin, hdestination, hwritable]
    cases hsource : source.value with
    | namedVolume name =>
      cases hvolume : m.resolveName .volume name with
      | none => simp [hvolume]
      | some volume =>
        simp only [hvolume, Option.bind_some]
        unfold keptMountFrom
        cases newMount (.volume volume) destination.value (!writable.value) with
        | error error => simp [Except.toOption]
        | ok mapped => simp [addMounts, addMount, Except.toOption]
    | _ => simp

theorem value_mapMount (fieldSubject : Subject) (service : Service)
    (item : ContainerMountObservation × Nat) :
    (m.mapMount fieldSubject service item).value =
      addMounts service ((m.keptMount item.1).toList.map decisionSourced) := by
  unfold mapMount keptMount
  cases hkind : item.1.kind with
  | bind => simp [hkind, value_mapEffectiveBindMount]
  | namedVolume =>
    cases m.source.promotionPolicy.effectiveNamedVolumeMounts <;>
      simp [hkind, value_mapNamedVolumeMount]
  | other =>
    cases m.source.promotionPolicy.effectiveNamedVolumeMounts <;> simp [hkind]

/-- Without a flag for mounts no mount is kept. -/
theorem keptMount_unauthorized {mount : ContainerMountObservation}
    (hvolumes : m.source.promotionPolicy.effectiveNamedVolumeMounts = false)
    (hbinds : m.source.promotionPolicy.effectiveBindMounts = false) : m.keptMount mount = none := by
  unfold keptMount keptBindMount
  cases mount.kind <;> simp [hvolumes, hbinds]

/-- What the numbered items of a list contribute does not depend on their numbers. -/
theorem flatMap_zipIdx {α β : Type} (items : List α) (kept : α → List β) :
    (items.zipIdx.flatMap fun item => kept item.1) = items.flatMap kept := by
  have hmap := List.flatMap_map (l := items.zipIdx) Prod.fst kept
  rw [List.zipIdx_map_fst] at hmap
  exact hmap.symm

theorem value_mapMountRows (fieldSubject : Subject) (mounts : List ContainerMountObservation)
    (service : Service) :
    (mounts.zipIdx.foldlM (m.mapMount fieldSubject) service).value =
      addMounts service ((mounts.filterMap m.keptMount).map decisionSourced) := by
  have hloop : (mounts.zipIdx.foldlM (m.mapMount fieldSubject) service).value =
      addMounts service
        (mounts.zipIdx.flatMap fun item => (m.keptMount item.1).toList.map decisionSourced) :=
    Reports.value_foldlM_gather id addMounts _ addMounts_nil addMounts_append
      (fun state item _ => m.value_mapMount fieldSubject state item) service
  rw [hloop, flatMap_zipIdx mounts fun mount => (m.keptMount mount).toList.map decisionSourced,
    List.map_filterMap, List.filterMap_eq_flatMap_toList]
  simp only [Option.toList_map]

@[simp] theorem value_mapMounts (subject : Subject) (details : ContainerObservation)
    (service : Service) :
    (m.mapMounts subject details service).value = addMounts service (m.keptMounts details) := by
  unfold mapMounts keptMounts ObservationField.effective?
  cases hmounts : details.mounts with
  | observed observation =>
    by_cases horigin : observation.origin = .effective
    · cases hvolumes : m.source.promotionPolicy.effectiveNamedVolumeMounts <;>
        cases hbinds : m.source.promotionPolicy.effectiveBindMounts
      · have hnone : observation.value.filterMap m.keptMount = [] :=
          List.filterMap_eq_nil_iff.mpr fun mount _ => m.keptMount_unauthorized hvolumes hbinds
        simp [horigin, hnone]
      all_goals simp [horigin, value_mapMountRows]
    · simp [horigin]
  | _ => simp [ObservationField.observed?]

/-! ## Networking -/

def keptHost {α : Type} (field : ObservationField α) : Option (Option (α × Bool)) :=
  if field.isObserved && (field.portable? m.authorizedPortable).isNone then none
  else some (field.portable? m.authorizedPortable)

/-- The port of a binding, unless one of its observed host fields does not pass. -/
def keptPort (collectionPromoted : Bool) (binding : NativePortBindingObservation) :
    Option (Sourced Port) :=
  (m.keptHost binding.hostPort).bind fun hostPort =>
    (m.keptHost binding.hostIp).bind fun hostIp =>
      (portProtocol binding.protocol).bind fun protocol =>
        (Port.new binding.containerPort (hostPort.map Prod.fst)
          (hostIp.map fun address => address.1.spelling) protocol).toOption.map fun port =>
            portableSourced port (collectionPromoted || hostPort.any Prod.snd || hostIp.any Prod.snd)

def keptPorts (field : ObservationField (List NativePortBindingObservation)) : List (Sourced Port) :=
  match field.portable? m.authorizedPortable with
  | some (bindings, promoted) => bindings.filterMap (m.keptPort promoted)
  | none => []

theorem service_mapPortBinding (fieldSubject : Subject) (collectionPromoted : Bool) (rows : PortRows)
    (item : NativePortBindingObservation × Nat) :
    (m.mapPortBinding fieldSubject collectionPromoted rows item).value.service =
      addPorts rows.service (m.keptPort collectionPromoted item.1).toList := by
  unfold mapPortBinding keptPort keptHost
  simp only [Reports.value_bind, value_portableSetting]
  split
  · next hport => simp [hport, PortRows.incomplete]
  · next hport =>
    simp only [Reports.value_bind, value_portableSetting, if_neg hport, Option.bind_some]
    split
    · next hip => simp [hip, PortRows.incomplete]
    · next hip =>
      simp only [if_neg hip, Option.bind_some]
      unfold addPortBinding
      cases portProtocol item.1.protocol with
      | none => simp [PortRows.incomplete]
      | some protocol =>
        simp only [Option.bind_some]
        cases Port.new item.1.containerPort _ _ protocol with
        | error error => simp [PortRows.incomplete, Except.toOption]
        | ok port => simp [addPorts, Except.toOption]

theorem service_portRows (fieldSubject : Subject) (collectionPromoted : Bool)
    (bindings : List NativePortBindingObservation) (rows : PortRows) :
    (bindings.zipIdx.foldlM (m.mapPortBinding fieldSubject collectionPromoted) rows).value.service =
      addPorts rows.service (bindings.filterMap (m.keptPort collectionPromoted)) := by
  have hloop := Reports.value_foldlM_gather PortRows.service addPorts
    (fun item => (m.keptPort collectionPromoted item.1).toList) addPorts_nil addPorts_append
    (fun state item (_ : item ∈ bindings.zipIdx) =>
      m.service_mapPortBinding fieldSubject collectionPromoted state item) rows
  rw [hloop, flatMap_zipIdx bindings fun binding => (m.keptPort collectionPromoted binding).toList,
    List.filterMap_eq_flatMap_toList]

@[simp] theorem value_mapPortablePorts (subject : Subject)
    (field : ObservationField (List NativePortBindingObservation)) (service : Service) :
    (m.mapPortablePorts subject field service).value =
      addPorts service (m.keptPorts field) := by
  unfold mapPortablePorts keptPorts
  rw [Reports.value_bind, value_portableSetting]
  cases field.portable? m.authorizedPortable with
  | none => simp
  | some passed => simp [service_portRows]

def keptDns {α : Type} (field : ObservationField (List α)) (spelling : α → String) :
    Option (List (Sourced ProtectedString)) :=
  (field.portable? m.authorizedPortable).bind fun (entries, promoted) =>
    if entries.isEmpty then none
    else some (entries.map fun entry => portableSourced (.plain (spelling entry)) promoted)

@[simp] theorem value_mapDnsEntries {α : Type} (field : ObservationField (List α)) (subject : Subject)
    (spelling : α → String) (effectiveReason promotedSummary : String) :
    (m.mapDnsEntries field subject spelling effectiveReason promotedSummary).value =
      m.keptDns field spelling := by
  unfold mapDnsEntries keptDns
  rw [Reports.value_bind, value_portableSetting]
  cases field.portable? m.authorizedPortable with
  | none => rfl
  | some passed =>
    obtain ⟨entries, promoted⟩ := passed
    cases entries <;> simp

/-- The service with the portable part of its networking. -/
def withNetworking (networking : NativeNetworkingObservation) (service : Service) : Service :=
  { addPorts service (m.keptPorts networking.portBindings) with
    dnsServers := m.keptDns networking.dnsServers NativeIpAddress.spelling
    dnsSearchDomains := m.keptDns networking.dnsSearch id
    dnsOptions := m.keptDns networking.dnsOptions id }

@[simp] theorem value_mapPortableNetworking (subject : Subject)
    (networking : NativeNetworkingObservation) (service : Service) :
    (m.mapPortableNetworking subject networking service).value =
      m.withNetworking networking service := by
  unfold mapPortableNetworking withNetworking
  simp only [Reports.value_bind, value_mapPortablePorts, value_mapDnsEntries, Reports.value_pure]

/-! ## Network attachments -/

def keptAliases (networking : NativeNetworkingObservation) (reference : String) :
    List (Sourced ProtectedString) :=
  let attachment := (networking.networkAttachments.effective?.getD []).find? fun attachment =>
    attachment.network = reference
  match attachment.bind fun attachment => attachment.aliases.effective? with
  | some aliases =>
    if m.authorizedPortable then
      (aliasCandidates aliases).map fun spelling => portableSourced (.plain spelling) true
    else []
  | none => []

@[simp] theorem value_effectiveOnly {α : Type} (field : ObservationField α) (subject : Subject) :
    (effectiveOnly field subject).value = field.effective? := by
  unfold effectiveOnly ObservationField.effective?
  cases field with
  | observed observation => by_cases horigin : observation.origin = .effective <;> simp [horigin]
  | _ => rfl

@[simp] theorem value_promoteAliases (subject : Subject) (aliases : List NativeNetworkAlias) :
    (m.promoteAliases subject aliases).value =
      if m.authorizedPortable then
        (aliasCandidates aliases).map fun spelling => portableSourced (.plain spelling) true
      else [] := by
  unfold promoteAliases
  cases aliasCandidates aliases <;> cases m.authorizedPortable <;> simp

@[simp] theorem value_mapEffectiveNetworkAliases (subject : Subject)
    (networking : NativeNetworkingObservation) (reference : String) :
    (m.mapEffectiveNetworkAliases subject networking reference).value =
      m.keptAliases networking reference := by
  unfold mapEffectiveNetworkAliases keptAliases
  rw [Reports.value_bind, value_effectiveOnly]
  cases networking.networkAttachments.effective? with
  | none => rfl
  | some attachments =>
    cases hfind : attachments.find? fun attachment => attachment.network = reference with
    | none => simp [hfind]
    | some attachment =>
      simp only [hfind, Option.getD_some, Option.bind_some, Reports.value_bind, value_effectiveOnly]
      cases attachment.aliases.effective? with
      | none => rfl
      | some aliases => exact m.value_promoteAliases _ aliases

def keptAttachment (networking : NativeNetworkingObservation) (reference : String) :
    Option (Sourced NetworkAttachment) :=
  (m.resolveName .network reference).map fun name =>
    decisionSourced ⟨name, m.keptAliases networking reference, none, none⟩

def keptAttachments (networking : NativeNetworkingObservation) : List (Sourced NetworkAttachment) :=
  if m.source.promotionPolicy.effectiveNamedNetworks then
    (networking.networks.effective?.getD []).filterMap (m.keptAttachment networking)
  else []

theorem value_mapNetworkReference (fieldSubject : Subject) (networking : NativeNetworkingObservation)
    (service : Service) (reference : String) :
    (m.mapNetworkReference fieldSubject networking service reference).value =
      addNetworks service (m.keptAttachment networking reference).toList := by
  unfold mapNetworkReference keptAttachment
  cases m.resolveName .network reference <;> simp [addNetworks]

@[simp] theorem value_mapNetworkReferences (fieldSubject : Subject)
    (networking : NativeNetworkingObservation) (service : Service) :
    (m.mapNetworkReferences fieldSubject networking service).value =
      addNetworks service (m.keptAttachments networking) := by
  unfold mapNetworkReferences keptAttachments ObservationField.effective?
  cases networking.networks with
  | observed observation =>
    by_cases horigin : observation.origin = .effective
    · have hloop : (observation.value.foldlM (m.mapNetworkReference fieldSubject networking)
          service).value = addNetworks service
            (observation.value.flatMap fun reference => (m.keptAttachment networking reference).toList) :=
        Reports.value_foldlM_gather id addNetworks _ addNetworks_nil addNetworks_append
          (fun state reference _ => m.value_mapNetworkReference fieldSubject networking state reference)
          service
      rw [← List.filterMap_eq_flatMap_toList] at hloop
      cases hflag : m.source.promotionPolicy.effectiveNamedNetworks <;> simp [horigin, hloop]
    · simp [horigin]
  | _ => simp [ObservationField.observed?]

/-- The networking that is mapped: a member of a pod leaves it to its pod. -/
def ownNetworking (details : ContainerObservation) : Option NativeNetworkingObservation :=
  if details.podMembership.isObserved then none else details.networking.observed?.map Observed.value

def withNetworks (details : ContainerObservation) (service : Service) : Service :=
  match ownNetworking details with
  | some networking =>
    addNetworks (m.withNetworking networking service) (m.keptAttachments networking)
  | none => service

@[simp] theorem value_mapContainerNetworks (subject : Subject) (details : ContainerObservation)
    (service : Service) :
    (m.mapContainerNetworks subject details service).value = m.withNetworks details service := by
  unfold mapContainerNetworks withNetworks ownNetworking
  cases hmember : details.podMembership.isObserved with
  | true => rfl
  | false => cases details.networking <;> simp [ObservationField.observed?]

/-! ## Dependencies and environment -/

def keptDependency (reference : String) : Option (Sourced ServiceDependency) :=
  (m.resolveName .container reference).map fun name => sourced ⟨name, none, none, none⟩

def keptDependencies (details : ContainerObservation) : List (Sourced ServiceDependency) :=
  (details.nativeDependencies.configured?.getD []).filterMap m.keptDependency

theorem value_mapDependency (subject : Subject) (service : Service) (reference : String) :
    (m.mapDependency subject service reference).value =
      addDependencies service (m.keptDependency reference).toList := by
  unfold mapDependency keptDependency
  cases m.resolveName .container reference <;> simp [addDependencies]

@[simp] theorem value_mapDependencies (subject : Subject) (details : ContainerObservation)
    (service : Service) :
    (m.mapDependencies subject details service).value =
      addDependencies service (m.keptDependencies details) := by
  unfold mapDependencies keptDependencies
  rw [Reports.value_bind, value_configured]
  cases details.nativeDependencies.configured? with
  | none => exact (addDependencies_nil service).symm
  | some references =>
    have hloop : (references.foldlM (m.mapDependency (subject.field "dependencies")) service).value =
        addDependencies service (references.flatMap fun reference =>
          (m.keptDependency reference).toList) :=
      Reports.value_foldlM_gather id addDependencies _ addDependencies_nil addDependencies_append
        (fun state reference _ => m.value_mapDependency _ state reference) service
    rw [← List.filterMap_eq_flatMap_toList] at hloop
    exact hloop

/-- The variable an entry becomes. A withheld value stays required. -/
def keptVariable (promoted : Bool) (entry : ProtectedEnvironmentEntry) :
    Option (Sourced EnvironmentVariable) :=
  (Identifier.new entry.name).toOption.bind fun name =>
    match entry.value with
    | .authorizedOpaque value => some (portableSourced ⟨name, .literal (.sensitive value)⟩ promoted)
    | .redacted => some (portableSourced ⟨name, .required⟩ promoted)
    | .unreviewed => none

def keptEnvironment (field : ObservationField (List ProtectedEnvironmentEntry)) :
    List (Sourced EnvironmentVariable) :=
  match field.portable? m.authorizedPortable with
  | some (entries, promoted) => entries.filterMap (keptVariable promoted)
  | none => []

theorem value_mapEnvironmentEntry (fieldSubject : Subject) (promoted : Bool) (service : Service)
    (entry : ProtectedEnvironmentEntry) :
    (mapEnvironmentEntry fieldSubject promoted service entry).value =
      addVariables service (keptVariable promoted entry).toList := by
  unfold mapEnvironmentEntry keptVariable
  cases Identifier.new entry.name with
  | error error => simp [Except.toOption]
  | ok name => cases entry.value <;> simp [Except.toOption, addVariables]

@[simp] theorem value_mapPortableEnvironment (subject : Subject)
    (field : ObservationField (List ProtectedEnvironmentEntry)) (service : Service) :
    (m.mapPortableEnvironment subject field service).value =
      addVariables service (m.keptEnvironment field) := by
  unfold mapPortableEnvironment keptEnvironment
  rw [Reports.value_bind, value_portableSetting]
  cases field.portable? m.authorizedPortable with
  | none => exact (addVariables_nil service).symm
  | some passed =>
    obtain ⟨entries, promoted⟩ := passed
    have hloop : (entries.foldlM (mapEnvironmentEntry (subject.field "environment") promoted)
        service).value = addVariables service (entries.flatMap fun entry =>
          (keptVariable promoted entry).toList) :=
      Reports.value_foldlM_gather id addVariables _ addVariables_nil addVariables_append
        (fun state entry _ => value_mapEnvironmentEntry _ promoted state entry) service
    rw [← List.filterMap_eq_flatMap_toList] at hloop
    simpa using hloop

/-! ## Restart policy and health check -/

def keptRestartPolicy (field : ObservationField NativeRestartPolicyObservation) :
    Option (Sourced RestartPolicy) :=
  (field.portable? m.authorizedPortable).bind fun (restart, promoted) =>
    (restart.name.portable? m.authorizedPortable).bind fun (name, _) =>
      (restartPolicyOf name
        ((restart.maximumRetryCount.portable? m.authorizedPortable).map Prod.fst)).map fun policy =>
          portableSourced policy promoted

/-- The service with a restart policy, if there is one to set. -/
def setRestartPolicy (service : Service) (policy : Option (Sourced RestartPolicy)) : Service :=
  match policy with
  | some policy => { service with restartPolicy := some policy }
  | none => service

@[simp] theorem value_mapPortableRestartPolicy (subject : Subject)
    (field : ObservationField NativeRestartPolicyObservation) (service : Service) :
    (m.mapPortableRestartPolicy subject field service).value =
      setRestartPolicy service (m.keptRestartPolicy field) := by
  unfold mapPortableRestartPolicy keptRestartPolicy
  rw [Reports.value_bind, value_portableSetting]
  cases field.portable? m.authorizedPortable with
  | none => rfl
  | some passed =>
    obtain ⟨restart, promoted⟩ := passed
    simp only [Option.bind_some, Reports.value_bind, value_portableSetting]
    cases restart.name.portable? m.authorizedPortable with
    | none => rfl
    | some named =>
      simp only [Option.bind_some, Reports.value_bind, value_portableSetting]
      cases restartPolicyOf named.1
        ((restart.maximumRetryCount.portable? m.authorizedPortable).map Prod.fst) <;> rfl

/-- The health check with the command of its observation. -/
def withHealthCommand (field : ObservationField NativeHealthCommand) (promoted : Bool)
    (state : HealthState) : HealthState :=
  match field.portable? m.authorizedPortable with
  | some (.disabled, _) =>
    ⟨{ state.healthcheck with disabled := some (portableSourced true promoted) }, true⟩
  | some (.shell arguments, _) => ⟨{ state.healthcheck with
      command := some (portableSourced (.shell (.sensitive (" ".intercalate arguments))) promoted) },
      true⟩
  | some (.exec arguments, _) => ⟨{ state.healthcheck with
      command := some (portableSourced (.exec (arguments.map ProtectedString.sensitive)) promoted) },
      true⟩
  | _ => state

@[simp] theorem value_mapHealthCommand (fieldSubject : Subject)
    (field : ObservationField NativeHealthCommand) (promoted : Bool) (state : HealthState) :
    (m.mapHealthCommand fieldSubject field promoted state).value =
      m.withHealthCommand field promoted state := by
  unfold mapHealthCommand withHealthCommand
  rw [Reports.value_bind, value_portableSetting]
  cases field.portable? m.authorizedPortable with
  | none => rfl
  | some passed =>
    obtain ⟨command, flag⟩ := passed
    cases command <;> rfl

/-- The duration of an observed number of nanoseconds that is not negative. -/
def keptDuration (field : ObservationField Int) : Option HealthcheckDuration :=
  (field.portable? m.authorizedPortable).bind fun (value, _) =>
    if value < 0 then none else (HealthcheckDuration.new (toString value ++ "ns")).toOption

def withHealthDuration (field : ObservationField Int) (promoted : Bool)
    (set : Healthcheck → Sourced HealthcheckDuration → Healthcheck) (state : HealthState) :
    HealthState :=
  match m.keptDuration field with
  | some duration => ⟨set state.healthcheck (portableSourced duration promoted), true⟩
  | none => state

@[simp] theorem value_mapHealthDuration (field : ObservationField Int) (subject : Subject)
    (promoted : Bool) (set : Healthcheck → Sourced HealthcheckDuration → Healthcheck)
    (state : HealthState) :
    (m.mapHealthDuration field subject promoted set state).value =
      m.withHealthDuration field promoted set state := by
  unfold mapHealthDuration withHealthDuration keptDuration
  rw [Reports.value_bind, value_portableSetting]
  cases field.portable? m.authorizedPortable with
  | none => rfl
  | some passed =>
    obtain ⟨value, flag⟩ := passed
    by_cases hnegative : value < 0
    · simp [hnegative]
    · simp only [if_neg hnegative, Option.bind_some]
      cases HealthcheckDuration.new (toString value ++ "ns") <;> rfl

def keptRetries (field : ObservationField Int) : Option HealthcheckRetries :=
  (field.portable? m.authorizedPortable).bind fun (value, _) =>
    (HealthcheckRetries.new (toString value)).toOption

def withHealthRetries (field : ObservationField Int) (promoted : Bool) (state : HealthState) :
    HealthState :=
  match m.keptRetries field with
  | some retries =>
    ⟨{ state.healthcheck with retries := some (portableSourced retries promoted) }, true⟩
  | none => state

@[simp] theorem value_mapHealthRetries (fieldSubject : Subject) (field : ObservationField Int)
    (promoted : Bool) (state : HealthState) :
    (m.mapHealthRetries fieldSubject field promoted state).value =
      m.withHealthRetries field promoted state := by
  unfold mapHealthRetries withHealthRetries keptRetries
  rw [Reports.value_bind, value_portableSetting]
  cases field.portable? m.authorizedPortable with
  | none => rfl
  | some passed =>
    simp only [Option.bind_some]
    cases HealthcheckRetries.new (toString passed.1) <;> rfl

/-- What the settings of a health check amount to. -/
def healthSettings (native : NativeHealthCheckObservation) (promoted : Bool) : HealthState :=
  m.withHealthRetries native.retries promoted <|
    m.withHealthDuration native.startPeriod promoted
      (fun healthcheck value => { healthcheck with startPeriod := some value }) <|
    m.withHealthDuration native.timeout promoted
      (fun healthcheck value => { healthcheck with timeout := some value }) <|
    m.withHealthDuration native.interval promoted
      (fun healthcheck value => { healthcheck with interval := some value }) <|
    m.withHealthCommand native.command promoted {}

@[simp] theorem value_mapHealthSettings (fieldSubject : Subject)
    (native : NativeHealthCheckObservation) (promoted : Bool) :
    (m.mapHealthSettings fieldSubject native promoted).value = m.healthSettings native promoted := by
  unfold mapHealthSettings healthSettings
  simp only [Reports.value_bind, value_mapHealthCommand, value_mapHealthDuration,
    value_mapHealthRetries]

def keptHealthcheck (field : ObservationField NativeHealthCheckObservation) :
    Option (Sourced Healthcheck) :=
  (field.portable? m.authorizedPortable).bind fun (native, promoted) =>
    let state := m.healthSettings native promoted
    if state.retained then some (portableSourced state.healthcheck promoted) else none

def setHealthcheck (service : Service) (healthcheck : Option (Sourced Healthcheck)) : Service :=
  match healthcheck with
  | some healthcheck => { service with healthcheck := some healthcheck }
  | none => service

@[simp] theorem value_mapPortableHealthcheck (subject : Subject)
    (field : ObservationField NativeHealthCheckObservation) (service : Service) :
    (m.mapPortableHealthcheck subject field service).value =
      setHealthcheck service (m.keptHealthcheck field) := by
  unfold mapPortableHealthcheck keptHealthcheck
  rw [Reports.value_bind, value_portableSetting]
  cases field.portable? m.authorizedPortable with
  | none => rfl
  | some passed =>
    obtain ⟨native, promoted⟩ := passed
    simp only [Option.bind_some, Reports.value_bind, value_mapHealthSettings]
    cases (m.healthSettings native promoted).retained <;> rfl

/-! ## The whole service -/

/-- The pod a container is a member of. -/
def keptGroup (details : ContainerObservation) : Option Identifier :=
  details.podMembership.configured?.bind (m.resolveName .pod)

@[simp] theorem value_mapPodMembership (subject : Subject) (details : ContainerObservation) :
    (m.mapPodMembership subject details).value = m.keptGroup details := by
  unfold mapPodMembership keptGroup
  rw [Reports.value_bind, value_configured]
  cases details.podMembership.configured? with
  | none => rfl
  | some reference => cases hresolved : m.resolveName .pod reference <;> simp [hresolved]

/-- The service a container becomes. -/
def serviceOf (identity : ResourceIdentity) (details : ContainerObservation) (name : Identifier) :
    Service :=
  let service : Service := { name, image := keptImage details }
  let service := withSettings identity.id details service
  let service := { service with labels := service.labels ++ keptLabels details.labels }
  let service := m.withNetworks details (addMounts service (m.keptMounts details))
  let service := addDependencies service (m.keptDependencies details)
  let service := addVariables service (m.keptEnvironment details.environment)
  let service := setRestartPolicy service (m.keptRestartPolicy details.restartPolicy)
  setHealthcheck service (m.keptHealthcheck details.healthCheck)

@[simp] theorem value_buildService (subject : Subject) (identity : ResourceIdentity)
    (details : ContainerObservation) (name : Identifier) :
    (m.buildService subject identity details name).value = m.serviceOf identity details name := by
  unfold buildService serviceOf
  simp only [Reports.value_bind, value_mapConfiguredImage, value_mapConfiguredSettings,
    value_mapContainerLabels, value_mapMounts, value_mapContainerNetworks, value_mapDependencies,
    value_mapPortableEnvironment, value_mapPortableRestartPolicy, value_mapPortableHealthcheck,
    Reports.value_pure]

end Mapping
end Boxferry.Podman.Import
