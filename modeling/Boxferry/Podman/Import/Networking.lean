import Boxferry.Podman.Import.Containers

/-! # Mounts and networking

The mapping of a container's mounts, published ports, name service and network
attachments. Rows are gated one by one below the collection they belong to. -/
namespace Boxferry.Podman.Import
open Engine Model
set_option autoImplicit false

/-! ## Mount reports -/

/-- The options are no more than the typed relabel of the mount. -/
def optionsAreTyped (mount : ContainerMountObservation) : Bool :=
  match mount.options.observed?, mount.selinuxRelabel.observed? with
  | some options, relabel =>
    options.value.isEmpty || relabel.any fun relabel =>
      relabel.origin = .configured && options.value.all fun option =>
        match relabel.value with
        | .shared => option == "z"
        | .private => option == "Z"
        | .unreviewed => false
  | none, _ => false

def reportMountOptions (subject : Subject) (mount : ContainerMountObservation) : Imported Unit :=
  if optionsAreTyped mount then exact (subject.field "options")
  else observationOnly (subject.field "options") mount.options
    "residual effective native mount options remain evidence after typed access, relabel, propagation, and subpath handling; no automatic promotion exists"

def reportMountCore (subject : Subject) (mount : ContainerMountObservation) : Imported Unit := do
  observationOnly (subject.field "source") mount.source
    "mount source is not promoted without an exact portable mapping"
  observationOnly (subject.field "destination") mount.destination
    "mount destination is not promoted without an exact portable mapping"
  observationOnly (subject.field "writable") mount.writable
    "mount access is not promoted without an exact portable mapping"

def reportMountRemainders (subject : Subject) (mount : ContainerMountObservation) : Imported Unit := do
  observationOnly (subject.field "local_backing_path") mount.localBackingPath
    "target-local mount backing paths are observation-only"
  reportMountOptions subject mount
  observationOnly (subject.field "propagation") mount.propagation
    "native mount propagation has no reviewed neutral mapping"
  observationOnly (subject.field "subpath") mount.subpath
    "native volume subpath has no reviewed neutral mapping"

def reportBindMountRemainders (subject : Subject) (mount : ContainerMountObservation) :
    Imported Unit := do
  exact (subject.field "local_backing_path")
  reportMountOptions subject mount
  if mount.propagation.observed?.any fun propagation =>
      propagation.value ∈ ["", "private", "rprivate"] then
    exact (subject.field "propagation")
  else
    observationOnly (subject.field "propagation") mount.propagation
      "non-default bind-mount propagation has no reviewed neutral mapping"
  if mount.subpath.observed?.any fun subpath => subpath.value.isEmpty then
    exact (subject.field "subpath")
  else
    observationOnly (subject.field "subpath") mount.subpath
      "native bind-mount subpath has no reviewed neutral mapping"

def reportUnpromotedRelabel (relabelSubject : Subject)
    (field : ObservationField ContainerMountSelinuxRelabel) (availablePromotion : Option String) :
    Imported Unit :=
  match field with
  | .absent | .notApplicable => exact relabelSubject
  | .unavailable | .malformed | .versionInapplicable | .unmodelled =>
    unsupported relabelSubject
      "typed SELinux relabel evidence is unavailable; author it separately on the target"
  | .unreviewed =>
    unsupported relabelSubject "future SELinux relabel evidence state is not reviewed"
  | .observed observation =>
    match observation.origin, availablePromotion with
    | .configured, some flag | .effective, some flag =>
      promotionRequiredWithFlag relabelSubject
        "SELinux relabel requires promotion of its parent mount" flag
    | .configured, none | .effective, none =>
      unsupportedWithOrigin relabelSubject
        "SELinux relabel cannot be emitted because its parent mount is not portable intent"
        observation.origin
    | .runtimeAssigned, _ | .localResolution, _ => evidenceOnly relabelSubject
    | .unreviewed, _ =>
      unsupported relabelSubject "future SELinux relabel origin is not reviewed"

def reportUnpromotedMount (subject : Subject) (mount : ContainerMountObservation)
    (availablePromotion : Option String) : Imported Unit := do
  reportMountCore subject mount
  reportUnpromotedRelabel (subject.field "selinux_relabel") mount.selinuxRelabel availablePromotion
  reportMountRemainders subject mount

/-- The relabel a mapped mount takes over. -/
def mountRelabel (relabelSubject : Subject) (field : ObservationField ContainerMountSelinuxRelabel) :
    Imported (Option SelinuxRelabel) :=
  match field with
  | .absent | .notApplicable => do
    exact relabelSubject
    pure none
  | .unavailable | .malformed => do
    unsupported relabelSubject "typed SELinux relabel evidence is incomplete or malformed"
    pure none
  | .versionInapplicable | .unmodelled => do
    unsupported relabelSubject
      "typed SELinux relabel evidence is not usable; no automatic promotion exists"
    pure none
  | .unreviewed => do
    unsupported relabelSubject
      "future SELinux relabel state is not reviewed; no automatic promotion exists"
    pure none
  | .observed observation =>
    match observation.origin, observation.value with
    | .configured, .shared => do
      exact relabelSubject
      pure (some .shared)
    | .configured, .private => do
      exact relabelSubject
      pure (some .private)
    | .configured, .unreviewed => do
      unsupported relabelSubject
        "future typed SELinux relabel mode is not reviewed; no automatic promotion exists"
      pure none
    | .effective, _ => do
      promotionRequired relabelSubject
        "effective SELinux relabel evidence is not configured intent; no automatic promotion exists"
      pure none
    | .runtimeAssigned, _ | .localResolution, _ => do
      evidenceOnly relabelSubject
      pure none
    | .unreviewed, _ => do
      unsupported relabelSubject
        "future SELinux relabel observation origin is not reviewed; no automatic promotion exists"
      pure none

/-! ## Mounts -/

/-- `Mount::new`. Only deferred host paths are literal from the start. -/
def newMount (source : MountSource) (target : String) (readOnly : Bool) : Except ModelError Mount :=
  match h : validateText "mount target" target with
  | .ok () => .ok ⟨source, target, readOnly, none,
      match source with
      | .deferredHostPath _ => true
      | _ => false, h⟩
  | .error error => .error error

/-- Origins that a promoted mount may take a field from. -/
def promotable : ObservationOrigin → Bool
  | .configured | .effective => true
  | _ => false

def addMount (service : Service) (mount : Mount) : Service :=
  { service with mounts := service.mounts ++ [decisionSourced mount] }

/-- The three fields a mount needs, when all of them are observed. -/
def mountFields (mount : ContainerMountObservation) :
    Option (Observed ContainerMountSource × Observed String × Observed Bool) := do
  some (← mount.source.observed?, ← mount.destination.observed?, ← mount.writable.observed?)

def reportIncompleteMount (subject : Subject) (mount : ContainerMountObservation) (summary : String) :
    Imported Unit := do
  reportState mount.source (subject.field "source")
  reportState mount.destination (subject.field "destination")
  reportState mount.writable (subject.field "writable")
  invalid subject summary

namespace Mapping
variable (m : Mapping)

def mapEffectiveBindMount (subject : Subject) (mount : ContainerMountObservation)
    (service : Service) : Imported Service :=
  if !m.source.promotionPolicy.effectiveBindMounts then do
    reportUnpromotedMount subject mount (some effectiveBindMountsFlag)
    promotionRequiredWithFlag subject
      "host-local bind mount requires explicit same-path promotion authorization"
      effectiveBindMountsFlag
    pure service
  else match mountFields mount with
    | none => do
      reportIncompleteMount subject mount
        "bind-mount source, destination, or access is incomplete"
      pure service
    | some (source, destination, writable) =>
      match source.value with
      | .localBindPath path =>
        if !startsWith path "/" then do
          unsupported subject "host-local bind source is not an absolute path"
          pure service
        else if !promotable destination.origin || !promotable writable.origin then do
          unsupported subject "runtime-assigned bind destination or access is never promoted"
          pure service
        else do
          reportBindMountRemainders subject mount
          match newMount (.hostPath path) destination.value (!writable.value) with
          | .error error => do
            modelError subject error
            pure service
          | .ok mapped => do
            let relabel ← mountRelabel (subject.field "selinux_relabel") mount.selinuxRelabel
            approximateWithFlag subject
              "host-local bind mount promoted for a reviewed same-path target"
              effectiveBindMountsFlag
            pure (addMount service { mapped with selinuxRelabel := relabel })
      | _ => do
        invalid subject "bind-mount kind and source disagree"
        pure service

def mapNamedVolumeMount (subject : Subject) (mount : ContainerMountObservation) (service : Service) :
    Imported Service :=
  match mountFields mount with
  | none => do
    reportIncompleteMount subject mount "mount source, destination, or access is incomplete"
    pure service
  | some (source, destination, writable) =>
    if !promotable source.origin || !promotable destination.origin || !promotable writable.origin then do
      unsupported subject "runtime-assigned or local mount fields are never promoted"
      pure service
    else match source.value with
      | .namedVolume name =>
        match m.resolveName .volume name with
        | none => do
          identityConflict subject "named-volume reference does not resolve uniquely"
          pure service
        | some volume =>
          match newMount (.volume volume) destination.value (!writable.value) with
          | .error error => do
            modelError subject error
            pure service
          | .ok mapped => do
            let relabel ← mountRelabel (subject.field "selinux_relabel") mount.selinuxRelabel
            reconstructed subject "effective named-volume mount relationship reconstructed"
            pure (addMount service { mapped with selinuxRelabel := relabel })
      | _ => do
        unsupported subject "mount source is target-local"
        pure service

def mapMount (fieldSubject : Subject) (service : Service) (item : ContainerMountObservation × Nat) :
    Imported Service := do
  let subject := fieldSubject.index item.2
  let mount := item.1
  if mount.kind = .bind then m.mapEffectiveBindMount subject mount service
  else if !m.source.promotionPolicy.effectiveNamedVolumeMounts then do
    reportUnpromotedMount subject mount (some namedVolumesFlag)
    promotionRequiredWithFlag subject
      "effective named-volume mount requires explicit promotion authorization" namedVolumesFlag
    pure service
  else do
    reportMountRemainders subject mount
    if mount.kind ≠ .namedVolume then do
      reportMountCore subject mount
      unsupported subject "local bind paths never become portable intent automatically"
      pure service
    else m.mapNamedVolumeMount subject mount service

def eitherMountFlag : String := namedVolumesFlag ++ " or " ++ effectiveBindMountsFlag

/-- The promotion that would take over a mount of a kind. -/
def mountFlag : ContainerMountKind → String
  | .bind => effectiveBindMountsFlag
  | .namedVolume => namedVolumesFlag
  | .other => eitherMountFlag

def mapMounts (subject : Subject) (details : ContainerObservation) (service : Service) :
    Imported Service :=
  let fieldSubject := subject.field "mounts"
  match details.mounts with
  | .observed observation =>
    if observation.origin ≠ .effective then do
      observation.value.zipIdx.forM fun item =>
        reportUnpromotedMount (fieldSubject.index item.2) item.1 none
      unsupported fieldSubject "runtime-assigned or local mount evidence is not desired intent"
      pure service
    else if !m.source.promotionPolicy.effectiveNamedVolumeMounts &&
        !m.source.promotionPolicy.effectiveBindMounts then do
      observation.value.zipIdx.forM fun item =>
        reportUnpromotedMount (fieldSubject.index item.2) item.1 (some (mountFlag item.1.kind))
      promotionRequiredWithFlag fieldSubject
        "effective mounts require explicit promotion authorization" eitherMountFlag
      pure service
    else observation.value.zipIdx.foldlM (m.mapMount fieldSubject) service
  | field => do
    reportState field fieldSubject
    pure service

end Mapping

/-! ## Networking reports -/

def reportPortBindingHosts (subject : Subject) (item : NativePortBindingObservation × Nat) :
    Imported Unit := do
  observationOnly (((subject.field "port_bindings").index item.2).field "host_ip") item.1.hostIp
    "runtime-assigned host IP is observation-only"
  observationOnly (((subject.field "port_bindings").index item.2).field "host_port") item.1.hostPort
    "runtime-assigned host port is observation-only"

def reportPortableFields (subject : Subject) (networking : NativeNetworkingObservation) :
    Imported Unit := do
  observationOnly (subject.field "port_bindings") networking.portBindings
    "runtime port bindings require explicit authored publication intent"
  match networking.portBindings.observed? with
  | some bindings => bindings.value.zipIdx.forM (reportPortBindingHosts subject)
  | none => pure ()

def reportNameService (subject : Subject) (networking : NativeNetworkingObservation) :
    Imported Unit := do
  observationOnly (subject.field "dns_servers") networking.dnsServers
    "effective DNS servers require explicit promotion"
  observationOnly (subject.field "dns_search") networking.dnsSearch
    "effective DNS search domains require explicit promotion"
  observationOnly (subject.field "dns_options") networking.dnsOptions
    "effective DNS options require explicit promotion"

def reportNetworkingRemainders (subject : Subject) (networking : NativeNetworkingObservation)
    (portableFieldsHandled : Bool) : Imported Unit := do
  Reports.onlyIf (!portableFieldsHandled) (reportPortableFields subject networking)
  observationOnly (subject.field "create_net_ns") networking.createNetNs
    "effective network namespace creation requires explicit promotion"
  observationOnly (subject.field "host_network") networking.hostNetwork
    "effective host networking requires explicit promotion"
  Reports.onlyIf (!portableFieldsHandled) (reportNameService subject networking)
  observationOnly (subject.field "host_entries") networking.hostEntries
    "opaque host-entry evidence cannot reconstruct authored mappings"
  observationOnly (subject.field "network_options") networking.networkOptions
    "opaque network options cannot reconstruct authored mappings"
  observationOnly (subject.field "no_manage_resolv_conf") networking.noManageResolvConf
    "effective resolver-management policy requires explicit promotion"
  observationOnly (subject.field "no_manage_hosts") networking.noManageHosts
    "effective hosts-management policy requires explicit promotion"
  observationOnly (subject.field "static_ip") networking.staticIp
    "runtime-assigned static IP evidence is not promoted automatically"
  observationOnly (subject.field "static_mac") networking.staticMac
    "runtime-assigned static MAC evidence is not promoted automatically"

def reportNetworkingOnly (subject : Subject) (field : ObservationField NativeNetworkingObservation) :
    Imported Unit := do
  observationOnly subject field
    "native networking evidence is not promoted at this topology boundary"
  match field.observed? with
  | some networking => do
    reportNetworkingRemainders subject networking.value false
    observationOnly (subject.field "references") networking.value.networks
      "native network references are not promoted at this topology boundary"
  | none => pure ()

/-! ## Published ports -/

def portProtocol : NativePortProtocol → Option Protocol
  | .tcp => some .tcp
  | .udp => some .udp
  | .sctp => some .sctp
  | .unreviewed => none

/-- The ports so far, whether one was promoted, and whether every binding was mapped. -/
structure PortRows where
  service : Service
  promotedAny : Bool
  complete : Bool

def PortRows.incomplete (rows : PortRows) : PortRows := { rows with complete := false }

/-- Adds the port of a binding whose host fields passed their gates. -/
def addPortBinding (bindingSubject : Subject) (binding : NativePortBindingObservation)
    (promoted : Bool) (hostPort : Option UInt16) (hostIp : Option String) (rows : PortRows) :
    Imported PortRows :=
  match portProtocol binding.protocol with
  | none => do
    unsupported bindingSubject "native port protocol is not reviewed for neutral promotion"
    pure rows.incomplete
  | some protocol =>
    match Port.new binding.containerPort hostPort hostIp protocol with
    | .ok port => pure { rows with service := { rows.service with
        ports := rows.service.ports ++ [portableSourced port promoted] } }
    | .error error => do
      modelError bindingSubject error
      pure rows.incomplete

namespace Mapping
variable (m : Mapping)

def mapPortBinding (fieldSubject : Subject) (collectionPromoted : Bool) (rows : PortRows)
    (item : NativePortBindingObservation × Nat) : Imported PortRows := do
  let bindingSubject := fieldSubject.index item.2
  let binding := item.1
  let hostPort ← portableSetting binding.hostPort (bindingSubject.field "host_port")
    m.authorizedPortable "effective published host port requires explicit promotion"
  if binding.hostPort.isObserved && hostPort.isNone then pure rows.incomplete
  else do
    let hostIp ← portableSetting binding.hostIp (bindingSubject.field "host_ip")
      m.authorizedPortable "effective published host address requires explicit promotion"
    if binding.hostIp.isObserved && hostIp.isNone then pure rows.incomplete
    else
      let promoted := collectionPromoted || hostPort.any Prod.snd || hostIp.any Prod.snd
      addPortBinding bindingSubject binding promoted (hostPort.map Prod.fst)
        (hostIp.map fun address => address.1.spelling)
        { rows with promotedAny := rows.promotedAny || promoted }

def reportPromotedPorts (fieldSubject : Subject) (complete : Bool) : Imported Unit :=
  if complete then
    reconstructed fieldSubject
      "effective published-port behavior reconstructed from reviewed bindings"
  else
    approximateWithFlag fieldSubject
      "some effective published-port bindings could not be reconstructed"
      portableEffectiveSettingsFlag

def mapPortablePorts (subject : Subject)
    (field : ObservationField (List NativePortBindingObservation)) (service : Service) :
    Imported Service := do
  let fieldSubject := subject.field "port_bindings"
  match ← portableSetting field fieldSubject m.authorizedPortable
      "effective published ports require explicit promotion" with
  | none => pure service
  | some (bindings, promoted) => do
    let rows ← bindings.zipIdx.foldlM (m.mapPortBinding fieldSubject promoted)
      ⟨service, promoted, true⟩
    Reports.onlyIf rows.promotedAny (reportPromotedPorts fieldSubject rows.complete)
    pure rows.service

/-! ## Name service -/

/-- A collection of the name service: its entries become intent unless there are none. -/
def mapDnsEntries {α : Type} (field : ObservationField (List α)) (subject : Subject)
    (spelling : α → String) (effectiveReason promotedSummary : String) :
    Imported (Option (List (Sourced ProtectedString))) := do
  match ← portableSetting field subject m.authorizedPortable effectiveReason with
  | none => pure none
  | some (entries, promoted) =>
    if entries.isEmpty then do
      exact subject
      pure none
    else do
      Reports.onlyIf promoted
        (approximateWithFlag subject promotedSummary portableEffectiveSettingsFlag)
      pure (some (entries.map fun entry =>
        portableSourced (.plain (spelling entry)) promoted))

def mapPortableNetworking (subject : Subject) (networking : NativeNetworkingObservation)
    (service : Service) : Imported Service := do
  let service ← m.mapPortablePorts subject networking.portBindings service
  let servers ← m.mapDnsEntries networking.dnsServers (subject.field "dns_servers")
    NativeIpAddress.spelling "effective DNS servers require explicit promotion"
    "effective DNS servers were explicitly promoted as portable intent"
  let domains ← m.mapDnsEntries networking.dnsSearch (subject.field "dns_search") id
    "effective DNS search domains require explicit promotion"
    "effective DNS search domains were explicitly promoted as portable intent"
  let options ← m.mapDnsEntries networking.dnsOptions (subject.field "dns_options") id
    "effective DNS options require explicit promotion"
    "effective DNS options were explicitly promoted as portable intent"
  pure { service with dnsServers := servers, dnsSearchDomains := domains, dnsOptions := options }

/-! ## Network attachments -/

/-- The alias candidates in order, each spelling once. -/
def aliasCandidates (aliases : List NativeNetworkAlias) : List String :=
  ((aliases.filter fun entry => entry.kind = .effectiveCandidate).map
    NativeNetworkAlias.spelling).foldl
      (fun kept spelling => if spelling ∈ kept then kept else kept ++ [spelling]) []

/-- The aliases of one attachment whose field is effective. -/
def promoteAliases (aliasSubject : Subject) (aliases : List NativeNetworkAlias) :
    Imported (List (Sourced ProtectedString)) := do
  let future := aliases.any fun entry => entry.kind = .unreviewed
  Reports.onlyIf future
    (unsupported aliasSubject "future native network alias classification is not reviewed")
  if (aliasCandidates aliases).isEmpty then do
    Reports.onlyIf (!future) (evidenceOnly aliasSubject)
    pure []
  else if !m.authorizedPortable then do
    promotionRequiredWithFlag aliasSubject
      "effective network aliases require explicit portable-settings promotion authorization"
      portableEffectiveSettingsFlag
    pure []
  else do
    approximateWithFlag aliasSubject
      "effective network aliases explicitly promoted portable intent" portableEffectiveSettingsFlag
    pure ((aliasCandidates aliases).map fun spelling => portableSourced (.plain spelling) true)

/-- The value of a field when it is observed as effective; anything else is only reported. -/
def effectiveOnly {α : Type} (field : ObservationField α) (subject : Subject) :
    Imported (Option α) :=
  match field with
  | .observed observation =>
    if observation.origin = .effective then pure (some observation.value)
    else do
      reportState field subject
      pure none
  | field => do
    reportState field subject
    pure none

def mapEffectiveNetworkAliases (aliasSubject : Subject) (networking : NativeNetworkingObservation)
    (reference : String) : Imported (List (Sourced ProtectedString)) := do
  match ← effectiveOnly networking.networkAttachments aliasSubject with
  | none => pure []
  | some attachments =>
    -- the reference joins an attachment to its network, never its position
    match attachments.find? fun attachment => attachment.network = reference with
    | none => do
      invalid aliasSubject "native network attachment alias evidence is inconsistent"
      pure []
    | some attachment =>
      match ← effectiveOnly attachment.aliases aliasSubject with
      | none => pure []
      | some aliases => m.promoteAliases aliasSubject aliases

def mapNetworkReference (fieldSubject : Subject) (networking : NativeNetworkingObservation)
    (service : Service) (reference : String) : Imported Service :=
  match m.resolveName .network reference with
  | none => do
    identityConflict fieldSubject "network reference does not resolve uniquely"
    pure service
  | some name => do
    let aliases ← m.mapEffectiveNetworkAliases ((fieldSubject.entry name.asStr).field "aliases")
      networking reference
    reconstructed fieldSubject "effective named-network attachment relationship reconstructed"
    pure { service with networks := service.networks ++
      [decisionSourced ⟨name, aliases, none, none⟩] }

def mapNetworkReferences (fieldSubject : Subject) (networking : NativeNetworkingObservation)
    (service : Service) : Imported Service :=
  match networking.networks with
  | .observed observation =>
    if observation.origin ≠ .effective then do
      unsupported fieldSubject
        "runtime-assigned or local network references are never promoted"
      pure service
    else if !m.source.promotionPolicy.effectiveNamedNetworks then do
      promotionRequiredWithFlag fieldSubject
        "effective named networks require explicit promotion authorization" namedNetworksFlag
      pure service
    else observation.value.foldlM (m.mapNetworkReference fieldSubject networking) service
  | field => do
    reportState field fieldSubject
    pure service

def mapContainerNetworks (subject : Subject) (details : ContainerObservation) (service : Service) :
    Imported Service :=
  if details.podMembership.isObserved then do
    reportNetworkingOnly (subject.field "pod_member_networking") details.networking
    pure service
  else
    let fieldSubject := subject.field "networks"
    match details.networking with
    | .observed networking => do
      let service ← m.mapPortableNetworking fieldSubject networking.value service
      reportNetworkingRemainders fieldSubject networking.value true
      m.mapNetworkReferences fieldSubject networking.value service
    | field => do
      reportState field fieldSubject
      pure service

end Mapping
end Boxferry.Podman.Import
