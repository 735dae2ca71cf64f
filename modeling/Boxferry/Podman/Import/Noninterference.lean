import Boxferry.Library.Related
import Boxferry.Podman.Import.Kept

/-! # The promotion gate

Two sources that differ only in values a gate never lets through are imported to
the same application. Runtime-assigned and locally resolved values never pass;
effective ones do not pass without a promotion flag. -/
namespace Boxferry.Podman.Import
open Engine Model Mapping
set_option autoImplicit false

/-! ## Agreement of observations -/

/-- Fields with the same state and origin, and with related values unless values of that origin
may differ. -/
def Agree {α : Type} (differ : ObservationOrigin → Prop) (related : α → α → Prop) :
    ObservationField α → ObservationField α → Prop
  | .observed left, .observed right =>
    left.origin = right.origin ∧ (¬ differ left.origin → related left.value right.value)
  | left, right => left = right

/-- The origins whose values a policy never turns into intent. -/
def Withheld (policy : PodmanPromotionPolicy) (origin : ObservationOrigin) : Prop :=
  origin = .runtimeAssigned ∨ origin = .localResolution ∨
    (origin = .effective ∧ policy = PodmanPromotionPolicy.conservative)

/-- Observations of one origin, with equal values unless values of that origin may differ. -/
def Alike {α : Type} (differ : ObservationOrigin → Prop) (left right : Observed α) : Prop :=
  left.origin = right.origin ∧ (¬ differ left.origin → left.value = right.value)

section Relations
variable (differ : ObservationOrigin → Prop)

structure RestartAgree (left right : NativeRestartPolicyObservation) : Prop where
  name : Agree differ Eq left.name right.name
  maximumRetryCount : Agree differ Eq left.maximumRetryCount right.maximumRetryCount

structure HealthAgree (left right : NativeHealthCheckObservation) : Prop where
  command : Agree differ Eq left.command right.command
  interval : Agree differ Eq left.interval right.interval
  timeout : Agree differ Eq left.timeout right.timeout
  startPeriod : Agree differ Eq left.startPeriod right.startPeriod
  retries : Agree differ Eq left.retries right.retries

/-- The source of a bind mount may not differ when effective bind mounts are promoted. -/
structure MountAgree (bindMounts : Bool) (left right : ContainerMountObservation) : Prop where
  kind : left.kind = right.kind
  source : Agree differ Eq left.source right.source
  bindSource : bindMounts = true → left.kind = .bind → left.source = right.source
  destination : Agree differ Eq left.destination right.destination
  writable : Agree differ Eq left.writable right.writable
  selinuxRelabel : Agree differ Eq left.selinuxRelabel right.selinuxRelabel

structure PortAgree (left right : NativePortBindingObservation) : Prop where
  containerPort : left.containerPort = right.containerPort
  protocol : left.protocol = right.protocol
  hostIp : Agree differ Eq left.hostIp right.hostIp
  hostPort : Agree differ Eq left.hostPort right.hostPort

structure AttachmentAgree (left right : NativeNetworkAttachment) : Prop where
  network : left.network = right.network
  aliases : Agree differ Eq left.aliases right.aliases

structure NetworkingAgree (left right : NativeNetworkingObservation) : Prop where
  portBindings : Agree differ (List.Forall₂ (PortAgree differ)) left.portBindings right.portBindings
  dnsServers : Agree differ Eq left.dnsServers right.dnsServers
  dnsSearch : Agree differ Eq left.dnsSearch right.dnsSearch
  dnsOptions : Agree differ Eq left.dnsOptions right.dnsOptions
  networks : Agree differ Eq left.networks right.networks
  networkAttachments : Agree differ (List.Forall₂ (AttachmentAgree differ))
    left.networkAttachments right.networkAttachments

/-- Containers that differ only where values may differ. The infra classification and the UTS
namespace mode are the same. The origin of the networking observation gates nothing, so its own
fields agree whatever that origin is. Fields that are only reported are not compared. -/
structure ContainersAgree (bindMounts : Bool) (left right : ContainerObservation) : Prop where
  infra : isInfra left = isInfra right
  utsNamespace : hostUtsNamespace left = hostUtsNamespace right
  configuredImage : Agree differ Eq left.configuredImage right.configuredImage
  labels : Agree differ Eq left.labels right.labels
  environment : Agree differ Eq left.environment right.environment
  command : Agree differ Eq left.command right.command
  entrypoint : Agree differ Eq left.entrypoint right.entrypoint
  user : Agree differ Eq left.user right.user
  workingDirectory : Agree differ Eq left.workingDirectory right.workingDirectory
  hostname : Agree differ Eq left.hostname right.hostname
  podMembership : Agree differ Eq left.podMembership right.podMembership
  nativeDependencies : Agree differ Eq left.nativeDependencies right.nativeDependencies
  mounts : Agree differ (List.Forall₂ (MountAgree differ bindMounts)) left.mounts right.mounts
  restartPolicy : Agree differ (RestartAgree differ) left.restartPolicy right.restartPolicy
  healthCheck : Agree differ (HealthAgree differ) left.healthCheck right.healthCheck
  networking : Agree (fun _ => False) (NetworkingAgree differ) left.networking right.networking

structure LeaseRangeAgree (left right : NativeNetworkLeaseRange) : Prop where
  startIp : Agree differ Eq left.startIp right.startIp
  endIp : Agree differ Eq left.endIp right.endIp

structure SubnetAgree (left right : NativeNetworkSubnetObservation) : Prop where
  cidr : Agree differ Eq left.cidr right.cidr
  gateway : Agree differ Eq left.gateway right.gateway
  leaseRange : Agree differ (LeaseRangeAgree differ) left.leaseRange right.leaseRange

structure NetworksAgree (left right : NetworkObservation) : Prop where
  labels : Agree differ Eq left.labels right.labels
  internal : Agree differ Eq left.internal right.internal
  subnets : Agree differ (List.Forall₂ (SubnetAgree differ)) left.subnets right.subnets

/-- Details of one kind. Secrets, pods and images contribute nothing but their identity. -/
inductive DetailsAgree (bindMounts : Bool) : ResourceDetails → ResourceDetails → Prop
  | container {left right : ContainerObservation} (h : ContainersAgree differ bindMounts left right) :
    DetailsAgree bindMounts (.container left) (.container right)
  | network {left right : NetworkObservation} (h : NetworksAgree differ left right) :
    DetailsAgree bindMounts (.network left) (.network right)
  | volume {left right : VolumeObservation} (h : Agree differ Eq left.labels right.labels) :
    DetailsAgree bindMounts (.volume left) (.volume right)
  | secret (left right : SecretObservation) : DetailsAgree bindMounts (.secret left) (.secret right)
  | pod (left right : PodObservation) : DetailsAgree bindMounts (.pod left) (.pod right)
  | image (left right : ImageObservation) : DetailsAgree bindMounts (.image left) (.image right)
  | missing : DetailsAgree bindMounts .missing .missing

structure ObservationAgree (bindMounts : Bool) (left right : ResourceObservation) : Prop where
  header : left.header = right.header
  details : DetailsAgree differ bindMounts left.details right.details

/-- Sources with one selection, the same identities and findings, and agreeing observations. -/
structure SourcesAgree (left right : PodmanSource) : Prop where
  applicationName : left.applicationName = right.applicationName
  graph : left.graph = right.graph
  promotionPolicy : left.promotionPolicy = right.promotionPolicy
  sections : left.inventory.sections = right.inventory.sections
  observations : List.Forall₂ (ObservationAgree differ left.promotionPolicy.effectiveBindMounts)
    left.inventory.observations right.inventory.observations

end Relations

/-! ## Gates -/

section Gates
variable {α : Type} {differ : ObservationOrigin → Prop} {related : α → α → Prop}
  {left right : ObservationField α}

theorem Agree.observed? (h : Agree differ related left right) :
    Option.Rel (fun first other => first.origin = other.origin ∧
      (¬ differ first.origin → related first.value other.value)) left.observed? right.observed? := by
  cases left <;> cases right <;> first
    | exact .some h
    | exact .none
    | cases h

theorem Agree.isObserved (h : Agree differ related left right) : left.isObserved = right.isObserved := by
  unfold ObservationField.isObserved
  rcases Related.rel_cases h.observed? with ⟨hleft, hright⟩ | ⟨first, other, hleft, hright, -⟩
  · rw [hleft, hright]
  · rw [hleft, hright]
    rfl

theorem Agree.configured (h : Agree differ related left right) (hvisible : ¬ differ .configured) :
    Option.Rel related left.configured? right.configured? := by
  unfold ObservationField.configured?
  rcases Related.rel_cases h.observed? with ⟨hleft, hright⟩ | ⟨first, other, hleft, hright, horigin, hvalue⟩
  · rw [hleft, hright]
    exact .none
  · rw [hleft, hright]
    by_cases hconfigured : first.origin = .configured
    · have hother : other.origin = .configured := horigin ▸ hconfigured
      simp only [Option.bind_some, if_pos hconfigured, if_pos hother]
      exact .some (hvalue (hconfigured ▸ hvisible))
    · have hother : other.origin ≠ .configured := horigin ▸ hconfigured
      simp only [Option.bind_some, if_neg hconfigured, if_neg hother]
      exact .none

theorem Agree.effective (h : Agree differ related left right) (hvisible : ¬ differ .effective) :
    Option.Rel related left.effective? right.effective? := by
  unfold ObservationField.effective?
  rcases Related.rel_cases h.observed? with ⟨hleft, hright⟩ | ⟨first, other, hleft, hright, horigin, hvalue⟩
  · rw [hleft, hright]
    exact .none
  · rw [hleft, hright]
    by_cases heffective : first.origin = .effective
    · have hother : other.origin = .effective := horigin ▸ heffective
      simp only [Option.bind_some, if_pos heffective, if_pos hother]
      exact .some (hvalue (heffective ▸ hvisible))
    · have hother : other.origin ≠ .effective := horigin ▸ heffective
      simp only [Option.bind_some, if_neg heffective, if_neg hother]
      exact .none

theorem Agree.portable {authorized : Bool} (h : Agree differ related left right)
    (hconfigured : ¬ differ .configured) (heffective : authorized = true → ¬ differ .effective) :
    Option.Rel (fun first other => related first.1 other.1 ∧ first.2 = other.2)
      (left.portable? authorized) (right.portable? authorized) := by
  unfold ObservationField.portable?
  rcases Related.rel_cases h.observed? with ⟨hleft, hright⟩ | ⟨first, other, hleft, hright, horigin, hvalue⟩
  · rw [hleft, hright]
    exact .none
  · rw [hleft, hright]
    simp only [Option.bind_some, ← horigin]
    by_cases hfirst : first.origin = .configured
    · simp only [if_pos hfirst]
      exact .some ⟨hvalue (hfirst ▸ hconfigured), rfl⟩
    · by_cases hpassed : first.origin = .effective ∧ authorized = true
      · simp only [if_neg hfirst, if_pos hpassed]
        exact .some ⟨hvalue (hpassed.1 ▸ heffective hpassed.2), rfl⟩
      · simp only [if_neg hfirst, if_neg hpassed]
        exact .none

end Gates

/-! ## What a policy lets through -/

/-- The values that may differ are withheld by the policy of the importer. -/
structure Gated (m : Mapping) (differ : ObservationOrigin → Prop) : Prop where
  configured : ¬ differ .configured
  effective : differ .effective → m.source.promotionPolicy = .conservative

theorem gated_of_withheld {m : Mapping} {differ : ObservationOrigin → Prop}
    (h : ∀ origin, differ origin → Withheld m.source.promotionPolicy origin) : Gated m differ where
  configured := by
    intro hdiffer
    simpa [Withheld] using h _ hdiffer
  effective := by
    intro hdiffer
    simpa [Withheld] using h _ hdiffer

section Kept
variable {m : Mapping} {differ : ObservationOrigin → Prop} (hgate : Gated m differ)
include hgate

theorem Gated.portable (hauthorized : m.authorizedPortable = true) : ¬ differ .effective := by
  intro hdiffer
  unfold authorizedPortable at hauthorized
  rw [hgate.effective hdiffer] at hauthorized
  cases hauthorized

section Fields
variable {α : Type} {left right : ObservationField α} (h : Agree differ Eq left right)
include h

theorem configured?_agree : left.configured? = right.configured? :=
  Related.eq_of_rel (h.configured hgate.configured)

theorem portable?_agree : left.portable? m.authorizedPortable = right.portable? m.authorizedPortable := by
  rcases Related.rel_cases (h.portable hgate.configured hgate.portable) with
    ⟨hleft, hright⟩ | ⟨first, other, hleft, hright, hvalue⟩
  · rw [hleft, hright]
  · rw [hleft, hright, Prod.ext_iff.mpr hvalue]

theorem keptHost_agree : m.keptHost left = m.keptHost right := by
  unfold keptHost
  rw [h.isObserved, portable?_agree hgate h]

end Fields

end Kept

/-! ## Mounts -/

section Mounts
variable {m : Mapping} {differ : ObservationOrigin → Prop} {left right : ContainerMountObservation}
  {bindMounts : Bool}

/-- Alike observations of three fields that a mount needs. -/
theorem mountFields_agree {source : Observed ContainerMountSource → Observed ContainerMountSource → Prop}
    (h : MountAgree differ bindMounts left right)
    (hsource : Option.Rel source left.source.observed? right.source.observed?) :
    Option.Rel (fun first other => source first.1 other.1 ∧ Alike differ first.2.1 other.2.1 ∧
      Alike differ first.2.2 other.2.2) (mountFields left) (mountFields right) := by
  unfold mountFields
  rcases Related.rel_cases hsource with ⟨hleft, hright⟩ | ⟨source, _, hleft, hright, hsource⟩
  · rw [hleft, hright]
    exact .none
  rw [hleft, hright]
  rcases Related.rel_cases h.destination.observed? with
    ⟨hleft, hright⟩ | ⟨destination, _, hleft, hright, hdestination⟩
  · rw [hleft, hright]
    exact .none
  rw [hleft, hright]
  rcases Related.rel_cases h.writable.observed? with
    ⟨hleft, hright⟩ | ⟨writable, _, hleft, hright, hwritable⟩
  · rw [hleft, hright]
    exact .none
  rw [hleft, hright]
  exact .some ⟨hsource, hdestination, hwritable⟩

/-- A promotable observation has the value of any observation that is like it. -/
theorem Alike.value_eq {α : Type} {first other : Observed α} (h : Alike differ first other)
    (hconfigured : ¬ differ .configured) (heffective : ¬ differ .effective)
    (hpromotable : promotable first.origin = true) : first.value = other.value := by
  apply h.2
  intro hdiffer
  revert hdiffer hpromotable
  cases first.origin <;> intro hpromotable hdiffer
  · exact hconfigured hdiffer
  · exact heffective hdiffer
  all_goals cases hpromotable

theorem keptMountFrom_agree (hgate : Gated m differ) (heffective : ¬ differ .effective)
    (h : MountAgree differ bindMounts left right) {source : MountSource}
    {destination otherDestination : Observed String} {writable otherWritable : Observed Bool}
    (hdestination : Alike differ destination otherDestination)
    (hwritable : Alike differ writable otherWritable)
    (hfirst : promotable destination.origin = true) (hlast : promotable writable.origin = true) :
    keptMountFrom left source destination writable =
      keptMountFrom right source otherDestination otherWritable := by
  unfold keptMountFrom keptRelabel
  rw [hdestination.value_eq hgate.configured heffective hfirst,
    hwritable.value_eq hgate.configured heffective hlast, configured?_agree hgate h.selinuxRelabel]

theorem keptBindMount_agree (hgate : Gated m differ) (heffective : ¬ differ .effective)
    (h : MountAgree differ m.source.promotionPolicy.effectiveBindMounts left right)
    (hkind : left.kind = .bind) : m.keptBindMount left = m.keptBindMount right := by
  unfold keptBindMount
  split
  · next hflag =>
    have hsource := Related.rel_of_eq (congrArg ObservationField.observed? (h.bindSource hflag hkind))
    rcases Related.rel_cases (mountFields_agree h hsource) with
      ⟨hleft, hright⟩ | ⟨first, other, hleft, hright, hsame, hdestination, hwritable⟩
    · rw [hleft, hright]
      rfl
    · rw [hleft, hright]
      simp only [Option.bind_some, ← hsame, ← hdestination.1, ← hwritable.1]
      cases first.1.value with
      | localBindPath path =>
        simp only
        split
        · next hpassed =>
          simp only [Bool.and_eq_true] at hpassed
          exact keptMountFrom_agree hgate heffective h hdestination hwritable hpassed.1.2 hpassed.2
        · rfl
      | _ => rfl
  · rfl

theorem keptVolumeMount_agree (hgate : Gated m differ) (heffective : ¬ differ .effective)
    (h : MountAgree differ bindMounts left right) :
    m.keptVolumeMount left = m.keptVolumeMount right := by
  unfold keptVolumeMount
  rcases Related.rel_cases (mountFields_agree h h.source.observed?) with
    ⟨hleft, hright⟩ | ⟨first, other, hleft, hright, hsource, hdestination, hwritable⟩
  · rw [hleft, hright]
    rfl
  · rw [hleft, hright]
    simp only [Option.bind_some, ← hsource.1, ← hdestination.1, ← hwritable.1]
    split
    · next hpassed =>
      simp only [Bool.and_eq_true] at hpassed
      have hvalue : first.1.value = other.1.value :=
        Alike.value_eq hsource hgate.configured heffective hpassed.1.1
      rw [← hvalue]
      cases first.1.value with
      | namedVolume name =>
        simp only
        congr 1
        funext volume
        exact keptMountFrom_agree hgate heffective h hdestination hwritable hpassed.1.2 hpassed.2
      | _ => rfl
    · rfl

theorem keptMount_agree (hgate : Gated m differ) (heffective : ¬ differ .effective)
    (h : MountAgree differ m.source.promotionPolicy.effectiveBindMounts left right) :
    m.keptMount left = m.keptMount right := by
  unfold keptMount
  rw [← h.kind]
  cases hkind : left.kind with
  | bind => exact keptBindMount_agree hgate heffective h hkind
  | namedVolume => rw [keptVolumeMount_agree hgate heffective h]
  | other => rfl

theorem keptMounts_agree {left right : ContainerObservation} (hgate : Gated m differ)
    (h : ContainersAgree differ m.source.promotionPolicy.effectiveBindMounts left right) :
    m.keptMounts left = m.keptMounts right := by
  unfold keptMounts
  by_cases heffective : differ .effective
  · have hpolicy := hgate.effective heffective
    have hnone : m.keptMount = fun _ => none := by
      funext mount
      apply m.keptMount_unauthorized
      · rw [hpolicy]
        rfl
      · rw [hpolicy]
        rfl
    rw [hnone]
    simp
  · rcases Related.rel_cases (h.mounts.effective heffective) with
      ⟨hleft, hright⟩ | ⟨mounts, others, hleft, hright, hmounts⟩
    · rw [hleft, hright]
    · rw [hleft, hright, Option.getD_some, Option.getD_some,
        Related.filterMap_eq hmounts fun _ _ hmount => keptMount_agree hgate heffective hmount]

end Mounts

/-! ## Networking -/

section Networking
variable {m : Mapping} {differ : ObservationOrigin → Prop} (hgate : Gated m differ)
include hgate

theorem keptPort_agree {left right : NativePortBindingObservation} {promoted : Bool}
    (h : PortAgree differ left right) : m.keptPort promoted left = m.keptPort promoted right := by
  unfold keptPort
  rw [keptHost_agree hgate h.hostPort, keptHost_agree hgate h.hostIp, h.containerPort, h.protocol]

theorem keptPorts_agree {left right : ObservationField (List NativePortBindingObservation)}
    (h : Agree differ (List.Forall₂ (PortAgree differ)) left right) :
    m.keptPorts left = m.keptPorts right := by
  unfold keptPorts
  rcases Related.rel_cases (h.portable hgate.configured hgate.portable) with
    ⟨hleft, hright⟩ | ⟨⟨bindings, promoted⟩, ⟨others, _⟩, hleft, hright, hbindings, rfl⟩
  · rw [hleft, hright]
  · rw [hleft, hright]
    exact Related.filterMap_eq hbindings fun _ _ hbinding => keptPort_agree hgate hbinding

theorem keptDns_agree {α : Type} {left right : ObservationField (List α)} {spelling : α → String}
    (h : Agree differ Eq left right) : m.keptDns left spelling = m.keptDns right spelling := by
  unfold keptDns
  rw [portable?_agree hgate h]

theorem keptAliases_agree {left right : NativeNetworkingObservation} {reference : String}
    (h : NetworkingAgree differ left right) :
    m.keptAliases left reference = m.keptAliases right reference := by
  by_cases heffective : differ .effective
  · have hnone : m.authorizedPortable = false := by
      rw [authorizedPortable, hgate.effective heffective]
      rfl
    unfold keptAliases
    rw [hnone]
    simp only [Bool.false_eq_true, if_false]
    split <;> split <;> rfl
  · unfold keptAliases
    rcases Related.rel_cases (h.networkAttachments.effective heffective) with
      ⟨hleft, hright⟩ | ⟨attachments, others, hleft, hright, hattachments⟩
    · rw [hleft, hright]
    · rw [hleft, hright, Option.getD_some, Option.getD_some]
      have hfind : Option.Rel (AttachmentAgree differ)
          (attachments.find? fun attachment => attachment.network = reference)
          (others.find? fun attachment => attachment.network = reference) :=
        Related.find?_related hattachments fun _ _ hattachment => by rw [hattachment.network]
      rcases Related.rel_cases hfind with ⟨hleft, hright⟩ | ⟨first, other, hleft, hright, hfound⟩
      · rw [hleft, hright]
      · rw [hleft, hright]
        simp only [Option.bind_some]
        rw [Related.eq_of_rel (hfound.aliases.effective heffective)]

theorem keptAttachments_agree {left right : NativeNetworkingObservation}
    (h : NetworkingAgree differ left right) : m.keptAttachments left = m.keptAttachments right := by
  unfold keptAttachments
  split
  · next hflag =>
    have heffective : ¬ differ .effective := by
      intro hdiffer
      rw [hgate.effective hdiffer] at hflag
      cases hflag
    have hattachment : m.keptAttachment left = m.keptAttachment right := by
      funext reference
      unfold keptAttachment
      rw [keptAliases_agree hgate h]
    rw [Related.eq_of_rel (h.networks.effective heffective), hattachment]
  · rfl

theorem withNetworks_agree {left right : ContainerObservation} {bindMounts : Bool} {service : Service}
    (h : ContainersAgree differ bindMounts left right) :
    m.withNetworks left service = m.withNetworks right service := by
  unfold withNetworks ownNetworking
  rw [← h.podMembership.isObserved]
  cases left.podMembership.isObserved with
  | true => rfl
  | false =>
    rcases Related.rel_cases h.networking.observed? with
      ⟨hleft, hright⟩ | ⟨first, other, hleft, hright, -, hnetworking⟩
    · rw [hleft, hright]
    · have hagree := hnetworking not_false
      rw [hleft, hright]
      simp only [Bool.false_eq_true, if_false, Option.map_some]
      unfold withNetworking
      rw [keptPorts_agree hgate hagree.portBindings, keptDns_agree hgate hagree.dnsServers,
        keptDns_agree hgate hagree.dnsSearch, keptDns_agree hgate hagree.dnsOptions,
        keptAttachments_agree hgate hagree]

end Networking

/-! ## Settings -/

section Settings
variable {m : Mapping} {differ : ObservationOrigin → Prop} (hgate : Gated m differ)
include hgate

theorem keptRestartPolicy_agree {left right : ObservationField NativeRestartPolicyObservation}
    (h : Agree differ (RestartAgree differ) left right) :
    m.keptRestartPolicy left = m.keptRestartPolicy right := by
  unfold keptRestartPolicy
  rcases Related.rel_cases (h.portable hgate.configured hgate.portable) with
    ⟨hleft, hright⟩ | ⟨⟨restart, promoted⟩, ⟨other, _⟩, hleft, hright, hrestart, rfl⟩
  · rw [hleft, hright]
  · rw [hleft, hright]
    simp only [Option.bind_some]
    rw [portable?_agree hgate hrestart.name, portable?_agree hgate hrestart.maximumRetryCount]

theorem healthSettings_agree {left right : NativeHealthCheckObservation} {promoted : Bool}
    (h : HealthAgree differ left right) :
    m.healthSettings left promoted = m.healthSettings right promoted := by
  unfold healthSettings withHealthRetries withHealthDuration withHealthCommand keptRetries keptDuration
  rw [portable?_agree hgate h.command, portable?_agree hgate h.interval,
    portable?_agree hgate h.timeout, portable?_agree hgate h.startPeriod,
    portable?_agree hgate h.retries]

theorem keptHealthcheck_agree {left right : ObservationField NativeHealthCheckObservation}
    (h : Agree differ (HealthAgree differ) left right) :
    m.keptHealthcheck left = m.keptHealthcheck right := by
  unfold keptHealthcheck
  rcases Related.rel_cases (h.portable hgate.configured hgate.portable) with
    ⟨hleft, hright⟩ | ⟨⟨native, promoted⟩, ⟨other, _⟩, hleft, hright, hnative, rfl⟩
  · rw [hleft, hright]
  · rw [hleft, hright]
    simp only [Option.bind_some]
    rw [healthSettings_agree hgate hnative]

theorem keptLabels_agree {left right : ObservationField (List (String × String))}
    (h : Agree differ Eq left right) : keptLabels left = keptLabels right := by
  unfold keptLabels
  rw [configured?_agree hgate h]

theorem withSettings_agree {left right : ContainerObservation} {bindMounts : Bool} {nativeId : String}
    {service : Service} (h : ContainersAgree differ bindMounts left right) :
    withSettings nativeId left service = withSettings nativeId right service := by
  unfold withSettings keptHostname rejectsHostname
  rw [configured?_agree hgate h.command, configured?_agree hgate h.entrypoint,
    configured?_agree hgate h.user, configured?_agree hgate h.workingDirectory,
    configured?_agree hgate h.hostname, h.utsNamespace]

theorem serviceOf_agree {left right : ContainerObservation} {identity : ResourceIdentity}
    {name : Identifier}
    (h : ContainersAgree differ m.source.promotionPolicy.effectiveBindMounts left right) :
    m.serviceOf identity left name = m.serviceOf identity right name := by
  unfold serviceOf keptImage keptDependencies keptEnvironment
  simp only [configured?_agree hgate h.configuredImage, withSettings_agree hgate h,
    keptLabels_agree hgate h.labels, keptMounts_agree hgate h, withNetworks_agree hgate h,
    configured?_agree hgate h.nativeDependencies, portable?_agree hgate h.environment,
    keptRestartPolicy_agree hgate h.restartPolicy, keptHealthcheck_agree hgate h.healthCheck]

end Settings
/-! ## Networks -/

section Networks
variable {m : Mapping} {differ : ObservationOrigin → Prop} (hgate : Gated m differ)
include hgate

theorem mapNetworkLeaseRange_agree {left right : ObservationField NativeNetworkLeaseRange}
    {subject : Subject} {promoted : Bool} {config : NetworkIpamConfig}
    (h : Agree differ (LeaseRangeAgree differ) left right) :
    (m.mapNetworkLeaseRange subject left promoted config).value =
      (m.mapNetworkLeaseRange subject right promoted config).value := by
  unfold mapNetworkLeaseRange
  simp only [Reports.value_bind, value_portableSetting]
  rcases Related.rel_cases (h.portable hgate.configured hgate.portable) with
    ⟨hleft, hright⟩ | ⟨⟨range, flag⟩, ⟨other, _⟩, hleft, hright, hrange, rfl⟩
  · rw [hleft, hright]
  · rw [hleft, hright]
    simp only [Reports.value_bind, value_portableSetting]
    rw [portable?_agree hgate hrange.startIp]
    cases other.startIp.portable? m.authorizedPortable with
    | none => rfl
    | some first =>
      simp only [Reports.value_bind, value_portableSetting]
      rw [portable?_agree hgate hrange.endIp]
      cases other.endIp.portable? m.authorizedPortable with
      | none => rfl
      | some passed =>
        obtain ⟨last, flag⟩ := passed
        simp only
        cases leaseRangeSpelling first.1 last <;> rfl

theorem mapNetworkGateway_agree {left right : ObservationField NativeIpAddress} {subject : Subject}
    {promoted : Bool} {config : NetworkIpamConfig} (h : Agree differ Eq left right) :
    (m.mapNetworkGateway subject left promoted config).value =
      (m.mapNetworkGateway subject right promoted config).value := by
  unfold mapNetworkGateway
  simp only [Reports.value_bind, value_portableSetting, portable?_agree hgate h]

theorem mapNetworkSubnet_agree {left right : NativeNetworkSubnetObservation × Nat} {subject : Subject}
    {promoted : Bool} {rows : IpamRows} (hrow : left.2 = right.2)
    (h : SubnetAgree differ left.1 right.1) :
    (m.mapNetworkSubnet subject promoted rows left).value =
      (m.mapNetworkSubnet subject promoted rows right).value := by
  unfold mapNetworkSubnet
  simp only [Reports.value_bind, value_portableSetting, portable?_agree hgate h.cidr, hrow]
  cases right.1.cidr.portable? m.authorizedPortable with
  | none => rfl
  | some passed =>
    simp only
    cases newIpamConfig (portableSourced (.plain passed.1) promoted) with
    | error error => rfl
    | ok config =>
      simp only [Reports.value_bind, mapNetworkGateway_agree hgate h.gateway,
        mapNetworkLeaseRange_agree hgate h.leaseRange]

theorem mapNetworkIpam_agree {left right : ObservationField (List NativeNetworkSubnetObservation)}
    {subject : Subject} {network : Network}
    (h : Agree differ (List.Forall₂ (SubnetAgree differ)) left right) :
    (m.mapNetworkIpam subject left network).value = (m.mapNetworkIpam subject right network).value := by
  unfold mapNetworkIpam
  simp only [Reports.value_bind, value_portableSetting]
  rcases Related.rel_cases (h.portable hgate.configured hgate.portable) with
    ⟨hleft, hright⟩ | ⟨⟨subnets, promoted⟩, ⟨others, _⟩, hleft, hright, hsubnets, rfl⟩
  · rw [hleft, hright]
  · rw [hleft, hright]
    have hrows : (subnets.zipIdx.foldlM (m.mapNetworkSubnet (subject.field "ipam") promoted) {}).value =
        (others.zipIdx.foldlM (m.mapNetworkSubnet (subject.field "ipam") promoted) {}).value := by
      refine Reports.value_foldlM_related (Related.zipIdx hsubnets 0) ?_ ({} : IpamRows)
      intro state item other hitem
      exact mapNetworkSubnet_agree hgate hitem.2 hitem.1
    simp only [Reports.value_bind, Reports.value_pure]
    rw [hrows]

theorem buildNetwork_agree {left right : NetworkObservation} {subject : Subject}
    {identity : ResourceIdentity} {name : Identifier} (h : NetworksAgree differ left right) :
    (m.buildNetwork subject identity left name).value =
      (m.buildNetwork subject identity right name).value := by
  unfold buildNetwork
  simp only [Reports.value_bind, value_mapLabels, keptLabels_agree hgate h.labels,
    mapNetworkIpam_agree hgate h.subnets, Reports.value_pure]
  unfold mapNetworkInternal
  simp only [Reports.value_bind, value_portableSetting, portable?_agree hgate h.internal]

end Networks

/-! ## Resources -/

/-- The mapping of another inventory under the same selection and policy. -/
def Mapping.reobserved (m : Mapping) (inventory : ResourceInventory) (engine api : String) : Mapping :=
  ⟨m.native, { m.source with
    inventory := inventory
    observedEngineVersion := engine
    observedApiVersion := api }⟩

theorem mapServiceContainer_agree {m : Mapping} {differ : ObservationOrigin → Prop}
    (hgate : Gated m differ) {first other : ContainerObservation} {inventory : ResourceInventory}
    {engine api : String} {identity : ResourceIdentity} {state : MappingState} {subject : Subject}
    (h : ContainersAgree differ m.source.promotionPolicy.effectiveBindMounts first other) :
    (m.mapServiceContainer subject identity first state).value =
      ((m.reobserved inventory engine api).mapServiceContainer subject identity other state).value := by
  unfold mapServiceContainer
  simp only [Reports.value_bind, value_identifier]
  cases (Identifier.new identity.shownName).toOption with
  | none => rfl
  | some name =>
    have hgroup : (m.reobserved inventory engine api).keptGroup other = m.keptGroup first := by
      show m.keptGroup other = m.keptGroup first
      unfold keptGroup
      rw [configured?_agree hgate h.podMembership]
    have hservice : (m.reobserved inventory engine api).serviceOf identity other name =
        m.serviceOf identity first name := (serviceOf_agree hgate h).symm
    simp only [Reports.value_bind, value_buildService, value_mapPodMembership, hgroup, hservice]

section Resources
variable {m : Mapping} {differ : ObservationOrigin → Prop} (hgate : Gated m differ)
  {inventory : ResourceInventory} {engine api : String} {left right : ResourceObservation}
  (h : ObservationAgree differ m.source.promotionPolicy.effectiveBindMounts left right)
include hgate h

theorem mapNetwork_agree {application : Application} :
    (m.mapNetwork application left).value =
      ((m.reobserved inventory engine api).mapNetwork application right).value := by
  unfold mapNetwork
  obtain ⟨header, details⟩ := left
  obtain ⟨_, otherDetails⟩ := right
  obtain ⟨rfl, hdetails⟩ := h
  simp only [Reports.value_bind, value_requireComplete]
  split
  · cases hdetails with
    | network hnetwork =>
      simp only [Reports.value_bind, value_identifier]
      cases (Identifier.new header.identity.shownName).toOption with
      | none => rfl
      | some name =>
        simp only [Reports.value_bind]
        rw [buildNetwork_agree hgate hnetwork]
        rfl
    | _ => rfl
  · rfl

theorem mapVolume_agree {application : Application} :
    (m.mapVolume application left).value =
      ((m.reobserved inventory engine api).mapVolume application right).value := by
  unfold mapVolume
  obtain ⟨header, details⟩ := left
  obtain ⟨_, otherDetails⟩ := right
  obtain ⟨rfl, hdetails⟩ := h
  simp only [Reports.value_bind, value_requireComplete]
  split
  · cases hdetails with
    | volume hlabels =>
      simp only [Reports.value_bind, value_identifier]
      cases (Identifier.new header.identity.shownName).toOption with
      | none => rfl
      | some name =>
        simp only [Reports.value_bind]
        unfold buildVolume
        simp only [Reports.value_bind, value_mapLabels, keptLabels_agree hgate hlabels]
        rfl
    | _ => rfl
  · rfl

omit hgate in
theorem mapSecret_agree {application : Application} :
    (mapSecret application left).value = (mapSecret application right).value := by
  unfold mapSecret
  obtain ⟨header, details⟩ := left
  obtain ⟨_, otherDetails⟩ := right
  obtain ⟨rfl, hdetails⟩ := h
  simp only [Reports.value_bind, value_requireComplete]
  split
  · cases hdetails with
    | secret first other =>
      simp only [Reports.value_bind, value_identifier]
      cases (Identifier.new header.identity.shownName).toOption <;> rfl
    | _ => rfl
  · rfl

theorem mapContainer_agree {state : MappingState} :
    (m.mapContainer state left).value =
      ((m.reobserved inventory engine api).mapContainer state right).value := by
  unfold mapContainer
  obtain ⟨header, details⟩ := left
  obtain ⟨_, otherDetails⟩ := right
  obtain ⟨rfl, hdetails⟩ := h
  simp only [Reports.value_bind, value_requireComplete]
  split
  · cases hdetails with
    | container hcontainer =>
      simp only [Reports.value_bind, hcontainer.infra]
      split
      · rfl
      · exact mapServiceContainer_agree hgate hcontainer
    | _ => rfl
  · rfl

end Resources

/-! ## The whole import -/

section Import
variable {m : Mapping} {differ : ObservationOrigin → Prop} (hgate : Gated m differ)
  {inventory : ResourceInventory} {engine api : String}
  (h : List.Forall₂ (ObservationAgree differ m.source.promotionPolicy.effectiveBindMounts)
    m.source.inventory.observations inventory.observations)
include h

theorem observations_agree (kind : ResourceKind) :
    List.Forall₂ (ObservationAgree differ m.source.promotionPolicy.effectiveBindMounts)
      (m.observations kind) ((m.reobserved inventory engine api).observations kind) := by
  apply Related.filterMap_related
  intro identity _
  exact Related.find?_related h fun left right hobservation => by rw [hobservation.header]

theorem members_agree (state : MappingState) (name : Identifier) :
    (m.observations .container).filterMap (memberOf state name) =
      ((m.reobserved inventory engine api).observations .container).filterMap (memberOf state name) :=
  Related.filterMap_eq (observations_agree h .container) fun left right hobservation => by
    unfold memberOf
    rw [hobservation.header]

theorem mapPod_agree {left right : ResourceObservation} {state : MappingState}
    (hpod : ObservationAgree differ m.source.promotionPolicy.effectiveBindMounts left right) :
    (m.mapPod state left).value = ((m.reobserved inventory engine api).mapPod state right).value := by
  unfold mapPod
  obtain ⟨header, details⟩ := left
  obtain ⟨_, otherDetails⟩ := right
  obtain ⟨rfl, hdetails⟩ := hpod
  simp only [Reports.value_bind, value_requireComplete]
  split
  · cases hdetails with
    | pod first other =>
      simp only [Reports.value_bind, value_identifier]
      cases (Identifier.new header.identity.shownName).toOption with
      | none => rfl
      | some name =>
        have hmembers : (m.observations .container).filterMap (memberOf state name) =
            ((m.reobserved inventory engine api).observations .container).filterMap
              (memberOf state name) := members_agree h state name
        simp only [Reports.value_bind, hmembers]
    | _ => rfl
  · rfl

include hgate in
theorem mapResources_agree :
    m.mapResources.value = (m.reobserved inventory engine api).mapResources.value := by
  have hnetworks (start : Application) : ((m.observations .network).foldlM m.mapNetwork start).value =
      (((m.reobserved inventory engine api).observations .network).foldlM
        (m.reobserved inventory engine api).mapNetwork start).value := by
    refine Reports.value_foldlM_related (observations_agree h .network) ?_ start
    intro _ _ _ hitem
    exact mapNetwork_agree hgate hitem
  have hvolumes (start : Application) : ((m.observations .volume).foldlM m.mapVolume start).value =
      (((m.reobserved inventory engine api).observations .volume).foldlM
        (m.reobserved inventory engine api).mapVolume start).value := by
    refine Reports.value_foldlM_related (observations_agree h .volume) ?_ start
    intro _ _ _ hitem
    exact mapVolume_agree hgate hitem
  have hsecrets (start : Application) : ((m.observations .secret).foldlM mapSecret start).value =
      (((m.reobserved inventory engine api).observations .secret).foldlM mapSecret start).value := by
    refine Reports.value_foldlM_related (observations_agree h .secret) ?_ start
    intro _ _ _ hitem
    exact mapSecret_agree hitem
  have hcontainers (start : MappingState) :
      ((m.observations .container).foldlM m.mapContainer start).value =
        (((m.reobserved inventory engine api).observations .container).foldlM
          (m.reobserved inventory engine api).mapContainer start).value := by
    refine Reports.value_foldlM_related (observations_agree h .container) ?_ start
    intro _ _ _ hitem
    exact mapContainer_agree hgate hitem
  have hpods (start : MappingState) : ((m.observations .pod).foldlM m.mapPod start).value =
      (((m.reobserved inventory engine api).observations .pod).foldlM
        (m.reobserved inventory engine api).mapPod start).value := by
    refine Reports.value_foldlM_related (observations_agree h .pod) ?_ start
    intro _ _ _ hitem
    exact mapPod_agree h hitem
  unfold mapResources
  simp only [Reports.value_bind]
  rw [hnetworks, hvolumes, hsecrets, hcontainers, hpods]
  rfl

end Import

/-- A container named `web` whose user was assigned by the runtime. -/
def runtimeUserSource (user : String) : PodmanSource :=
  soleContainerSource ⟨.container, "c1", some "web"⟩
    { ContainerObservation.unobserved with user := .of .runtimeAssigned user } .conservative

end Boxferry.Podman.Import
