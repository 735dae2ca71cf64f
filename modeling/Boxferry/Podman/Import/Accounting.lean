import Boxferry.Podman.Import.Declarations
import Boxferry.Podman.Import.Rows

/-! # What an import drops

The parts of a container that may become intent and are neither in its service
nor accounted for are exactly those stopped at a gate around them, or at the gate
of a sibling, whose outcome is exact. -/
namespace Boxferry.Podman.Import
open Engine Model Mapping
set_option autoImplicit false

namespace Mapping
variable (m : Mapping)

/-- The part is stopped at a gate that records nothing but exact outcomes at the part or below it.
A limit is dropped with any other policy, a health setting with its health check, a port binding with
evidence of the runtime about its host, and an alias with the attachments it is read from. -/
def Dropped (details : ContainerObservation) : Evidence → Prop
  | .restartPolicy => details.restartPolicy.quiet = true
  | .retryLimit => ¬ ∃ restart, m.mayPass details.restartPolicy = some restart ∧
      m.mayPass restart.name = some .onFailure
  | .healthCommand | .healthDuration _ | .healthRetries =>
    (m.mayPass details.healthCheck).isSome = false
  | .portBinding _ binding => details.podMembership.isObserved = false ∧ m.SilentlyStopped binding ∧
      ∀ networking bindings, networkingOf details = some networking →
        m.mayPass networking.portBindings = some bindings →
          ∀ other ∈ bindings, ¬ m.StandsFor other binding
  | .networkAlias reference _ => details.podMembership.isObserved = true ∨
      ∃ name, m.resolveName .network reference = some name ∧ ∀ networking,
        networkingOf details = some networking →
          ¬ (m.source.promotionPolicy.effectiveNamedNetworks = true ∧
            ∃ references, networking.networks.effective? = some references ∧
              ∃ other ∈ references, m.resolveName .network other = some name ∧
                AliasLoss networking other)
  | _ => False

/-! ## Kept rows -/

section Kept
variable {container : ServiceContainer} (hcontainer : container ∈ m.serviceContainers)

theorem publishes_of_standsFor {promoted : Bool} {other binding : NativePortBindingObservation}
    {port : Sourced Port} (hkept : m.keptPort promoted other = some port) :
    m.StandsFor other binding ↔ Publishes binding port.value := by
  obtain ⟨hport, hip, hnonzero, hpublishes⟩ := m.keptPort_eq_some hkept
  constructor
  · intro h
    refine ⟨hpublishes.container.trans h.container, ?_, hpublishes.published.trans h.published,
      hpublishes.hostAddress.trans h.hostAddress⟩
    rw [← h.protocol]
    exact hpublishes.protocol
  · intro h
    refine ⟨hport, hip, hnonzero, by rw [hpublishes.protocol]; rfl,
      hpublishes.container.symm.trans h.container, hpublishes.protocol.trans h.protocol.symm,
      hpublishes.published.symm.trans h.published, hpublishes.hostAddress.symm.trans h.hostAddress⟩

theorem standsFor_isSome {p : Bool} {other binding : NativePortBindingObservation}
    (h : m.StandsFor other binding) : (m.keptPort p other).isSome = true :=
  m.keptPort_isSome.mpr ⟨h.hostPort, h.hostIp, h.nonzero, h.reviewed⟩

theorem carries_portBinding {position : Nat} {binding : NativePortBindingObservation}
    {networking : NativeNetworkingObservation} {bindings : List NativePortBindingObservation}
    (hmember : container.details.podMembership.isObserved = false)
    (hnetworking : networkingOf container.details = some networking)
    (hpasses : m.mayPass networking.portBindings = some bindings) :
    m.Carries container.details (m.service container).value (.portBinding position binding) ↔
      ∃ other ∈ bindings, m.StandsFor other binding := by
  obtain ⟨promoted, hpassed⟩ := m.mayPass_eq_some.mp hpasses
  constructor
  · rintro ⟨port, hport, hpublishes⟩
    obtain ⟨-, own, rows, flag, hown, hrows, other, hother, hkept⟩ := m.mem_ports hport
    rw [hnetworking] at hown
    cases hown
    rw [hpassed] at hrows
    cases hrows
    exact ⟨other, hother, (m.publishes_of_standsFor hkept).mpr hpublishes⟩
  · rintro ⟨other, hother, hstands⟩
    obtain ⟨port, hkept⟩ := Option.isSome_iff_exists.mp (m.standsFor_isSome (p := promoted) hstands)
    exact ⟨port, m.ports_of_kept hmember hnetworking hpassed hother hkept,
      (m.publishes_of_standsFor hkept).mp hstands⟩

include hcontainer

theorem portBinding_kept {position : Nat} {binding : NativePortBindingObservation}
    (h : m.Eligible container.details (.portBinding position binding))
    (hdropped : ¬ m.Dropped container.details (.portBinding position binding)) :
    m.Carries container.details (m.service container).value (.portBinding position binding) ∨
      m.Accounted container (.portBinding position binding) := by
  obtain ⟨networking, bindings, hnetworking, hpasses, hrow⟩ := h
  cases hmember : container.details.podMembership.isObserved with
  | true =>
    refine Or.inr (m.accounted_of_member hcontainer hmember hnetworking (Or.inl ?_))
    unfold reportNetworkingRemainders reportPortableFields
    simp [subjectOf, networkSubject, hmember, m.observationLoses_of_mayPass hpasses]
  | false =>
    rw [m.carries_portBinding hmember hnetworking hpasses]
    by_cases hstands : ∃ other ∈ bindings, m.StandsFor other binding
    · exact Or.inl hstands
    obtain ⟨promoted, hpassed⟩ := m.mayPass_eq_some.mp hpasses
    have hmem : binding ∈ bindings := List.mem_of_getElem? hrow
    have hkept : m.keptPort promoted binding = none := by
      cases hkept : m.keptPort promoted binding with
      | none => rfl
      | some port =>
        obtain ⟨-, -, -, hpublishes⟩ := m.keptPort_eq_some hkept
        exact absurd ⟨binding, hmem, (m.publishes_of_standsFor hkept).mpr hpublishes⟩ hstands
    have hstopped : ¬ m.SilentlyStopped binding := by
      intro hstopped
      refine hdropped ⟨hmember, hstopped, fun own rows hown hrows other hother hother' => ?_⟩
      rw [hnetworking] at hown
      cases hown
      rw [hpasses] at hrows
      cases hrows
      exact hstands ⟨other, hother, hother'⟩
    refine Or.inr (m.accounted_of_networking hcontainer hmember hnetworking fun service => Or.inl ?_)
    unfold mapPortableNetworking mapPortablePorts
    simp only [loss_bind, value_portableSetting, hpassed]
    have hitem : (binding, position) ∈ bindings.zipIdx := List.mem_zipIdx_iff_getElem?.mpr hrow
    refine Or.inl (Or.inr (Or.inl (loss_foldlM hitem fun rows => ?_)))
    unfold subjectOf networkSubject
    simp only [hmember, Bool.false_eq_true, if_false]
    exact @loss_mapPortBinding m _ _ rows (binding, position) hkept hstopped

theorem networkReference_kept {reference : String}
    (h : m.Eligible container.details (.networkReference reference)) :
    m.Carries container.details (m.service container).value (.networkReference reference) ∨
      m.Accounted container (.networkReference reference) := by
  obtain ⟨networking, hnetworking, hattaches⟩ := h
  unfold mayAttach at hattaches
  cases hnetworks : networking.networks with
  | observed observation =>
    obtain ⟨origin, references⟩ := observation
    simp only [hnetworks, ObservationField.observed?_observed] at hattaches
    split at hattaches
    · next horigin =>
      cases hmember : container.details.podMembership.isObserved with
      | true =>
        refine Or.inr (m.accounted_of_member hcontainer hmember hnetworking (Or.inr ?_))
        have hloses : networking.networks.observationLoses = true := by
          unfold ObservationField.observationLoses ObservationField.stateLoses ObservationField.origin?
          rw [hnetworks]
          rcases horigin with rfl | ⟨rfl, -⟩ <;> rfl
        simp [subjectOf, networkSubject, hmember, hloses]
      | false =>
        have hlost (hloses : ∀ service, Loss ((Subject.ofResource container.identity).field "networks")
            (m.mapNetworkReferences ((Subject.ofResource container.identity).field "networks")
              networking service)) : m.Accounted container (.networkReference reference) := by
          refine m.accounted_of_networking hcontainer hmember hnetworking fun service => Or.inr ?_
          unfold subjectOf networkSubject
          simp only [hmember, Bool.false_eq_true, if_false]
          exact hloses _
        rcases horigin with rfl | ⟨rfl, hflag⟩
        · refine Or.inr (hlost fun service => ?_)
          unfold mapNetworkReferences
          simp [hnetworks]
        · cases hname : m.resolveName .network reference with
          | some name =>
            refine Or.inl ⟨name, hname, decisionSourced ⟨name, m.keptAliases networking reference, none,
              none⟩, ?_, rfl⟩
            unfold service
            rw [value_sourced, serviceOf_eq, ownNetworking_eq hmember hnetworking]
            show _ ∈ m.keptAttachments networking
            unfold keptAttachments ObservationField.effective?
            rw [if_pos hflag, hnetworks]
            refine List.mem_filterMap.mpr ⟨reference, hattaches, ?_⟩
            unfold keptAttachment
            rw [hname]
            rfl
          | none =>
            refine Or.inr (hlost fun service => ?_)
            unfold mapNetworkReferences
            simp only [hnetworks, ne_eq, not_true_eq_false, if_false, hflag, Bool.not_true,
              Bool.false_eq_true]
            refine loss_foldlM hattaches fun state => ?_
            unfold mapNetworkReference
            simp [hname]
    · cases hattaches
  | _ => simp [hnetworks, ObservationField.observed?] at hattaches

theorem networkAlias_accounted {reference : String} {entry : NativeNetworkAlias}
    (h : m.Eligible container.details (.networkAlias reference entry))
    (hdropped : ¬ m.Dropped container.details (.networkAlias reference entry)) :
    m.Accounted container (.networkAlias reference entry) := by
  obtain ⟨networking, references, aliases, hnetworking, hreferences, hmem, -, -, -⟩ := h
  unfold Dropped at hdropped
  rw [not_or, Bool.not_eq_true] at hdropped
  obtain ⟨hmember, hdropped⟩ := hdropped
  refine m.accounted_of_networking hcontainer hmember hnetworking fun service => Or.inr ?_
  unfold subjectOf networkSubject
  simp only [hmember, Bool.false_eq_true, if_false]
  cases hname : m.resolveName .network reference with
  | some name =>
    have hloses : m.source.promotionPolicy.effectiveNamedNetworks = true ∧
        ∃ references, networking.networks.effective? = some references ∧
          ∃ other ∈ references, m.resolveName .network other = some name ∧
            AliasLoss networking other := by
      by_contra hnone
      refine hdropped ⟨name, hname, fun own hown => ?_⟩
      rw [hnetworking] at hown
      cases hown
      exact hnone
    exact m.loss_mapNetworkReferences.mpr hloses
  | none =>
    rw [ObservationField.observed?_eq_some] at hreferences
    unfold mapNetworkReferences
    by_cases horigin : references.origin = .effective
    · cases hflag : m.source.promotionPolicy.effectiveNamedNetworks with
      | false => simp [hreferences, horigin]
      | true =>
        simp only [hreferences, horigin, ne_eq, not_true_eq_false, if_false, Bool.not_true,
          Bool.false_eq_true]
        refine loss_foldlM hmem fun state => ?_
        unfold mapNetworkReference
        simp [hname]
    · simp [hreferences, horigin]

end Kept
/-! ## Dropped parts -/

section Dropped
variable {container : ServiceContainer}

theorem kind_serviceContainer (h : container ∈ m.serviceContainers) :
    container.identity.kind = .container := by
  unfold serviceContainers at h
  obtain ⟨observation, hmem, hcontainer⟩ := List.mem_filterMap.mp h
  rw [← (identity_serviceContainer hcontainer).1]
  exact (mem_observations hmem).1

/-- The outcomes of a part in a gated field are those of the step that maps the field. -/
theorem loss_of_accounted (h : container ∈ m.serviceContainers) {part : Evidence} {name : String}
    {path : List Segment} (hname : name ∈ gatedFields)
    (hsubject : m.subjectOf container.identity container.details part =
      .part container.identity.kind container.identity (.field name :: path))
    (haccounted : m.Accounted container part) :
    ∃ service, Loss (.part container.identity.kind container.identity (.field name :: path))
        (m.mapContainerNetworks (Subject.ofResource container.identity) container.details service) ∨
      Loss (.part container.identity.kind container.identity (.field name :: path))
        (m.mapPortableRestartPolicy (Subject.ofResource container.identity)
          container.details.restartPolicy service) ∨
      Loss (.part container.identity.kind container.identity (.field name :: path))
        (m.mapPortableHealthcheck (Subject.ofResource container.identity)
          container.details.healthCheck service) := by
  obtain ⟨event, hevent, hloses⟩ := haccounted
  rw [hsubject] at hloses
  have hkind := m.kind_serviceContainer h
  have hreported : event ∈ m.serviceReport container := by
    rw [hkind] at hloses
    refine m.serviceReport_of_loses h ?_ ?_ ?_ hevent hloses
    · intro hmem
      have hdisjoint : ∀ other ∈ gatedFields, other ∉ evidenceFields := by decide
      exact hdisjoint name hname hmem
    · rintro rfl
      exact absurd hname (by decide)
    · rintro rfl
      exact absurd hname (by decide)
  obtain ⟨service, hstep⟩ := m.serviceReport_gated hname hreported hloses
  refine ⟨service, ?_⟩
  rcases hstep with hstep | hstep | hstep
  · exact Or.inl ⟨event, hstep, hloses⟩
  · exact Or.inr (Or.inl ⟨event, hstep, hloses⟩)
  · exact Or.inr (Or.inr ⟨event, hstep, hloses⟩)

theorem fields_mapContainerNetworks {identity : ResourceIdentity} {details : ContainerObservation}
    {service : Service} : Fields identity ["networks", "pod_member_networking"]
      (m.mapContainerNetworks (Subject.ofResource identity) details service) := by
  unfold mapContainerNetworks
  split
  · have hunder : Under ((Subject.ofResource identity).field "pod_member_networking")
        (reportNetworkingOnly ((Subject.ofResource identity).field "pod_member_networking")
          details.networking) := under_reportNetworkingOnly (Subject.below_refl _)
    rw [fields_bind]
    exact ⟨hunder.fields (by simp), fields_pure _⟩
  · refine Under.fields ?_ List.mem_cons_self
    dsimp only
    split <;> simp

theorem not_loss_networks {identity : ResourceIdentity} {details : ContainerObservation}
    {service : Service} {kind : ResourceKind} {name : String} {path : List Segment}
    (hname : name ∉ ["networks", "pod_member_networking"]) :
    ¬ Loss (.part kind identity (.field name :: path))
      (m.mapContainerNetworks (Subject.ofResource identity) details service) := by
  rintro ⟨event, hevent, hloses⟩
  exact hname (m.fields_mapContainerNetworks.name_mem hevent hloses)

theorem not_loss_restartPolicy {identity : ResourceIdentity}
    {field : ObservationField NativeRestartPolicyObservation}
    {service : Service} {kind : ResourceKind} {name : String} {path : List Segment}
    (hname : "restart_policy" ≠ name) :
    ¬ Loss (.part kind identity (.field name :: path))
      (m.mapPortableRestartPolicy (Subject.ofResource identity) field service) := by
  rintro ⟨event, hevent, hloses⟩
  exact hname ((under_mapPortableRestartPolicy m (Subject.below_refl _)).field_eq hevent hloses)

theorem not_loss_healthcheck {identity : ResourceIdentity}
    {field : ObservationField NativeHealthCheckObservation}
    {service : Service} {kind : ResourceKind} {name : String} {path : List Segment}
    (hname : "healthcheck" ≠ name) :
    ¬ Loss (.part kind identity (.field name :: path))
      (m.mapPortableHealthcheck (Subject.ofResource identity) field service) := by
  rintro ⟨event, hevent, hloses⟩
  exact hname ((under_mapPortableHealthcheck m (Subject.below_refl _)).field_eq hevent hloses)

theorem quiet_portable {α : Type} {field : ObservationField α} (h : field.quiet = true) :
    field.portable? m.authorizedPortable = none := by
  have hstopped := m.quiet_not_passes h
  unfold Passes at hstopped
  rw [Classical.not_imp, ← portable_isSome_mayPass] at hstopped
  exact Option.not_isSome_iff_eq_none.mp hstopped.2

theorem restartPolicy_dropped (h : container ∈ m.serviceContainers)
    (hdropped : m.Dropped container.details .restartPolicy) :
    ¬ (m.Carries container.details (m.service container).value .restartPolicy ∨
      m.Accounted container .restartPolicy) := by
  have hstopped := m.quiet_portable hdropped
  rintro (hcarries | haccounted)
  · obtain ⟨restart, name, -, -, hpolicy⟩ := hcarries
    unfold service at hpolicy
    rw [value_sourced, serviceOf_eq] at hpolicy
    unfold keptRestartPolicy at hpolicy
    simp [hstopped] at hpolicy
  · obtain ⟨service, hloses | hloses | hloses⟩ :=
      m.loss_of_accounted h (by decide) rfl haccounted
    · exact m.not_loss_networks (by decide) hloses
    · unfold mapPortableRestartPolicy at hloses
      simp [hstopped, quiet_not_gateLoses hdropped] at hloses
    · exact m.not_loss_healthcheck (by decide) hloses

theorem retryLimit_dropped (h : container ∈ m.serviceContainers)
    (hpart : m.Eligible container.details .retryLimit)
    (hdropped : m.Dropped container.details .retryLimit) :
    ¬ (m.Carries container.details (m.service container).value .retryLimit ∨
      m.Accounted container .retryLimit) := by
  obtain ⟨restart, count, hrestart, hcount, -⟩ := hpart
  obtain ⟨flag, hcounted⟩ := m.mayPass_eq_some.mp hcount
  rintro (hcarries | haccounted)
  · obtain ⟨_, limit, -, -, hpolicy⟩ := hcarries
    unfold service at hpolicy
    rw [value_sourced, serviceOf_eq] at hpolicy
    unfold keptRestartPolicy at hpolicy
    simp only [Option.map_eq_some_iff, Option.bind_eq_some_iff] at hpolicy
    obtain ⟨_, ⟨⟨value, promoted⟩, hpassed, ⟨name, named⟩, hname, policy, hpolicy, rfl⟩, hkept⟩ := hpolicy
    rw [value_portableSourced] at hkept
    subst hkept
    have hfailure : name = .onFailure := (policyName_restartPolicyOf hpolicy).symm
    subst hfailure
    exact hdropped ⟨value, m.mayPass_eq_some.mpr ⟨_, hpassed⟩, m.mayPass_eq_some.mpr ⟨_, hname⟩⟩
  · have hsubject : m.subjectOf container.identity container.details .retryLimit =
        .part container.identity.kind container.identity
          [.field "restart_policy", .field "maximum_retry_count"] := rfl
    obtain ⟨service, hloses | hloses | hloses⟩ :=
      m.loss_of_accounted h (by decide) hsubject haccounted
    · exact m.not_loss_networks (by decide) hloses
    · have hfield : ¬ (Subject.part container.identity.kind container.identity
          [.field "restart_policy", .field "maximum_retry_count"]).Below
            ((Subject.ofResource container.identity).field "restart_policy") := by
        simp [Subject.ofResource, Subject.field, Subject.extend, Subject.Below]
      have hname : ¬ (Subject.part container.identity.kind container.identity
          [.field "restart_policy", .field "maximum_retry_count"]).Below
            (((Subject.ofResource container.identity).field "restart_policy").field "name") := by
        simp [Subject.ofResource, Subject.field, Subject.extend, Subject.Below]
      unfold mapPortableRestartPolicy at hloses
      simp only [loss_bind, loss_portableSetting, value_portableSetting, hfield, false_and,
        false_or] at hloses
      cases hpassed : container.details.restartPolicy.portable? m.authorizedPortable with
      | none =>
        rw [hpassed] at hloses
        exact loss_pure hloses
      | some passed =>
        obtain ⟨value, promoted⟩ := passed
        have hvalue : value = restart.value := value_of_portable hrestart hpassed
        subst hvalue
        simp only [hpassed, loss_bind, loss_portableSetting, value_portableSetting, hname, false_and,
          false_or] at hloses
        cases hnamed : restart.value.name.portable? m.authorizedPortable with
        | none =>
          rw [hnamed] at hloses
          exact loss_pure hloses
        | some named =>
          have hpasses := gateLoses_of_portable (Option.isSome_iff_exists.mpr ⟨_, hcounted⟩)
          simp only [hnamed, loss_bind, loss_portableSetting, value_portableSetting, hcounted, hpasses,
            Bool.false_eq_true, and_false, false_or] at hloses
          unfold reportPromotedRestart at hloses
          split at hloses
          · simp [-Subject.below_field, hfield] at hloses
          · split at hloses <;> simp [-Subject.below_field, hfield] at hloses
    · exact m.not_loss_healthcheck (by decide) hloses

/-- A setting of a health check that does not pass has no outcome of its own. -/
theorem healthSetting_dropped (h : container ∈ m.serviceContainers) {part : Evidence} {name : String}
    (hsubject : m.subjectOf container.identity container.details part =
      .part container.identity.kind container.identity [.field "healthcheck", .field name])
    (hcarries : m.Carries container.details (m.service container).value part →
      (m.service container).value.healthcheck ≠ none)
    (hdropped : (m.mayPass container.details.healthCheck).isSome = false) :
    ¬ (m.Carries container.details (m.service container).value part ∨
      m.Accounted container part) := by
  have hstopped : container.details.healthCheck.portable? m.authorizedPortable = none := by
    rw [← portable_isSome_mayPass] at hdropped
    exact Option.isSome_eq_false_iff.mp hdropped |> Option.isNone_iff_eq_none.mp
  rintro (hkept | haccounted)
  · refine hcarries hkept ?_
    unfold service
    rw [value_sourced, serviceOf_eq]
    unfold keptHealthcheck
    rw [hstopped]
    rfl
  · have hfield : ¬ (Subject.part container.identity.kind container.identity
        [.field "healthcheck", .field name]).Below
          ((Subject.ofResource container.identity).field "healthcheck") := by
      simp [Subject.ofResource, Subject.field, Subject.extend, Subject.Below]
    obtain ⟨service, hloses | hloses | hloses⟩ :=
      m.loss_of_accounted h (by decide) hsubject haccounted
    · exact m.not_loss_networks (by decide) hloses
    · exact m.not_loss_restartPolicy (by decide) hloses
    · unfold mapPortableHealthcheck at hloses
      simp [-Subject.below_field, hstopped, hfield] at hloses

/-! ## Dropped rows -/

theorem not_below_of_path {kind : ResourceKind} {identity : ResourceIdentity}
    {path other : List Segment} (h : ¬ path <+: other) :
    ¬ (Subject.part kind identity path).Below (.part kind identity other) :=
  fun hbelow => h hbelow.2.2

/-- The fields of the networking that are reported as never becoming intent. -/
theorem not_loss_networkingRemainders {kind : ResourceKind} {identity : ResourceIdentity}
    {name : String} {path : List Segment} {networking : NativeNetworkingObservation}
    (hpath : ∀ remainder ∈ ["create_net_ns", "host_network", "host_entries", "network_options",
      "no_manage_resolv_conf", "no_manage_hosts", "static_ip", "static_mac"],
        ¬ path <+: [.field name, .field remainder]) :
    ¬ Loss (.part kind identity path)
      (reportNetworkingRemainders (.part kind identity [.field name]) networking true) := by
  have hfield {remainder : String} (hmem : remainder ∈ ["create_net_ns", "host_network",
      "host_entries", "network_options", "no_manage_resolv_conf", "no_manage_hosts", "static_ip",
      "static_mac"]) : ¬ (Subject.part kind identity path).Below
        ((Subject.part kind identity [.field name]).field remainder) :=
    not_below_of_path (hpath remainder hmem)
  unfold reportNetworkingRemainders
  simp [-Subject.below_field, hfield]

theorem not_loss_networkReferences {whole subject : Subject} {networking : NativeNetworkingObservation}
    {service : Service} (hsubject : ¬ whole.Below subject)
    (haliases : ∀ name, ¬ whole.Below ((subject.entry name).field "aliases")) :
    ¬ Loss whole (m.mapNetworkReferences subject networking service) := by
  unfold mapNetworkReferences
  cases networking.networks with
  | observed observation =>
    by_cases horigin : observation.origin = .effective
    · cases hflag : m.source.promotionPolicy.effectiveNamedNetworks with
      | false => simp [horigin, hsubject]
      | true =>
        simp only [horigin, ne_eq, not_true_eq_false, if_false, Bool.not_true, Bool.false_eq_true]
        intro hloses
        obtain ⟨reference, -, state, hloses⟩ := exists_of_loss_foldlM hloses
        unfold mapNetworkReference at hloses
        cases hname : m.resolveName .network reference with
        | none => simp [hname, hsubject] at hloses
        | some name =>
          simp only [hname, loss_bind, loss_mapEffectiveNetworkAliases, loss_reconstructed, loss_pure,
            or_false] at hloses
          exact haliases name.asStr hloses.1
    · simp [horigin, hsubject]
  | _ => simp [hsubject]

/-- A row of the port bindings is lost by its own step only. -/
theorem loss_networks_of_row {service : Service} {position : Nat}
    {binding : NativePortBindingObservation} {networking : NativeNetworkingObservation}
    {bindings : List NativePortBindingObservation}
    (hmember : container.details.podMembership.isObserved = false)
    (hnetworking : networkingOf container.details = some networking)
    (hpasses : m.mayPass networking.portBindings = some bindings)
    (hrow : bindings[position]? = some binding)
    (hloses : Loss (.part container.identity.kind container.identity
        [.field "networks", .field "port_bindings", .index position])
      (m.mapContainerNetworks (Subject.ofResource container.identity) container.details service)) :
    ∃ promoted rows, Loss (.part container.identity.kind container.identity
        [.field "networks", .field "port_bindings", .index position])
      (m.mapPortBinding (.part container.identity.kind container.identity
        [.field "networks", .field "port_bindings"]) promoted rows (binding, position)) := by
  obtain ⟨origin, hobserved⟩ := observed_of_networkingOf hnetworking
  obtain ⟨promoted, hpassed⟩ := m.mayPass_eq_some.mp hpasses
  unfold mapContainerNetworks at hloses
  simp only [hmember, Bool.false_eq_true, if_false, hobserved, loss_bind] at hloses
  change _ ∨ Loss _ (reportNetworkingRemainders (.part container.identity.kind container.identity
    [.field "networks"]) _ _) ∨ _ at hloses
  have hdns {name : String} (hname : name ≠ "port_bindings") {α : Type}
      {field : ObservationField (List α)} {f : α → String} {reason summary : String} :
      ¬ Loss (.part container.identity.kind container.identity
          [.field "networks", .field "port_bindings", .index position])
        (m.mapDnsEntries field (((Subject.ofResource container.identity).field "networks").field name)
          f reason summary) := by
    refine Under.not_loss (under_mapDnsEntries m (Subject.below_refl _)) ⟨?_, ?_⟩ <;>
      simp [Subject.ofResource, Subject.field, Subject.extend, Subject.Below, hname, hname.symm]
  rcases hloses with hloses | hloses | hloses
  · unfold mapPortableNetworking at hloses
    simp only [loss_bind, loss_pure, or_false] at hloses
    rcases hloses with hloses | hloses | hloses | hloses
    · unfold mapPortablePorts at hloses
      have hcollection : ¬ (Subject.part container.identity.kind container.identity
          [.field "networks", .field "port_bindings", .index position]).Below
            (((Subject.ofResource container.identity).field "networks").field "port_bindings") := by
        simp [Subject.ofResource, Subject.field, Subject.extend, Subject.Below]
      simp only [loss_bind, loss_portableSetting, hcollection, false_and, value_portableSetting, hpassed,
        false_or, loss_pure, or_false, loss_onlyIf] at hloses
      rcases hloses with hloses | ⟨-, hloses⟩
      · obtain ⟨⟨other, index⟩, hmem, rows, hloses⟩ := exists_of_loss_foldlM hloses
        have hindex : index = position := by
          by_contra hother
          refine Under.not_loss (under_mapPortBinding m (Subject.below_refl _)) ⟨?_, ?_⟩ hloses <;>
            simp [Subject.ofResource, Subject.field, Subject.index, Subject.extend, Subject.Below, hother,
              Ne.symm hother]
        subst hindex
        have hbinding := List.mem_zipIdx_iff_getElem?.mp hmem
        rw [hrow] at hbinding
        cases hbinding
        exact ⟨promoted, rows, hloses⟩
      · unfold reportPromotedPorts at hloses
        split at hloses <;> simp [-Subject.below_field, hcollection] at hloses
    · exact (hdns (by decide) hloses).elim
    · exact (hdns (by decide) hloses).elim
    · exact (hdns (by decide) hloses).elim
  · refine (not_loss_networkingRemainders ?_ hloses).elim
    intro remainder hremainder hleading
    simpa using hleading.length_le
  · refine (m.not_loss_networkReferences (not_below_of_path ?_) (fun name => not_below_of_path ?_)
      hloses).elim
    · intro hleading
      simpa using hleading.length_le
    · simp

theorem portBinding_dropped (h : container ∈ m.serviceContainers) {position : Nat}
    {binding : NativePortBindingObservation}
    (hpart : m.Eligible container.details (.portBinding position binding))
    (hdropped : m.Dropped container.details (.portBinding position binding)) :
    ¬ (m.Carries container.details (m.service container).value (.portBinding position binding) ∨
      m.Accounted container (.portBinding position binding)) := by
  obtain ⟨networking, bindings, hnetworking, hpasses, hrow⟩ := hpart
  obtain ⟨hmember, hstopped, hnone⟩ := hdropped
  rintro (hcarries | haccounted)
  · obtain ⟨other, hother, hstands⟩ := (m.carries_portBinding hmember hnetworking hpasses).mp hcarries
    exact hnone networking bindings hnetworking hpasses other hother hstands
  · have hsubject : m.subjectOf container.identity container.details (.portBinding position binding) =
        .part container.identity.kind container.identity
          (.field "networks" :: [.field "port_bindings", .index position]) := by
      simp [subjectOf, networkSubject, hmember, Subject.ofResource, Subject.field, Subject.index,
        Subject.extend]
    obtain ⟨service, hloses | hloses | hloses⟩ :=
      m.loss_of_accounted h (by decide) hsubject haccounted
    · obtain ⟨promoted, rows, hloses⟩ :=
        m.loss_networks_of_row hmember hnetworking hpasses hrow hloses
      exact m.not_loss_mapPortBinding hstopped hloses
    · exact m.not_loss_restartPolicy (by decide) hloses
    · exact m.not_loss_healthcheck (by decide) hloses

/-- The aliases of a pod member are reported nowhere. -/
theorem not_loss_memberAliases {identity : ResourceIdentity} {name : String}
    {field : ObservationField NativeNetworkingObservation} :
    ¬ Loss (.part identity.kind identity
        [.field "pod_member_networking", .entry name, .field "aliases"])
      (reportNetworkingOnly ((Subject.ofResource identity).field "pod_member_networking") field) := by
  unfold reportNetworkingOnly reportNetworkingRemainders reportPortableFields reportNameService
    reportPortBindingHosts
  cases field.observed? with
  | none => simp [Subject.ofResource, Subject.field, Subject.extend, Subject.Below]
  | some networking =>
    cases hbindings : networking.value.portBindings.observed? <;>
      simp [hbindings, Subject.ofResource, Subject.field, Subject.index, Subject.extend, Subject.Below]

/-- The aliases of a network are lost by the references to it only. -/
theorem loss_networks_of_aliases {service : Service} {name : Identifier}
    {networking : NativeNetworkingObservation}
    (hmember : container.details.podMembership.isObserved = false)
    (hnetworking : networkingOf container.details = some networking)
    (hloses : Loss (aliasSubject container.identity name)
      (m.mapContainerNetworks (Subject.ofResource container.identity) container.details service)) :
    m.source.promotionPolicy.effectiveNamedNetworks = true ∧
      ∃ references, networking.networks.effective? = some references ∧ ∃ other ∈ references,
        m.resolveName .network other = some name ∧ AliasLoss networking other := by
  obtain ⟨origin, hobserved⟩ := observed_of_networkingOf hnetworking
  unfold mapContainerNetworks at hloses
  simp only [hmember, Bool.false_eq_true, if_false, hobserved, loss_bind] at hloses
  have hapart {part : String} : (aliasSubject container.identity name).Apart
      (((Subject.ofResource container.identity).field "networks").field part) := by
    constructor <;>
      simp [aliasSubject, Subject.ofResource, Subject.field, Subject.entry, Subject.extend,
        Subject.Below]
  rcases hloses with hloses | hloses | hloses
  · unfold mapPortableNetworking at hloses
    simp only [loss_bind, loss_pure, or_false] at hloses
    rcases hloses with hloses | hloses | hloses | hloses
    · exact (Under.not_loss (under_mapPortablePorts m (Subject.below_refl _)) hapart hloses).elim
    · exact (Under.not_loss (under_mapDnsEntries m (Subject.below_refl _)) hapart hloses).elim
    · exact (Under.not_loss (under_mapDnsEntries m (Subject.below_refl _)) hapart hloses).elim
    · exact (Under.not_loss (under_mapDnsEntries m (Subject.below_refl _)) hapart hloses).elim
  · refine (not_loss_networkingRemainders ?_ hloses).elim
    intro remainder hremainder hleading
    simpa [Subject.ofResource] using hleading.length_le
  · exact m.loss_mapNetworkReferences.mp hloses

/-- Aliases that are kept are reported as promoted. -/
theorem aliasLoss_of_kept {networking : NativeNetworkingObservation} {reference : String}
    {kept : Sourced ProtectedString} (h : kept ∈ m.keptAliases networking reference) :
    AliasLoss networking reference := by
  unfold keptAliases at h
  unfold AliasLoss
  cases hattachments : networking.networkAttachments.effective? with
  | none => simp [hattachments] at h
  | some attachments =>
    simp only [hattachments, Option.getD_some] at h ⊢
    cases hfound : attachments.find? fun attachment => attachment.network = reference with
    | none => trivial
    | some attachment =>
      simp only [hfound, Option.bind_some] at h ⊢
      cases haliases : attachment.aliases.effective? with
      | none => simp [haliases] at h
      | some aliases =>
        simp only [haliases] at h ⊢
        split at h
        · obtain ⟨spelling, hspelling, -⟩ := List.mem_map.mp h
          obtain ⟨entry, hentry, hkind, -⟩ := mem_aliasCandidates.mp hspelling
          exact ⟨entry, hentry, by rw [hkind]; exact NativeNetworkAliasKind.noConfusion⟩
        · cases h

theorem aliases_of_carries {reference : String} {entry : NativeNetworkAlias} {name : Identifier}
    (hname : m.resolveName .network reference = some name)
    (hcarries : m.Carries container.details (m.service container).value (.networkAlias reference entry)) :
    container.details.podMembership.isObserved = false ∧ ∃ networking,
      networkingOf container.details = some networking ∧
        m.source.promotionPolicy.effectiveNamedNetworks = true ∧
          ∃ references, networking.networks.effective? = some references ∧ ∃ other ∈ references,
            m.resolveName .network other = some name ∧ AliasLoss networking other := by
  obtain ⟨attached, hattached, network, hnetwork, hsame, kept, hkept, -⟩ := hcarries
  rw [hname] at hattached
  cases hattached
  unfold service at hnetwork
  rw [value_sourced, serviceOf_eq] at hnetwork
  unfold ownNetworking at hnetwork
  cases hmember : container.details.podMembership.isObserved with
  | true => simp [hmember] at hnetwork
  | false =>
    refine ⟨rfl, ?_⟩
    simp only [hmember, Bool.false_eq_true, if_false] at hnetwork
    cases hnetworking : networkingOf container.details with
    | none =>
      unfold networkingOf at hnetworking
      simp [hnetworking] at hnetwork
    | some networking =>
      unfold networkingOf at hnetworking
      simp only [hnetworking, Option.elim_some] at hnetwork
      unfold keptAttachments at hnetwork
      cases hflag : m.source.promotionPolicy.effectiveNamedNetworks with
      | false => simp [hflag] at hnetwork
      | true =>
        rw [if_pos hflag, List.mem_filterMap] at hnetwork
        obtain ⟨other, hother, hattachment⟩ := hnetwork
        cases hreferences : networking.networks.effective? with
        | none => simp [hreferences] at hother
        | some references =>
          rw [hreferences, Option.getD_some] at hother
          unfold keptAttachment at hattachment
          rw [Option.map_eq_some_iff] at hattachment
          obtain ⟨target, htarget, rfl⟩ := hattachment
          rw [value_decisionSourced] at hsame hkept
          subst hsame
          exact ⟨networking, rfl, rfl, references, hreferences, other, hother, htarget,
            m.aliasLoss_of_kept hkept⟩

theorem networkAlias_dropped (h : container ∈ m.serviceContainers) {reference : String}
    {entry : NativeNetworkAlias} (hpart : m.Eligible container.details (.networkAlias reference entry))
    (hdropped : m.Dropped container.details (.networkAlias reference entry)) :
    ¬ (m.Carries container.details (m.service container).value (.networkAlias reference entry) ∨
      m.Accounted container (.networkAlias reference entry)) := by
  obtain ⟨networking, references, aliases, hnetworking, -⟩ := hpart
  rintro (hcarries | haccounted)
  · obtain ⟨name, hname, -⟩ := id hcarries
    obtain ⟨hmember, own, hown, hflag, hreferences⟩ := m.aliases_of_carries hname hcarries
    rcases hdropped with hdropped | ⟨other, hother, hdropped⟩
    · rw [hmember] at hdropped
      cases hdropped
    · rw [hname] at hother
      cases hother
      exact hdropped own hown ⟨hflag, hreferences⟩
  · cases hmember : container.details.podMembership.isObserved with
    | true =>
      have hsubject : ∃ name, m.subjectOf container.identity container.details
          (.networkAlias reference entry) = .part container.identity.kind container.identity
            (.field "pod_member_networking" :: [.entry name, .field "aliases"]) := by
        unfold subjectOf networkSubject
        simp only [hmember, if_true]
        cases m.resolveName .network reference with
        | none => exact ⟨reference, rfl⟩
        | some name => exact ⟨name.asStr, rfl⟩
      obtain ⟨name, hsubject⟩ := hsubject
      obtain ⟨service, hloses | hloses | hloses⟩ :=
        m.loss_of_accounted h (by decide) hsubject haccounted
      · unfold mapContainerNetworks at hloses
        simp only [hmember, if_true, loss_bind, loss_pure, or_false] at hloses
        exact not_loss_memberAliases hloses
      · exact m.not_loss_restartPolicy (by decide) hloses
      · exact m.not_loss_healthcheck (by decide) hloses
    | false =>
      unfold Dropped at hdropped
      rw [hmember] at hdropped
      simp only [Bool.false_eq_true, false_or] at hdropped
      obtain ⟨name, hname, hdropped⟩ := hdropped
      have hsubject : m.subjectOf container.identity container.details
          (.networkAlias reference entry) = .part container.identity.kind container.identity
            (.field "networks" :: [.entry name.asStr, .field "aliases"]) := by
        unfold subjectOf networkSubject
        simp only [hmember, hname, Bool.false_eq_true, if_false]
        rfl
      obtain ⟨service, hloses | hloses | hloses⟩ :=
        m.loss_of_accounted h (by decide) hsubject haccounted
      · exact hdropped networking hnetworking (m.loss_networks_of_aliases hmember hnetworking hloses)
      · exact m.not_loss_restartPolicy (by decide) hloses
      · exact m.not_loss_healthcheck (by decide) hloses

end Dropped

/-! ## Every part -/

/-- A part that may become intent is in the service or accounted for, unless it is dropped. -/
theorem carried_or_accounted_iff {container : ServiceContainer} (h : container ∈ m.serviceContainers)
    {part : Evidence} (hpart : m.Eligible container.details part) :
    (m.Carries container.details (m.service container).value part ∨ m.Accounted container part) ↔
      ¬ m.Dropped container.details part := by
  have hkept (hkept : m.Carries container.details (m.service container).value part ∨
      m.Accounted container part) (hnever : ¬ m.Dropped container.details part) :
      (m.Carries container.details (m.service container).value part ∨ m.Accounted container part) ↔
        ¬ m.Dropped container.details part := ⟨fun _ => hnever, fun _ => hkept⟩
  have hhealth (hdropped : ¬ (m.mayPass container.details.healthCheck).isSome = false) :
      (m.mayPass container.details.healthCheck).isSome = true := Bool.not_eq_false _ ▸ hdropped
  cases part with
  | command => exact hkept (Or.inl (m.command_kept hpart)) id
  | entrypoint => exact hkept (Or.inl (m.entrypoint_kept hpart)) id
  | user => exact hkept (Or.inl (m.user_kept hpart)) id
  | workingDirectory => exact hkept (Or.inl (m.workingDirectory_kept hpart)) id
  | hostname => exact hkept (m.hostname_kept h hpart) id
  | label name value => exact hkept (m.label_kept h hpart) id
  | environmentEntry entry => exact hkept (m.environmentEntry_kept h hpart) id
  | dnsServer address => exact hkept (m.dnsServer_kept h hpart) id
  | dnsSearch domain => exact hkept (m.dnsSearch_kept h hpart) id
  | dnsOption option => exact hkept (m.dnsOption_kept h hpart) id
  | networkReference reference => exact hkept (m.networkReference_kept h hpart) id
  | dependency reference => exact hkept (m.dependency_kept h hpart) id
  | restartPolicy =>
    constructor
    · exact fun hkept hdropped => m.restartPolicy_dropped h hdropped hkept
    · exact fun hdropped => m.restartPolicy_kept h hpart (Bool.not_eq_true _ ▸ hdropped)
  | retryLimit =>
    constructor
    · exact fun hkept hdropped => m.retryLimit_dropped h hpart hdropped hkept
    · exact fun hdropped => Or.inl (m.retryLimit_kept hpart (not_not.mp hdropped))
  | healthCommand =>
    constructor
    · refine fun hkept hdropped => m.healthSetting_dropped h rfl ?_ hdropped hkept
      rintro ⟨_, _, healthcheck, _, _, hcheck, _⟩
      rw [hcheck]
      exact Option.some_ne_none _
    · exact fun hdropped => m.healthCommand_kept h hpart (hhealth hdropped)
  | healthDuration setting =>
    constructor
    · refine fun hkept hdropped => m.healthSetting_dropped h rfl ?_ hdropped hkept
      rintro ⟨_, _, healthcheck, _, _, hcheck, _⟩
      rw [hcheck]
      exact Option.some_ne_none _
    · exact fun hdropped => m.healthDuration_kept h hpart (hhealth hdropped)
  | healthRetries =>
    constructor
    · refine fun hkept hdropped => m.healthSetting_dropped h rfl ?_ hdropped hkept
      rintro ⟨_, _, healthcheck, _, _, hcheck, _⟩
      rw [hcheck]
      exact Option.some_ne_none _
    · exact fun hdropped => m.healthRetries_kept h hpart (hhealth hdropped)
  | portBinding position binding =>
    constructor
    · exact fun hkept hdropped => m.portBinding_dropped h hpart hdropped hkept
    · exact m.portBinding_kept h hpart
  | networkAlias reference entry =>
    constructor
    · exact fun hkept hdropped => m.networkAlias_dropped h hpart hdropped hkept
    · exact fun hdropped => Or.inr (m.networkAlias_accounted h hpart hdropped)

/-- An import hides no evidence exactly when no added service has a dropped part. -/
theorem hidesNothing_iff : m.HidesNothing ↔ ∀ container ∈ m.serviceContainers,
    m.service container ∈ m.application.services → ∀ part, m.Eligible container.details part →
      ¬ m.Dropped container.details part := by
  constructor
  · intro h container hcontainer hadded part hpart
    exact (m.carried_or_accounted_iff hcontainer hpart).mp (h container hcontainer hadded part hpart)
  · intro h container hcontainer hadded part hpart
    exact (m.carried_or_accounted_iff hcontainer hpart).mpr (h container hcontainer hadded part hpart)

end Mapping

/-! ## A published port without a host port -/

def runtimePort : NativePortBindingObservation :=
  ⟨80, .tcp, .absent, .of .runtimeAssigned 49153⟩

def runtimeNetworking : NativeNetworkingObservation where
  portBindings := .of .configured [runtimePort]
  dnsServers := .absent
  dnsSearch := .absent
  dnsOptions := .absent
  networks := .absent
  networkAttachments := .absent
  createNetNs := .absent
  hostNetwork := .absent
  hostEntries := .absent
  networkOptions := .absent
  noManageResolvConf := .absent
  noManageHosts := .absent
  staticIp := .absent
  staticMac := .absent

def runtimePortDetails : ContainerObservation :=
  { ContainerObservation.unobserved with networking := .of .effective runtimeNetworking }

/-- A container with one configured port binding, whose host port was assigned at run time. -/
def runtimePortSource : PodmanSource :=
  completeSource [(⟨.container, "c1", some "web"⟩, .container runtimePortDetails)] .conservative

/-- The published port is neither in the service nor reported as lost. -/
theorem runtimePort_hidden : ¬ (Mapping.mk NativeLibrary.plain runtimePortSource).HidesNothing := by
  intro h
  have hclean : (Mapping.mk NativeLibrary.plain runtimePortSource).Clean := by
    unfold Mapping.Clean
    decide +kernel
  have hweb : ∃ container ∈ (Mapping.mk NativeLibrary.plain runtimePortSource).serviceContainers,
      container.details = runtimePortDetails := by
    decide +kernel
  obtain ⟨container, hcontainer, hdetails⟩ := hweb
  have hadded := List.mem_map_of_mem
    (f := (Mapping.mk NativeLibrary.plain runtimePortSource).service) hcontainer
  rw [← (Mapping.declares_of_clean _ hclean).services] at hadded
  have hpart : (Mapping.mk NativeLibrary.plain runtimePortSource).Eligible container.details
      (.portBinding 0 runtimePort) := by
    rw [hdetails]
    exact ⟨runtimeNetworking, [runtimePort], rfl, rfl, rfl⟩
  have hkept := h container hcontainer hadded _ hpart
  refine (Mapping.carried_or_accounted_iff _ hcontainer hpart).mp hkept ?_
  rw [hdetails]
  refine ⟨rfl, Or.inl rfl, fun networking bindings hnetworking hbindings other hother hstands => ?_⟩
  cases hnetworking
  cases hbindings
  rw [List.mem_singleton] at hother
  subst hother
  exact Mapping.quiet_not_passes _ rfl hstands.hostPort

end Boxferry.Podman.Import
