import Mathlib.Data.List.Induction
import Boxferry.Podman.Import.Services

/-! # Where decisions are recorded

Every step that maps a resource, a field or a row records its decisions for that
subject or for parts below it. A loss of one part of one container is therefore
found in the report of the step that maps this part. -/
namespace Boxferry.Podman.Import
open Engine Model Mapping
set_option autoImplicit false

/-! ## Parts of a subject -/

namespace Subject
variable {whole part : Subject}

theorem below_iff : whole.Below part ↔ whole = part ∨ ∃ kind identity path more,
    whole = .part kind identity path ∧ part = .part kind identity (path ++ more) := by
  cases whole with
  | part kind identity path =>
    cases part with
    | part otherKind otherIdentity otherPath =>
      constructor
      · rintro ⟨rfl, rfl, more, rfl⟩
        exact Or.inr ⟨kind, identity, path, more, rfl, rfl⟩
      · rintro (hsame | ⟨_, _, _, more, hwhole, hpart⟩)
        · cases hsame
          exact ⟨rfl, rfl, List.prefix_rfl⟩
        · cases hwhole
          cases hpart
          exact ⟨rfl, rfl, List.prefix_append _ _⟩
    | _ => simp [Below]
  | _ => cases part <;> simp [Below]

@[simp] theorem below_refl (whole : Subject) : whole.Below whole := below_iff.mpr (Or.inl rfl)

theorem Below.trans {middle : Subject} (h : whole.Below middle) (hpart : middle.Below part) :
    whole.Below part := by
  rcases below_iff.mp h with rfl | ⟨kind, identity, path, more, rfl, rfl⟩
  · exact hpart
  · rcases below_iff.mp hpart with rfl | ⟨_, _, _, rest, hmiddle, rfl⟩
    · exact h
    · cases hmiddle
      exact below_iff.mpr (Or.inr ⟨kind, identity, path, more ++ rest, rfl, by
        rw [List.append_assoc]⟩)

theorem below_extend {segment : Segment} :
    whole.Below (part.extend segment) ↔ whole.Below part ∨ whole = part.extend segment := by
  constructor
  · intro h
    rcases below_iff.mp h with hsame | ⟨kind, identity, path, more, rfl, hpart⟩
    · exact Or.inr hsame
    · cases part with
      | part partKind partIdentity partPath =>
        cases hlast : more using List.reverseRecOn with
        | nil =>
          rw [hlast, List.append_nil] at hpart
          exact Or.inr hpart.symm
        | append_singleton more last =>
          rw [hlast, ← List.append_assoc] at hpart
          injection hpart with hkind hidentity hpath
          obtain ⟨hpath, -⟩ := List.append_inj' hpath rfl
          left
          rw [hkind, hidentity, hpath]
          exact ⟨rfl, rfl, List.prefix_append _ _⟩
      | _ => cases hpart
  · rintro (h | rfl)
    · refine h.trans ?_
      cases part with
      | part kind identity path => exact ⟨rfl, rfl, List.prefix_append _ _⟩
      | _ => rfl
    · exact below_refl _

@[simp] theorem below_field {name : String} :
    whole.Below (part.field name) ↔ whole.Below part ∨ whole = part.field name := below_extend

@[simp] theorem below_entry {name : String} :
    whole.Below (part.entry name) ↔ whole.Below part ∨ whole = part.entry name := below_extend

@[simp] theorem below_index {position : Nat} :
    whole.Below (part.index position) ↔ whole.Below part ∨ whole = part.index position :=
  below_extend

end Subject

/-! ## Steps about a subject -/

/-- Everything a step decides is decided about the subject or a part of it. -/
def Under {α : Type} (subject : Subject) (steps : Imported α) : Prop :=
  ∀ event ∈ steps.log, ∀ decision ∈ event.decisions, subject.Below decision.1

section Under
variable {α β : Type} {whole subject : Subject} {summary : String}

@[simp] theorem under_pure (result : α) : Under whole (pure result : Imported α) :=
  fun _ hevent => absurd hevent List.not_mem_nil

@[simp] theorem under_bind {first : Imported α} {next : α → Imported β} :
    Under whole (first >>= next) ↔ Under whole first ∧ Under whole (next first.value) := by
  unfold Under
  rw [Reports.log_bind, List.forall_mem_append]

theorem under_report {event : Event} {kind : ConversionKind} (h : event.decisions = [(subject, kind)])
    (hsubject : whole.Below subject) : Under whole (Reports.report event : Imported Unit) := by
  intro entry hentry decision hdecision
  rw [List.mem_singleton.mp hentry, h] at hdecision
  rw [List.mem_singleton.mp hdecision]
  exact hsubject

@[simp] theorem under_onlyIf {condition : Bool} {steps : Imported PUnit} :
    Under whole (Reports.onlyIf condition steps) ↔ (condition = true → Under whole steps) := by
  cases condition <;> simp

@[simp] theorem under_forM {ι : Type} {items : List ι} {step : ι → Imported PUnit}
    (h : ∀ item ∈ items, Under whole (step item)) : Under whole (forM items step) := by
  intro event hevent
  change event ∈ (items.forM step).log at hevent
  rw [Reports.log_forM, List.mem_flatMap] at hevent
  obtain ⟨item, hitem, hevent⟩ := hevent
  exact h item hitem event hevent

@[simp] theorem under_foldlM {ι : Type} {items : List ι} {step : α → ι → Imported α} {start : α}
    (h : ∀ state, ∀ item ∈ items, Under whole (step state item)) :
    Under whole (items.foldlM step start) := by
  intro event hevent
  obtain ⟨item, hitem, state, hevent⟩ := Reports.of_mem_log_foldlM hevent
  exact h state item hitem event hevent

variable (h : whole.Below subject)
include h

@[simp] theorem under_exact : Under whole (exact subject) := under_report rfl h

@[simp] theorem under_evidenceOnly : Under whole (evidenceOnly subject) := under_exact h

@[simp] theorem under_unsupported : Under whole (unsupported subject summary) :=
  under_report rfl h

@[simp] theorem under_unsupportedWithOrigin {origin : ObservationOrigin} :
    Under whole (unsupportedWithOrigin subject summary origin) :=
  under_report rfl h

@[simp] theorem under_secretIncomplete : Under whole (secretIncomplete subject summary) :=
  under_report rfl h

@[simp] theorem under_invalid : Under whole (invalid subject summary) :=
  under_report rfl h

@[simp] theorem under_identityConflict : Under whole (identityConflict subject summary) :=
  under_report rfl h

@[simp] theorem under_reconstructed : Under whole (reconstructed subject summary) :=
  under_report rfl h

@[simp] theorem under_approximateWithFlag {flag : String} :
    Under whole (approximateWithFlag subject summary flag) :=
  under_report rfl h

@[simp] theorem under_promotionRequired : Under whole (promotionRequired subject summary) :=
  under_report rfl h

@[simp] theorem under_promotionRequiredWithFlag {flag : String} :
    Under whole (promotionRequiredWithFlag subject summary flag) :=
  under_report rfl h

@[simp] theorem under_modelError {error : ModelError} : Under whole (modelError subject error) := by
  unfold modelError
  split <;> simp [h]

@[simp] theorem under_reportState {field : ObservationField α} :
    Under whole (reportState field subject) := by
  unfold reportState reportOrigin
  split <;> try split
  all_goals simp [h]

@[simp] theorem under_observationOnly {field : ObservationField α} :
    Under whole (observationOnly subject field summary) := by
  unfold observationOnly
  split
  · split
    · exact under_unsupportedWithOrigin h
    all_goals simp [h]
  · exact under_reportState h

@[simp] theorem under_configured {field : ObservationField α} :
    Under whole (configured field subject) := by
  unfold configured
  simp [h]

@[simp] theorem under_portableSetting {field : ObservationField α} {authorized : Bool} :
    Under whole (portableSetting field subject authorized summary) := by
  unfold portableSetting
  split
  · split
    · simp [h]
    · split <;> simp [h]
    all_goals simp [h]
  · simp [h]

@[simp] theorem under_configuredUnless {field : ObservationField α} {reject : α → Bool} :
    Under whole (configuredUnless field subject reject summary) := by
  unfold configuredUnless
  split
  · split
    · rw [under_bind]
      exact ⟨under_report rfl h, under_pure _⟩
    · exact under_configured h
  · exact under_configured h

@[simp] theorem under_identifier {identity : ResourceIdentity} :
    Under whole (identifier subject identity) := by
  unfold identifier
  split <;> simp [h]

@[simp] theorem under_kindsDisagree : Under whole (kindsDisagree subject) := under_invalid h

@[simp] theorem under_requireComplete {header : ResourceHeader} :
    Under whole (requireComplete header subject) := by
  unfold requireComplete
  split
  · exact under_pure _
  · split
    · exact under_pure _
    · rw [under_bind]
      exact ⟨under_report rfl h, under_pure _⟩

@[simp] theorem under_settle {application : Application} {result : Except ModelError Application} :
    Under whole (settle subject application result) := by
  unfold settle
  split <;> simp [h]

end Under

/-! ## Networks, volumes, secrets and images -/

section Resources
variable (m : Mapping) {whole subject : Subject} (h : whole.Below subject)
include h

@[simp] theorem under_mapLabel {kept : List (Sourced MetadataLabel)} {label : String × String} :
    Under whole (mapLabel subject kept label) := by
  unfold mapLabel
  split
  · exact under_pure _
  · split <;> simp [h]

omit h in
@[simp] theorem under_mapLabels {field : ObservationField (List (String × String))}
    (h : whole.Below (subject.field "labels")) : Under whole (mapLabels subject field) := by
  unfold mapLabels
  generalize subject.field "labels" = part at h ⊢
  rw [under_bind]
  refine ⟨under_configured h, ?_⟩
  split <;> simp [h]

@[simp] theorem under_mapNetworkInternal {field : ObservationField Bool} {network : Network} :
    Under whole (m.mapNetworkInternal subject field network) := by
  unfold mapNetworkInternal
  rw [under_bind]
  refine ⟨by simp [h], ?_⟩
  split <;> simp [h]

@[simp] theorem under_setIpRange {config : NetworkIpamConfig} {range : Sourced ProtectedString} :
    Under whole (setIpRange subject config range) := by
  unfold setIpRange
  split <;> simp [h]

@[simp] theorem under_setGateway {config : NetworkIpamConfig} {gateway : Sourced ProtectedString} :
    Under whole (setGateway subject config gateway) := by
  unfold setGateway
  split <;> simp [h]

@[simp] theorem under_mapNetworkGateway {field : ObservationField NativeIpAddress} {promoted : Bool}
    {config : NetworkIpamConfig} : Under whole (m.mapNetworkGateway subject field promoted config) := by
  unfold mapNetworkGateway
  rw [under_bind]
  refine ⟨by simp [h], ?_⟩
  split <;> simp [h]

@[simp] theorem under_mapNetworkLeaseRange {field : ObservationField NativeNetworkLeaseRange}
    {promoted : Bool} {config : NetworkIpamConfig} :
    Under whole (m.mapNetworkLeaseRange subject field promoted config) := by
  unfold mapNetworkLeaseRange
  rw [under_bind]
  refine ⟨by simp [h], ?_⟩
  split
  · exact under_pure _
  · rw [under_bind]
    refine ⟨by simp [h], ?_⟩
    split
    · exact under_pure _
    · rw [under_bind]
      refine ⟨by simp [h], ?_⟩
      split
      · exact under_pure _
      · split <;> simp [h]

@[simp] theorem under_mapNetworkSubnet {promoted : Bool} {rows : IpamRows}
    {item : NativeNetworkSubnetObservation × Nat} :
    Under whole (m.mapNetworkSubnet subject promoted rows item) := by
  unfold mapNetworkSubnet
  rw [under_bind]
  refine ⟨by simp [h], ?_⟩
  split
  · exact under_pure _
  · split <;> simp [h]

@[simp] theorem under_mapNetworkIpam {field : ObservationField (List NativeNetworkSubnetObservation)}
    {network : Network} : Under whole (m.mapNetworkIpam subject field network) := by
  unfold mapNetworkIpam
  rw [under_bind]
  refine ⟨by simp [h], ?_⟩
  split <;> simp [h]

@[simp] theorem under_reportOwnership {ownership : ResourceOwnership} :
    Under whole (reportOwnership subject ownership) := by
  unfold reportOwnership
  split
  · have hpart : whole.Below (subject.field "ownership") := by simp [h]
    exact under_report rfl hpart
  · exact under_pure _

end Resources

theorem under_mapNetwork (m : Mapping) {application : Application} {observation : ResourceObservation} :
    Under (Subject.ofResource observation.header.identity)
      (m.mapNetwork application observation) := by
  unfold mapNetwork
  rw [under_bind]
  refine ⟨by simp, ?_⟩
  split
  · split
    · rw [under_bind]
      refine ⟨by simp, ?_⟩
      split <;> simp [buildNetwork]
    · simp
  · simp

theorem under_mapVolume (m : Mapping) {application : Application} {observation : ResourceObservation} :
    Under (Subject.ofResource observation.header.identity)
      (m.mapVolume application observation) := by
  unfold mapVolume
  rw [under_bind]
  refine ⟨by simp, ?_⟩
  split
  · split
    · rw [under_bind]
      refine ⟨by simp, ?_⟩
      split <;> simp [buildVolume]
    · simp
  · simp

theorem under_mapSecret {application : Application} {observation : ResourceObservation} :
    Under (Subject.ofResource observation.header.identity)
      (mapSecret application observation) := by
  unfold mapSecret
  rw [under_bind]
  refine ⟨by simp, ?_⟩
  split
  · split
    · rw [under_bind]
      refine ⟨by simp, ?_⟩
      split <;> simp [reportSecretFields]
    · simp
  · simp

theorem under_mapImage {observation : ResourceObservation} :
    Under (Subject.ofResource observation.header.identity) (mapImage observation) := by
  unfold mapImage
  rw [under_bind]
  refine ⟨by simp, ?_⟩
  split
  · split <;> simp [reportImageFields]
  · simp

/-! ## The settings of a container -/

section Containers
variable (m : Mapping) {whole subject : Subject} (h : whole.Below subject)
include h

@[simp] theorem under_reportAbsentEvidence {α : Type} {field : ObservationField α}
    {malformedIsReported : Bool} {unusable unreviewed : String} :
    Under whole (reportAbsentEvidence subject field malformedIsReported unusable unreviewed) := by
  unfold reportAbsentEvidence
  split <;> try split
  all_goals simp [h]

@[simp] theorem under_reportCreationImageHint {field : ObservationField AuthoredImageSpellingHint} :
    Under whole (reportCreationImageHint subject field) := by
  unfold reportCreationImageHint
  split
  · split
    · simp [h]
    · split <;> simp [h]
  · simp [h]

@[simp] theorem under_reportRelabelHint
    {mounts : ObservationField (List ContainerMountObservation)} {position mountIndex : Nat}
    {expected : ContainerMountSelinuxRelabel} :
    Under whole (reportRelabelHint subject mounts position mountIndex expected) := by
  unfold reportRelabelHint
  split <;> simp [h]

@[simp] theorem under_reportCreationMountHints {evidence : ContainerCreationEvidence}
    {mounts : ObservationField (List ContainerMountObservation)} :
    Under whole (reportCreationMountHints subject evidence mounts) := by
  unfold reportCreationMountHints
  split
  · split
    · simp [h]
    · refine under_forM fun item _ => ?_
      unfold reportCreationMountHint
      split <;> simp [h]
  · simp [h]

@[simp] theorem under_reportCreationEvidence {details : ContainerObservation} :
    Under whole (reportCreationEvidence subject details) := by
  unfold reportCreationEvidence
  split
  · split <;> simp [h]
  · simp [h]

@[simp] theorem under_reportSecretGrantField {α : Type} {field : ObservationField α} :
    Under whole (reportSecretGrantField subject field) := by
  unfold reportSecretGrantField
  split <;> simp [h]

@[simp] theorem under_reportSecretGrants
    {field : ObservationField (List ContainerSecretGrantObservation)} :
    Under whole (reportSecretGrants subject field) := by
  unfold reportSecretGrants
  split
  · rw [under_bind]
    refine ⟨by simp [h], under_forM fun item _ => ?_⟩
    simp [reportSecretGrant, h]
  · simp [h]

@[simp] theorem under_mapConfiguredImage {details : ContainerObservation} {service : Service} :
    Under whole (mapConfiguredImage subject details service) := by
  unfold mapConfiguredImage parseConfiguredImage
  rw [under_bind, under_bind]
  refine ⟨⟨by simp [h], ?_⟩, by simp [h]⟩
  split
  · exact under_pure _
  · split <;> simp [h]

omit h in
@[simp] theorem under_mapContainerLabels {field : ObservationField (List (String × String))}
    {service : Service} (h : whole.Below (subject.field "labels")) :
    Under whole (mapContainerLabels subject field service) := by
  unfold mapContainerLabels
  rw [under_bind]
  exact ⟨under_mapLabels h, under_pure _⟩

omit h in
@[simp] theorem under_mapDependencies {details : ContainerObservation} {service : Service}
    (h : whole.Below (subject.field "dependencies")) :
    Under whole (m.mapDependencies subject details service) := by
  unfold mapDependencies
  generalize subject.field "dependencies" = part at h ⊢
  rw [under_bind]
  refine ⟨by simp [h], ?_⟩
  split
  · refine under_foldlM fun state reference _ => ?_
    unfold mapDependency
    split <;> simp [h]
  · exact under_pure _

@[simp] theorem under_mapEnvironmentEntry {promoted : Bool} {service : Service}
    {entry : ProtectedEnvironmentEntry} :
    Under whole (mapEnvironmentEntry subject promoted service entry) := by
  unfold mapEnvironmentEntry
  split <;> simp [h]

omit h in
@[simp] theorem under_mapPortableEnvironment
    {field : ObservationField (List ProtectedEnvironmentEntry)} {service : Service}
    (h : whole.Below (subject.field "environment")) :
    Under whole (m.mapPortableEnvironment subject field service) := by
  unfold mapPortableEnvironment
  generalize subject.field "environment" = part at h ⊢
  dsimp only
  rw [under_bind]
  refine ⟨by simp [h], ?_⟩
  split <;> simp [h]

@[simp] theorem under_reportPromotedRestart {name : NativeRestartPolicyName}
    {retryCount : Option UInt64} : Under whole (reportPromotedRestart subject name retryCount) := by
  unfold reportPromotedRestart
  split <;> simp [h]

omit h in
@[simp] theorem under_mapPortableRestartPolicy
    {field : ObservationField NativeRestartPolicyObservation} {service : Service}
    (h : whole.Below (subject.field "restart_policy")) :
    Under whole (m.mapPortableRestartPolicy subject field service) := by
  unfold mapPortableRestartPolicy
  generalize subject.field "restart_policy" = part at h ⊢
  dsimp only
  rw [under_bind]
  refine ⟨by simp [h], ?_⟩
  split
  · exact under_pure _
  · rw [under_bind]
    refine ⟨by simp [h], ?_⟩
    split
    · exact under_pure _
    · rw [under_bind]
      refine ⟨by simp [h], ?_⟩
      split <;> simp [h]

@[simp] theorem under_mapHealthCommand {field : ObservationField NativeHealthCommand}
    {promoted : Bool} {state : HealthState} :
    Under whole (m.mapHealthCommand subject field promoted state) := by
  unfold mapHealthCommand
  rw [under_bind]
  refine ⟨by simp [h], ?_⟩
  split <;> simp [h]

@[simp] theorem under_mapHealthDuration {field : ObservationField Int} {promoted : Bool}
    {set : Healthcheck → Sourced HealthcheckDuration → Healthcheck} {state : HealthState} :
    Under whole (m.mapHealthDuration field subject promoted set state) := by
  unfold mapHealthDuration
  rw [under_bind]
  refine ⟨by simp [h], ?_⟩
  split
  · exact under_pure _
  · split
    · simp [h]
    · split <;> simp [h]

@[simp] theorem under_mapHealthRetries {field : ObservationField Int} {promoted : Bool}
    {state : HealthState} : Under whole (m.mapHealthRetries subject field promoted state) := by
  unfold mapHealthRetries
  rw [under_bind]
  refine ⟨by simp [h], ?_⟩
  split
  · exact under_pure _
  · split <;> simp [h]

@[simp] theorem under_recordHealthcheckDecision {shellCommand : Bool} {childEvents : List Event} :
    Under whole (recordHealthcheckDecision subject shellCommand childEvents) := by
  unfold recordHealthcheckDecision
  split
  · exact under_report rfl h
  · split <;> simp [h]

omit h in
@[simp] theorem under_mapPortableHealthcheck
    {field : ObservationField NativeHealthCheckObservation} {service : Service}
    (h : whole.Below (subject.field "healthcheck")) :
    Under whole (m.mapPortableHealthcheck subject field service) := by
  unfold mapPortableHealthcheck
  generalize subject.field "healthcheck" = part at h ⊢
  dsimp only
  rw [under_bind]
  refine ⟨by simp [h], ?_⟩
  split
  · exact under_pure _
  · rw [under_bind]
    refine ⟨by simp [mapHealthSettings, h], ?_⟩
    split <;> simp [h]

end Containers

/-! ## Mounts -/

section Mounts
variable (m : Mapping) {whole subject : Subject} (h : whole.Below subject)
include h

@[simp] theorem under_reportMountOptions {mount : ContainerMountObservation} :
    Under whole (reportMountOptions subject mount) := by
  unfold reportMountOptions
  split <;> simp [h]

@[simp] theorem under_reportMountRemainders {mount : ContainerMountObservation} :
    Under whole (reportMountRemainders subject mount) := by
  simp [reportMountRemainders, h]

@[simp] theorem under_reportMountCore {mount : ContainerMountObservation} :
    Under whole (reportMountCore subject mount) := by
  simp [reportMountCore, h]

@[simp] theorem under_reportBindMountRemainders {mount : ContainerMountObservation} :
    Under whole (reportBindMountRemainders subject mount) := by
  unfold reportBindMountRemainders
  split <;> split <;> simp [h]

@[simp] theorem under_reportUnpromotedRelabel
    {field : ObservationField ContainerMountSelinuxRelabel} {promotion : Option String} :
    Under whole (reportUnpromotedRelabel subject field promotion) := by
  unfold reportUnpromotedRelabel
  split
  all_goals try split
  all_goals simp [h]

@[simp] theorem under_reportUnpromotedMount {mount : ContainerMountObservation}
    {promotion : Option String} : Under whole (reportUnpromotedMount subject mount promotion) := by
  simp [reportUnpromotedMount, h]

@[simp] theorem under_mountRelabel {field : ObservationField ContainerMountSelinuxRelabel} :
    Under whole (mountRelabel subject field) := by
  unfold mountRelabel
  split
  all_goals try split
  all_goals simp [h]

@[simp] theorem under_reportIncompleteMount {mount : ContainerMountObservation} {summary : String} :
    Under whole (reportIncompleteMount subject mount summary) := by
  simp [reportIncompleteMount, h]

@[simp] theorem under_mapEffectiveBindMount {mount : ContainerMountObservation} {service : Service} :
    Under whole (m.mapEffectiveBindMount subject mount service) := by
  unfold mapEffectiveBindMount
  split
  · simp [h]
  · split
    · simp [h]
    · split
      · split
        · simp [h]
        · split
          · simp [h]
          · split <;> simp [h]
      · simp [h]

@[simp] theorem under_mapNamedVolumeMount {mount : ContainerMountObservation} {service : Service} :
    Under whole (m.mapNamedVolumeMount subject mount service) := by
  unfold mapNamedVolumeMount
  split
  · simp [h]
  · split
    · simp [h]
    · split
      · split
        · simp [h]
        · split <;> simp [h]
      · simp [h]

@[simp] theorem under_mapMount {service : Service} {item : ContainerMountObservation × Nat} :
    Under whole (m.mapMount subject service item) := by
  unfold mapMount
  dsimp only
  split
  · simp [h]
  · split
    · simp [h]
    · rw [under_bind]
      refine ⟨by simp [h], ?_⟩
      split <;> simp [h]

omit h in
@[simp] theorem under_mapMounts {details : ContainerObservation} {service : Service}
    (h : whole.Below (subject.field "mounts")) :
    Under whole (m.mapMounts subject details service) := by
  unfold mapMounts
  generalize subject.field "mounts" = part at h ⊢
  dsimp only
  split
  · split
    · simp [h]
    · split <;> simp [h]
  · simp [h]

end Mounts

/-! ## Networking -/

section Networking
variable (m : Mapping) {whole subject : Subject} (h : whole.Below subject)
include h

@[simp] theorem under_reportPortableFields {networking : NativeNetworkingObservation} :
    Under whole (reportPortableFields subject networking) := by
  unfold reportPortableFields
  rw [under_bind]
  refine ⟨by simp [h], ?_⟩
  split
  · exact under_forM fun item _ => by simp [reportPortBindingHosts, h]
  · exact under_pure _

@[simp] theorem under_reportNameService {networking : NativeNetworkingObservation} :
    Under whole (reportNameService subject networking) := by
  simp [reportNameService, h]

@[simp] theorem under_reportNetworkingRemainders {networking : NativeNetworkingObservation}
    {portableFieldsHandled : Bool} :
    Under whole (reportNetworkingRemainders subject networking portableFieldsHandled) := by
  simp [reportNetworkingRemainders, h]

@[simp] theorem under_reportNetworkingOnly {field : ObservationField NativeNetworkingObservation} :
    Under whole (reportNetworkingOnly subject field) := by
  unfold reportNetworkingOnly
  rw [under_bind]
  refine ⟨by simp [h], ?_⟩
  split <;> simp [h]

@[simp] theorem under_addPortBinding {binding : NativePortBindingObservation} {promoted : Bool}
    {hostPort : Option UInt16} {hostIp : Option String} {rows : PortRows} :
    Under whole (addPortBinding subject binding promoted hostPort hostIp rows) := by
  unfold addPortBinding
  split
  · simp [h]
  · split <;> simp [h]

omit h in
/-- The binding of a row is decided below the row. -/
theorem under_mapPortBinding {collectionPromoted : Bool} {rows : PortRows}
    {item : NativePortBindingObservation × Nat} (h : whole.Below (subject.index item.2)) :
    Under whole (m.mapPortBinding subject collectionPromoted rows item) := by
  unfold mapPortBinding
  rw [under_bind]
  refine ⟨by simp [h], ?_⟩
  split
  · exact under_pure _
  · rw [under_bind]
    refine ⟨by simp [h], ?_⟩
    split
    · exact under_pure _
    · exact under_addPortBinding h

omit h in
@[simp] theorem under_mapPortablePorts {field : ObservationField (List NativePortBindingObservation)}
    {service : Service} (h : whole.Below (subject.field "port_bindings")) :
    Under whole (m.mapPortablePorts subject field service) := by
  unfold mapPortablePorts
  generalize subject.field "port_bindings" = part at h ⊢
  dsimp only
  rw [under_bind]
  refine ⟨by simp [h], ?_⟩
  split
  · exact under_pure _
  · simp only [under_bind, under_onlyIf, under_pure, and_true]
    refine ⟨under_foldlM fun rows item _ => under_mapPortBinding m (by simp [h]), ?_⟩
    intro _
    unfold reportPromotedPorts
    split <;> simp [h]

@[simp] theorem under_mapDnsEntries {α : Type} {field : ObservationField (List α)}
    {spelling : α → String} {effectiveReason promotedSummary : String} :
    Under whole (m.mapDnsEntries field subject spelling effectiveReason promotedSummary) := by
  unfold mapDnsEntries
  rw [under_bind]
  refine ⟨by simp [h], ?_⟩
  split
  · exact under_pure _
  · split <;> simp [h]

@[simp] theorem under_mapPortableNetworking {networking : NativeNetworkingObservation}
    {service : Service} : Under whole (m.mapPortableNetworking subject networking service) := by
  simp [mapPortableNetworking, h]

@[simp] theorem under_promoteAliases {aliases : List NativeNetworkAlias} :
    Under whole (m.promoteAliases subject aliases) := by
  unfold promoteAliases
  dsimp only
  rw [under_bind]
  refine ⟨by simp [h], ?_⟩
  split
  · simp [h]
  · split <;> simp [h]

@[simp] theorem under_effectiveOnly {α : Type} {field : ObservationField α} :
    Under whole (effectiveOnly field subject) := by
  unfold effectiveOnly
  split
  · split <;> simp [h]
  · simp [h]

@[simp] theorem under_mapEffectiveNetworkAliases {networking : NativeNetworkingObservation}
    {reference : String} :
    Under whole (m.mapEffectiveNetworkAliases subject networking reference) := by
  unfold mapEffectiveNetworkAliases
  rw [under_bind]
  refine ⟨by simp [h], ?_⟩
  split
  · exact under_pure _
  · split
    · simp [h]
    · rw [under_bind]
      refine ⟨by simp [h], ?_⟩
      split <;> simp [h]

@[simp] theorem under_mapNetworkReferences {networking : NativeNetworkingObservation}
    {service : Service} : Under whole (m.mapNetworkReferences subject networking service) := by
  unfold mapNetworkReferences
  split
  · split
    · simp [h]
    · split
      · simp [h]
      · refine under_foldlM fun state reference _ => ?_
        unfold mapNetworkReference
        split <;> simp [h]
  · simp [h]

@[simp] theorem under_mapContainerNetworks {details : ContainerObservation} {service : Service} :
    Under whole (m.mapContainerNetworks subject details service) := by
  unfold mapContainerNetworks
  split
  · simp [h]
  · split <;> simp [h]

end Networking

/-! ## Containers and pods -/

section Resources
variable (m : Mapping) {whole subject : Subject} (h : whole.Below subject)
include h

@[simp] theorem under_reportInfraContainerFields {details : ContainerObservation} :
    Under whole (reportInfraContainerFields subject details) := by
  unfold reportInfraContainerFields
  cases details.mounts.observed? with
  | none => simp [h]
  | some mounts => simp [h]

omit h in
@[simp] theorem under_mapPodMembership {details : ContainerObservation}
    (h : whole.Below (subject.field "pod_membership")) :
    Under whole (m.mapPodMembership subject details) := by
  unfold mapPodMembership
  generalize subject.field "pod_membership" = part at h ⊢
  dsimp only
  rw [under_bind]
  refine ⟨by simp [h], ?_⟩
  split
  · exact under_pure _
  · split <;> simp [h]

@[simp] theorem under_buildService {identity : ResourceIdentity} {details : ContainerObservation}
    {name : Identifier} : Under whole (m.buildService subject identity details name) := by
  unfold buildService
  simp [mapConfiguredSettings, reportContainerRemainders, h]

@[simp] theorem under_addMember {group : ServiceGroup} {member : Identifier} :
    Under whole (addMember subject group member) := by
  unfold addMember
  split <;> simp [h]

end Resources

theorem under_mapContainer (m : Mapping) {state : MappingState} {observation : ResourceObservation} :
    Under (Subject.ofResource observation.header.identity) (m.mapContainer state observation) := by
  unfold mapContainer
  rw [under_bind]
  refine ⟨by simp, ?_⟩
  split
  · split
    · rw [under_bind]
      refine ⟨by simp, ?_⟩
      split
      · simp
      · unfold mapServiceContainer
        rw [under_bind]
        refine ⟨by simp, ?_⟩
        split <;> simp
    · simp
  · simp

theorem under_mapPod (m : Mapping) {state : MappingState} {observation : ResourceObservation} :
    Under (Subject.ofResource observation.header.identity) (m.mapPod state observation) := by
  unfold mapPod
  rw [under_bind]
  refine ⟨by simp, ?_⟩
  split
  · split
    · rw [under_bind]
      refine ⟨by simp, ?_⟩
      split <;> simp [reportPodFields]
    · simp
  · simp

/-! ## The report of one container -/

/-- A step about one resource loses no part of another. -/
theorem Under.identity_eq {α : Type} {steps : Imported α} {identity other : ResourceIdentity}
    {kind : ResourceKind} {path : List Segment} {event : Event}
    (h : Under (Subject.ofResource identity) steps) (hevent : event ∈ steps.log)
    (hloses : event.Loses (.part kind other path)) : identity = other := by
  obtain ⟨decision, hdecision, hbelow, -⟩ := hloses
  have hunder := h event hevent decision hdecision
  cases hsubject : decision.1 with
  | part partKind partIdentity partPath =>
    rw [hsubject] at hbelow hunder
    exact hunder.2.1.trans hbelow.2.1.symm
  | _ =>
    rw [hsubject] at hbelow
    cases hbelow

/-- A subject below two fields of a resource is below one field. -/
theorem Subject.same_field {identity : ResourceIdentity} {kind : ResourceKind} {name other : String}
    {path : List Segment} {subject : Subject}
    (h : ((Subject.ofResource identity).field name).Below subject)
    (hother : (Subject.part kind identity (.field other :: path)).Below subject) : name = other := by
  cases subject with
  | part partKind partIdentity partPath =>
    obtain ⟨-, -, rest, hrest⟩ := h
    obtain ⟨-, -, hleading⟩ := hother
    rw [← hrest, List.nil_append, List.singleton_append, List.cons_prefix_cons] at hleading
    cases hleading.1
    rfl
  | _ => cases hother

/-- A step about one field of a resource loses no part of another field. -/
theorem Under.field_eq {α : Type} {steps : Imported α} {identity : ResourceIdentity}
    {kind : ResourceKind} {name other : String} {path : List Segment} {event : Event}
    (h : Under ((Subject.ofResource identity).field name) steps) (hevent : event ∈ steps.log)
    (hloses : event.Loses (.part kind identity (.field other :: path))) : name = other := by
  obtain ⟨decision, hdecision, hbelow, -⟩ := hloses
  exact Subject.same_field (h event hevent decision hdecision) hbelow

theorem subject_settle {subject : Subject} {application : Application}
    {result : Except ModelError Application} {event : Event}
    (h : event ∈ (settle subject application result).log) :
    ∀ decision ∈ event.decisions, decision.1 = subject := by
  unfold settle at h
  cases result with
  | ok grown => cases h
  | error error =>
    rcases Reports.mem_log_bind.mp h with h | h
    · unfold modelError at h
      split at h
      all_goals
        rw [List.mem_singleton.mp h]
        intro decision hdecision
        rw [List.mem_singleton.mp hdecision]
    · cases h

theorem not_loses_exact (subject lost : Subject) : ¬ (Event.exact subject).Loses lost := by
  rintro ⟨decision, hdecision, -, hkind⟩
  rw [List.mem_singleton.mp hdecision] at hkind
  exact hkind rfl

/-- The fields of a container that findings of the native library are reported under. -/
def evidenceFields : List String := ["image", "creation_evidence"]

/-- The subject is no container part outside of these fields. -/
def Reserved (subject : Subject) : Prop :=
  ∀ identity name path, name ∉ evidenceFields →
    ¬ (Subject.part .container identity (.field name :: path)).Below subject

theorem not_loses_of_reserved {identity : ResourceIdentity} {name : String} {path : List Segment}
    {event : Event} (hname : name ∉ evidenceFields)
    (h : ∀ decision ∈ event.decisions, Reserved decision.1) :
    ¬ event.Loses (.part .container identity (.field name :: path)) := by
  rintro ⟨decision, hdecision, hbelow, -⟩
  exact h decision hdecision identity name path hname hbelow

theorem mem_observations {m : Mapping} {kind : ResourceKind} {observation : ResourceObservation}
    (h : observation ∈ m.observations kind) : observation.header.identity.kind = kind ∧
      m.source.inventory.observation observation.header.identity = some observation := by
  unfold observations at h
  obtain ⟨identity, hidentity, hobservation⟩ := List.mem_filterMap.mp h
  obtain ⟨-, hkind⟩ := List.mem_filter.mp hidentity
  have hsame := List.find?_some hobservation
  rw [decide_eq_true_eq] at hkind hsame
  rw [hsame]
  exact ⟨hkind, hobservation⟩

theorem reserved_evidence {identity : ResourceIdentity} {name : String} {rest : List Segment}
    (h : name ∈ evidenceFields) :
    Reserved (.part .container identity (.field name :: rest)) := by
  rintro other otherName path hother ⟨-, -, hleading⟩
  rw [List.cons_prefix_cons] at hleading
  cases hleading.1
  exact hother h

theorem reserved_of_ne {subject : Subject}
    (h : ∀ identity path, subject ≠ .part .container identity path) : Reserved subject := by
  intro identity name path _ hbelow
  rcases Subject.below_iff.mp hbelow with hsame | ⟨_, _, _, more, hwhole, hpart⟩
  · exact h _ _ hsame.symm
  · cases hwhole
    exact h _ _ hpart

theorem reserved_findingEvent {located : LocatedFinding} {event : Event}
    (h : findingEvent located = some event) :
    ∀ decision ∈ event.decisions, Reserved decision.1 := by
  unfold findingEvent at h
  dsimp only at h
  split at h
  · cases h
    intro decision hdecision
    rw [List.mem_singleton.mp hdecision]
    cases located.finding.resource with
    | none => exact reserved_of_ne fun _ _ => Subject.noConfusion
    | some identity => exact reserved_evidence (by decide)
  · split at h
    · next subject hsubject =>
      cases h
      intro decision hdecision
      rw [List.mem_singleton.mp hdecision]
      unfold networkMappingLimitationSubject at hsubject
      split at hsubject
      · cases hsubject
      · simp only [Option.bind_eq_bind, Option.bind_eq_some_iff] at hsubject
        obtain ⟨_, -, hsubject⟩ := hsubject
        refine reserved_of_ne fun identity path hpart => ?_
        change subject = _ at hpart
        rw [hpart] at hsubject
        split at hsubject <;> simp [Option.bind_eq_some_iff] at hsubject
    · split at h
      · cases h
        intro decision hdecision
        rw [List.mem_singleton.mp hdecision]
        unfold creationConflictSubject
        cases located.finding.resource with
        | none => exact reserved_of_ne fun _ _ => Subject.noConfusion
        | some identity =>
          simp only [Option.bind_eq_bind, Option.bind_some]
          split
          · exact reserved_of_ne fun _ _ => Subject.noConfusion
          · cases located.finding.occurrence with
            | none => exact reserved_evidence (by decide)
            | some position => exact reserved_evidence (by decide)
      · split at h
        · cases h
          intro decision hdecision
          rw [List.mem_singleton.mp hdecision]
          exact reserved_of_ne fun _ _ => Subject.noConfusion
        · cases h

/-- The findings of the native library decide nothing about a container outside of these fields. -/
theorem reserved_reportNativeFindings {m : Mapping} {event : Event}
    (h : event ∈ m.reportNativeFindings.log) :
    ∀ decision ∈ event.decisions, Reserved decision.1 := by
  unfold reportNativeFindings at h
  simp only [Reports.mem_log_bind] at h
  rcases h with h | h | h
  · have hlog := Reports.log_forM_report id (m.inventoryFindings.filterMap findingEvent)
    change event ∈ ((m.inventoryFindings.filterMap findingEvent).forM
      fun item => Reports.report (id item)).log at h
    rw [hlog, List.map_id] at h
    obtain ⟨located, -, hevent⟩ := List.mem_filterMap.mp h
    exact reserved_findingEvent hevent
  · rw [Reports.log_forM_report, List.mem_map] at h
    obtain ⟨findings, -, rfl⟩ := h
    intro decision hdecision
    obtain ⟨located, -, rfl⟩ := List.mem_map.mp hdecision
    exact reserved_of_ne fun _ _ => Subject.noConfusion
  · rw [Reports.log_forM_report, List.mem_map] at h
    obtain ⟨finding, -, rfl⟩ := h
    intro decision hdecision
    unfold discoveryEvent at hdecision
    split at hdecision
    all_goals
      rw [List.mem_singleton.mp hdecision]
      exact reserved_of_ne fun _ _ => Subject.noConfusion

namespace Mapping
variable (m : Mapping)

/-- The report of building the service of a container. -/
def serviceReport (container : ServiceContainer) : List Event :=
  (m.buildService (Subject.ofResource container.identity) container.identity container.details
    container.name).log

/-- A part of a container that becomes a service is lost by the report of that service, unless it is
its pod membership or a field that findings are reported under. -/
theorem serviceReport_of_loses {container : ServiceContainer} (h : container ∈ m.serviceContainers)
    {name : String} {path : List Segment} {event : Event}
    (hevidence : name ∉ evidenceFields) (hinfraField : "infra" ≠ name)
    (hmembershipField : "pod_membership" ≠ name) (hevent : event ∈ m.map.log)
    (hloses : event.Loses (.part .container container.identity (.field name :: path))) :
    event ∈ m.serviceReport container := by
  unfold serviceContainers at h
  obtain ⟨observation, hmem, hcontainer⟩ := List.mem_filterMap.mp h
  obtain ⟨hidentity, hdetails, hinfra, hdeclared⟩ := identity_serviceContainer hcontainer
  obtain ⟨hcomplete, hshown⟩ := declaredName_eq_some.mp hdeclared
  obtain ⟨hkind, hobserved⟩ := mem_observations hmem
  rw [hidentity] at hkind hobserved hshown
  have hother {kind : ResourceKind} {other : ResourceObservation}
      (hother : other ∈ m.observations kind)
      (hsame : other.header.identity = container.identity) : kind = .container := by
    rw [← (mem_observations hother).1, hsame, hkind]
  unfold map mapResources at hevent
  simp only [Reports.mem_log_bind] at hevent
  rcases hevent with hevent | hevent | hevent | (hevent | hevent | hevent | hevent | hevent) |
    hevent | hevent
  · refine absurd hloses (not_loses_of_reserved hevidence fun decision hdecision => ?_)
    unfold reportMissingSelectedObservations identityConflict at hevent
    rw [Reports.log_forM_report, List.mem_map] at hevent
    obtain ⟨_, -, rfl⟩ := hevent
    rw [List.mem_singleton.mp hdecision]
    exact reserved_of_ne fun _ _ => Subject.noConfusion
  · exact absurd hloses (not_loses_of_reserved hevidence (reserved_reportNativeFindings hevent))
  · rw [List.mem_singleton.mp hevent] at hloses
    exact absurd hloses (not_loses_exact _ _)
  · obtain ⟨other, hmember, state, hevent⟩ := Reports.of_mem_log_foldlM hevent
    cases hother hmember ((under_mapNetwork m).identity_eq hevent hloses)
  · obtain ⟨other, hmember, state, hevent⟩ := Reports.of_mem_log_foldlM hevent
    cases hother hmember ((under_mapVolume m).identity_eq hevent hloses)
  · obtain ⟨other, hmember, state, hevent⟩ := Reports.of_mem_log_foldlM hevent
    cases hother hmember (under_mapSecret.identity_eq hevent hloses)
  · obtain ⟨other, hmember, state, hevent⟩ := Reports.of_mem_log_foldlM hevent
    have hsame := (under_mapContainer m).identity_eq hevent hloses
    have hobservation := (mem_observations hmember).2
    rw [hsame, hobserved] at hobservation
    cases hobservation
    have hnew : Identifier.new container.identity.shownName = .ok container.name := by
      rw [Identifier.new_eq_ok]
      exact hshown
    unfold mapContainer mapServiceContainer requireComplete identifier at hevent
    simp only [hcomplete, if_true, Reports.mem_log_bind, Reports.value_pure, Reports.log_pure,
      List.not_mem_nil, false_or, hdetails, hinfra, Bool.false_eq_true, if_false, hsame, hnew,
      or_false] at hevent
    rcases hevent with hevent | hevent | hevent | hevent
    · exact absurd (Under.field_eq (under_observationOnly (Subject.below_refl _)) hevent hloses)
        hinfraField
    · exact absurd ((under_mapPodMembership m (Subject.below_refl _)).field_eq hevent hloses)
        hmembershipField
    · exact hevent
    · obtain ⟨decision, hdecision, hbelow, -⟩ := hloses
      rw [subject_settle hevent decision hdecision] at hbelow
      obtain ⟨-, -, rest, hrest⟩ := hbelow
      cases hrest
  · obtain ⟨other, hmember, state, hevent⟩ := Reports.of_mem_log_foldlM hevent
    cases hother hmember ((under_mapPod m).identity_eq hevent hloses)
  · rw [Reports.log_forM, List.mem_flatMap] at hevent
    obtain ⟨other, hmember, hevent⟩ := hevent
    cases hother hmember (under_mapImage.identity_eq hevent hloses)
  · cases hevent

end Mapping
/-! ## The fields of a service's report -/

/-- Everything a step decides about a resource is decided below one of these fields. -/
def Fields {α : Type} (identity : ResourceIdentity) (names : List String) (steps : Imported α) : Prop :=
  ∀ event ∈ steps.log, ∀ decision ∈ event.decisions,
    ∃ name ∈ names, ((Subject.ofResource identity).field name).Below decision.1

section Fields
variable {α β : Type} {identity : ResourceIdentity} {names : List String}

theorem fields_bind {first : Imported α} {next : α → Imported β} :
    Fields identity names (first >>= next) ↔
      Fields identity names first ∧ Fields identity names (next first.value) := by
  unfold Fields
  rw [Reports.log_bind, List.forall_mem_append]

theorem Under.fields {steps : Imported α} {name : String}
    (h : Under ((Subject.ofResource identity).field name) steps) (hname : name ∈ names) :
    Fields identity names steps :=
  fun event hevent decision hdecision => ⟨name, hname, h event hevent decision hdecision⟩

theorem fields_pure (result : α) : Fields identity names (pure result : Imported α) :=
  fun _ hevent => absurd hevent List.not_mem_nil

theorem Fields.name_mem {steps : Imported α} {kind : ResourceKind} {name : String}
    {path : List Segment} {event : Event} (h : Fields identity names steps)
    (hevent : event ∈ steps.log)
    (hloses : event.Loses (.part kind identity (.field name :: path))) : name ∈ names := by
  obtain ⟨decision, hdecision, hbelow, -⟩ := hloses
  obtain ⟨other, hother, hunder⟩ := h event hevent decision hdecision
  rw [← Subject.same_field hunder hbelow]
  exact hother

theorem fields_mapConfiguredImage {details : ContainerObservation} {service : Service} :
    Fields identity ["image", "local_image_id"]
      (mapConfiguredImage (Subject.ofResource identity) details service) := by
  unfold mapConfiguredImage
  simp only [fields_bind]
  have hparse : Under ((Subject.ofResource identity).field "image") (parseConfiguredImage
      ((Subject.ofResource identity).field "image") details.configuredImage) := by
    unfold parseConfiguredImage
    rw [under_bind]
    refine ⟨by simp, ?_⟩
    split
    · exact under_pure _
    · split <;> simp
  refine ⟨hparse.fields (by simp), ?_, fields_pure _⟩
  · exact (under_observationOnly (Subject.below_refl _)).fields (by simp)

theorem under_creationImageHint {field : ObservationField AuthoredImageSpellingHint} :
    Under ((Subject.ofResource identity).field "image")
      (reportCreationImageHint (Subject.ofResource identity) field) := by
  unfold reportCreationImageHint
  split
  · split
    · simp
    · split <;> simp
  · simp

theorem fields_creationMountHint {mounts : ObservationField (List ContainerMountObservation)}
    {item : AuthoredMountRelabelHint × Nat} :
    Fields identity ["creation_evidence", "image", "mounts"]
      (reportCreationMountHint (Subject.ofResource identity) mounts item) := by
  have hexact : Under ((Subject.ofResource identity).field "creation_evidence") (exact
      ((((Subject.ofResource identity).field "creation_evidence").field "mount_relabels").index
        item.2)) := by simp
  have hrelabel {mountIndex : Nat} {expected : ContainerMountSelinuxRelabel} :
      Fields identity ["creation_evidence", "image", "mounts"]
        (reportRelabelHint (Subject.ofResource identity) mounts item.2 mountIndex expected) := by
    have hmount {summary : String} : Under ((Subject.ofResource identity).field "mounts") (unsupported
        ((((Subject.ofResource identity).field "mounts").index mountIndex).field "selinux_relabel")
        summary) := by simp
    unfold reportRelabelHint
    split
    · exact hexact.fields (by simp)
    · exact hmount.fields (by simp)
  have hhint {summary : String} : Under ((Subject.ofResource identity).field "creation_evidence")
      (unsupported ((((Subject.ofResource identity).field "creation_evidence").field
        "mount_relabels").index item.2) summary) := by simp
  unfold reportCreationMountHint
  split
  · exact hrelabel
  · exact hrelabel
  · exact fields_pure _
  · exact hhint.fields (by simp)

theorem fields_reportCreationEvidence {details : ContainerObservation} :
    Fields identity ["creation_evidence", "image", "mounts"]
      (reportCreationEvidence (Subject.ofResource identity) details) := by
  unfold reportCreationEvidence
  split
  · split
    · exact Under.fields (under_unsupportedWithOrigin (Subject.below_refl _)) List.mem_cons_self
    · simp only [fields_bind]
      refine ⟨Under.fields (under_exact (Subject.below_refl _)) List.mem_cons_self,
        under_creationImageHint.fields (by simp), ?_⟩
      unfold reportCreationMountHints
      split
      · split
        · exact Under.fields (under_unsupportedWithOrigin (by simp)) List.mem_cons_self
        · intro event hevent
          rw [Reports.log_forM, List.mem_flatMap] at hevent
          obtain ⟨item, -, hevent⟩ := hevent
          exact fields_creationMountHint event hevent
      · exact Under.fields (under_reportAbsentEvidence (by simp)) List.mem_cons_self
  · exact Under.fields (under_reportAbsentEvidence (Subject.below_refl _)) List.mem_cons_self

theorem fields_mapConfiguredSettings {nativeId : String} {details : ContainerObservation}
    {service : Service} :
    Fields identity ["command", "entrypoint", "user", "working_directory", "hostname"]
      (mapConfiguredSettings (Subject.ofResource identity) nativeId details service) := by
  unfold mapConfiguredSettings
  simp only [fields_bind]
  refine ⟨?_, ?_, ?_, ?_, ?_, fields_pure _⟩
  · exact (under_configured (Subject.below_refl _)).fields (by simp)
  · exact (under_configured (Subject.below_refl _)).fields (by simp)
  · exact (under_configured (Subject.below_refl _)).fields (by simp)
  · exact (under_configured (Subject.below_refl _)).fields (by simp)
  · exact (under_configuredUnless (Subject.below_refl _)).fields (by simp)

theorem fields_reportContainerRemainders {details : ContainerObservation} :
    Fields identity ["health_failure_action", "startup_healthcheck", "logging", "security",
        "namespaces", "resource_controls"]
      (reportContainerRemainders (Subject.ofResource identity) details) := by
  unfold reportContainerRemainders
  simp only [fields_bind]
  refine ⟨?_, ?_, ?_, ?_, ?_, ?_⟩
  · exact (under_observationOnly (Subject.below_refl _)).fields (by simp)
  · exact (under_observationOnly (Subject.below_refl _)).fields (by simp)
  · exact (under_observationOnly (Subject.below_refl _)).fields (by simp)
  · exact (under_observationOnly (Subject.below_refl _)).fields (by simp)
  · exact (under_observationOnly (Subject.below_refl _)).fields (by simp)
  · exact (under_observationOnly (Subject.below_refl _)).fields (by simp)

end Fields
namespace Mapping
variable (m : Mapping)

/-- The fields whose rows and settings are gated one by one. -/
def gatedFields : List String :=
  ["networks", "pod_member_networking", "restart_policy", "healthcheck"]

/-- A loss in a gated field is reported by the step that maps its networking, its restart policy or
its health check. -/
theorem serviceReport_gated {container : ServiceContainer} {kind : ResourceKind} {name : String}
    {path : List Segment} {event : Event} (hname : name ∈ gatedFields)
    (hevent : event ∈ m.serviceReport container)
    (hloses : event.Loses (.part kind container.identity (.field name :: path))) :
    ∃ service, event ∈ (m.mapContainerNetworks (Subject.ofResource container.identity)
        container.details service).log ∨
      event ∈ (m.mapPortableRestartPolicy (Subject.ofResource container.identity)
        container.details.restartPolicy service).log ∨
      event ∈ (m.mapPortableHealthcheck (Subject.ofResource container.identity)
        container.details.healthCheck service).log := by
  have hnot {α : Type} {names : List String} {steps : Imported α}
      (hfields : Fields container.identity names steps)
      (hdisjoint : ∀ other ∈ names, other ∉ gatedFields) (hlog : event ∈ steps.log) : False :=
    hdisjoint name (hfields.name_mem hlog hloses) hname
  have hunder {α : Type} {other : String} {steps : Imported α}
      (hsteps : Under ((Subject.ofResource container.identity).field other) steps)
      (hother : other ∉ gatedFields) (hlog : event ∈ steps.log) : False := by
    rw [hsteps.field_eq hlog hloses] at hother
    exact hother hname
  unfold serviceReport buildService at hevent
  simp only [Reports.mem_log_bind] at hevent
  rcases hevent with hevent | hevent | hevent | hevent | hevent | hevent | hevent | hevent | hevent |
    hevent | hevent | hevent | hevent | hevent | hevent
  · exact (hnot fields_mapConfiguredImage (by decide) hevent).elim
  · exact (hnot fields_reportCreationEvidence (by decide) hevent).elim
  · exact (hnot fields_mapConfiguredSettings (by decide) hevent).elim
  · exact (hunder (under_mapContainerLabels (Subject.below_refl _)) (by decide) hevent).elim
  · exact (hunder (under_mapMounts m (Subject.below_refl _)) (by decide) hevent).elim
  · exact ⟨_, Or.inl hevent⟩
  · exact (hunder (under_mapDependencies m (Subject.below_refl _)) (by decide) hevent).elim
  · exact (hunder (under_mapPortableEnvironment m (Subject.below_refl _)) (by decide) hevent).elim
  · exact (hunder (under_reportSecretGrants (Subject.below_refl _)) (by decide) hevent).elim
  · exact (hunder (under_observationOnly (Subject.below_refl _)) (by decide) hevent).elim
  · exact ⟨_, Or.inr (Or.inl hevent)⟩
  · exact ⟨_, Or.inr (Or.inr hevent)⟩
  · exact (hnot fields_reportContainerRemainders (by decide) hevent).elim
  · rw [List.mem_singleton.mp hevent] at hloses
    exact absurd hloses (not_loses_exact _ _)
  · cases hevent

end Mapping
end Boxferry.Podman.Import
