import Mathlib.Algebra.Order.BigOperators.Group.List
import Mathlib.Algebra.Order.Group.Nat
import Boxferry.Library.CommandRuns
import Boxferry.Library.Results
import Boxferry.Model.Application

/-! # The application invariant over every run

The operations of the graph as commands of one store, the representation
invariant they maintain together, and the run theorem. -/
namespace Boxferry.Model
open Results
set_option autoImplicit false

/-- One call of a graph operation with its argument. -/
inductive Operation where
  | addImageAcquisition (acquisition : Sourced ImageAcquisition)
  | addImageBuild (build : Sourced ImageBuild)
  | addVolume (volume : Sourced Volume)
  | addNetwork (network : Sourced Network)
  | addConfig (config : Sourced Config)
  | addSecret (secret : Sourced Secret)
  | addService (service : Sourced Service)
  | addServiceGroup (group : Sourced ServiceGroup)
  | addRetainedNativeEvidence (evidence : RetainedNativeEvidence)
  | addVendorMetadata (metadata : VendorMetadata)
  | withholdLiteralEnvironmentValues

inductive OperationError where
  | model (error : ModelError)
  | metadata (error : MetadataError)

def Operation.apply : Operation → Application → Except OperationError Application
  | .addImageAcquisition acquisition, application =>
    (application.addImageAcquisition acquisition).mapError .model
  | .addImageBuild build, application => (application.addImageBuild build).mapError .model
  | .addVolume volume, application => (application.addVolume volume).mapError .model
  | .addNetwork network, application => (application.addNetwork network).mapError .model
  | .addConfig config, application => (application.addConfig config).mapError .model
  | .addSecret secret, application => (application.addSecret secret).mapError .model
  | .addService service, application => (application.addService service).mapError .model
  | .addServiceGroup group, application => (application.addServiceGroup group).mapError .model
  | .addRetainedNativeEvidence evidence, application =>
    (application.addRetainedNativeEvidence evidence).mapError .model
  | .addVendorMetadata metadata, application =>
    (application.addVendorMetadata metadata).mapError .metadata
  | .withholdLiteralEnvironmentValues, application =>
    .ok application.withholdLiteralEnvironmentValues

/-! ## The invariant -/

/-- What one service promises about its image sources and deferred references. -/
structure Service.Admitted (service : Service) (acquisitions builds : List Identifier) : Prop where
  acquisition_declared : ∀ acquisition, service.imageAcquisition = some acquisition →
    acquisition.value ∈ acquisitions
  build_declared : ∀ build, service.imageBuild = some build → build.value ∈ builds
  rootfs_exclusive : service.rootfs.isSome →
    service.image = none ∧ service.imageAcquisition = none ∧ service.imageBuild = none
  deferred_valid : service.validateDeferred = .ok ()

/-- The exact identity of a metadata item: its owner and its namespace text. -/
def VendorMetadata.identity (metadata : VendorMetadata) : MetadataScope × String :=
  (metadata.scope, metadata.nameSpace.value.expose)

/-- The measured items of a list fit one application budget together. -/
def WithinMetadataBudget (items : List VendorMetadata) : Prop :=
  ∃ sizes, List.Forall₂ (fun item size => VendorMetadata.measure item = .ok size) items sizes ∧
    sizes.sum ≤ metadataMaxBytes

def RetainedNativeEvidence.OwnerDeclared (evidence : RetainedNativeEvidence)
    (services volumes : List Identifier) : Prop :=
  match evidence.subject with
  | .quadletServicePodmanArgs name => name ∈ services
  | .quadletVolumeContainersConfModules name => name ∈ volumes
  | .quadletVolumeGlobalArgs name => name ∈ volumes
  | .quadletVolumePodmanArgs name => name ∈ volumes

/-- The representation invariant of an application graph. -/
structure Application.WellFormed (application : Application) : Prop where
  acquisitions_unique : application.imageAcquisitionNames.Nodup
  builds_unique : application.imageBuildNames.Nodup
  services_unique : application.serviceNames.Nodup
  groups_unique : application.serviceGroupNames.Nodup
  volumes_unique : application.volumeNames.Nodup
  networks_unique : application.networkNames.Nodup
  configs_unique : application.configNames.Nodup
  secrets_unique : application.secretNames.Nodup
  services_admitted : ∀ service ∈ application.services,
    service.value.Admitted application.imageAcquisitionNames application.imageBuildNames
  members_declared : ∀ group ∈ application.serviceGroups, ∀ member ∈ group.value.members,
    member.value ∈ application.serviceNames
  members_once : ∀ group ∈ application.serviceGroups, (group.value.members.map Sourced.value).Nodup
  groups_disjoint : application.serviceGroups.Pairwise fun left right =>
    (left.value.members.map Sourced.value).Disjoint (right.value.members.map Sourced.value)
  evidence_owned : ∀ evidence ∈ application.retainedNativeEvidence,
    evidence.OwnerDeclared application.serviceNames application.volumeNames
  metadata_owned : ∀ metadata ∈ application.vendorMetadata, ∀ owner,
    metadata.scope = .service owner → owner ∈ application.serviceNames
  metadata_identities : (application.vendorMetadata.map VendorMetadata.identity).Nodup
  metadata_budget : WithinMetadataBudget application.vendorMetadata

theorem Application.new_wellFormed (name : Identifier) : (Application.new name).WellFormed where
  acquisitions_unique := List.nodup_nil
  builds_unique := List.nodup_nil
  services_unique := List.nodup_nil
  groups_unique := List.nodup_nil
  volumes_unique := List.nodup_nil
  networks_unique := List.nodup_nil
  configs_unique := List.nodup_nil
  secrets_unique := List.nodup_nil
  services_admitted := by simp [Application.new]
  members_declared := by simp [Application.new]
  members_once := by simp [Application.new]
  groups_disjoint := List.Pairwise.nil
  evidence_owned := by simp [Application.new]
  metadata_owned := by simp [Application.new]
  metadata_identities := List.nodup_nil
  metadata_budget := ⟨[], .nil, Nat.zero_le _⟩

/-! ## What an accepted operation checked -/

theorem ensureUnique_eq_ok {kind : String} {name : Identifier} {existing : List Identifier} :
    ensureUnique kind name existing = .ok () ↔ name ∉ existing := by
  unfold ensureUnique
  rw [guard_eq_ok]
  simp

theorem Service.Admitted.mono {service : Service} {acquisitions builds acquisitions' builds' :
    List Identifier} (h : service.Admitted acquisitions builds)
    (hacquisitions : acquisitions ⊆ acquisitions') (hbuilds : builds ⊆ builds') :
    service.Admitted acquisitions' builds' where
  acquisition_declared acquisition hsome := hacquisitions (h.acquisition_declared acquisition hsome)
  build_declared build hsome := hbuilds (h.build_declared build hsome)
  rootfs_exclusive := h.rootfs_exclusive
  deferred_valid := h.deferred_valid

theorem RetainedNativeEvidence.OwnerDeclared.mono {evidence : RetainedNativeEvidence}
    {services volumes services' volumes' : List Identifier}
    (h : evidence.OwnerDeclared services volumes) (hservices : services ⊆ services')
    (hvolumes : volumes ⊆ volumes') : evidence.OwnerDeclared services' volumes' := by
  unfold RetainedNativeEvidence.OwnerDeclared at h ⊢
  cases hsubject : evidence.subject with
  | quadletServicePodmanArgs name => rw [hsubject] at h; exact hservices h
  | quadletVolumeContainersConfModules name => rw [hsubject] at h; exact hvolumes h
  | quadletVolumeGlobalArgs name => rw [hsubject] at h; exact hvolumes h
  | quadletVolumePodmanArgs name => rw [hsubject] at h; exact hvolumes h

theorem ensureDeclared_eq_ok {reference : Option (Sourced Identifier)} {declared : List Identifier}
    {unknown : String → ModelError} (h : ensureDeclared reference declared unknown = .ok ()) :
    ∀ name, reference = some name → name.value ∈ declared := by
  rintro name rfl
  unfold ensureDeclared at h
  rw [guard_eq_ok] at h
  exact not_not.mp h.1

theorem validateImageSourceExclusivity_eq_ok {service : Service}
    (h : service.validateImageSourceExclusivity = .ok ()) (hrootfs : service.rootfs.isSome) :
    service.image = none ∧ service.imageAcquisition = none ∧ service.imageBuild = none := by
  unfold Service.validateImageSourceExclusivity Service.ensureRootfsIsCompatible at h
  rw [if_pos hrootfs, guard_eq_ok, guard_eq_ok, guard_eq_ok] at h
  obtain ⟨himage, hacquisition, hbuild, -⟩ := h
  exact ⟨by simpa using himage, by simpa using hacquisition, by simpa using hbuild⟩

theorem groupOf_eq_none {application : Application} {member : Identifier} :
    application.groupOf member = none ↔
      ∀ group ∈ application.serviceGroups, member ∉ group.value.members.map Sourced.value := by
  unfold Application.groupOf
  simp

/-- Accepted members are declared services of no earlier group. -/
theorem checkGroupMembers_eq_ok {application : Application} {group : ServiceGroup}
    {members : List (Sourced Identifier)}
    (h : application.checkGroupMembers group members = .ok ()) :
    ∀ member ∈ members, member.value ∈ application.serviceNames ∧
      ∀ earlier ∈ application.serviceGroups,
        member.value ∉ earlier.value.members.map Sourced.value := by
  induction members with
  | nil => simp
  | cons member rest ih =>
    unfold Application.checkGroupMembers at h
    rw [guard_eq_ok] at h
    obtain ⟨hdeclared, h⟩ := h
    cases hgroup : application.groupOf member.value with
    | some existing =>
      rw [hgroup] at h
      cases h
    | none =>
      rw [hgroup] at h
      intro candidate hcandidate
      rcases List.mem_cons.mp hcandidate with rfl | hrest
      · exact ⟨not_not.mp hdeclared, groupOf_eq_none.mp hgroup⟩
      · exact ih h candidate hrest

/-- The aggregate accounting of a list is the sum of the accounting of its items. -/
theorem measureVendorMetadata_eq_ok {items : List VendorMetadata} {bytes total : Nat}
    (h : measureVendorMetadata items bytes = .ok total) :
    ∃ sizes, List.Forall₂ (fun item size => VendorMetadata.measure item = .ok size) items sizes ∧
      total = bytes + sizes.sum := by
  induction items generalizing bytes with
  | nil =>
    cases h
    exact ⟨[], .nil, by simp⟩
  | cons item rest ih =>
    unfold measureVendorMetadata at h
    obtain ⟨size, hsize, h⟩ := bind_eq_ok.mp h
    cases hadd : checkedAdd bytes size with
    | none =>
      rw [hadd] at h
      cases h
    | some sum =>
      rw [hadd] at h
      obtain ⟨sizes, hsizes, htotal⟩ := ih h
      refine ⟨size :: sizes, .cons hsize hsizes, ?_⟩
      rw [htotal, checkedAdd_some hadd, List.sum_cons, Nat.add_assoc]

/-! ### Budgets as sums -/

/-- The accounting bytes of an item that can be measured. -/
def VendorMetadata.bytes (metadata : VendorMetadata) : Nat :=
  match metadata.measure with
  | .ok size => size
  | .error _ => 0

theorem withinMetadataBudget_iff {items : List VendorMetadata} :
    WithinMetadataBudget items ↔
      (∀ item ∈ items, item.measure = .ok item.bytes) ∧
        (items.map VendorMetadata.bytes).sum ≤ metadataMaxBytes := by
  have hmeasured : ∀ (items : List VendorMetadata) (sizes : List Nat),
      List.Forall₂ (fun item size => VendorMetadata.measure item = .ok size) items sizes ↔
        (∀ item ∈ items, item.measure = .ok item.bytes) ∧
          sizes = items.map VendorMetadata.bytes := by
    intro items
    induction items with
    | nil => simp
    | cons item rest ih =>
      intro sizes
      rw [List.forall₂_cons_left_iff]
      constructor
      · rintro ⟨size, others, hsize, hothers, rfl⟩
        obtain ⟨hrest, rfl⟩ := (ih others).mp hothers
        have hbytes : item.bytes = size := by
          rw [VendorMetadata.bytes, hsize]
        rw [List.forall_mem_cons, List.map_cons, hbytes]
        exact ⟨⟨hsize, hrest⟩, rfl⟩
      · rintro ⟨hall, rfl⟩
        rw [List.forall_mem_cons] at hall
        exact ⟨item.bytes, _, hall.1, (ih _).mpr ⟨hall.2, rfl⟩, rfl⟩
  unfold WithinMetadataBudget
  constructor
  · rintro ⟨sizes, hsizes, hsum⟩
    obtain ⟨hall, rfl⟩ := (hmeasured items sizes).mp hsizes
    exact ⟨hall, hsum⟩
  · rintro ⟨hall, hsum⟩
    exact ⟨_, (hmeasured items _).mpr ⟨hall, rfl⟩, hsum⟩

/-- A list within the budget stays within it when items are left out or reordered. -/
theorem WithinMetadataBudget.of_subperm {items others : List VendorMetadata}
    (h : WithinMetadataBudget others) (hsub : items.Subperm others) :
    WithinMetadataBudget items := by
  rw [withinMetadataBudget_iff] at h ⊢
  refine ⟨fun item hitem => h.1 item (hsub.subset hitem), ?_⟩
  obtain ⟨kept, hperm, hsublist⟩ := hsub
  calc (items.map VendorMetadata.bytes).sum
      = (kept.map VendorMetadata.bytes).sum := ((hperm.map _).sum_eq).symm
    _ ≤ (others.map VendorMetadata.bytes).sum :=
      (hsublist.map _).sum_le_sum fun _ _ => Nat.zero_le _
    _ ≤ metadataMaxBytes := h.2

/-- A list within the budget is measured to the sum of its items. -/
theorem measureVendorMetadata_sum {items : List VendorMetadata} {bytes : Nat}
    (hall : ∀ item ∈ items, item.measure = .ok item.bytes)
    (hfit : bytes + (items.map VendorMetadata.bytes).sum ≤ usizeMax) :
    measureVendorMetadata items bytes = .ok (bytes + (items.map VendorMetadata.bytes).sum) := by
  induction items generalizing bytes with
  | nil => rfl
  | cons item rest ih =>
    rw [List.forall_mem_cons] at hall
    rw [List.map_cons, List.sum_cons, ← Nat.add_assoc] at hfit ⊢
    have hadd : checkedAdd bytes item.bytes = some (bytes + item.bytes) := by
      rw [checkedAdd, if_pos (by omega)]
    rw [measureVendorMetadata, hall.1, ← ih hall.2 hfit]
    simp only [bind, Except.bind, hadd]

/-! ## Operations keep the invariant -/

section Steps
variable {application next : Application}

theorem addImageAcquisition_wellFormed {acquisition : Sourced ImageAcquisition}
    (h : application.WellFormed) (hnext : application.addImageAcquisition acquisition = .ok next) :
    next.WellFormed := by
  obtain ⟨_, hfresh, hresult⟩ := bind_eq_ok.mp hnext
  cases hresult
  exact { h with
    acquisitions_unique := Naming.nodup_append h.acquisitions_unique (ensureUnique_eq_ok.mp hfresh)
    services_admitted := fun service hservice =>
      (h.services_admitted service hservice).mono Naming.subset_append (List.Subset.refl _) }

theorem addImageBuild_wellFormed {build : Sourced ImageBuild}
    (h : application.WellFormed) (hnext : application.addImageBuild build = .ok next) :
    next.WellFormed := by
  obtain ⟨_, hfresh, hresult⟩ := bind_eq_ok.mp hnext
  cases hresult
  exact { h with
    builds_unique := Naming.nodup_append h.builds_unique (ensureUnique_eq_ok.mp hfresh)
    services_admitted := fun service hservice =>
      (h.services_admitted service hservice).mono (List.Subset.refl _) Naming.subset_append }

theorem addVolume_wellFormed {volume : Sourced Volume}
    (h : application.WellFormed) (hnext : application.addVolume volume = .ok next) :
    next.WellFormed := by
  obtain ⟨_, hfresh, hresult⟩ := bind_eq_ok.mp hnext
  cases hresult
  exact { h with
    volumes_unique := Naming.nodup_append h.volumes_unique (ensureUnique_eq_ok.mp hfresh)
    evidence_owned := fun evidence hevidence =>
      (h.evidence_owned evidence hevidence).mono (List.Subset.refl _) Naming.subset_append }

theorem addNetwork_wellFormed {network : Sourced Network}
    (h : application.WellFormed) (hnext : application.addNetwork network = .ok next) :
    next.WellFormed := by
  obtain ⟨_, hfresh, hresult⟩ := bind_eq_ok.mp hnext
  cases hresult
  exact { h with
    networks_unique := Naming.nodup_append h.networks_unique (ensureUnique_eq_ok.mp hfresh) }

theorem addConfig_wellFormed {config : Sourced Config}
    (h : application.WellFormed) (hnext : application.addConfig config = .ok next) :
    next.WellFormed := by
  obtain ⟨_, hfresh, hresult⟩ := bind_eq_ok.mp hnext
  cases hresult
  exact { h with
    configs_unique := Naming.nodup_append h.configs_unique (ensureUnique_eq_ok.mp hfresh) }

theorem addSecret_wellFormed {secret : Sourced Secret}
    (h : application.WellFormed) (hnext : application.addSecret secret = .ok next) :
    next.WellFormed := by
  obtain ⟨_, hfresh, hresult⟩ := bind_eq_ok.mp hnext
  cases hresult
  exact { h with
    secrets_unique := Naming.nodup_append h.secrets_unique (ensureUnique_eq_ok.mp hfresh) }

theorem addService_wellFormed {service : Sourced Service}
    (h : application.WellFormed) (hnext : application.addService service = .ok next) :
    next.WellFormed := by
  obtain ⟨_, hfresh, hnext⟩ := bind_eq_ok.mp hnext
  obtain ⟨_, hexclusive, hnext⟩ := bind_eq_ok.mp hnext
  obtain ⟨_, hdeferred, hnext⟩ := bind_eq_ok.mp hnext
  obtain ⟨_, hacquisition, hnext⟩ := bind_eq_ok.mp hnext
  obtain ⟨_, hbuild, hresult⟩ := bind_eq_ok.mp hnext
  cases hresult
  have hadmitted : service.value.Admitted application.imageAcquisitionNames
      application.imageBuildNames := {
    acquisition_declared := ensureDeclared_eq_ok hacquisition
    build_declared := ensureDeclared_eq_ok hbuild
    rootfs_exclusive := validateImageSourceExclusivity_eq_ok hexclusive
    deferred_valid := hdeferred }
  exact { h with
    services_unique := Naming.nodup_append h.services_unique (ensureUnique_eq_ok.mp hfresh)
    services_admitted := Naming.forall_append h.services_admitted hadmitted
    members_declared := fun group hgroup member hmember =>
      Naming.subset_append (h.members_declared group hgroup member hmember)
    evidence_owned := fun evidence hevidence =>
      (h.evidence_owned evidence hevidence).mono Naming.subset_append (List.Subset.refl _)
    metadata_owned := fun metadata hmetadata owner howner =>
      Naming.subset_append (h.metadata_owned metadata hmetadata owner howner) }

theorem addServiceGroup_wellFormed {group : Sourced ServiceGroup}
    (h : application.WellFormed) (hnext : application.addServiceGroup group = .ok next) :
    next.WellFormed := by
  obtain ⟨_, hfresh, hnext⟩ := bind_eq_ok.mp hnext
  obtain ⟨_, hmembers, hresult⟩ := bind_eq_ok.mp hnext
  cases hresult
  have hmembers := checkGroupMembers_eq_ok hmembers
  have hdisjoint : ∀ earlier ∈ application.serviceGroups,
      (earlier.value.members.map Sourced.value).Disjoint
        (group.value.members.map Sourced.value) := by
    intro earlier hearlier name hname hnew
    obtain ⟨member, hmember, rfl⟩ := List.mem_map.mp hnew
    exact (hmembers member hmember).2 earlier hearlier hname
  exact { h with
    groups_unique := Naming.nodup_append h.groups_unique (ensureUnique_eq_ok.mp hfresh)
    members_declared := Naming.forall_append h.members_declared fun member hmember =>
      (hmembers member hmember).1
    members_once := Naming.forall_append h.members_once group.value.distinct
    groups_disjoint := Naming.pairwise_append h.groups_disjoint hdisjoint }

theorem addRetainedNativeEvidence_wellFormed {evidence : RetainedNativeEvidence}
    (h : application.WellFormed)
    (hnext : application.addRetainedNativeEvidence evidence = .ok next) : next.WellFormed := by
  have howned : evidence.OwnerDeclared application.serviceNames application.volumeNames ∧
      next = { application with
        retainedNativeEvidence := application.retainedNativeEvidence ++ [evidence] } := by
    unfold Application.addRetainedNativeEvidence at hnext
    rw [accept_eq_ok] at hnext
    obtain ⟨hpresent, rfl⟩ := hnext
    refine ⟨?_, rfl⟩
    unfold RetainedNativeEvidence.OwnerDeclared
    cases hsubject : evidence.subject <;>
      simpa [hsubject, RetainedNativeEvidenceSubject.owner] using hpresent
  obtain ⟨howned, rfl⟩ := howned
  exact { h with evidence_owned := Naming.forall_append h.evidence_owned howned }

theorem addVendorMetadata_wellFormed {metadata : VendorMetadata}
    (h : application.WellFormed) (hnext : application.addVendorMetadata metadata = .ok next) :
    next.WellFormed := by
  unfold Application.addVendorMetadata at hnext
  simp only [guard_eq_ok] at hnext
  obtain ⟨howner, hidentity, hnext⟩ := hnext
  obtain ⟨first, hfirst, hnext⟩ := bind_eq_ok.mp hnext
  obtain ⟨bytes, hbytes, hnext⟩ := bind_eq_ok.mp hnext
  rw [guard_eq_ok] at hnext
  obtain ⟨hbudget, hresult⟩ := hnext
  cases hresult
  obtain ⟨sizes, hsizes, htotal⟩ := measureVendorMetadata_eq_ok hbytes
  have hknown : ∀ owner, metadata.scope = .service owner → owner ∈ application.serviceNames := by
    intro owner hscope
    rw [hscope] at howner
    simpa using howner
  have hfresh : metadata.identity ∉ application.vendorMetadata.map VendorMetadata.identity := by
    intro hmember
    obtain ⟨existing, hexisting, hsame⟩ := List.mem_map.mp hmember
    apply hidentity
    rw [List.any_eq_true]
    exact ⟨existing, hexisting, by simpa [VendorMetadata.identity] using hsame⟩
  exact { h with
    metadata_owned := Naming.forall_append h.metadata_owned hknown
    metadata_identities := Naming.nodup_append h.metadata_identities hfresh
    metadata_budget := by
      refine ⟨sizes ++ [first], List.rel_append hsizes (.cons hfirst .nil), ?_⟩
      rw [List.sum_append, List.sum_singleton]
      omega }

theorem withhold_admitted {service : Service} {acquisitions builds : List Identifier}
    (h : service.Admitted acquisitions builds) :
    service.withholdLiteralEnvironmentValues.Admitted acquisitions builds where
  acquisition_declared := h.acquisition_declared
  build_declared := h.build_declared
  rootfs_exclusive := h.rootfs_exclusive
  deferred_valid := by
    rw [← h.deferred_valid]
    -- Withholding touches no deferred value, so the expressions in use are the same.
    have hexpressions : service.withholdLiteralEnvironmentValues.deferredExpressions =
        service.deferredExpressions := by
      unfold Service.deferredExpressions Service.withholdLiteralEnvironmentValues
      rw [List.filterMap_map]
      congr 2
      funext entry
      cases hvalue : entry.value.value <;> simp [EnvironmentValue.withhold, hvalue]
    unfold Service.validateDeferred
    rw [hexpressions]
    rfl

theorem withholdLiteralEnvironmentValues_wellFormed (h : application.WellFormed) :
    application.withholdLiteralEnvironmentValues.WellFormed := by
  have hnames : application.withholdLiteralEnvironmentValues.serviceNames =
      application.serviceNames := by
    unfold Application.withholdLiteralEnvironmentValues Application.serviceNames
    rw [List.map_map]
    rfl
  exact { h with
    services_unique := hnames ▸ h.services_unique
    services_admitted := by
      intro service hservice
      obtain ⟨original, horiginal, rfl⟩ := List.mem_map.mp hservice
      exact withhold_admitted (h.services_admitted original horiginal)
    members_declared := hnames ▸ h.members_declared
    evidence_owned := hnames ▸ h.evidence_owned
    metadata_owned := hnames ▸ h.metadata_owned }

theorem Operation.apply_preserves :
    CommandRuns.Preserves Operation.apply Application.WellFormed := by
  intro operation application next h hnext
  cases operation with
  | addImageAcquisition acquisition =>
    exact addImageAcquisition_wellFormed h (mapError_eq_ok.mp hnext)
  | addImageBuild build => exact addImageBuild_wellFormed h (mapError_eq_ok.mp hnext)
  | addVolume volume => exact addVolume_wellFormed h (mapError_eq_ok.mp hnext)
  | addNetwork network => exact addNetwork_wellFormed h (mapError_eq_ok.mp hnext)
  | addConfig config => exact addConfig_wellFormed h (mapError_eq_ok.mp hnext)
  | addSecret secret => exact addSecret_wellFormed h (mapError_eq_ok.mp hnext)
  | addService service => exact addService_wellFormed h (mapError_eq_ok.mp hnext)
  | addServiceGroup group => exact addServiceGroup_wellFormed h (mapError_eq_ok.mp hnext)
  | addRetainedNativeEvidence evidence =>
    exact addRetainedNativeEvidence_wellFormed h (mapError_eq_ok.mp hnext)
  | addVendorMetadata metadata => exact addVendorMetadata_wellFormed h (mapError_eq_ok.mp hnext)
  | withholdLiteralEnvironmentValues =>
    cases hnext
    exact withholdLiteralEnvironmentValues_wellFormed h

end Steps

/-- The graph a sequence of attempted operations builds from an empty application. -/
def Application.reachedBy (name : Identifier) (operations : List Operation) : Application :=
  CommandRuns.run Operation.apply (Application.new name) operations

/-- Every graph built by attempted operations, in any order and with any
arguments, satisfies the representation invariant. -/
theorem Application.reachedBy_wellFormed (name : Identifier) (operations : List Operation) :
    (Application.reachedBy name operations).WellFormed :=
  CommandRuns.run_invariant Operation.apply_preserves (Application.new_wellFormed name) operations

end Boxferry.Model
