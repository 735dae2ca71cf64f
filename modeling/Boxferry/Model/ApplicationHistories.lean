import Boxferry.Model.ApplicationRuns

/-! # Histories of application graphs

The converse of the run theorem: a graph that satisfies the representation
invariant is left by a run of the operations that declares its resources in
dependency order. -/
namespace Boxferry.Model
open Results
set_option autoImplicit false

/-! ## Conditions under which an operation is accepted -/

theorem ensureDeclared_of {reference : Option (Sourced Identifier)} {declared : List Identifier}
    {unknown : String → ModelError} (h : ∀ name, reference = some name → name.value ∈ declared) :
    ensureDeclared reference declared unknown = .ok () := by
  cases reference with
  | none => rfl
  | some name =>
    have hdeclared := h name rfl
    rw [ensureDeclared, if_neg (not_not.mpr hdeclared)]

theorem validateImageSourceExclusivity_of {service : Service}
    (h : service.rootfs.isSome → service.image = none ∧ service.imageAcquisition = none ∧ service.imageBuild = none) :
    service.validateImageSourceExclusivity = .ok () := by
  unfold Service.validateImageSourceExclusivity
  by_cases hrootfs : service.rootfs.isSome
  · obtain ⟨himage, hacquisition, hbuild⟩ := h hrootfs
    rw [if_pos hrootfs, Service.ensureRootfsIsCompatible, himage, hacquisition, hbuild]
    rfl
  · rw [if_neg hrootfs]

theorem checkGroupMembers_of {application : Application} {group : ServiceGroup}
    {members : List (Sourced Identifier)}
    (hdeclared : ∀ member ∈ members, member.value ∈ application.serviceNames)
    (hfree : ∀ member ∈ members, application.groupOf member.value = none) :
    application.checkGroupMembers group members = .ok () := by
  induction members with
  | nil => rfl
  | cons member rest ih =>
    rw [List.forall_mem_cons] at hdeclared hfree
    have hrest := ih hdeclared.2 hfree.2
    rw [Application.checkGroupMembers, if_neg (not_not.mpr hdeclared.1), hfree.1]
    exact hrest

theorem Application.addService_of {application : Application} {service : Sourced Service}
    (hfresh : service.value.name ∉ application.serviceNames)
    (h : service.value.Admitted application.imageAcquisitionNames application.imageBuildNames) :
    application.addService service = .ok { application with services := application.services ++ [service] } := by
  have hexclusive := validateImageSourceExclusivity_of h.rootfs_exclusive
  rw [Application.addService, ensureUnique_eq_ok.mpr hfresh, hexclusive, h.deferred_valid,
    ensureDeclared_of h.acquisition_declared, ensureDeclared_of h.build_declared]
  rfl

theorem Application.addServiceGroup_of {application : Application} {group : Sourced ServiceGroup}
    (hfresh : group.value.name ∉ application.serviceGroupNames)
    (hdeclared : ∀ member ∈ group.value.members, member.value ∈ application.serviceNames)
    (hdisjoint : ∀ earlier ∈ application.serviceGroups,
      (earlier.value.members.map Sourced.value).Disjoint (group.value.members.map Sourced.value)) :
    application.addServiceGroup group =
      .ok { application with serviceGroups := application.serviceGroups ++ [group] } := by
  have hfree : ∀ member ∈ group.value.members, application.groupOf member.value = none := by
    intro member hmember
    rw [groupOf_eq_none]
    intro earlier hearlier hname
    exact hdisjoint earlier hearlier hname (List.mem_map_of_mem hmember)
  rw [Application.addServiceGroup, ensureUnique_eq_ok.mpr hfresh, checkGroupMembers_of hdeclared hfree]
  rfl

theorem Application.addRetainedNativeEvidence_of {application : Application} {evidence : RetainedNativeEvidence}
    (h : evidence.OwnerDeclared application.serviceNames application.volumeNames) :
    application.addRetainedNativeEvidence evidence = .ok { application with
      retainedNativeEvidence := application.retainedNativeEvidence ++ [evidence] } := by
  unfold Application.addRetainedNativeEvidence
  rw [accept_eq_ok]
  refine ⟨?_, rfl⟩
  unfold RetainedNativeEvidence.OwnerDeclared at h
  cases hsubject : evidence.subject <;> rw [hsubject] at h <;> exact decide_eq_true h

/-- A new identity with a declared owner is accepted while the whole list stays within the budget. -/
theorem Application.addVendorMetadata_of {application : Application} {metadata : VendorMetadata}
    (howner : ∀ owner, metadata.scope = .service owner → owner ∈ application.serviceNames)
    (hfresh : metadata.identity ∉ application.vendorMetadata.map VendorMetadata.identity)
    (hbudget : WithinMetadataBudget (application.vendorMetadata ++ [metadata])) :
    application.addVendorMetadata metadata =
      .ok { application with vendorMetadata := application.vendorMetadata ++ [metadata] } := by
  obtain ⟨hmeasured, hsum⟩ := withinMetadataBudget_iff.mp hbudget
  rw [List.map_append, List.sum_append, List.map_singleton, List.sum_singleton] at hsum
  have hfirst : metadata.measure = .ok metadata.bytes := hmeasured metadata (by simp)
  have hearlier : ∀ item ∈ application.vendorMetadata, item.measure = .ok item.bytes :=
    fun item hitem => hmeasured item (List.mem_append_left _ hitem)
  have hmax : metadataMaxBytes ≤ usizeMax := by decide
  have hbytes := @measureVendorMetadata_sum application.vendorMetadata metadata.bytes hearlier (by omega)
  unfold Application.addVendorMetadata
  simp only [guard_eq_ok]
  refine ⟨?_, ?_, ?_⟩
  · cases hscope : metadata.scope with
    | application => simp
    | service owner => simpa using howner owner hscope
  · intro hsame
    obtain ⟨existing, hexisting, hsame⟩ := List.any_eq_true.mp hsame
    apply hfresh
    exact List.mem_map.mpr ⟨existing, hexisting, by simpa [VendorMetadata.identity] using hsame⟩
  · rw [hfirst]
    show (measureVendorMetadata application.vendorMetadata metadata.bytes >>= _) = _
    rw [hbytes]
    show (if metadataMaxBytes < _ then _ else _) = _
    rw [if_neg (by omega)]

/-! ## Rebuilding a graph -/

/-- The operations that declare every part of a graph: what others refer to comes first. -/
def Application.declarations (application : Application) : List Operation :=
  application.imageAcquisitions.map .addImageAcquisition ++ application.imageBuilds.map .addImageBuild ++
    application.volumes.map .addVolume ++ application.networks.map .addNetwork ++
    application.configs.map .addConfig ++ application.secrets.map .addSecret ++
    application.services.map .addService ++ application.serviceGroups.map .addServiceGroup ++
    application.retainedNativeEvidence.map .addRetainedNativeEvidence ++
    application.vendorMetadata.map .addVendorMetadata

/-- Uniquely named resources that only have to be unique are declared one after another. -/
theorem run_declare_unique {α : Type} {kind : String} {name : α → Identifier} (command : Sourced α → Operation)
    (grown : List (Sourced α) → Application) {items : List (Sourced α)}
    (hcommand : ∀ before item, (command item).apply (grown before) =
      (ensureUnique kind (name item.value) (before.map fun entry => name entry.value) >>=
        fun _ => .ok (grown (before ++ [item]))).mapError .model)
    (hunique : (items.map fun entry => name entry.value).Nodup) :
    CommandRuns.run Operation.apply (grown []) (items.map command) = grown items := by
  apply CommandRuns.run_appends grown
  intro before item hbegins
  have hfresh := Naming.fresh_of_prefix hunique hbegins
  rw [hcommand, ensureUnique_eq_ok.mpr hfresh]
  rfl

section Rebuild
variable {application : Application}

theorem run_declare_services (h : application.WellFormed) (grown : List (Sourced Service) → Application)
    (hgrown : grown = fun items => { application with
      services := items, serviceGroups := [], retainedNativeEvidence := [], vendorMetadata := [] }) :
    CommandRuns.run Operation.apply (grown []) (application.services.map .addService) = grown application.services := by
  apply CommandRuns.run_appends grown
  intro before item hbegins
  rw [hgrown]
  have hitem : item ∈ application.services := hbegins.subset (by simp)
  refine mapError_eq_ok.mpr (Application.addService_of ?_ (h.services_admitted item hitem))
  exact Naming.fresh_of_prefix h.services_unique hbegins

theorem run_declare_groups (h : application.WellFormed) (grown : List (Sourced ServiceGroup) → Application)
    (hgrown : grown = fun items => { application with
      serviceGroups := items, retainedNativeEvidence := [], vendorMetadata := [] }) :
    CommandRuns.run Operation.apply (grown []) (application.serviceGroups.map .addServiceGroup) =
      grown application.serviceGroups := by
  apply CommandRuns.run_appends grown
  intro before item hbegins
  rw [hgrown]
  have hitem : item ∈ application.serviceGroups := hbegins.subset (by simp)
  have hdisjoint := h.groups_disjoint.sublist hbegins.sublist
  refine mapError_eq_ok.mpr (Application.addServiceGroup_of ?_ (h.members_declared item hitem) ?_)
  · exact Naming.fresh_of_prefix h.groups_unique hbegins
  · intro earlier hearlier
    exact (List.pairwise_append.mp hdisjoint).2.2 earlier hearlier item (List.mem_singleton_self item)

theorem run_declare_evidence (h : application.WellFormed) (grown : List RetainedNativeEvidence → Application)
    (hgrown : grown = fun items => { application with retainedNativeEvidence := items, vendorMetadata := [] }) :
    CommandRuns.run Operation.apply (grown [])
      (application.retainedNativeEvidence.map .addRetainedNativeEvidence) =
        grown application.retainedNativeEvidence := by
  apply CommandRuns.run_appends grown
  intro before item hbegins
  rw [hgrown]
  have hitem : item ∈ application.retainedNativeEvidence := hbegins.subset (by simp)
  exact mapError_eq_ok.mpr (Application.addRetainedNativeEvidence_of (h.evidence_owned item hitem))

theorem run_declare_metadata (h : application.WellFormed) (grown : List VendorMetadata → Application)
    (hgrown : grown = fun items => { application with vendorMetadata := items }) :
    CommandRuns.run Operation.apply (grown []) (application.vendorMetadata.map .addVendorMetadata) =
      grown application.vendorMetadata := by
  apply CommandRuns.run_appends grown
  intro before item hbegins
  rw [hgrown]
  have hitem : item ∈ application.vendorMetadata := hbegins.subset (by simp)
  refine mapError_eq_ok.mpr (Application.addVendorMetadata_of (h.metadata_owned item hitem) ?_ ?_)
  · exact Naming.fresh_of_prefix h.metadata_identities hbegins
  · exact h.metadata_budget.of_subperm hbegins.sublist.subperm

/-- Declaring the parts of a well-formed graph rebuilds it. -/
theorem Application.WellFormed.rebuilt (h : application.WellFormed) :
    Application.reachedBy application.name application.declarations = application := by
  unfold Application.reachedBy Application.declarations
  obtain ⟨name, evidence, metadata, acquisitions, builds, services, groups, volumes, networks, configs, secrets⟩ :=
    application
  have hacquisitions := run_declare_unique .addImageAcquisition
    (fun items => ⟨name, [], [], items, [], [], [], [], [], [], []⟩) (fun _ _ => rfl) h.acquisitions_unique
  have hbuilds := run_declare_unique .addImageBuild
    (fun items => ⟨name, [], [], acquisitions, items, [], [], [], [], [], []⟩) (fun _ _ => rfl) h.builds_unique
  have hvolumes := run_declare_unique .addVolume
    (fun items => ⟨name, [], [], acquisitions, builds, [], [], items, [], [], []⟩) (fun _ _ => rfl) h.volumes_unique
  have hnetworks := run_declare_unique .addNetwork
    (fun items => ⟨name, [], [], acquisitions, builds, [], [], volumes, items, [], []⟩)
    (fun _ _ => rfl) h.networks_unique
  have hconfigs := run_declare_unique .addConfig
    (fun items => ⟨name, [], [], acquisitions, builds, [], [], volumes, networks, items, []⟩)
    (fun _ _ => rfl) h.configs_unique
  have hsecrets := run_declare_unique .addSecret
    (fun items => ⟨name, [], [], acquisitions, builds, [], [], volumes, networks, configs, items⟩)
    (fun _ _ => rfl) h.secrets_unique
  have hservices := run_declare_services h _ rfl
  have hgroups := run_declare_groups h _ rfl
  have hevidence := run_declare_evidence h _ rfl
  have hmetadata := run_declare_metadata h _ rfl
  simp only [CommandRuns.run_append, Application.new]
  rw [hacquisitions, hbuilds, hvolumes, hnetworks, hconfigs, hsecrets, hservices, hgroups, hevidence, hmetadata]

end Rebuild

/-- The invariant is exactly reachability: what it allows, some run of the operations builds. -/
theorem Application.wellFormed_iff_reached (application : Application) :
    application.WellFormed ↔
      ∃ operations, Application.reachedBy application.name operations = application := by
  constructor
  · intro h
    exact ⟨application.declarations, h.rebuilt⟩
  · rintro ⟨operations, hreached⟩
    rw [← hreached]
    exact CommandRuns.run_invariant Operation.apply_preserves (Application.new_wellFormed _) operations

end Boxferry.Model
