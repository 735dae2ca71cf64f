import Boxferry.Podman.Containers

/-! # Kept resources

What each resource mapper reports when the intent is kept: the resources and
dependencies it adds, and the parts it calls lost. -/
namespace Boxferry.Podman
open Engine Model Attempts
set_option autoImplicit false

/-! ## Reports of a mapper -/

/-- The resources a report adds to the intent. -/
def added (log : List Event) : List DeploymentResource := log.filterMap Event.resource?

/-- The startup dependencies a report adds to the intent. -/
def edges (log : List Event) : List StartupDependency := log.filterMap Event.dependency?

@[simp] theorem added_append (left right : List Event) :
    added (left ++ right) = added left ++ added right :=
  List.filterMap_append

@[simp] theorem edges_append (left right : List Event) :
    edges (left ++ right) = edges left ++ edges right :=
  List.filterMap_append

theorem added_flatMap {ι : Type} (items : List ι) (log : ι → List Event) :
    added (items.flatMap log) = items.flatMap fun item => added (log item) :=
  List.filterMap_flatMap

theorem edges_flatMap {ι : Type} (items : List ι) (log : ι → List Event) :
    edges (items.flatMap log) = items.flatMap fun item => edges (log item) :=
  List.filterMap_flatMap

theorem mem_lost_flatMap {ι : Type} {items : List ι} {log : ι → List Event} {subject : Subject} :
    subject ∈ lost (items.flatMap log) ↔ ∃ item ∈ items, subject ∈ lost (log item) := by
  unfold lost
  rw [List.filterMap_flatMap, List.mem_flatMap]

theorem added_of_silent {log : List Event} (h : Silent log) : added log = [] := resources_of_silent h

theorem edges_of_silent {log : List Event} (h : Silent log) : edges log = [] := dependencies_of_silent h

/-- The parts of a resource that `reportFields` calls lost. -/
def lostFields (kind : SubjectKind) (name : String) (fields : List (String × String × Bool)) :
    List Event :=
  (fields.filter fun field => field.2.2).map fun field =>
    Event.unsupported (.part kind name field.1) field.2.1

/-- A completed resource and its outcome. -/
def addedEntries (subject : Subject) (resource : DeploymentResource) : List Event :=
  [.resource resource, .exact subject]

@[simp] theorem added_addedEntries (subject : Subject) (resource : DeploymentResource) :
    added (addedEntries subject resource) = [resource] := rfl

@[simp] theorem edges_addedEntries (subject : Subject) (resource : DeploymentResource) :
    edges (addedEntries subject resource) = [] := rfl

@[simp] theorem lost_addedEntries (subject : Subject) (resource : DeploymentResource) :
    lost (addedEntries subject resource) = [] := rfl

section Fields
variable {kind : SubjectKind} {name : String} {fields : List (String × String × Bool)}

@[simp] theorem log_reportFields : (reportFields kind name fields).log = lostFields kind name fields := by
  unfold reportFields lostFields unsupported
  exact Reports.log_forM_report (fun field : String × String × Bool =>
    Event.unsupported (.part kind name field.1) field.2.1) _

@[simp] theorem added_lostFields : added (lostFields kind name fields) = [] := by
  unfold added lostFields
  rw [List.filterMap_map]
  exact List.filterMap_eq_nil_iff.mpr fun _ _ => rfl

@[simp] theorem edges_lostFields : edges (lostFields kind name fields) = [] := by
  unfold edges lostFields
  rw [List.filterMap_map]
  exact List.filterMap_eq_nil_iff.mpr fun _ _ => rfl

/-- Exactly the populated fields are reported lost. -/
theorem mem_lost_lostFields {subject : Subject} :
    subject ∈ lost (lostFields kind name fields) ↔
      ∃ field ∈ fields, field.2.2 = true ∧ subject = .part kind name field.1 := by
  constructor
  · intro h
    obtain ⟨event, hevent, hloss⟩ := List.mem_filterMap.mp h
    obtain ⟨field, hfield, rfl⟩ := List.mem_map.mp hevent
    obtain ⟨hmem, hpopulated⟩ := List.mem_filter.mp hfield
    exact ⟨field, hmem, hpopulated, (Option.some.inj hloss).symm⟩
  · rintro ⟨field, hfield, hpopulated, rfl⟩
    exact mem_lost_of_unsupported (List.mem_map_of_mem (List.mem_filter.mpr ⟨hfield, hpopulated⟩))

end Fields

/-! ## Networks, volumes and secrets -/

section Owned
variable {m : Mapping} {identities : Identities}

/-- What a resource is added as under its ownership. -/
def ownedResource (ownership : ResourceOwnership) (id : DeploymentResourceId)
    (managed : DeploymentResource) : DeploymentResource :=
  if ownership = .application then managed else .externalPrecondition id

def networkId (network : Sourced Network) : DeploymentResourceId := ⟨.network, network.value.name.asStr⟩

def networkResource (network : Sourced Network) : DeploymentResource :=
  ownedResource network.value.ownership (networkId network) (.network (networkId network))

def volumeResource (volume : Sourced Volume) : DeploymentResource :=
  ownedResource volume.value.ownership (volumeId volume) (.volume (volumeId volume))

def secretId (secret : Sourced Secret) : DeploymentResourceId := ⟨.secret, secret.value.name.asStr⟩

def secretResource (secret : Sourced Secret) : DeploymentResource :=
  ownedResource secret.value.ownership (secretId secret)
    (.secret (secretId secret) ("boxferry-secret-" ++ secret.value.name.asStr))

theorem mapNetwork_kept {network : Sourced Network}
    (hkept : Keeps (m.mapNetwork identities network).log) :
    (m.mapNetwork identities network).log =
      addedEntries (.resource .network network.value.name.asStr) (networkResource network) ++
        lostFields .network network.value.name.asStr (Mapping.networkFields network.value) := by
  unfold Mapping.mapNetwork at hkept ⊢
  rw [Reports.log_bind, keeps_append] at hkept
  rw [Reports.log_bind, log_reportFields]
  obtain ⟨resource, entries, hyields, hlog⟩ := addResourceResult_kept hkept.1
  obtain ⟨id, before, after, hid, howned, rfl⟩ := yields_bind.mp hyields
  obtain ⟨rfl, -, rfl⟩ := resourceId_yields (by decide) hid
  obtain ⟨rfl, rfl⟩ := owned_yields howned
  rw [hlog]
  rfl

theorem mapVolume_kept {volume : Sourced Volume}
    (hlookup : identities.volumes.lookup (volumeKey volume) = some (volumeName volume))
    (hkept : Keeps (m.mapVolume identities volume).log) :
    m.lens.rejects (.resourceId (volumeId volume)) = none ∧
      (m.mapVolume identities volume).log =
        addedEntries (.resource .volume (volumeKey volume)) (volumeResource volume) ++
          lostFields .volume (volumeKey volume) (Mapping.volumeFields volume.value) := by
  unfold Mapping.mapVolume at hkept ⊢
  unfold volumeKey at hlookup ⊢
  simp only [hlookup] at hkept ⊢
  rw [Reports.log_bind, keeps_append] at hkept
  rw [Reports.log_bind, log_reportFields]
  obtain ⟨resource, entries, hyields, hlog⟩ := addResourceResult_kept hkept.1
  obtain ⟨id, before, after, hid, howned, rfl⟩ := yields_bind.mp hyields
  obtain ⟨rfl, hvalid, rfl⟩ := resourceId_yields (by decide) hid
  obtain ⟨rfl, rfl⟩ := owned_yields howned
  rw [hlog]
  exact ⟨hvalid, rfl⟩

theorem mapSecret_kept {secret : Sourced Secret} (hkept : Keeps (m.mapSecret identities secret).log) :
    (m.mapSecret identities secret).log =
      addedEntries (.resource .secret secret.value.name.asStr) (secretResource secret) ++
        lostFields .secret secret.value.name.asStr (Mapping.secretFields secret.value) := by
  unfold Mapping.mapSecret at hkept ⊢
  rw [Reports.log_bind, keeps_append] at hkept
  rw [Reports.log_bind, log_reportFields]
  obtain ⟨resource, entries, hyields, hlog⟩ := addResourceResult_kept hkept.1
  obtain ⟨id, before, after, hid, hnext, rfl⟩ := yields_bind.mp hyields
  obtain ⟨rfl, -, rfl⟩ := resourceId_yields (by decide) hid
  have hsecret : resource = secretResource secret ∧ after = [] := by
    unfold secretResource ownedResource
    by_cases howned : secret.value.ownership = .application
    · simp only [if_pos howned, call_bind, yields_pure] at hnext ⊢
      exact ⟨hnext.2.2.1.symm, hnext.2.2.2⟩
    · simp only [if_neg howned] at hnext ⊢
      have hresource := owned_yields hnext
      rw [if_neg howned] at hresource
      exact hresource
  obtain ⟨rfl, rfl⟩ := hsecret
  rw [hlog]
  rfl

/-! ## Groups -/

/-- What a group reports when the application does not own it. -/
theorem mapGroup_external {group : Sourced ServiceGroup} (hexternal : group.value.ownership ≠ .application) :
    added (m.mapGroup identities group).log = [] ∧ edges (m.mapGroup identities group).log = [] ∧
      lost (m.mapGroup identities group).log =
        [.part .group group.value.name.asStr "ownership", .part .group group.value.name.asStr "members"] := by
  unfold Mapping.mapGroup
  simp only [if_pos hexternal]
  exact ⟨rfl, rfl, rfl⟩

theorem mapGroup_kept {group : Sourced ServiceGroup} (howned : group.value.ownership = .application)
    (hkept : Keeps (m.mapGroup identities group).log) :
    ∃ pod, pod.id = ⟨.pod, group.value.name.asStr⟩ ∧
      pod.members.map some = group.value.members.map (fun member =>
        identities.containers.lookup member.value.asStr) ∧
      (m.mapGroup identities group).log =
        addedEntries (.resource .group group.value.name.asStr) (.pod pod) ++
          lostFields .group group.value.name.asStr (Mapping.groupFields group.value) := by
  unfold Mapping.mapGroup at hkept ⊢
  have hsame : ¬ group.value.ownership ≠ .application := fun hne => hne howned
  simp only [if_neg hsame] at hkept ⊢
  rw [Reports.log_bind, keeps_append] at hkept
  rw [Reports.log_bind, log_reportFields]
  obtain ⟨resource, entries, hyields, hlog⟩ := addResourceResult_kept hkept.1
  obtain ⟨id, log1, rest1, hid, h1, rfl⟩ := yields_bind.mp hyields
  obtain ⟨rfl, -, rfl⟩ := resourceId_yields (by decide) hid
  obtain ⟨-, h2⟩ := call_bind.mp h1
  obtain ⟨pod, log3, rest3, hmembers, h3, rfl⟩ := yields_bind.mp h2
  obtain ⟨rfl, rfl⟩ := yields_pure.mp h3
  obtain ⟨rfl, hpod, hmembers⟩ := addMembers_yields hmembers
  refine ⟨pod, hpod, ?_, ?_⟩
  · rw [hmembers]
    rfl
  · rw [hlog]
    rfl

end Owned

/-! ## Services -/

section Services
variable {m : Mapping} {identities : Identities} {service : Service}

/-- What a service contributes to a kept intent. -/
structure ServiceKept (m : Mapping) (identities : Identities) (service : Service)
    (image : Sourced ImageReference) (policy : ImagePullPolicy) (container : ContainerIntent)
    (log : List Event) : Prop where
  source : service.image = some image
  pulled : ∀ neutral, service.pullPolicy = some neutral →
    CarriedOrLost (pullPolicy? neutral.value = some policy) log service ["pull_policy"]
  carried : ContainerCarry m identities service container log
  fields : ∀ field ∈ Mapping.unmappedFields service, field.2 = true →
    Mapping.servicePart service field.1 ∈ lost log
  resources : added log =
    [.image ⟨.image, Mapping.imageName service⟩ image.value.asStr policy, .container container]
  dependencies : edges log = []
  concerns : ∀ subject ∈ lost log, ∃ name field, subject = .part .service name field

theorem concerns_of_silent {log : List Event} (h : Silent log) :
    ∀ subject ∈ lost log, ∃ name field, subject = .part .service name field := by
  intro subject hsubject
  obtain ⟨event, hevent, hloss⟩ := List.mem_filterMap.mp hsubject
  exact (h event hevent).2.2 subject hloss

/-- A kept service reports its image, its container and its fields without a mapping, in turn. -/
theorem serviceKept_of_parts {image : Sourced ImageReference} {policy : ImagePullPolicy}
    {container : ContainerIntent} {pulled built named : List Event} {subject : Subject}
    (himage : service.image = some image) (hpulled : Silent pulled)
    (hpolicy : ∀ neutral, service.pullPolicy = some neutral →
      CarriedOrLost (pullPolicy? neutral.value = some policy) pulled service ["pull_policy"])
    (hbuilt : Silent built) (hcarry : ContainerCarry m identities service container built)
    (hnamed : Silent named) :
    ServiceKept m identities service image policy container
      ((pulled ++ addedEntries (Mapping.servicePart service "image")
          (.image ⟨.image, Mapping.imageName service⟩ image.value.asStr policy)) ++
        (built ++ (named ++ (addedEntries subject (.container container) ++
          lostFields .service service.name.asStr (Mapping.serviceFields service))))) where
  source := himage
  pulled neutral hneutral := (hpolicy neutral hneutral).mono id fun subject hmem => by simp [hmem]
  carried := hcarry.mono fun subject hmem => by simp [hmem]
  fields field hfield hpopulated := by
    have hlost : Mapping.servicePart service field.1 ∈
        lost (lostFields .service service.name.asStr (Mapping.serviceFields service)) :=
      mem_lost_lostFields.mpr ⟨_, List.mem_map_of_mem hfield, hpopulated, rfl⟩
    simp [hlost]
  resources := by simp [added_of_silent hpulled, added_of_silent hbuilt, added_of_silent hnamed]
  dependencies := by simp [edges_of_silent hpulled, edges_of_silent hbuilt, edges_of_silent hnamed]
  concerns other hother := by
    simp only [lost_append, List.mem_append, lost_addedEntries, List.not_mem_nil, or_false, false_or]
      at hother
    rcases hother with hother | hother | hother | hother
    · exact concerns_of_silent hpulled other hother
    · exact concerns_of_silent hbuilt other hother
    · exact concerns_of_silent hnamed other hother
    · obtain ⟨field, -, -, rfl⟩ := mem_lost_lostFields.mp hother
      exact ⟨_, _, rfl⟩

theorem mapService_kept
    (hknown : ∀ mount ∈ service.mounts, ∀ name, mount.value.source = .volume name →
      ∃ identity, identities.volumes.lookup name.asStr = some identity)
    (hkept : Keeps (m.mapService identities service).log) :
    ∃ image policy container pulled built, Yields (Mapping.mapPullPolicy service) policy pulled ∧
      Yields (m.buildContainer identities service) container built ∧ Keeps built ∧
      ServiceKept m identities service image policy container (m.mapService identities service).log := by
  unfold Mapping.mapService at hkept ⊢
  cases himage : service.image with
  | none => simp [himage, error, Keeps, Event.rejects] at hkept
  | some image =>
    simp only [himage, Reports.log_bind, keeps_append] at hkept ⊢
    obtain ⟨himageKept, hcontainerKept, hrest⟩ := hkept
    obtain ⟨resource, entries, hyields, hlog⟩ := addResourceResult_kept himageKept
    obtain ⟨policy, rfl, hpulled⟩ := buildImage_yields hyields
    obtain ⟨hsilent, hpolicy⟩ := mapPullPolicy_yields hpulled
    cases hresult : Reports.value (m.buildContainer identities service).run with
    | error reason =>
      have hrejects := hrest (.nativeError (.resource .service service.name.asStr) reason) (by
        rw [hresult]
        simp [Except.isOk, Except.toBool, nativeError])
      cases hrejects
    | ok container =>
      obtain ⟨hbuilt, hcarry⟩ := buildContainer_yields hknown ⟨hresult, rfl⟩ hcontainerKept
      rw [hlog]
      refine ⟨image, policy, container, entries, _, hpulled, ⟨hresult, rfl⟩, hcontainerKept, ?_⟩
      by_cases hnamed : service.runtimeName.isSome = true
      · have hreport : (Except.isOk (Except.ok container : Except NativeError ContainerIntent) &&
            service.runtimeName.isSome) = true := by
          rw [hnamed]
          rfl
        simp only [if_pos hreport, Reports.log_bind, log_reportFields]
        exact serviceKept_of_parts himage hsilent hpolicy hbuilt hcarry
          (silent_cons.mpr ⟨isSilent_exact _, silent_nil⟩)
      · have hreport : ¬ (Except.isOk (Except.ok container : Except NativeError ContainerIntent) &&
            service.runtimeName.isSome) = true := by
          rw [Bool.and_eq_true]
          exact fun hboth => hnamed hboth.2
        simp only [if_neg hreport, Reports.log_bind, log_reportFields]
        exact serviceKept_of_parts himage hsilent hpolicy hbuilt hcarry silent_nil

end Services

/-! ## Dependencies -/

section Dependencies
variable {m : Mapping} {identities : Identities}

/-- A dependency with an option that startup edges do not represent. -/
def hasOptions (dependency : ServiceDependency) : Bool :=
  dependency.condition.isSome || dependency.restart.isSome || dependency.required.isSome

/-- The ends of a startup edge, found by logical service name. -/
def endpoints (identities : Identities) (service : Service) (dependency : ServiceDependency) :
    Option DeploymentResourceId × Option DeploymentResourceId :=
  (identities.containers.lookup dependency.service.asStr,
    identities.containers.lookup service.name.asStr)

def edgeEnds (edge : StartupDependency) : Option DeploymentResourceId × Option DeploymentResourceId :=
  (some edge.predecessor, some edge.dependent)

theorem mapDependency_kept {service : Service} {item : Sourced ServiceDependency × Nat}
    (hkept : Keeps (m.mapDependency identities service item).log) :
    added (m.mapDependency identities service item).log = [] ∧
      (edges (m.mapDependency identities service item).log).map edgeEnds =
        [endpoints identities service item.1.value] ∧
      lost (m.mapDependency identities service item).log =
        if hasOptions item.1.value then
          [Mapping.servicePart service (Mapping.dependencyPart item.2 ++ ".options")]
        else [] := by
  unfold Mapping.mapDependency at hkept ⊢
  simp only [Reports.log_bind, keeps_append] at hkept ⊢
  cases hresult : Reports.value (m.buildDependency identities service item.1.value).run with
  | error reason =>
    have hrejects := hkept.2 (.nativeError (Mapping.servicePart service (Mapping.dependencyPart item.2)) reason)
      (by rw [hresult]; simp [nativeError])
    cases hrejects
  | ok edge =>
    obtain ⟨hlog, hpredecessor, hdependent⟩ := buildDependency_yields ⟨hresult, rfl⟩
    have hends : edgeEnds edge = endpoints identities service item.1.value := by
      unfold edgeEnds endpoints
      rw [hpredecessor, hdependent]
    rw [hlog, List.nil_append, ← hends]
    by_cases hoptions : hasOptions item.1.value = true
    · have hreported := hoptions
      unfold hasOptions at hreported
      simp only [if_pos hoptions, if_pos hreported]
      exact ⟨rfl, rfl, rfl⟩
    · have hreported := hoptions
      unfold hasOptions at hreported
      simp only [if_neg hoptions, if_neg hreported]
      exact ⟨rfl, rfl, rfl⟩

end Dependencies
end Boxferry.Podman
