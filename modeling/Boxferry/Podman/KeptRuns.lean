import Boxferry.Podman.Resources

/-! # Runs that keep their intent

The identities that a kept run has prepared, and what its mappers add with them. -/
namespace Boxferry.Podman
open Engine Model
set_option autoImplicit false

/-! ## Preparation -/

/-- An event of the preparation: an exact outcome, or a rejection. -/
def Event.isPreparation (event : Event) : Prop :=
  (∃ subject, event = .exact subject) ∨ event.rejects = true

def Preparatory (log : List Event) : Prop := ∀ event ∈ log, event.isPreparation

theorem preparatory_append {left right : List Event} :
    Preparatory (left ++ right) ↔ Preparatory left ∧ Preparatory right :=
  List.forall_mem_append

theorem kept_preparation {log : List Event} (hpreparatory : Preparatory log) (hkept : Keeps log) :
    added log = [] ∧ edges log = [] ∧ lost log = [] := by
  have hexact : ∀ event ∈ log, ∃ subject, event = .exact subject := by
    intro event hevent
    rcases hpreparatory event hevent with hexact | hrejects
    · exact hexact
    · rw [hkept event hevent] at hrejects
      cases hrejects
  refine ⟨?_, ?_, ?_⟩
  all_goals
    refine List.filterMap_eq_nil_iff.mpr fun event hevent => ?_
    obtain ⟨subject, rfl⟩ := hexact event hevent
    rfl

section Prepare
variable {m : Mapping}

theorem preparatory_rejected {event : Event} (h : event.rejects = true) : Preparatory ([event] ++ []) :=
  List.forall_mem_singleton.mpr (Or.inr h)

theorem preparatory_nil : Preparatory [] := List.forall_mem_nil _

theorem identifyContainer_preparatory (state : Mapping.ContainerIdentities)
    (logicalName targetName : String) :
    Preparatory (m.identifyContainer state logicalName targetName).log := by
  unfold Mapping.identifyContainer
  cases hrejected : m.lens.rejects (.resourceId ⟨.container, targetName⟩) with
  | some reason =>
    simp only [hrejected]
    exact preparatory_rejected rfl
  | none =>
    simp only [hrejected]
    cases howner : state.owners.lookup targetName with
    | none => exact preparatory_nil
    | some first => exact preparatory_rejected rfl

theorem prepareContainerIdentity_preparatory (state : Mapping.ContainerIdentities)
    (service : Sourced Service) : Preparatory (m.prepareContainerIdentity state service).log := by
  unfold Mapping.prepareContainerIdentity
  cases service.value.runtimeName with
  | none => exact identifyContainer_preparatory _ _ _
  | some name =>
    by_cases hsensitive : name.value.isSensitive = true
    · simp only [if_pos hsensitive]
      exact preparatory_rejected rfl
    · simp only [if_neg hsensitive]
      exact identifyContainer_preparatory _ _ _

theorem prepareVolumeIdentity_preparatory (state : Mapping.VolumeIdentities)
    (volume : Sourced Volume) : Preparatory (m.prepareVolumeIdentity state volume).log := by
  unfold Mapping.prepareVolumeIdentity
  cases htarget : Mapping.volumeTarget volume.value with
  | none => exact preparatory_rejected rfl
  | some targetName =>
    simp only
    cases howner : state.owners.lookup targetName with
    | none => exact preparatory_nil
    | some first => exact preparatory_rejected rfl

theorem reportMissingVolume_preparatory (service : Service) (item : Sourced Mount × Nat) :
    Preparatory (m.reportMissingVolume service item).log := by
  unfold Mapping.reportMissingVolume
  split
  · split
    · exact preparatory_nil
    · exact List.forall_mem_singleton.mpr (Or.inr rfl)
  · exact preparatory_nil

/-- Each step of a loop is preparatory, so the loop is. -/
theorem preparatory_loop {α ι : Type} {step : α → ι → Mapped α} {items : List ι} {start : α}
    (hstep : ∀ state item, Preparatory (step state item).log) :
    Preparatory (items.foldlM step start).log := by
  intro event hevent
  obtain ⟨item, -, state, hmem⟩ := Reports.of_mem_log_foldlM hevent
  exact hstep state item event hmem

theorem prepareIdentities_preparatory : Preparatory m.prepareIdentities.log := by
  unfold Mapping.prepareIdentities Mapping.prepareVolumeIdentities Mapping.prepareContainerIdentities
  simp only [Reports.log_bind, Reports.log_pure, List.append_nil, preparatory_append]
  refine ⟨?_, ⟨?_, ?_⟩, ?_⟩
  · exact List.forall_mem_singleton.mpr (Or.inl ⟨_, rfl⟩)
  · exact preparatory_loop prepareVolumeIdentity_preparatory
  · intro event hevent
    rw [Reports.log_forM] at hevent
    obtain ⟨service, -, hservice⟩ := List.mem_flatMap.mp hevent
    unfold Mapping.reportMissingVolumes at hservice
    rw [Reports.log_forM] at hservice
    obtain ⟨item, -, hitem⟩ := List.mem_flatMap.mp hservice
    exact reportMissingVolume_preparatory _ _ event hitem
  · exact preparatory_loop prepareContainerIdentity_preparatory

/-- The identities prepared for an application whose intent is kept. -/
structure Prepared (m : Mapping) (identities : Identities) : Prop where
  containers_visible : ∀ service ∈ m.application.services, isProtected service.value.runtimeName = false
  containers_valid : ∀ service ∈ m.application.services,
    m.lens.rejects (.resourceId (containerId service)) = none
  containers_distinct : (m.application.services.map containerName).Nodup
  containers : ∀ name, identities.containers.lookup name = serviceIdentity? m.application name
  volumes_visible : ∀ volume ∈ m.application.volumes, isProtected volume.value.runtimeName = false
  volumes_distinct : (m.application.volumes.map volumeName).Nodup
  volumes : ∀ name, identities.volumes.lookup name =
    (m.application.volumes.find? fun volume => volumeKey volume = name).map volumeName
  mounts : ∀ service ∈ m.application.services, ∀ mount ∈ service.value.mounts, ∀ name,
    mount.value.source = .volume name → name ∈ m.application.volumeNames

theorem serviceKeys_nodup (h : m.application.WellFormed) : (m.application.services.map serviceKey).Nodup := by
  have hkeys : m.application.services.map serviceKey = m.application.serviceNames.map Identifier.asStr := by
    unfold Application.serviceNames
    rw [List.map_map]
    rfl
  rw [hkeys]
  exact h.services_unique.map fun _ _ => Identifier.ext_asStr

theorem volumeKeys_nodup (h : m.application.WellFormed) : (m.application.volumes.map volumeKey).Nodup := by
  have hkeys : m.application.volumes.map volumeKey = m.application.volumeNames.map Identifier.asStr := by
    unfold Application.volumeNames
    rw [List.map_map]
    rfl
  rw [hkeys]
  exact h.volumes_unique.map fun _ _ => Identifier.ext_asStr

/-- A mount that is not reported missing names a declared volume. -/
theorem reportMissingVolume_kept {service : Service} {item : Sourced Mount × Nat} {name : Identifier}
    (hsource : item.1.value.source = .volume name)
    (hkept : Keeps (m.reportMissingVolume service item).log) : name ∈ m.application.volumeNames := by
  unfold Mapping.reportMissingVolume at hkept
  rw [hsource] at hkept
  by_cases hdeclared : name.asStr ∈ m.application.volumeNames.map Identifier.asStr
  · obtain ⟨other, hother, hsame⟩ := List.mem_map.mp hdeclared
    rw [← Identifier.ext_asStr hsame]
    exact hother
  · simp only [if_neg hdeclared] at hkept
    have hrejects := hkept _ (List.mem_singleton_self _)
    cases hrejects

theorem prepareIdentities_kept (h : m.application.WellFormed) (hkept : Keeps m.prepareIdentities.log) :
    Prepared m m.prepareIdentities.value := by
  unfold Mapping.prepareIdentities at hkept
  simp only [Reports.log_bind, Reports.log_pure, List.append_nil, keeps_append] at hkept
  obtain ⟨-, hvolumes, hcontainers⟩ := hkept
  unfold Mapping.prepareVolumeIdentities at hvolumes
  simp only [Reports.log_bind, Reports.log_pure, List.append_nil, keeps_append] at hvolumes
  have hprepared := prepareContainerIdentities_kept (serviceKeys_nodup h) hcontainers
  have hvolume := prepareVolumeIdentities_kept (volumeKeys_nodup h) hvolumes.1
  exact {
    containers_visible := hprepared.visible
    containers_valid := hprepared.valid
    containers_distinct := hprepared.distinct
    containers := hprepared.identified
    volumes_visible := hvolume.visible
    volumes_distinct := hvolume.distinct
    volumes := hvolume.identified
    mounts := by
      intro service hservice mount hmount name hsource
      obtain ⟨index, hindex, hat⟩ := List.mem_iff_getElem.mp hmount
      have hitem : (mount, index) ∈ service.value.mounts.zipIdx := by
        rw [List.mk_mem_zipIdx_iff_getElem?, List.getElem?_eq_some_iff]
        exact ⟨hindex, hat⟩
      have hmissing : Keeps (m.reportMissingVolume service.value (mount, index)).log := by
        intro event hevent
        apply hvolumes.2
        rw [Reports.log_forM]
        refine List.mem_flatMap.mpr ⟨service, hservice, ?_⟩
        unfold Mapping.reportMissingVolumes
        rw [Reports.log_forM]
        exact List.mem_flatMap.mpr ⟨_, hitem, hevent⟩
      exact reportMissingVolume_kept hsource hmissing }

end Prepare

/-! ## Resources -/

section Run
variable {m : Mapping} {identities : Identities}

theorem log_mapResources : (m.mapResources identities).log =
    m.application.networks.flatMap (fun network => (m.mapNetwork identities network).log) ++
    (m.application.volumes.flatMap (fun volume => (m.mapVolume identities volume).log) ++
    (m.application.secrets.flatMap (fun secret => (m.mapSecret identities secret).log) ++
    (m.application.serviceGroups.flatMap (fun group => (m.mapGroup identities group).log) ++
    (m.application.services.flatMap (fun service => (m.mapService identities service.value).log) ++
    m.application.services.flatMap fun service => (m.mapDependencies identities service).log)))) := by
  unfold Mapping.mapResources
  simp only [Reports.log_bind, Reports.log_forM]

/-- A run that keeps its intent: prepared identities, and a kept report of each resource. -/
structure KeptRun (m : Mapping) (identities : Identities) : Prop where
  wellFormed : m.application.WellFormed
  prepared : Prepared m identities
  networks : ∀ network ∈ m.application.networks, Keeps (m.mapNetwork identities network).log
  volumes : ∀ volume ∈ m.application.volumes, Keeps (m.mapVolume identities volume).log
  secrets : ∀ secret ∈ m.application.secrets, Keeps (m.mapSecret identities secret).log
  groups : ∀ group ∈ m.application.serviceGroups, Keeps (m.mapGroup identities group).log
  services : ∀ service ∈ m.application.services, Keeps (m.mapService identities service.value).log
  dependencies : ∀ service ∈ m.application.services, ∀ item ∈ service.value.dependencies.zipIdx,
    Keeps (m.mapDependency identities service.value item).log

theorem keeps_flatMap {ι : Type} {items : List ι} {log : ι → List Event} :
    Keeps (items.flatMap log) ↔ ∀ item ∈ items, Keeps (log item) :=
  List.forall_mem_flatMap

theorem keptRun_of_keeps (h : m.application.WellFormed) (hprepared : Prepared m identities)
    (hkept : Keeps (m.mapResources identities).log) : KeptRun m identities := by
  rw [log_mapResources] at hkept
  simp only [keeps_append, keeps_flatMap] at hkept
  obtain ⟨hnetworks, hvolumes, hsecrets, hgroups, hservices, hdependencies⟩ := hkept
  refine ⟨h, hprepared, hnetworks, hvolumes, hsecrets, hgroups, hservices, ?_⟩
  intro service hservice
  have hloop := hdependencies service hservice
  unfold Mapping.mapDependencies at hloop
  rw [Reports.log_forM] at hloop
  exact keeps_flatMap.mp hloop

/-- A kept intent is what a kept run adds, and only its resource mappings lose anything. -/
theorem keptRun_of_intent {intent : DeploymentIntent} (h : m.application.WellFormed)
    (hintent : m.intent = some intent) :
    ∃ identities, KeptRun m identities ∧
      intent = ⟨added (m.mapResources identities).log, edges (m.mapResources identities).log⟩ ∧
      lost m.mapApplication.log = lost (m.mapResources identities).log := by
  obtain ⟨hkept, hintent⟩ := keptIntent_eq_some.mp hintent
  unfold Mapping.mapApplication at hkept hintent ⊢
  rw [Reports.log_bind] at hkept hintent ⊢
  obtain ⟨hpreparation, hresources⟩ := keeps_append.mp hkept
  obtain ⟨hadded, hedges, hlost⟩ := kept_preparation prepareIdentities_preparatory hpreparation
  refine ⟨m.prepareIdentities.value, ?_, ?_, ?_⟩
  · exact keptRun_of_keeps h (prepareIdentities_kept h hpreparation) hresources
  · rw [hintent]
    show DeploymentIntent.mk (added _) (edges _) = _
    rw [added_append, edges_append, hadded, hedges]
    rfl
  · rw [lost_append, hlost]
    rfl

/-! ### What a kept run adds -/

section Added
variable (h : KeptRun m identities)
include h

theorem KeptRun.volume_lookup {volume : Sourced Volume} (hvolume : volume ∈ m.application.volumes) :
    identities.volumes.lookup (volumeKey volume) = some (volumeName volume) := by
  rw [h.prepared.volumes, Lookup.find?_key (volumeKeys_nodup h.wellFormed) hvolume]
  rfl

theorem KeptRun.service_lookup {service : Sourced Service} (hservice : service ∈ m.application.services) :
    serviceIdentity? m.application (serviceKey service) = some (containerId service) := by
  unfold serviceIdentity?
  rw [Lookup.find?_key (serviceKeys_nodup h.wellFormed) hservice]
  rfl

/-- The volume a mount refers to is prepared under the identity of the logical volume. -/
theorem KeptRun.volume_identity (name : Identifier) :
    (identities.volumes.lookup name.asStr).map (fun name => (⟨.volume, name⟩ : DeploymentResourceId)) =
      volumeIdentity? m.application name.asStr := by
  rw [h.prepared.volumes, Option.map_map]
  rfl

theorem KeptRun.mounts_known {service : Sourced Service} (hservice : service ∈ m.application.services) :
    ∀ mount ∈ service.value.mounts, ∀ name, mount.value.source = .volume name →
      ∃ identity, identities.volumes.lookup name.asStr = some identity := by
  intro mount hmount name hsource
  obtain ⟨volume, hvolume, rfl⟩ := List.mem_map.mp (h.prepared.mounts service hservice mount hmount name hsource)
  exact ⟨_, h.volume_lookup hvolume⟩

theorem KeptRun.service {service : Sourced Service} (hservice : service ∈ m.application.services) :
    ∃ image policy container, ServiceKept m identities service.value image policy container
      (m.mapService identities service.value).log := by
  obtain ⟨image, policy, container, -, -, -, -, -, hkept⟩ :=
    mapService_kept (h.mounts_known hservice) (h.services service hservice)
  exact ⟨image, policy, container, hkept⟩

theorem KeptRun.networks_log : m.application.networks.flatMap (fun network =>
      (m.mapNetwork identities network).log) =
    m.application.networks.flatMap fun network =>
      addedEntries (.resource .network network.value.name.asStr) (networkResource network) ++
        lostFields .network network.value.name.asStr (Mapping.networkFields network.value) :=
  List.flatMap_congr fun network hnetwork => mapNetwork_kept (h.networks network hnetwork)

theorem KeptRun.volumes_log : m.application.volumes.flatMap (fun volume =>
      (m.mapVolume identities volume).log) =
    m.application.volumes.flatMap fun volume =>
      addedEntries (.resource .volume (volumeKey volume)) (volumeResource volume) ++
        lostFields .volume (volumeKey volume) (Mapping.volumeFields volume.value) :=
  List.flatMap_congr fun volume hvolume =>
    (mapVolume_kept (h.volume_lookup hvolume) (h.volumes volume hvolume)).2

theorem KeptRun.secrets_log : m.application.secrets.flatMap (fun secret =>
      (m.mapSecret identities secret).log) =
    m.application.secrets.flatMap fun secret =>
      addedEntries (.resource .secret secret.value.name.asStr) (secretResource secret) ++
        lostFields .secret secret.value.name.asStr (Mapping.secretFields secret.value) :=
  List.flatMap_congr fun secret hsecret => mapSecret_kept (h.secrets secret hsecret)

theorem KeptRun.dependencies_log {service : Sourced Service} (hservice : service ∈ m.application.services) :
    added (m.mapDependencies identities service).log = [] ∧
      (edges (m.mapDependencies identities service).log).map edgeEnds =
        service.value.dependencies.map fun dependency =>
          endpoints identities service.value dependency.value := by
  have hstep := fun item hitem => mapDependency_kept (h.dependencies service hservice item hitem)
  unfold Mapping.mapDependencies
  rw [Reports.log_forM, added_flatMap, edges_flatMap, List.map_flatMap]
  constructor
  · exact List.flatMap_eq_nil_iff.mpr fun item hitem => (hstep item hitem).1
  · rw [List.flatMap_congr fun item hitem => (hstep item hitem).2.1, ← List.map_eq_flatMap]
    exact map_fst_zipIdx (fun dependency : Sourced ServiceDependency =>
      endpoints identities service.value dependency.value) _

theorem KeptRun.added_resources : added (m.mapResources identities).log =
    m.application.networks.map networkResource ++ (m.application.volumes.map volumeResource ++
      (m.application.secrets.map secretResource ++
        (m.application.serviceGroups.flatMap (fun group => added (m.mapGroup identities group).log) ++
          m.application.services.flatMap fun service =>
            added (m.mapService identities service.value).log))) := by
  have hdependencies : m.application.services.flatMap (fun service =>
      added (m.mapDependencies identities service).log) = [] :=
    List.flatMap_eq_nil_iff.mpr fun service hservice => (h.dependencies_log hservice).1
  rw [log_mapResources, h.networks_log, h.volumes_log, h.secrets_log]
  simp only [added_append, added_flatMap, added_addedEntries, added_lostFields, List.append_nil,
    hdependencies, ← List.map_eq_flatMap]

theorem KeptRun.added_edges : (edges (m.mapResources identities).log).map edgeEnds =
    m.application.services.flatMap fun service => service.value.dependencies.map fun dependency =>
      endpoints identities service.value dependency.value := by
  have hgroups : m.application.serviceGroups.flatMap (fun group =>
      edges (m.mapGroup identities group).log) = [] := by
    refine List.flatMap_eq_nil_iff.mpr fun group hgroup => ?_
    by_cases howned : group.value.ownership = .application
    · obtain ⟨pod, -, -, hlog⟩ := mapGroup_kept howned (h.groups group hgroup)
      rw [hlog, edges_append, edges_addedEntries, edges_lostFields]
      rfl
    · exact (mapGroup_external howned).2.1
  have hservices : m.application.services.flatMap (fun service =>
      edges (m.mapService identities service.value).log) = [] := by
    refine List.flatMap_eq_nil_iff.mpr fun service hservice => ?_
    obtain ⟨image, policy, container, hkept⟩ := h.service hservice
    exact hkept.dependencies
  have hnil : ∀ {ι : Type} (items : List ι), items.flatMap (fun _ => ([] : List StartupDependency)) = [] :=
    fun items => List.flatMap_eq_nil_iff.mpr fun _ _ => rfl
  rw [log_mapResources, h.networks_log, h.volumes_log, h.secrets_log]
  simp only [edges_append, edges_flatMap, edges_addedEntries, edges_lostFields, List.append_nil,
    hgroups, hservices, hnil, List.nil_append, List.map_flatMap]
  exact List.flatMap_congr fun service hservice => (h.dependencies_log hservice).2

end Added
end Run
end Boxferry.Podman
