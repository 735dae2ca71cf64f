import Boxferry.Library.Related
import Boxferry.Podman.KeptRuns

/-! # Consistent identities

Every service and volume of a kept intent has one native identity of its own, and
everything in the intent that refers to one carries that identity. -/
namespace Boxferry.Podman
open Engine Model
set_option autoImplicit false

namespace DeploymentResource

def container? : DeploymentResource → Option ContainerIntent
  | .container intent => some intent
  | _ => none

def pod? : DeploymentResource → Option PodIntent
  | .pod intent => some intent
  | _ => none

/-- The identity of a volume that is managed, or expected to exist. -/
def volume? : DeploymentResource → Option DeploymentResourceId
  | .volume id => some id
  | .externalPrecondition id => if id.kind = .volume then some id else none
  | _ => none

end DeploymentResource

namespace DeploymentIntent

def containers (intent : DeploymentIntent) : List ContainerIntent :=
  intent.resources.filterMap DeploymentResource.container?

def pods (intent : DeploymentIntent) : List PodIntent :=
  intent.resources.filterMap DeploymentResource.pod?

def volumes (intent : DeploymentIntent) : List DeploymentResourceId :=
  intent.resources.filterMap DeploymentResource.volume?

end DeploymentIntent

/-- The logical volume that a mount names. -/
def namedVolume? (mount : Mount) : Option Identifier :=
  match mount.source with
  | .volume name => some name
  | _ => none

def namedVolumes (service : Service) : List Identifier :=
  service.mounts.filterMap fun mount => namedVolume? mount.value

/-- The groups whose pods the application owns. -/
def ownedGroups (application : Application) : List (Sourced ServiceGroup) :=
  application.serviceGroups.filter fun group => group.value.ownership = .application

/-- The intent names every service and every volume once, and refers to each by that name. -/
structure ConsistentIdentities (application : Application) (intent : DeploymentIntent) : Prop where
  services_visible : ∀ service ∈ application.services, isProtected service.value.runtimeName = false
  volumes_visible : ∀ volume ∈ application.volumes, isProtected volume.value.runtimeName = false
  services_distinct : (application.services.map containerId).Nodup
  volumes_distinct : (application.volumes.map volumeId).Nodup
  containers : intent.containers.map (fun container => container.id) = application.services.map containerId
  volumes : intent.volumes = application.volumes.map volumeId
  members : intent.pods.map (fun pod => pod.members.map some) =
    (ownedGroups application).map fun group =>
      group.value.members.map fun member => serviceIdentity? application member.value.asStr
  mounts : intent.containers.map (fun container =>
      (container.mounts.filterMap ContainerMount.volume?).map some) =
    application.services.map fun service =>
      (namedVolumes service.value).map fun name => volumeIdentity? application name.asStr
  dependencies : intent.dependencies.map edgeEnds =
    application.services.flatMap fun service => service.value.dependencies.map fun dependency =>
      (serviceIdentity? application dependency.value.service.asStr, some (containerId service))

/-! ## What the intent holds -/

section Kept
variable {m : Mapping} {identities : Identities}

theorem external_added {group : Sourced ServiceGroup}
    (hexternal : decide (group.value.ownership = .application) = false) :
    added (m.mapGroup identities group).log = [] :=
  (mapGroup_external (of_decide_eq_false hexternal)).1

variable (h : KeptRun m identities)
include h

/-- A view of the resources that shows no network and no secret. -/
theorem KeptRun.view_eq {γ : Type} (view : DeploymentResource → Option γ)
    (hnetwork : ∀ network, view (networkResource network) = none)
    (hsecret : ∀ secret, view (secretResource secret) = none) :
    (added (m.mapResources identities).log).filterMap view =
      m.application.volumes.filterMap (fun volume => view (volumeResource volume)) ++
        (m.application.serviceGroups.flatMap (fun group =>
          (added (m.mapGroup identities group).log).filterMap view) ++
        m.application.services.flatMap fun service =>
          (added (m.mapService identities service.value).log).filterMap view) := by
  have hnetworks : m.application.networks.filterMap (view ∘ networkResource) = [] :=
    List.filterMap_eq_nil_iff.mpr fun network _ => hnetwork network
  have hsecrets : m.application.secrets.filterMap (view ∘ secretResource) = [] :=
    List.filterMap_eq_nil_iff.mpr fun secret _ => hsecret secret
  rw [h.added_resources]
  simp only [List.filterMap_append, List.filterMap_flatMap, List.filterMap_map, hnetworks, hsecrets,
    List.nil_append]
  rfl

theorem KeptRun.owned_added {group : Sourced ServiceGroup} (hgroup : group ∈ m.application.serviceGroups)
    (howned : decide (group.value.ownership = .application) = true) :
    ∃ pod, added (m.mapGroup identities group).log = [.pod pod] ∧
      pod.members.map some = group.value.members.map fun member =>
        serviceIdentity? m.application member.value.asStr := by
  obtain ⟨pod, -, hmembers, hlog⟩ := mapGroup_kept (of_decide_eq_true howned) (h.groups group hgroup)
  refine ⟨pod, ?_, ?_⟩
  · rw [hlog, added_append, added_addedEntries, added_lostFields]
    rfl
  · rw [hmembers]
    exact List.map_congr_left fun member _ => h.prepared.containers _

theorem KeptRun.group_hidden {γ : Type} {view : DeploymentResource → Option γ}
    (hpod : ∀ pod, view (.pod pod) = none) :
    m.application.serviceGroups.flatMap (fun group =>
      (added (m.mapGroup identities group).log).filterMap view) = [] := by
  refine List.flatMap_eq_nil_iff.mpr fun group hgroup => ?_
  cases hownership : decide (group.value.ownership = .application) with
  | false =>
    rw [external_added hownership]
    rfl
  | true =>
    obtain ⟨pod, hadded, -⟩ := h.owned_added hgroup hownership
    rw [hadded]
    exact List.filterMap_eq_nil_iff.mpr (by simpa using hpod pod)

theorem KeptRun.service_hidden {γ : Type} {view : DeploymentResource → Option γ}
    (himage : ∀ id source policy, view (.image id source policy) = none)
    (hcontainer : ∀ container, view (.container container) = none) :
    m.application.services.flatMap (fun service =>
      (added (m.mapService identities service.value).log).filterMap view) = [] := by
  refine List.flatMap_eq_nil_iff.mpr fun service hservice => ?_
  obtain ⟨image, policy, container, hkept⟩ := h.service hservice
  rw [hkept.resources]
  exact List.filterMap_eq_nil_iff.mpr (by simpa using ⟨himage _ _ _, hcontainer container⟩)

theorem KeptRun.volumes_eq :
    (added (m.mapResources identities).log).filterMap DeploymentResource.volume? =
      m.application.volumes.map volumeId := by
  rw [h.view_eq, h.group_hidden (fun _ => rfl), h.service_hidden (fun _ _ _ => rfl) (fun _ => rfl),
    List.append_nil, List.append_nil, ← List.filterMap_eq_map]
  · refine List.filterMap_congr fun volume _ => ?_
    unfold volumeResource ownedResource
    split <;> rfl
  · intro network
    unfold networkResource ownedResource
    split <;> rfl
  · intro secret
    unfold secretResource ownedResource
    split <;> rfl

theorem KeptRun.pods_members :
    ((added (m.mapResources identities).log).filterMap DeploymentResource.pod?).map
        (fun pod => pod.members.map some) =
      (ownedGroups m.application).map fun group =>
        group.value.members.map fun member => serviceIdentity? m.application member.value.asStr := by
  have hvolumes : m.application.volumes.filterMap (fun volume => (volumeResource volume).pod?) = [] := by
    refine List.filterMap_eq_nil_iff.mpr fun volume _ => ?_
    unfold volumeResource ownedResource
    split <;> rfl
  rw [h.view_eq, hvolumes, h.service_hidden (fun _ _ _ => rfl) (fun _ => rfl), List.append_nil,
    List.nil_append]
  · apply Related.map_flatMap_chosen
    · intro group _ hexternal
      rw [external_added hexternal]
      rfl
    · intro group hgroup howned
      obtain ⟨pod, hadded, hmembers⟩ := h.owned_added hgroup howned
      rw [hadded]
      exact ⟨pod, rfl, hmembers⟩
  · intro network
    unfold networkResource ownedResource
    split <;> rfl
  · intro secret
    unfold secretResource ownedResource
    split <;> rfl

/-- What the container of every service is known to satisfy is known of the containers in order. -/
theorem KeptRun.containers_map {γ : Type} {change : ContainerIntent → γ} {target : Sourced Service → γ}
    (hcontainer : ∀ service ∈ m.application.services, ∀ container log,
      ContainerCarry m identities service.value container log → change container = target service) :
    ((added (m.mapResources identities).log).filterMap DeploymentResource.container?).map change =
      m.application.services.map target := by
  have hvolumes : m.application.volumes.filterMap (fun volume => (volumeResource volume).container?) = [] := by
    refine List.filterMap_eq_nil_iff.mpr fun volume _ => ?_
    unfold volumeResource ownedResource
    split <;> rfl
  rw [h.view_eq, hvolumes, h.group_hidden (fun _ => rfl), List.nil_append, List.nil_append]
  · apply Related.map_flatMap_single
    intro service hservice
    obtain ⟨image, policy, container, hkept⟩ := h.service hservice
    rw [hkept.resources]
    exact ⟨container, rfl, hcontainer service hservice container _ hkept.carried⟩
  · intro network
    unfold networkResource ownedResource
    split <;> rfl
  · intro secret
    unfold secretResource ownedResource
    split <;> rfl

/-- The volumes that a container mounts, as the mounts of its service name them. -/
theorem KeptRun.mounted_volumes {service : Sourced Service} {container : ContainerIntent} {log : List Event}
    (hservice : service ∈ m.application.services)
    (hcarry : ContainerCarry m identities service.value container log) :
    (container.mounts.filterMap ContainerMount.volume?).map some =
      (namedVolumes service.value).map fun name => volumeIdentity? m.application name.asStr := by
  have hprepared : ∀ mount : Sourced Mount, preparedVolume? identities mount.value =
      (namedVolume? mount.value).bind fun name => volumeIdentity? m.application name.asStr := by
    intro mount
    unfold preparedVolume? namedVolume?
    cases mount.value.source with
    | volume name => exact h.volume_identity name
    | hostPath _ | deferredHostPath _ | anonymous => rfl
  rw [hcarry.mounts.sources, List.filterMap_congr fun mount _ => hprepared mount]
  apply Related.map_filterMap_resolved
  intro mount hmount name hname
  have hsource : mount.value.source = .volume name := by
    unfold namedVolume? at hname
    split at hname
    · next hvolume =>
      rw [← Option.some.inj hname]
      exact hvolume
    · cases hname
  obtain ⟨identity, hlookup⟩ := h.mounts_known hservice mount hmount name hsource
  exact ⟨_, by rw [← h.volume_identity, hlookup]; rfl⟩

/-- A kept run is consistent in its identities. -/
theorem KeptRun.consistent {intent : DeploymentIntent}
    (hintent : intent = ⟨added (m.mapResources identities).log, edges (m.mapResources identities).log⟩) :
    ConsistentIdentities m.application intent := by
  subst hintent
  exact {
    services_visible := h.prepared.containers_visible
    volumes_visible := h.prepared.volumes_visible
    services_distinct := by
      refine List.Nodup.of_map DeploymentResourceId.name ?_
      rw [List.map_map]
      exact h.prepared.containers_distinct
    volumes_distinct := by
      refine List.Nodup.of_map DeploymentResourceId.name ?_
      rw [List.map_map]
      exact h.prepared.volumes_distinct
    containers := h.containers_map fun service hservice container log hcarry => by
      have hidentity := hcarry.identity
      rw [h.prepared.containers, ← serviceKey, h.service_lookup hservice] at hidentity
      exact (Option.some.inj hidentity).symm
    volumes := h.volumes_eq
    members := h.pods_members
    mounts := h.containers_map fun service hservice container log hcarry =>
      h.mounted_volumes hservice hcarry
    dependencies := by
      rw [h.added_edges]
      refine List.flatMap_congr fun service hservice => List.map_congr_left fun dependency _ => ?_
      unfold endpoints
      rw [h.prepared.containers, h.prepared.containers, ← serviceKey, h.service_lookup hservice] }

end Kept

/-! ## Rejected names -/

/-- A reason to build no intent: a protected, invalid, shared or undeclared name. -/
inductive IdentityFault (m : Mapping) : Prop where
  | protectedService {service : Sourced Service} (hservice : service ∈ m.application.services)
      (hprotected : isProtected service.value.runtimeName = true)
  | protectedVolume {volume : Sourced Volume} (hvolume : volume ∈ m.application.volumes)
      (hprotected : isProtected volume.value.runtimeName = true)
  | invalidService {service : Sourced Service} (hservice : service ∈ m.application.services)
      (hinvalid : m.lens.rejects (.resourceId (containerId service)) ≠ none)
  | invalidVolume {volume : Sourced Volume} (hvolume : volume ∈ m.application.volumes)
      (hinvalid : m.lens.rejects (.resourceId (volumeId volume)) ≠ none)
  | sharedService (hshared : ¬ (m.application.services.map containerId).Nodup)
  | sharedVolume (hshared : ¬ (m.application.volumes.map volumeId).Nodup)
  | undeclaredVolume {service : Sourced Service} {name : Identifier}
      (hservice : service ∈ m.application.services) (hname : name ∈ namedVolumes service.value)
      (hundeclared : volumeIdentity? m.application name.asStr = none)
  | undeclaredDependency {service : Sourced Service} {dependency : Sourced ServiceDependency}
      (hservice : service ∈ m.application.services)
      (hdependency : dependency ∈ service.value.dependencies)
      (hundeclared : serviceIdentity? m.application dependency.value.service.asStr = none)
  | undeclaredMember {group : Sourced ServiceGroup} {member : Sourced Identifier}
      (hgroup : group ∈ ownedGroups m.application) (hmember : member ∈ group.value.members)
      (hundeclared : serviceIdentity? m.application member.value.asStr = none)

/-- Lists of resolved names hold no unresolved one. -/
theorem none_not_mem_map_some {α : Type} {items : List α} : none ∉ items.map some := by
  simp

section Faults
variable {m : Mapping} {identities : Identities}

theorem KeptRun.faultless (h : KeptRun m identities) : ¬ IdentityFault m := by
  have hconsistent := h.consistent rfl
  intro hfault
  cases hfault with
  | protectedService hservice hprotected =>
    rw [hconsistent.services_visible _ hservice] at hprotected
    cases hprotected
  | protectedVolume hvolume hprotected =>
    rw [hconsistent.volumes_visible _ hvolume] at hprotected
    cases hprotected
  | invalidService hservice hinvalid => exact hinvalid (h.prepared.containers_valid _ hservice)
  | invalidVolume hvolume hinvalid =>
    exact hinvalid (mapVolume_kept (h.volume_lookup hvolume) (h.volumes _ hvolume)).1
  | sharedService hshared => exact hshared hconsistent.services_distinct
  | sharedVolume hshared => exact hshared hconsistent.volumes_distinct
  | undeclaredVolume hservice hname hundeclared =>
    have hmounts := List.mem_map_of_mem (f := fun service : Sourced Service =>
      (namedVolumes service.value).map fun name => volumeIdentity? m.application name.asStr) hservice
    rw [← hconsistent.mounts] at hmounts
    obtain ⟨container, -, hresolved⟩ := List.mem_map.mp hmounts
    have hnone := List.mem_map_of_mem (f := fun name : Identifier =>
      volumeIdentity? m.application name.asStr) hname
    rw [hundeclared, ← hresolved] at hnone
    exact none_not_mem_map_some hnone
  | @undeclaredDependency service dependency hservice hdependency hundeclared =>
    have hends : (serviceIdentity? m.application dependency.value.service.asStr,
        some (containerId service)) ∈ m.application.services.flatMap fun service =>
          service.value.dependencies.map fun dependency =>
            (serviceIdentity? m.application dependency.value.service.asStr, some (containerId service)) :=
      List.mem_flatMap.mpr ⟨service, hservice, List.mem_map.mpr ⟨dependency, hdependency, rfl⟩⟩
    rw [← hconsistent.dependencies] at hends
    obtain ⟨edge, -, hedge⟩ := List.mem_map.mp hends
    rw [hundeclared] at hedge
    cases hedge
  | undeclaredMember hgroup hmember hundeclared =>
    have hmembers := List.mem_map_of_mem (f := fun group : Sourced ServiceGroup =>
      group.value.members.map fun member => serviceIdentity? m.application member.value.asStr) hgroup
    rw [← hconsistent.members] at hmembers
    obtain ⟨pod, -, hresolved⟩ := List.mem_map.mp hmembers
    have hnone := List.mem_map_of_mem (f := fun member : Sourced Identifier =>
      serviceIdentity? m.application member.value.asStr) hmember
    rw [hundeclared, ← hresolved] at hnone
    exact none_not_mem_map_some hnone

theorem deployment_identities (happlication : m.application.WellFormed) :
    (∀ intent, m.intent = some intent → ConsistentIdentities m.application intent) ∧
      (IdentityFault m → m.intent = none ∧ m.candidate = none) := by
  constructor
  · intro intent hintent
    obtain ⟨identities, hrun, hadded, -⟩ := keptRun_of_intent happlication hintent
    exact hrun.consistent hadded
  · intro hfault
    have hnone : m.intent = none := by
      cases hintent : m.intent with
      | none => rfl
      | some intent =>
        obtain ⟨identities, hrun, -⟩ := keptRun_of_intent happlication hintent
        exact (hrun.faultless hfault).elim
    refine ⟨hnone, ?_⟩
    unfold Mapping.candidate
    rw [hnone]
    rfl

end Faults

/-! ## Two services that swap their names -/

def swappedService (name runtimeName : Identifier) (dependencies : List (Sourced ServiceDependency))
    (mounts : List (Sourced Mount)) : Sourced Service :=
  ⟨{ name, dependencies, mounts
     image := some ⟨⟨"web:1", "web", some "1", none⟩, []⟩
     runtimeName := some ⟨⟨runtimeName.asStr, false⟩, []⟩ }, []⟩

def swappedApplication : Application :=
  { Application.new ⟨"demo", Identifier.valid_demo⟩ with
    services := [
      swappedService ⟨"web", Identifier.valid_web⟩ ⟨"db", Identifier.valid_db⟩
        [⟨⟨⟨"db", Identifier.valid_db⟩, none, none, none⟩, []⟩] [],
      swappedService ⟨"db", Identifier.valid_db⟩ ⟨"web", Identifier.valid_web⟩ []
        [⟨⟨.volume ⟨"data", Identifier.valid_data⟩, "/data", false, none, false, Mount.valid_data⟩, []⟩]]
    volumes := [⟨{ name := ⟨"data", Identifier.valid_data⟩, ownership := .application,
                   runtimeName := some ⟨⟨"store", false⟩, []⟩ }, []⟩] }

theorem swappedApplication_wellFormed : swappedApplication.WellFormed :=
  { Application.new_wellFormed ⟨"demo", by decide⟩ with
    services_unique := by decide
    volumes_unique := by decide
    members_declared := by simp [swappedApplication, Application.new]
    evidence_owned := by simp [swappedApplication, Application.new]
    metadata_owned := by simp [swappedApplication, Application.new]
    services_admitted := by
      intro service hservice
      simp only [swappedApplication, List.mem_cons, List.not_mem_nil, or_false] at hservice
      rcases hservice with rfl | rfl
      all_goals exact {
        acquisition_declared := by
          intro _ h
          cases h
        build_declared := by
          intro _ h
          cases h
        rootfs_exclusive := by
          intro h
          cases h
        deferred_valid := rfl } }

def swappedMapping : Mapping where
  lens := .permissive
  application := swappedApplication
  quoted := id

/-- The startup edge follows the logical services, not the equal native names. -/
theorem deployment_identities_swapped : ∃ intent, swappedMapping.intent = some intent ∧
    intent.dependencies = [⟨⟨.container, "web"⟩, ⟨.container, "db"⟩⟩] ∧
    ConsistentIdentities swappedApplication intent := by
  have hkept : swappedMapping.intent.map DeploymentIntent.dependencies =
      some [⟨⟨.container, "web"⟩, ⟨.container, "db"⟩⟩] := by decide +kernel
  obtain ⟨intent, hintent, hdependencies⟩ := Option.map_eq_some_iff.mp hkept
  have hidentities := deployment_identities (m := swappedMapping) swappedApplication_wellFormed
  exact ⟨intent, hintent, hdependencies, hidentities.1 intent hintent⟩

end Boxferry.Podman
