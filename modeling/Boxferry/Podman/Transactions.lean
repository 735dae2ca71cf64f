import Boxferry.Library.Lookup
import Boxferry.Model.ApplicationRuns
import Boxferry.Podman.Export
import Boxferry.Library.Naming

/-! # Deployment identities and completed transactions

A kept intent names every service and volume once, under its public native name,
and refers to them by the identity of the logical resource. -/
namespace Boxferry.Podman
open Engine Model
set_option autoImplicit false

/-! ## Identities of logical resources -/

def isProtected (name : Option (Sourced ProtectedString)) : Bool :=
  name.any fun name => name.value.isSensitive

/-- The native name of a resource: its runtime name, or its logical name. -/
def nativeName (logical : Identifier) (runtimeName : Option (Sourced ProtectedString)) : String :=
  match runtimeName with
  | some name => name.value.expose
  | none => logical.asStr

def containerName (service : Sourced Service) : String :=
  nativeName service.value.name service.value.runtimeName

def volumeName (volume : Sourced Volume) : String :=
  nativeName volume.value.name volume.value.runtimeName

def serviceKey (service : Sourced Service) : String := service.value.name.asStr

def volumeKey (volume : Sourced Volume) : String := volume.value.name.asStr

def containerId (service : Sourced Service) : DeploymentResourceId := ⟨.container, containerName service⟩

def volumeId (volume : Sourced Volume) : DeploymentResourceId := ⟨.volume, volumeName volume⟩

/-- The identity of the logical service of a name. -/
def serviceIdentity? (application : Application) (name : String) : Option DeploymentResourceId :=
  (application.services.find? fun service => serviceKey service = name).map containerId

/-- The identity of the logical volume of a name. -/
def volumeIdentity? (application : Application) (name : String) : Option DeploymentResourceId :=
  (application.volumes.find? fun volume => volumeKey volume = name).map volumeId

/-! ## Prepared identities -/

/-- Events that keep the intent. -/
def Keeps (log : List Event) : Prop := ∀ event ∈ log, event.rejects = false

theorem keeps_append {left right : List Event} : Keeps (left ++ right) ↔ Keeps left ∧ Keeps right :=
  List.forall_mem_append

/-- Among entries with distinct keys, the next one has a key of its own. -/
theorem fresh_of_done {α : Type} {key : α → String} {items done : List α} {item : α}
    (hinitial : done ++ [item] <+: items) (hunique : (items.map key).Nodup) :
    key item ∉ done.map key := by
  have hdistinct := (hinitial.sublist.map key).nodup hunique
  rw [List.map_append, List.nodup_append] at hdistinct
  intro hmem
  exact hdistinct.2.2 _ hmem _ (List.mem_singleton_self _) rfl

section Prepare
variable {m : Mapping}

/-- What preparing some services has established. -/
structure PreparedContainers (m : Mapping) (done : List (Sourced Service))
    (state : Mapping.ContainerIdentities) : Prop where
  visible : ∀ service ∈ done, isProtected service.value.runtimeName = false
  valid : ∀ service ∈ done, m.lens.rejects (.resourceId (containerId service)) = none
  distinct : (done.map containerName).Nodup
  claimed : Lookup.Claims containerName done state.owners
  identified : Lookup.Answers serviceKey containerId done state.identities

theorem prepareContainerIdentity_kept {done : List (Sourced Service)} {service : Sourced Service}
    {state : Mapping.ContainerIdentities} (h : PreparedContainers m done state)
    (hfresh : serviceKey service ∉ done.map serviceKey)
    (hkept : Keeps (m.prepareContainerIdentity state service).log) :
    PreparedContainers m (done ++ [service]) (m.prepareContainerIdentity state service).value := by
  -- Either way the service is identified by its native name.
  have hidentify : isProtected service.value.runtimeName = false ∧
      m.prepareContainerIdentity state service =
        m.identifyContainer state (serviceKey service) (containerName service) := by
    unfold Mapping.prepareContainerIdentity at hkept ⊢
    unfold isProtected containerName nativeName
    cases hname : service.value.runtimeName with
    | none => exact ⟨rfl, rfl⟩
    | some name =>
      rw [hname] at hkept
      cases hsensitive : name.value.isSensitive with
      | true => simp [hsensitive, error, Keeps, Event.rejects] at hkept
      | false => simp [hsensitive, serviceKey]
  obtain ⟨hvisible, hidentify⟩ := hidentify
  rw [hidentify] at hkept ⊢
  unfold Mapping.identifyContainer at hkept ⊢
  cases hvalid : m.lens.rejects (.resourceId ⟨.container, containerName service⟩) with
  | some reason => simp [hvalid, nativeError, Keeps, Event.rejects] at hkept
  | none =>
    cases howner : state.owners.lookup (containerName service) with
    | some first => simp [hvalid, howner, error, Keeps, Event.rejects] at hkept
    | none =>
      simp only [hvalid, Reports.value_pure]
      exact {
        visible := Naming.forall_append h.visible hvisible
        valid := Naming.forall_append h.valid hvalid
        distinct := Naming.nodup_append h.distinct (h.claimed _ howner)
        claimed := h.claimed.cons _
        identified := h.identified.cons hfresh }

theorem prepareContainerIdentities_kept (hunique : (m.application.services.map serviceKey).Nodup)
    (hkept : Keeps m.prepareContainerIdentities.log) :
    PreparedContainers m m.application.services
      (m.application.services.foldlM m.prepareContainerIdentity {}).value := by
  have hlog : m.prepareContainerIdentities.log =
      (m.application.services.foldlM m.prepareContainerIdentity {}).log := by
    unfold Mapping.prepareContainerIdentities
    rw [Reports.log_bind, Reports.log_pure, List.append_nil]
  rw [hlog] at hkept
  apply Reports.foldlM_induction (motive := fun done state _ => PreparedContainers m done state) hkept
  · exact {
      visible := by simp
      valid := by simp
      distinct := List.nodup_nil
      claimed := Lookup.claims_nil
      identified := Lookup.answers_nil }
  · intro done service state _ hinitial hprepared hstep
    exact prepareContainerIdentity_kept hprepared (fresh_of_done hinitial hunique) hstep

/-- What preparing some volumes has established. -/
structure PreparedVolumes (done : List (Sourced Volume)) (state : Mapping.VolumeIdentities) :
    Prop where
  visible : ∀ volume ∈ done, isProtected volume.value.runtimeName = false
  distinct : (done.map volumeName).Nodup
  claimed : Lookup.Claims volumeName done state.owners
  identified : Lookup.Answers volumeKey volumeName done state.identities

theorem volumeTarget_eq_some {volume : Sourced Volume} {target : String}
    (h : Mapping.volumeTarget volume.value = some target) :
    isProtected volume.value.runtimeName = false ∧ volumeName volume = target := by
  unfold Mapping.volumeTarget at h
  unfold isProtected volumeName nativeName
  cases hname : volume.value.runtimeName with
  | none =>
    rw [hname] at h
    exact ⟨rfl, Option.some.inj h⟩
  | some name =>
    rw [hname] at h
    obtain ⟨hplain, htarget⟩ := Option.ite_none_left_eq_some.mp h
    exact ⟨by simpa using hplain, Option.some.inj htarget⟩

theorem prepareVolumeIdentity_kept {done : List (Sourced Volume)} {volume : Sourced Volume}
    {state : Mapping.VolumeIdentities} (h : PreparedVolumes done state)
    (hfresh : volumeKey volume ∉ done.map volumeKey)
    (hkept : Keeps (m.prepareVolumeIdentity state volume).log) :
    PreparedVolumes (done ++ [volume]) (m.prepareVolumeIdentity state volume).value := by
  unfold Mapping.prepareVolumeIdentity at hkept ⊢
  cases htarget : Mapping.volumeTarget volume.value with
  | none => simp [htarget, error, Keeps, Event.rejects] at hkept
  | some target =>
    obtain ⟨hvisible, rfl⟩ := volumeTarget_eq_some htarget
    cases howner : state.owners.lookup (volumeName volume) with
    | some first => simp [htarget, howner, error, Keeps, Event.rejects] at hkept
    | none =>
      simp only [howner, Reports.value_pure]
      exact {
        visible := Naming.forall_append h.visible hvisible
        distinct := Naming.nodup_append h.distinct (h.claimed _ howner)
        claimed := h.claimed.cons _
        identified := h.identified.cons hfresh }

theorem prepareVolumeIdentities_kept (hunique : (m.application.volumes.map volumeKey).Nodup)
    (hkept : Keeps (m.application.volumes.foldlM m.prepareVolumeIdentity {}).log) :
    PreparedVolumes m.application.volumes
      (m.application.volumes.foldlM m.prepareVolumeIdentity {}).value := by
  apply Reports.foldlM_induction (motive := fun done state _ => PreparedVolumes done state) hkept
  · exact {
      visible := by simp
      distinct := List.nodup_nil
      claimed := Lookup.claims_nil
      identified := Lookup.answers_nil }
  · intro done volume state _ hinitial hprepared hstep
    exact prepareVolumeIdentity_kept hprepared (fresh_of_done hinitial hunique) hstep

end Prepare

/-! ## Completed transactions

What a completed native transaction builds, and which losses it reports. Inside
a transaction no resource and no dependency is added to the intent. -/
open Attempts

/-- The subjects a report calls lost. -/
def lost (log : List Event) : List Subject := log.filterMap Event.loss?

@[simp] theorem lost_nil : lost [] = [] := rfl

@[simp] theorem lost_append (left right : List Event) : lost (left ++ right) = lost left ++ lost right :=
  List.filterMap_append

theorem mem_lost_of_unsupported {log : List Event} {subject : Subject} {summary : String}
    (h : .unsupported subject summary ∈ log) : subject ∈ lost log :=
  List.mem_filterMap.mpr ⟨_, h, rfl⟩

/-- An event about a part of some service that adds nothing to the intent. -/
def Event.isSilent (event : Event) : Prop :=
  event.resource? = none ∧ event.dependency? = none ∧
    ∀ subject, event.loss? = some subject → ∃ name field, subject = .part .service name field

def Silent (log : List Event) : Prop := ∀ event ∈ log, event.isSilent

theorem silent_nil : Silent [] := by
  intro event hevent
  cases hevent

theorem silent_append {left right : List Event} : Silent (left ++ right) ↔ Silent left ∧ Silent right :=
  List.forall_mem_append

theorem silent_cons {event : Event} {log : List Event} :
    Silent (event :: log) ↔ event.isSilent ∧ Silent log :=
  List.forall_mem_cons

theorem resources_of_silent {log : List Event} (h : Silent log) :
    log.filterMap Event.resource? = [] :=
  List.filterMap_eq_nil_iff.mpr fun event hevent => (h event hevent).1

theorem dependencies_of_silent {log : List Event} (h : Silent log) :
    log.filterMap Event.dependency? = [] :=
  List.filterMap_eq_nil_iff.mpr fun event hevent => (h event hevent).2.1

section Calls
variable {m : Mapping} {α : Type} {result : α} {log : List Event}

theorem call_bind {native : NativeCall} {next : Unit → Building α} :
    Yields (m.call native >>= next) result log ↔
      m.lens.rejects native = none ∧ Yields (next ()) result log :=
  yields_ensure_bind

theorem lose_bind {service : Service} {part summary : String} {next : Unit → Building α} :
    Yields (Mapping.lose service part summary >>= next) result log ↔
      ∃ rest, Yields (next ()) result rest ∧
        log = .unsupported (Mapping.servicePart service part) summary :: rest :=
  yields_report_bind

theorem resourceId_yields {identities : Identities} {kind : ResourceKind} {name : String}
    {id : DeploymentResourceId} (hkind : kind ≠ .container)
    (h : Yields (m.resourceId identities kind name) id log) :
    id = ⟨kind, name⟩ ∧ m.lens.rejects (.resourceId ⟨kind, name⟩) = none ∧ log = [] := by
  unfold Mapping.resourceId at h
  rw [if_neg hkind, call_bind, yields_pure] at h
  obtain ⟨haccepted, rfl, rfl⟩ := h
  exact ⟨rfl, haccepted, rfl⟩

theorem containerId_yields {identities : Identities} {name : String} {id : DeploymentResourceId}
    (h : Yields (m.resourceId identities .container name) id log) :
    identities.containers.lookup name = some id ∧ log = [] := by
  unfold Mapping.resourceId at h
  rw [if_pos rfl] at h
  cases hlookup : identities.containers.lookup name with
  | none =>
    rw [hlookup] at h
    exact (yields_throw.mp h).elim
  | some identity =>
    rw [hlookup] at h
    obtain ⟨rfl, rfl⟩ := yields_pure.mp h
    exact ⟨rfl, rfl⟩

theorem owned_yields {ownership : ResourceOwnership} {id : DeploymentResourceId}
    {managed added : DeploymentResource} (h : Yields (m.owned ownership id managed) added log) :
    added = (if ownership = .application then managed else .externalPrecondition id) ∧ log = [] := by
  unfold Mapping.owned at h
  rw [call_bind, yields_pure] at h
  exact ⟨h.2.1.symm, h.2.2⟩

/-- A resource reaches a kept intent only when its transaction completed. -/
theorem addResourceResult_kept {subject : Subject} {attempt : Building DeploymentResource}
    (hkept : ∀ event ∈ (addResourceResult subject attempt).log, event.rejects = false) :
    ∃ added entries, Yields attempt added entries ∧
      (addResourceResult subject attempt).log = entries ++ [.resource added, .exact subject] := by
  unfold addResourceResult at hkept ⊢
  rw [Reports.log_bind] at hkept ⊢
  cases hresult : Reports.value attempt.run with
  | ok added => exact ⟨added, Reports.log attempt.run, ⟨hresult, rfl⟩, rfl⟩
  | error reason =>
    rw [hresult] at hkept
    have hrejected := hkept (.nativeError subject reason) (by simp [nativeError])
    cases hrejected

end Calls

/-! ## Settings -/

section Settings
variable {m : Mapping} {service : Service} {log : List Event}

/-- The words a command stands for. -/
def commandWords : Command → Option (List String)
  | .exec arguments => some (arguments.map ProtectedString.expose)
  | .shell text => some ["/bin/sh", "-c", text.expose]
  | .empty => none

def entrypointWords : Entrypoint → Option (List String)
  | .exec arguments => some (arguments.map ProtectedString.expose)
  | .shell text => some ["/bin/sh", "-c", text.expose]
  | .empty => none

/-- A part of a service is carried, or one of some subjects of the service is reported lost. -/
def CarriedOrLost (carried : Prop) (log : List Event) (service : Service) (parts : List String) :
    Prop :=
  carried ∨ ∃ part ∈ parts, Mapping.servicePart service part ∈ lost log

theorem CarriedOrLost.mono {carried carried' : Prop} {log' : List Event} {parts : List String}
    (h : CarriedOrLost carried log service parts) (hcarried : carried → carried')
    (hlost : lost log ⊆ lost log') : CarriedOrLost carried' log' service parts := by
  rcases h with h | ⟨part, hpart, hmem⟩
  · exact Or.inl (hcarried h)
  · exact Or.inr ⟨part, hpart, hlost hmem⟩

theorem lost_subset_left (left right : List Event) : lost left ⊆ lost (left ++ right) := by
  rw [lost_append]
  exact List.subset_append_left _ _

theorem lost_subset_right (left right : List Event) : lost right ⊆ lost (left ++ right) := by
  rw [lost_append]
  exact List.subset_append_right _ _

theorem isSilent_lose (part summary : String) :
    (Event.unsupported (Mapping.servicePart service part) summary).isSilent :=
  ⟨rfl, rfl, fun _ h => ⟨_, _, (Option.some.inj h).symm⟩⟩

theorem isSilent_exact (subject : Subject) : (Event.exact subject).isSilent :=
  ⟨rfl, rfl, fun _ h => nomatch h⟩

/-- A single loss that is reported inside a transaction. -/
theorem silent_loss (part summary : String) :
    Silent [.unsupported (Mapping.servicePart service part) summary] :=
  silent_cons.mpr ⟨isSilent_lose part summary, silent_nil⟩

theorem lost_loss (subject : Subject) (summary : String) :
    lost [.unsupported subject summary] = [subject] := rfl

theorem carriedOrLost_loss {carried : Prop} {part summary : String} :
    CarriedOrLost carried [.unsupported (Mapping.servicePart service part) summary] service [part] :=
  Or.inr ⟨part, List.mem_singleton_self _, by simp [lost_loss]⟩

theorem lose_yields {part summary : String} {done : Unit}
    (h : Yields (Mapping.lose service part summary) done log) :
    Silent log ∧ lost log = [Mapping.servicePart service part] := by
  obtain rfl := yields_report.mp h
  exact ⟨silent_loss _ _, rfl⟩

theorem setCommand_yields {words : List String} {result : Option (List String)}
    (h : Yields (m.setCommand words) result log) : result = some words ∧ log = [] := by
  simp only [Mapping.setCommand, call_bind, yields_pure] at h
  exact ⟨h.2.2.1.symm, h.2.2.2⟩

theorem setEntrypoint_yields {words : List String} {result : Option (List String)}
    (h : Yields (m.setEntrypoint words) result log) : result = some words ∧ log = [] := by
  simp only [Mapping.setEntrypoint, call_bind, yields_pure] at h
  exact ⟨h.2.2.1.symm, h.2.2.2⟩

theorem mapCommand_yields {result : Option (List String)} (h : Yields (m.mapCommand service) result log) :
    Silent log ∧ ∀ command, service.command = some command →
      CarriedOrLost (∃ words, commandWords command.value = some words ∧ result = some words) log service
        ["command"] := by
  unfold Mapping.mapCommand at h
  cases hcommand : service.command with
  | none =>
    rw [hcommand] at h
    obtain ⟨-, rfl⟩ := yields_pure.mp h
    exact ⟨silent_nil, by simp⟩
  | some command =>
    obtain ⟨command, origins⟩ := command
    rw [hcommand] at h
    simp only [Option.some.injEq, forall_eq']
    cases command with
    | exec arguments =>
      obtain ⟨rfl, rfl⟩ := setCommand_yields h
      exact ⟨silent_nil, Or.inl ⟨_, rfl, rfl⟩⟩
    | shell text =>
      obtain ⟨rfl, rfl⟩ := setCommand_yields h
      exact ⟨silent_nil, Or.inl ⟨_, rfl, rfl⟩⟩
    | empty =>
      obtain ⟨rest, hrest, rfl⟩ := lose_bind.mp h
      obtain ⟨-, rfl⟩ := yields_pure.mp hrest
      exact ⟨silent_loss _ _, carriedOrLost_loss⟩

theorem mapEntrypoint_yields {result : Option (List String)}
    (h : Yields (m.mapEntrypoint service) result log) :
    Silent log ∧ ∀ entrypoint, service.entrypoint = some entrypoint →
      CarriedOrLost (∃ words, entrypointWords entrypoint.value = some words ∧ result = some words) log service
        ["entrypoint"] := by
  unfold Mapping.mapEntrypoint at h
  cases hentrypoint : service.entrypoint with
  | none =>
    rw [hentrypoint] at h
    obtain ⟨-, rfl⟩ := yields_pure.mp h
    exact ⟨silent_nil, by simp⟩
  | some entrypoint =>
    obtain ⟨entrypoint, origins⟩ := entrypoint
    rw [hentrypoint] at h
    simp only [Option.some.injEq, forall_eq']
    cases entrypoint with
    | exec arguments =>
      obtain ⟨rfl, rfl⟩ := setEntrypoint_yields h
      exact ⟨silent_nil, Or.inl ⟨_, rfl, rfl⟩⟩
    | shell text =>
      obtain ⟨rfl, rfl⟩ := setEntrypoint_yields h
      exact ⟨silent_nil, Or.inl ⟨_, rfl, rfl⟩⟩
    | empty =>
      obtain ⟨rest, hrest, rfl⟩ := lose_bind.mp h
      obtain ⟨-, rfl⟩ := yields_pure.mp hrest
      exact ⟨silent_loss _ _, carriedOrLost_loss⟩

theorem mapUser_yields {result : Option String} (h : Yields (m.mapUser service) result log) :
    Silent log ∧
      (∀ user, service.user = some user →
        result = some (Mapping.userSpelling user.value (service.group.map Sourced.value))) ∧
      (service.user = none → service.group.isSome = true →
        Mapping.servicePart service "group" ∈ lost log) := by
  unfold Mapping.mapUser at h
  cases huser : service.user with
  | some user =>
    simp only [huser, call_bind, yields_pure] at h
    obtain ⟨-, rfl, rfl⟩ := h
    exact ⟨silent_nil, by simp, by simp⟩
  | none =>
    rw [huser] at h
    by_cases hgroup : service.group.isSome = true
    · simp only [if_pos hgroup] at h
      obtain ⟨rest, hrest, rfl⟩ := lose_bind.mp h
      obtain ⟨-, rfl⟩ := yields_pure.mp hrest
      exact ⟨silent_loss _ _, by simp, fun _ _ => by simp [lost_loss]⟩
    · simp only [if_neg hgroup] at h
      obtain ⟨-, rfl⟩ := yields_pure.mp h
      exact ⟨silent_nil, by simp, fun _ hsome => absurd hsome hgroup⟩

theorem mapWorkdir_yields {result : Option String} (h : Yields (m.mapWorkdir service) result log) :
    Silent log ∧ ∀ workdir, service.workingDirectory = some workdir →
      CarriedOrLost (result = some (Mapping.normalizedWorkdir workdir.value.expose)) log service
        ["working_directory"] := by
  unfold Mapping.mapWorkdir at h
  cases hworkdir : service.workingDirectory with
  | none =>
    rw [hworkdir] at h
    obtain ⟨-, rfl⟩ := yields_pure.mp h
    exact ⟨silent_nil, by simp⟩
  | some workdir =>
    rw [hworkdir] at h
    simp only at h
    simp only [Option.some.injEq, forall_eq']
    split at h
    · obtain ⟨rfl, rfl⟩ := yields_pure.mp h
      exact ⟨silent_nil, Or.inl rfl⟩
    · obtain ⟨rest, hrest, rfl⟩ := lose_bind.mp h
      obtain ⟨-, rfl⟩ := yields_pure.mp hrest
      exact ⟨silent_loss _ _, carriedOrLost_loss⟩

theorem mapHostname_yields {result : Option String} (h : Yields (m.mapHostname service) result log) :
    Silent log ∧ ∀ hostname, service.hostname = some hostname → result = some hostname.value.expose := by
  unfold Mapping.mapHostname at h
  cases hhostname : service.hostname with
  | none =>
    rw [hhostname] at h
    obtain ⟨-, rfl⟩ := yields_pure.mp h
    exact ⟨silent_nil, by simp⟩
  | some hostname =>
    simp only [hhostname, call_bind, yields_pure] at h
    obtain ⟨-, rfl, rfl⟩ := h
    exact ⟨silent_nil, by simp⟩

/-! ### Loops -/

/-- A loop that only adds native values carries or loses every item when each step does. -/
theorem loop_carried {β ι : Type} {step : List β → ι → Building (List β)} {items : List ι}
    {start result : List β} (carried : ι → List β → Prop) (parts : ι → List String)
    (hmono : ∀ item state next, state ⊆ next → carried item state → carried item next)
    (hstep : ∀ item ∈ items, ∀ state next log, Yields (step state item) next log →
      Silent log ∧ state ⊆ next ∧ CarriedOrLost (carried item next) log service (parts item))
    (h : Yields (items.foldlM step start) result log) :
    Silent log ∧ start ⊆ result ∧
      ∀ item ∈ items, CarriedOrLost (carried item result) log service (parts item) := by
  apply h.foldlM_induction (motive := fun done state log => Silent log ∧ start ⊆ state ∧
    ∀ item ∈ done, CarriedOrLost (carried item state) log service (parts item))
  · exact ⟨silent_nil, List.Subset.refl _, by simp⟩
  · intro done item state before next after hitem hdone hyields
    obtain ⟨hsilent, hsubset, hcarried⟩ := hstep item hitem state next after hyields
    refine ⟨silent_append.mpr ⟨hdone.1, hsilent⟩, List.Subset.trans hdone.2.1 hsubset, ?_⟩
    apply Naming.forall_append
    · intro other hother
      exact (hdone.2.2 other hother).mono (hmono other state next hsubset) (lost_subset_left _ _)
    · exact hcarried.mono id (lost_subset_right _ _)

theorem mapLabel_yields {labels next : List (String × String)} {label : Sourced MetadataLabel}
    (h : Yields (m.mapLabel service labels label) next log) :
    Silent log ∧ labels ⊆ next ∧
      CarriedOrLost ((label.value.name.asStr, label.value.value.expose) ∈ next) log service
        ["labels." ++ label.value.name.asStr] := by
  unfold Mapping.mapLabel at h
  obtain ⟨-, h⟩ := call_bind.mp h
  split at h
  · simp only [call_bind, yields_pure] at h
    obtain ⟨-, rfl, rfl⟩ := h
    exact ⟨silent_nil, List.subset_append_left _ _, Or.inl (by simp)⟩
  · obtain ⟨rest, hrest, rfl⟩ := lose_bind.mp h
    obtain ⟨rfl, rfl⟩ := yields_pure.mp hrest
    exact ⟨silent_loss _ _, List.Subset.refl _, carriedOrLost_loss⟩

theorem mapLabels_yields {labels : List (String × String)}
    (h : Yields (service.labels.foldlM (m.mapLabel service) []) labels log) :
    Silent log ∧ ∀ label ∈ service.labels,
      CarriedOrLost ((label.value.name.asStr, label.value.value.expose) ∈ labels) log service
        ["labels." ++ label.value.name.asStr] := by
  obtain ⟨hsilent, -, hcarried⟩ := loop_carried
    (fun (label : Sourced MetadataLabel) labels => (label.value.name.asStr, label.value.value.expose) ∈ labels)
    (fun label => ["labels." ++ label.value.name.asStr])
    (fun _ _ _ hsubset hmem => hsubset hmem) (fun _ _ _ _ _ hstep => mapLabel_yields hstep) h
  exact ⟨hsilent, hcarried⟩

/-- A literal environment value that is not protected, among the native assignments. -/
def CarriesVariable (entry : Sourced EnvironmentVariable) (environment : List (String × String)) :
    Prop :=
  Mapping.environmentLoss entry.value.value = none ∧
    (entry.value.name.asStr, Mapping.literalText entry.value.value) ∈ environment

theorem mapEnvironmentVariable_yields {environment next : List (String × String)}
    {entry : Sourced EnvironmentVariable}
    (h : Yields (m.mapEnvironmentVariable service environment entry) next log) :
    Silent log ∧ environment ⊆ next ∧
      CarriedOrLost (CarriesVariable entry next) log service
        ["environment." ++ entry.value.name.asStr] := by
  unfold Mapping.mapEnvironmentVariable at h
  simp only at h
  split at h
  · obtain ⟨rest, hrest, rfl⟩ := lose_bind.mp h
    obtain ⟨rfl, rfl⟩ := yields_pure.mp hrest
    exact ⟨silent_loss _ _, List.Subset.refl _, carriedOrLost_loss⟩
  · next hliteral =>
    simp only [call_bind, yields_pure] at h
    obtain ⟨-, -, -, rfl, rfl⟩ := h
    exact ⟨silent_nil, List.subset_append_left _ _, Or.inl ⟨hliteral, by simp⟩⟩

theorem mapEnvironment_yields {environment : List (String × String)}
    (h : Yields ((Mapping.sortedEnvironment service).foldlM (m.mapEnvironmentVariable service) [])
      environment log) :
    Silent log ∧ ∀ entry ∈ service.environment,
      CarriedOrLost (CarriesVariable entry environment) log service
        ["environment." ++ entry.value.name.asStr] := by
  obtain ⟨hsilent, -, hcarried⟩ := loop_carried CarriesVariable
    (fun entry => ["environment." ++ entry.value.name.asStr])
    (fun _ _ _ hsubset hmem => ⟨hmem.1, hsubset hmem.2⟩)
    (fun _ _ _ _ _ hstep => mapEnvironmentVariable_yields hstep) h
  refine ⟨hsilent, fun entry hentry => hcarried entry ?_⟩
  unfold Mapping.sortedEnvironment
  rw [List.mem_mergeSort]
  exact hentry

/-- The native restart policy that carries a neutral one without loss. -/
def restartPolicy? : RestartPolicy → Option ContainerRestartPolicy
  | .never => some .no
  | .always => some .always
  | .onFailure none => some .onFailure
  | .onFailure (some _) => none
  | .unlessStopped => some .unlessStopped

theorem setRestart_yields {policy : ContainerRestartPolicy} {result : Option ContainerRestartPolicy}
    (h : Yields (Mapping.mapRestartPolicy.set m policy) result log) :
    result = some policy ∧ log = [] := by
  simp only [Mapping.mapRestartPolicy.set, call_bind, yields_pure] at h
  exact ⟨h.2.1.symm, h.2.2⟩

theorem mapRestartPolicy_yields {result : Option ContainerRestartPolicy}
    (h : Yields (m.mapRestartPolicy service) result log) :
    Silent log ∧ ∀ restart, service.restartPolicy = some restart →
      CarriedOrLost (∃ policy, restartPolicy? restart.value = some policy ∧ result = some policy)
        log service ["restart_policy"] := by
  unfold Mapping.mapRestartPolicy at h
  cases hrestart : service.restartPolicy with
  | none =>
    rw [hrestart] at h
    obtain ⟨-, rfl⟩ := yields_pure.mp h
    exact ⟨silent_nil, by simp⟩
  | some restart =>
    obtain ⟨restart, origins⟩ := restart
    rw [hrestart] at h
    simp only [Option.some.injEq, forall_eq']
    -- Every policy but a finite retry count is set as it is.
    rcases restart with _ | _ | ⟨_ | retries⟩ | _
    all_goals simp only [Option.map_some] at h
    · obtain ⟨rfl, rfl⟩ := setRestart_yields h
      exact ⟨silent_nil, Or.inl ⟨_, rfl, rfl⟩⟩
    · obtain ⟨rfl, rfl⟩ := setRestart_yields h
      exact ⟨silent_nil, Or.inl ⟨_, rfl, rfl⟩⟩
    · obtain ⟨rfl, rfl⟩ := setRestart_yields h
      exact ⟨silent_nil, Or.inl ⟨_, rfl, rfl⟩⟩
    · obtain ⟨rest, hrest, rfl⟩ := lose_bind.mp h
      obtain ⟨-, rfl⟩ := setRestart_yields hrest
      exact ⟨silent_loss _ _, carriedOrLost_loss⟩
    · obtain ⟨rfl, rfl⟩ := setRestart_yields h
      exact ⟨silent_nil, Or.inl ⟨_, rfl, rfl⟩⟩

/-- What completed settings of a container carry of a service. -/
structure SettingsCarry (service : Service) (settings : ContainerSettings) (log : List Event) : Prop where
  command : ∀ command, service.command = some command →
    CarriedOrLost (∃ words, commandWords command.value = some words ∧ settings.command = some words)
      log service ["command"]
  entrypoint : ∀ entrypoint, service.entrypoint = some entrypoint →
    CarriedOrLost (∃ words, entrypointWords entrypoint.value = some words ∧
      settings.entrypoint = some words) log service ["entrypoint"]
  user : ∀ user, service.user = some user →
    settings.user = some (Mapping.userSpelling user.value (service.group.map Sourced.value))
  group : service.user = none → service.group.isSome = true →
    Mapping.servicePart service "group" ∈ lost log
  workdir : ∀ workdir, service.workingDirectory = some workdir →
    CarriedOrLost (settings.workdir = some (Mapping.normalizedWorkdir workdir.value.expose)) log
      service ["working_directory"]
  hostname : ∀ hostname, service.hostname = some hostname →
    settings.hostname = some hostname.value.expose
  labels : ∀ label ∈ service.labels,
    CarriedOrLost ((label.value.name.asStr, label.value.value.expose) ∈ settings.labels) log service
      ["labels." ++ label.value.name.asStr]
  environment : ∀ entry ∈ service.environment,
    CarriedOrLost (CarriesVariable entry settings.environment) log service
      ["environment." ++ entry.value.name.asStr]
  restart : ∀ restart, service.restartPolicy = some restart →
    CarriedOrLost (∃ policy, restartPolicy? restart.value = some policy ∧
      settings.restartPolicy = some policy) log service ["restart_policy"]

theorem SettingsCarry.mono {settings : ContainerSettings} {log' : List Event}
    (h : SettingsCarry service settings log) (hlost : lost log ⊆ lost log') :
    SettingsCarry service settings log' where
  command command hcommand := (h.command command hcommand).mono id hlost
  entrypoint entrypoint hentrypoint := (h.entrypoint entrypoint hentrypoint).mono id hlost
  user := h.user
  group huser hgroup := hlost (h.group huser hgroup)
  workdir workdir hworkdir := (h.workdir workdir hworkdir).mono id hlost
  hostname := h.hostname
  labels label hlabel := (h.labels label hlabel).mono id hlost
  environment entry hentry := (h.environment entry hentry).mono id hlost
  restart restart hrestart := (h.restart restart hrestart).mono id hlost

theorem mapServiceSettings_yields {settings : ContainerSettings}
    (h : Yields (m.mapServiceSettings service) settings log) :
    Silent log ∧ SettingsCarry service settings log := by
  unfold Mapping.mapServiceSettings at h
  obtain ⟨command, log1, rest1, hcommand, h1, rfl⟩ := yields_bind.mp h
  obtain ⟨entrypoint, log2, rest2, hentrypoint, h2, rfl⟩ := yields_bind.mp h1
  obtain ⟨user, log3, rest3, huser, h3, rfl⟩ := yields_bind.mp h2
  obtain ⟨workdir, log4, rest4, hworkdir, h4, rfl⟩ := yields_bind.mp h3
  obtain ⟨hostname, log5, rest5, hhostname, h5, rfl⟩ := yields_bind.mp h4
  obtain ⟨labels, log6, rest6, hlabels, h6, rfl⟩ := yields_bind.mp h5
  obtain ⟨environment, log7, rest7, henvironment, h7, rfl⟩ := yields_bind.mp h6
  obtain ⟨restart, log8, rest8, hrestart, h8, rfl⟩ := yields_bind.mp h7
  obtain ⟨rfl, rfl⟩ := yields_pure.mp h8
  obtain ⟨hsilent1, hcommand⟩ := mapCommand_yields hcommand
  obtain ⟨hsilent2, hentrypoint⟩ := mapEntrypoint_yields hentrypoint
  obtain ⟨hsilent3, huser, hgroup⟩ := mapUser_yields huser
  obtain ⟨hsilent4, hworkdir⟩ := mapWorkdir_yields hworkdir
  obtain ⟨hsilent5, hhostname⟩ := mapHostname_yields hhostname
  obtain ⟨hsilent6, hlabels⟩ := mapLabels_yields hlabels
  obtain ⟨hsilent7, henvironment⟩ := mapEnvironment_yields henvironment
  obtain ⟨hsilent8, hrestart⟩ := mapRestartPolicy_yields hrestart
  constructor
  · simp only [silent_append]
    exact ⟨hsilent1, hsilent2, hsilent3, hsilent4, hsilent5, hsilent6, hsilent7, hsilent8, silent_nil⟩
  · exact {
      command := fun value hvalue => (hcommand value hvalue).mono id fun subject hmem => by simp [hmem]
      entrypoint := fun value hvalue => (hentrypoint value hvalue).mono id fun subject hmem => by simp [hmem]
      user := huser
      group := fun hnone hsome => by simp [hgroup hnone hsome]
      workdir := fun value hvalue => (hworkdir value hvalue).mono id fun subject hmem => by simp [hmem]
      hostname := hhostname
      labels := fun label hlabel => (hlabels label hlabel).mono id fun subject hmem => by simp [hmem]
      environment := fun entry hentry => (henvironment entry hentry).mono id fun subject hmem => by simp [hmem]
      restart := fun value hvalue => (hrestart value hvalue).mono id fun subject hmem => by simp [hmem] }

end Settings

end Boxferry.Podman
