import Boxferry.Podman.Import.Declarations

/-! # References of an imported application

References are resolved against every selected resource, while only complete
resources are declared and no infra container becomes a service. Services are
found by native id and by native name in one table, the newest entry first. -/
namespace Boxferry.Podman.Import
open Engine Model Mapping
set_option autoImplicit false

def mountVolume (mount : Mount) : Option Identifier :=
  match mount.source with
  | .volume name => some name
  | _ => none

theorem mountVolume_eq_some {mount : Mount} {name : Identifier} :
    mountVolume mount = some name ↔ mount.source = .volume name := by
  unfold mountVolume
  cases mount.source <;> simp

theorem source_newMount {source : MountSource} {target : String} {readOnly : Bool} {mount : Mount}
    (h : newMount source target readOnly = .ok mount) : mount.source = source := by
  unfold newMount at h
  split at h
  · cases h
    rfl
  · cases h

/-- The names of one kind that a service refers to. -/
def targets (kind : ResourceKind) (service : Service) : List Identifier :=
  match kind with
  | .container => service.dependencies.map fun dependency => dependency.value.service
  | .volume => service.mounts.filterMap fun mount => mountVolume mount.value
  | .network => service.networks.map fun network => network.value.network
  | _ => []

namespace Mapping
variable (m : Mapping)

/-! ## The references of a container -/

/-- The native volume of a mount that may be promoted. -/
def volumeReference (mount : ContainerMountObservation) : Option String :=
  if m.source.promotionPolicy.effectiveNamedVolumeMounts ∧ mount.kind = .namedVolume then
    (mountFields mount).bind fun (source, destination, writable) =>
      if promotable source.origin && promotable destination.origin && promotable writable.origin then
        match source.value with
        | .namedVolume name => some name
        | _ => none
      else none
  else none

/-- The native references of one kind that become intent. -/
def references (kind : ResourceKind) (details : ContainerObservation) : List String :=
  match kind with
  | .container => details.nativeDependencies.configured?.getD []
  | .volume => (details.mounts.effective?.getD []).filterMap m.volumeReference
  | .network =>
    if m.source.promotionPolicy.effectiveNamedNetworks then
      (ownNetworking details).elim [] fun networking => networking.networks.effective?.getD []
    else []
  | _ => []

theorem keptMount_bind_of_bind {mount : ContainerMountObservation} (h : mount.kind = .bind) :
    (m.keptMount mount).bind mountVolume = none := by
  unfold keptMount keptBindMount
  rw [h]
  cases m.source.promotionPolicy.effectiveBindMounts with
  | false => rfl
  | true =>
    rw [if_pos rfl]
    cases mountFields mount with
    | none => rfl
    | some fields =>
      obtain ⟨source, destination, writable⟩ := fields
      cases hsource : source.value with
      | localBindPath path =>
        simp only [Option.bind_some, hsource]
        split
        · unfold keptMountFrom
          cases hmount : newMount (.hostPath path) destination.value (!writable.value) with
          | error error => rfl
          | ok mapped => simp [Except.toOption, mountVolume, source_newMount hmount]
        · rfl
      | _ => simp [hsource]

/-- A mount without an error refers to the volume that its native volume resolves to. -/
theorem keptMount_volume {fieldSubject : Subject} {service : Service}
    {item : ContainerMountObservation × Nat}
    (h : Silent (m.mapMount fieldSubject service item)) :
    (m.keptMount item.1).bind mountVolume =
      (m.volumeReference item.1).bind (m.resolveName .volume) := by
  obtain ⟨mount, position⟩ := item
  unfold mapMount at h
  cases hkind : mount.kind with
  | bind =>
    rw [m.keptMount_bind_of_bind hkind]
    simp [volumeReference, hkind]
  | other => simp [keptMount, volumeReference, hkind]
  | namedVolume =>
    unfold keptMount volumeReference keptVolumeMount
    cases hflag : m.source.promotionPolicy.effectiveNamedVolumeMounts with
    | false => simp [hkind]
    | true =>
      simp only [hkind, hflag, reduceCtorEq, if_false, Bool.not_true, Bool.false_eq_true, ne_eq,
        not_true_eq_false, silent_bind] at h
      have hnamed := h.2
      unfold mapNamedVolumeMount at hnamed
      simp only [hkind, if_true, and_self]
      cases hfields : mountFields mount with
      | none => rfl
      | some fields =>
        obtain ⟨source, destination, writable⟩ := fields
        simp only [hfields] at hnamed
        simp only [Option.bind_some]
        cases hpromotable : promotable source.origin && promotable destination.origin &&
            promotable writable.origin with
        | false => simp
        | true =>
          have hnot : (!promotable source.origin || !promotable destination.origin ||
              !promotable writable.origin) = false := by
            simp only [Bool.and_eq_true] at hpromotable
            simp [hpromotable]
          simp only [hnot, Bool.false_eq_true, if_false] at hnamed
          simp only [if_true]
          cases hsource : source.value with
          | namedVolume name =>
            simp only [hsource] at hnamed
            simp only [Option.bind_some]
            cases hvolume : m.resolveName .volume name with
            | none =>
              simp only [hvolume] at hnamed
              exact absurd hnamed (not_silent_of_first not_silent_identityConflict)
            | some volume =>
              simp only [hvolume] at hnamed
              simp only [Option.bind_some]
              unfold keptMountFrom
              cases hmount : newMount (.volume volume) destination.value (!writable.value) with
              | error error =>
                simp only [hmount] at hnamed
                exact absurd hnamed (not_silent_of_first not_silent_modelError)
              | ok mapped => simp [Except.toOption, mountVolume, source_newMount hmount]
          | _ => rfl

theorem keptMounts_volumes {subject : Subject} {details : ContainerObservation} {service : Service}
    (h : Silent (m.mapMounts subject details service)) :
    ((m.keptMounts details).filterMap fun mount => mountVolume mount.value) =
      (m.references .volume details).filterMap (m.resolveName .volume) := by
  unfold mapMounts at h
  unfold keptMounts references
  rw [List.filterMap_map, List.filterMap_filterMap, List.filterMap_filterMap]
  refine List.filterMap_congr fun mount hmount => ?_
  show (m.keptMount mount).bind mountVolume = (m.volumeReference mount).bind (m.resolveName .volume)
  unfold ObservationField.effective? at hmount
  cases hmounts : details.mounts with
  | observed observation =>
    simp only [hmounts, ObservationField.observed?_observed, Option.bind_some] at h hmount
    by_cases horigin : observation.origin = .effective
    · simp only [horigin, if_true, Option.getD_some] at hmount
      by_cases hflags : (!m.source.promotionPolicy.effectiveNamedVolumeMounts &&
          !m.source.promotionPolicy.effectiveBindMounts) = true
      · simp only [Bool.and_eq_true, Bool.not_eq_true'] at hflags
        rw [m.keptMount_unauthorized hflags.1 hflags.2]
        simp [volumeReference, hflags.1]
      · rw [if_neg (not_not.mpr horigin), if_neg hflags] at h
        obtain ⟨position, hposition⟩ := List.mem_iff_getElem?.mp hmount
        obtain ⟨state, hstate⟩ := Reports.exists_log_subset_foldlM
          (List.mk_mem_zipIdx_iff_getElem?.mpr hposition) service
        exact m.keptMount_volume fun event hevent => h event (hstate hevent)
    · simp [horigin] at hmount
  | _ => simp [hmounts, ObservationField.observed?] at hmount

/-- A service built without an error refers to what its container's references resolve to. -/
theorem targets_service {subject : Subject} {container : ServiceContainer}
    (h : Silent (m.buildService subject container.identity container.details container.name))
    (kind : ResourceKind) : targets kind (m.service container).value =
      (m.references kind container.details).filterMap (m.resolveName kind) := by
  unfold service
  rw [value_sourced, serviceOf_eq]
  unfold buildService at h
  simp only [silent_bind] at h
  cases kind with
  | container =>
    show (m.keptDependencies container.details).map _ = _
    unfold keptDependencies references
    rw [List.map_filterMap]
    refine List.filterMap_congr fun reference _ => ?_
    unfold keptDependency
    rw [Option.map_map]
    exact Option.map_id'
  | volume => exact m.keptMounts_volumes h.2.2.2.2.1
  | network =>
    show ((ownNetworking container.details).elim [] m.keptAttachments).map _ = _
    unfold references keptAttachments
    cases ownNetworking container.details with
    | none => simp
    | some networking =>
      cases m.source.promotionPolicy.effectiveNamedNetworks with
      | false => rfl
      | true =>
        simp only [Option.elim_some, if_true]
        rw [List.map_filterMap]
        refine List.filterMap_congr fun reference _ => ?_
        unfold keptAttachment
        rw [Option.map_map]
        exact Option.map_id'
  | _ => rfl

/-! ## Closed applications -/

/-- An import declares a resource under the name: one that is complete and no infra container. -/
def Declared (kind : ResourceKind) (name : Identifier) : Prop :=
  ∃ observation ∈ m.observations kind,
    observation.header.identity.shownName = name.asStr ∧ observation.isDeclared = true

/-- The services whose containers name the group are its members, each once. -/
def MembersMatch (group : ServiceGroup) : Prop :=
  (group.members.map Sourced.value).Nodup ∧ ∀ name, name ∈ group.members.map Sourced.value ↔
    name ∈ m.application.serviceNames ∧ ∃ container ∈ m.serviceContainers,
      container.name = name ∧ m.keptGroup container.details = some group.name

/-- Every reference of the application is to one of its own declarations. -/
structure Closed : Prop where
  dependencies : ∀ service ∈ m.application.services, ∀ dependency ∈ service.value.dependencies,
    dependency.value.service ∈ m.application.serviceNames
  volumes : ∀ service ∈ m.application.services, ∀ mount ∈ service.value.mounts, ∀ name,
    mount.value.source = .volume name → name ∈ m.application.volumeNames
  networks : ∀ service ∈ m.application.services, ∀ network ∈ service.value.networks,
    network.value.network ∈ m.application.networkNames
  groups : ∀ group ∈ m.application.serviceGroups, m.MembersMatch group.value

/-- Every reference resolves to a declared resource, and every member of a declared pod is the last
container that answers to its id. -/
structure ReferencesKept : Prop where
  references : ∀ container ∈ m.serviceContainers, ∀ kind,
    ∀ reference ∈ m.references kind container.details, ∀ name,
      m.resolveName kind reference = some name → m.Declared kind name
  members : ∀ container ∈ m.serviceContainers, ∀ group,
    m.keptGroup container.details = some group → m.Declared .pod group →
      LastWins.owner ServiceContainer.answersTo m.serviceContainers container.identity.id =
        some container

theorem mem_declaredNames {kind : ResourceKind} {name : Identifier}
    (hnamed : ∀ observation ∈ m.observations kind,
      (declaredName observation).isSome = observation.isDeclared) :
    name ∈ (m.observations kind).filterMap declaredName ↔ m.Declared kind name := by
  rw [List.mem_filterMap]
  constructor
  · rintro ⟨observation, hmem, hname⟩
    refine ⟨observation, hmem, (declaredName_eq_some.mp hname).2, ?_⟩
    rw [← hnamed observation hmem, hname]
    rfl
  · rintro ⟨observation, hmem, hshown, hdeclared⟩
    refine ⟨observation, hmem, declaredName_eq_some.mpr ⟨?_, hshown⟩⟩
    unfold ResourceObservation.isDeclared at hdeclared
    rw [Bool.and_eq_true] at hdeclared
    exact hdeclared.1

theorem serviceNames_eq (h : Declares m m.application) :
    m.application.serviceNames = m.serviceContainers.map ServiceContainer.name := by
  unfold Application.serviceNames
  rw [h.services, List.map_map]
  refine List.map_congr_left fun container _ => ?_
  exact m.name_serviceOf _ _ _

theorem mem_serviceNames (h : Declares m m.application) {name : Identifier} :
    name ∈ m.application.serviceNames ↔ m.Declared .container name := by
  rw [m.serviceNames_eq h, List.mem_map]
  unfold serviceContainers
  constructor
  · rintro ⟨container, hmem, rfl⟩
    obtain ⟨observation, hobservation, hcontainer⟩ := List.mem_filterMap.mp hmem
    obtain ⟨-, -, -, hname⟩ := identity_serviceContainer hcontainer
    refine ⟨observation, hobservation, (declaredName_eq_some.mp hname).2, ?_⟩
    rw [← h.served observation hobservation, hcontainer]
    rfl
  · rintro ⟨observation, hobservation, hshown, hdeclared⟩
    rw [← h.served observation hobservation, Option.isSome_iff_exists] at hdeclared
    obtain ⟨container, hcontainer⟩ := hdeclared
    refine ⟨container, List.mem_filterMap.mpr ⟨observation, hobservation, hcontainer⟩, ?_⟩
    obtain ⟨-, -, -, hname⟩ := identity_serviceContainer hcontainer
    exact Identifier.ext_asStr ((declaredName_eq_some.mp hname).2.symm.trans hshown)

/-- The targets of a kind are declared exactly when the references of that kind resolve to
declared resources. -/
theorem targets_declared (hclean : m.Clean) {kind : ResourceKind} {names : List Identifier}
    (hnames : ∀ name, name ∈ names ↔ m.Declared kind name) :
    (∀ service ∈ m.application.services, ∀ name ∈ targets kind service.value, name ∈ names) ↔
      ∀ container ∈ m.serviceContainers, ∀ reference ∈ m.references kind container.details, ∀ name,
        m.resolveName kind reference = some name → m.Declared kind name := by
  rw [(m.declares_of_clean hclean).services]
  simp only [List.mem_map, forall_exists_index, and_imp, forall_apply_eq_imp_iff₂, hnames]
  refine forall₂_congr fun container hcontainer => ?_
  have hsilent : Silent (m.buildService (Subject.ofResource container.identity) container.identity
      container.details container.name) :=
    fun event hevent => hclean event (m.buildService_reported hcontainer hevent)
  rw [m.targets_service hsilent kind]
  simp only [List.mem_filterMap, forall_exists_index, and_imp]
  constructor
  · intro h reference hreference name hname
    exact h name reference hreference hname
  · intro h name reference hreference hname
    exact h reference hreference name hname

/-! ## Members of groups -/

/-- A key under which some container is recorded as a member of the group. -/
def Marked (state : MappingState) (group : Identifier) (key : String) : Prop :=
  ∃ observation ∈ m.observations .container, observation.header.identity.id = key ∧
    state.podMemberships.lookup key = some group

theorem mem_memberNames {state : MappingState} {group name : Identifier}
    (h : m.Recorded m.serviceContainers state) :
    name ∈ m.memberNames state group ↔ ∃ container, (∃ key, m.Marked state group key ∧
      LastWins.owner ServiceContainer.answersTo m.serviceContainers key = some container) ∧
        container.name = name := by
  unfold memberNames Marked
  rw [List.mem_filterMap]
  constructor
  · rintro ⟨observation, hmem, hmember⟩
    unfold memberOf at hmember
    by_cases hgroup : state.podMemberships.lookup observation.header.identity.id = some group
    · rw [if_pos hgroup, h.serviceNames, Option.map_eq_some_iff] at hmember
      obtain ⟨container, howner, hname⟩ := hmember
      exact ⟨container, ⟨_, ⟨observation, hmem, rfl, hgroup⟩, howner⟩, hname⟩
    · rw [if_neg hgroup] at hmember
      cases hmember
  · rintro ⟨container, ⟨key, ⟨observation, hmem, rfl, hgroup⟩, howner⟩, hname⟩
    refine ⟨observation, hmem, ?_⟩
    unfold memberOf
    rw [if_pos hgroup, h.serviceNames, howner, Option.map_some, hname]

theorem joins_answersTo {container : ServiceContainer} {id : String}
    (h : m.joins container id = true) : container.answersTo id = true := by
  unfold joins at h
  unfold ServiceContainer.answersTo ResourceIdentity.answersTo
  rw [Bool.and_eq_true] at h
  rw [h.1, Bool.true_or]

theorem answersTo_id (container : ServiceContainer) :
    container.answersTo container.identity.id = true := by
  unfold ServiceContainer.answersTo ResourceIdentity.answersTo
  simp

/-- A container that is found under its own id is recorded under it. -/
theorem joins_of_answersTo {container : ServiceContainer}
    (howner : LastWins.owner ServiceContainer.answersTo m.serviceContainers container.identity.id =
      some container) (hgroup : (m.keptGroup container.details).isSome = true) :
    LastWins.owner m.joins m.serviceContainers container.identity.id = some container := by
  obtain ⟨-, before, after, hsplit, hafter⟩ := LastWins.owner_eq_some_iff.mp howner
  refine LastWins.owner_eq_some_iff.mpr ⟨?_, before, after, hsplit, fun later hlater => ?_⟩
  · simp [joins, hgroup]
  · by_contra hjoins
    rw [Bool.not_eq_false] at hjoins
    have hanswers := m.joins_answersTo hjoins
    rw [hafter later hlater] at hanswers
    cases hanswers

/-- The members of a group are the services of its containers exactly when each of these
containers is found under its own id. -/
theorem membersMatch_iff (h : Declares m m.application) {group : Sourced ServiceGroup}
    (hgroup : group ∈ m.application.serviceGroups) :
    m.MembersMatch group.value ↔ ∀ container ∈ m.serviceContainers,
      m.keptGroup container.details = some group.value.name →
        LastWins.owner ServiceContainer.answersTo m.serviceContainers container.identity.id =
          some container := by
  obtain ⟨state, hrecorded, hmembers⟩ := h.members group hgroup
  have hinjective : ∀ first ∈ m.serviceContainers, ∀ second ∈ m.serviceContainers,
      first.name = second.name → first = second :=
    fun first hfirst second hsecond hsame =>
      List.inj_on_of_nodup_map h.distinct hfirst hsecond hsame
  have howners : (∀ container, (∃ key, m.Marked state group.value.name key ∧
      LastWins.owner ServiceContainer.answersTo m.serviceContainers key = some container) ↔
        container ∈ m.serviceContainers ∧
          m.keptGroup container.details = some group.value.name) ↔ _ :=
    LastWins.owners_iff (List.Nodup.of_map _ h.distinct) (fun container _ => answersTo_id container)
      ?_ ?_
  · rw [← howners]
    unfold MembersMatch
    rw [m.serviceNames_eq h]
    constructor
    · rintro ⟨-, hnames⟩ container
      constructor
      · rintro ⟨key, hmarked, howner⟩
        have hmember := (m.mem_memberNames hrecorded).mpr ⟨container, ⟨key, hmarked, howner⟩, rfl⟩
        rw [← hmembers] at hmember
        obtain ⟨-, other, hother, hname, hkept⟩ := (hnames container.name).mp hmember
        have hsame := hinjective other hother container (LastWins.mem_of_owner howner) hname
        rw [hsame] at hother hkept
        exact ⟨hother, hkept⟩
      · rintro ⟨hcontainer, hkept⟩
        have hmember := (hnames container.name).mpr
          ⟨List.mem_map_of_mem hcontainer, container, hcontainer, rfl, hkept⟩
        rw [hmembers, m.mem_memberNames hrecorded] at hmember
        obtain ⟨other, ⟨key, hmarked, howner⟩, hname⟩ := hmember
        have hsame := hinjective other (LastWins.mem_of_owner howner) container hcontainer hname
        rw [hsame] at howner
        exact ⟨key, hmarked, howner⟩
    · intro hcontainers
      refine ⟨group.value.distinct, fun name => ?_⟩
      rw [hmembers, m.mem_memberNames hrecorded]
      constructor
      · rintro ⟨container, hmarked, rfl⟩
        obtain ⟨hcontainer, hkept⟩ := (hcontainers container).mp hmarked
        exact ⟨List.mem_map_of_mem hcontainer, container, hcontainer, rfl, hkept⟩
      · rintro ⟨-, container, hcontainer, rfl, hkept⟩
        exact ⟨container, (hcontainers container).mpr ⟨hcontainer, hkept⟩, rfl⟩
  · rintro key ⟨observation, -, -, hlookup⟩
    rw [hrecorded.podMemberships, Option.bind_eq_some_iff] at hlookup
    obtain ⟨container, howner, hkept⟩ := hlookup
    refine ⟨container, LastWins.mem_of_owner howner, hkept, ?_⟩
    have hjoins := LastWins.claims_of_owner howner
    unfold joins at hjoins
    rw [Bool.and_eq_true, decide_eq_true_eq] at hjoins
    exact hjoins.1
  · intro container howner hkept
    have hmem := LastWins.mem_of_owner howner
    unfold serviceContainers at hmem
    obtain ⟨observation, hobservation, hcontainer⟩ := List.mem_filterMap.mp hmem
    obtain ⟨hidentity, -⟩ := identity_serviceContainer hcontainer
    refine ⟨observation, hobservation, by rw [hidentity], ?_⟩
    rw [hrecorded.podMemberships, m.joins_of_answersTo howner (by rw [hkept]; rfl), Option.bind_some,
      hkept]

/-- An import without an error is closed under its references exactly when every reference resolves
to a resource that is declared, and every member of a declared pod is found under its own id. -/
theorem referential_closure (hclean : m.Clean) : m.Closed ↔ m.ReferencesKept := by
  have h := m.declares_of_clean hclean
  have hservices := m.targets_declared hclean fun name => m.mem_serviceNames h
  have hvolumeNames (name : Identifier) :
      name ∈ m.application.volumeNames ↔ m.Declared .volume name := by
    rw [h.volumes]
    exact m.mem_declaredNames (h.named .volume (Or.inr (Or.inl rfl)))
  have hnetworkNames (name : Identifier) :
      name ∈ m.application.networkNames ↔ m.Declared .network name := by
    rw [h.networks]
    exact m.mem_declaredNames (h.named .network (Or.inl rfl))
  have hvolumes := m.targets_declared hclean hvolumeNames
  have hnetworks := m.targets_declared hclean hnetworkNames
  have hgroups (group : Identifier) :
      group ∈ m.application.serviceGroupNames ↔ m.Declared .pod group := by
    rw [h.groups]
    exact m.mem_declaredNames (h.named .pod (Or.inr (Or.inr rfl)))
  constructor
  · intro hclosed
    constructor
    case references =>
      intro container hcontainer kind
      cases kind with
      | container =>
        refine hservices.mp (fun service hservice name hname => ?_) container hcontainer
        obtain ⟨dependency, hdependency, rfl⟩ := List.mem_map.mp hname
        exact hclosed.dependencies service hservice dependency hdependency
      | volume =>
        refine hvolumes.mp (fun service hservice name hname => ?_) container hcontainer
        obtain ⟨mount, hmount, hvolume⟩ := List.mem_filterMap.mp hname
        exact hclosed.volumes service hservice mount hmount name (mountVolume_eq_some.mp hvolume)
      | network =>
        refine hnetworks.mp (fun service hservice name hname => ?_) container hcontainer
        obtain ⟨network, hnetwork, rfl⟩ := List.mem_map.mp hname
        exact hclosed.networks service hservice network hnetwork
      | _ =>
        intro reference hreference
        cases hreference
    case members =>
      intro container hcontainer group hkept hdeclared
      obtain ⟨declared, hmem, rfl⟩ := List.mem_map.mp ((hgroups group).mpr hdeclared)
      exact (m.membersMatch_iff h hmem).mp (hclosed.groups declared hmem) container hcontainer hkept
  · intro hkept
    have hreferences (kind : ResourceKind) :=
      fun container hcontainer => hkept.references container hcontainer kind
    constructor
    case dependencies =>
      intro service hservice dependency hdependency
      exact hservices.mpr (hreferences .container) service hservice _ (List.mem_map_of_mem hdependency)
    case volumes =>
      intro service hservice mount hmount name hsource
      exact hvolumes.mpr (hreferences .volume) service hservice name
        (List.mem_filterMap.mpr ⟨mount, hmount, mountVolume_eq_some.mpr hsource⟩)
    case networks =>
      intro service hservice network hnetwork
      exact hnetworks.mpr (hreferences .network) service hservice _ (List.mem_map_of_mem hnetwork)
    case groups =>
      intro group hgroup
      rw [m.membersMatch_iff h hgroup]
      intro container hcontainer hmember
      exact hkept.members container hcontainer group.value.name hmember
        ((hgroups group.value.name).mp (List.mem_map_of_mem hgroup))

end Mapping

/-! ## Pods with an infra container -/

/-- A pod of one container, which depends on another container by its native id. -/
def podSource (infra : Bool) : PodmanSource :=
  completeSource
    [(⟨.pod, "p1", some "pod"⟩, .pod ⟨.absent, .absent, .absent⟩),
      (⟨.container, "c1", some "web"⟩, .container { ContainerObservation.unobserved with
        podMembership := .of .configured "p1"
        nativeDependencies := .of .configured ["c2"] }),
      (⟨.container, "c2", some "base"⟩, .container { ContainerObservation.unobserved with
        infra := .of .configured infra })] .conservative

/-- The dependency is kept, and an infra container is declared nowhere. -/
theorem infraDependency_dangles : (Mapping.mk NativeLibrary.plain (podSource true)).Clean ∧
    ¬ (Mapping.mk NativeLibrary.plain (podSource true)).Closed := by
  constructor
  · unfold Mapping.Clean
    decide +kernel
  · intro hclosed
    have hdangles : ∃ service ∈ (Mapping.mk NativeLibrary.plain (podSource true)).application.services,
        ∃ dependency ∈ service.value.dependencies, dependency.value.service ∉
          (Mapping.mk NativeLibrary.plain (podSource true)).application.serviceNames := by
      decide +kernel
    obtain ⟨service, hservice, dependency, hdependency, habsent⟩ := hdangles
    exact habsent (hclosed.dependencies service hservice dependency hdependency)

theorem referential_closure_pod : (Mapping.mk NativeLibrary.plain (podSource false)).Closed := by
  refine (Mapping.referential_closure _ ?_).mpr ⟨?_, ?_⟩
  · unfold Mapping.Clean
    decide +kernel
  · have hall : ∀ container ∈ (Mapping.mk NativeLibrary.plain (podSource false)).serviceContainers,
        ∀ kind ∈ [ResourceKind.container, .image, .network, .pod, .secret, .volume],
          ∀ reference ∈ (Mapping.mk NativeLibrary.plain (podSource false)).references kind
            container.details, ∀ name ∈ (Mapping.mk NativeLibrary.plain (podSource false)).resolveName
              kind reference, ∃ observation ∈
                (Mapping.mk NativeLibrary.plain (podSource false)).observations kind,
                  observation.header.identity.shownName = name.asStr ∧
                    observation.isDeclared = true := by
      decide +kernel
    intro container hcontainer kind reference hreference name hname
    exact hall container hcontainer kind (by cases kind <;> simp) reference hreference name hname
  · have hall : ∀ container ∈ (Mapping.mk NativeLibrary.plain (podSource false)).serviceContainers,
        LastWins.owner ServiceContainer.answersTo
          (Mapping.mk NativeLibrary.plain (podSource false)).serviceContainers container.identity.id =
            some container := by
      decide +kernel
    intro container hcontainer group hkept hdeclared
    exact hall container hcontainer

end Boxferry.Podman.Import
