import Boxferry.Library.LastWins
import Boxferry.Library.Lookup
import Boxferry.Model.ApplicationRuns
import Boxferry.Podman.Import.Services

/-! # What an import declares

The application of an import that reports no error. Every mapping step that
reports none adds the one declaration its observation stands for, so the whole
run declares the complete resources of the source, infra containers apart. -/
namespace Boxferry.Podman.Import
open Engine Model Mapping Results
set_option autoImplicit false

/-! ## Steps without an error -/

/-- Nothing that a mapping step reports is an error. -/
def Silent {α : Type} (steps : Imported α) : Prop := ∀ event ∈ steps.log, event.isError = false

section Silent
variable {α β : Type}

theorem silent_bind {first : Imported α} {next : α → Imported β} :
    Silent (first >>= next) ↔ Silent first ∧ Silent (next first.value) := by
  constructor
  · intro h
    constructor
    · exact fun event hevent => h event (Reports.mem_log_bind.mpr (Or.inl hevent))
    · exact fun event hevent => h event (Reports.mem_log_bind.mpr (Or.inr hevent))
  · rintro ⟨hfirst, hnext⟩ event hevent
    rcases Reports.mem_log_bind.mp hevent with hevent | hevent
    · exact hfirst event hevent
    · exact hnext event hevent

theorem not_silent_report {event : Event} (herror : event.isError = true) :
    ¬ Silent (Reports.report event : Imported Unit) := by
  intro h
  have hfalse := h event (List.mem_singleton.mpr rfl)
  rw [herror] at hfalse
  cases hfalse

theorem not_silent_invalid {subject : Subject} {summary : String} :
    ¬ Silent (invalid subject summary) := not_silent_report rfl

theorem not_silent_identityConflict {subject : Subject} {summary : String} :
    ¬ Silent (identityConflict subject summary) := not_silent_report rfl

theorem not_silent_modelError {subject : Subject} {error : ModelError} :
    ¬ Silent (modelError subject error) := by
  unfold modelError
  split
  all_goals first
    | exact not_silent_identityConflict
    | exact not_silent_invalid

/-- A step that goes on after an error is not silent. -/
theorem not_silent_of_first {first : Imported α} {next : α → Imported β} (hfirst : ¬ Silent first) :
    ¬ Silent (first >>= next) := fun h => hfirst (silent_bind.mp h).1

theorem ok_of_silent_settle {subject : Subject} {application : Application}
    {result : Except ModelError Application} (h : Silent (settle subject application result)) :
    ∃ grown, result = .ok grown := by
  cases result with
  | ok grown => exact ⟨grown, rfl⟩
  | error error => exact absurd h (not_silent_of_first not_silent_modelError)

theorem ok_of_silent_identifier {subject : Subject} {identity : ResourceIdentity}
    (h : Silent (identifier subject identity)) :
    ∃ name, Identifier.new identity.shownName = .ok name := by
  unfold identifier at h
  cases hname : Identifier.new identity.shownName with
  | ok name => exact ⟨name, rfl⟩
  | error error =>
    rw [hname] at h
    exact absurd h (not_silent_of_first not_silent_modelError)

/-- A step that needs a complete resource either goes on or leaves the state as it is. -/
theorem requireComplete_silent {header : ResourceHeader} {subject : Subject} {body : Imported β}
    {stop : β} (h : Silent (do if ← requireComplete header subject then body else pure stop)) :
    (header.isComplete = true ∧ Silent body ∧
      (do if ← requireComplete header subject then body else pure stop : Imported β).value =
        body.value) ∨
    (header.isComplete = false ∧
      (do if ← requireComplete header subject then body else pure stop : Imported β).value = stop) := by
  rw [silent_bind, value_requireComplete] at h
  rw [Reports.value_bind, value_requireComplete]
  cases hcomplete : header.isComplete with
  | true =>
    rw [hcomplete] at h
    exact Or.inl ⟨rfl, h.2, rfl⟩
  | false => exact Or.inr ⟨rfl, rfl⟩

end Silent

/-! ## Declared names -/

theorem addNetwork_ok {application grown : Application} {network : Sourced Network}
    (h : application.addNetwork network = .ok grown) :
    grown = { application with networks := application.networks ++ [network] } := by
  obtain ⟨_, -, hgrown⟩ := bind_eq_ok.mp h
  exact (Except.ok.inj hgrown).symm

theorem addVolume_ok {application grown : Application} {volume : Sourced Volume}
    (h : application.addVolume volume = .ok grown) :
    grown = { application with volumes := application.volumes ++ [volume] } := by
  obtain ⟨_, -, hgrown⟩ := bind_eq_ok.mp h
  exact (Except.ok.inj hgrown).symm

theorem addSecret_ok {application grown : Application} {secret : Sourced Secret}
    (h : application.addSecret secret = .ok grown) :
    grown = { application with secrets := application.secrets ++ [secret] } := by
  obtain ⟨_, -, hgrown⟩ := bind_eq_ok.mp h
  exact (Except.ok.inj hgrown).symm

namespace Mapping
variable (m : Mapping)

theorem name_mapNetworkInternal (subject : Subject) (field : ObservationField Bool)
    (network : Network) : (m.mapNetworkInternal subject field network).value.name = network.name := by
  unfold mapNetworkInternal
  rw [Reports.value_bind, value_portableSetting]
  cases field.portable? m.authorizedPortable <;> rfl

theorem name_mapNetworkIpam (subject : Subject)
    (field : ObservationField (List NativeNetworkSubnetObservation)) (network : Network) :
    (m.mapNetworkIpam subject field network).value.name = network.name := by
  unfold mapNetworkIpam
  rw [Reports.value_bind, value_portableSetting]
  cases field.portable? m.authorizedPortable <;> rfl

theorem name_buildNetwork (subject : Subject) (identity : ResourceIdentity)
    (details : NetworkObservation) (name : Identifier) :
    (m.buildNetwork subject identity details name).value.name = name := by
  unfold buildNetwork
  simp only [Reports.value_bind, Reports.value_pure]
  rw [name_mapNetworkIpam, name_mapNetworkInternal]

theorem name_buildVolume (subject : Subject) (identity : ResourceIdentity)
    (details : VolumeObservation) (name : Identifier) :
    (m.buildVolume subject identity details name).value.name = name := rfl

/-- A network observation without an error adds a network of its declared name, or nothing. -/
theorem mapNetwork_silent {application : Application} {observation : ResourceObservation}
    (h : Silent (m.mapNetwork application observation)) :
    ∃ added : List (Sourced Network), added.map (fun network => network.value.name) =
        (declaredName observation).toList ∧
      (m.mapNetwork application observation).value =
        { application with networks := application.networks ++ added } ∧
      (declaredName observation).isSome = observation.isDeclared := by
  unfold mapNetwork declaredName ResourceObservation.isDeclared ResourceObservation.isInfra at *
  rcases requireComplete_silent h with ⟨hcomplete, hbody, hvalue⟩ | ⟨hcomplete, hvalue⟩
  · rw [hvalue, hcomplete, if_pos rfl]
    cases hdetails : observation.details with
    | network details =>
      simp only [hdetails, silent_bind] at hbody ⊢
      obtain ⟨name, hname⟩ := ok_of_silent_identifier hbody.1
      simp only [Reports.value_bind, value_identifier, hname, Except.toOption, silent_bind] at hbody ⊢
      obtain ⟨grown, hgrown⟩ := ok_of_silent_settle hbody.2.2
      rw [value_settle, hgrown]
      refine ⟨[sourced _], ?_, addNetwork_ok hgrown, rfl⟩
      exact congrArg (fun name => [name]) (m.name_buildNetwork _ _ _ _)
    | _ =>
      simp only [hdetails] at hbody
      exact absurd hbody (not_silent_of_first not_silent_invalid)
  · rw [hvalue, hcomplete]
    exact ⟨[], rfl, by rw [List.append_nil], rfl⟩

theorem mapVolume_silent {application : Application} {observation : ResourceObservation}
    (h : Silent (m.mapVolume application observation)) :
    ∃ added : List (Sourced Volume), added.map (fun volume => volume.value.name) =
        (declaredName observation).toList ∧
      (m.mapVolume application observation).value =
        { application with volumes := application.volumes ++ added } ∧
      (declaredName observation).isSome = observation.isDeclared := by
  unfold mapVolume declaredName ResourceObservation.isDeclared ResourceObservation.isInfra at *
  rcases requireComplete_silent h with ⟨hcomplete, hbody, hvalue⟩ | ⟨hcomplete, hvalue⟩
  · rw [hvalue, hcomplete, if_pos rfl]
    cases hdetails : observation.details with
    | volume details =>
      simp only [hdetails, silent_bind] at hbody ⊢
      obtain ⟨name, hname⟩ := ok_of_silent_identifier hbody.1
      simp only [Reports.value_bind, value_identifier, hname, Except.toOption, silent_bind] at hbody ⊢
      obtain ⟨grown, hgrown⟩ := ok_of_silent_settle hbody.2.2
      rw [value_settle, hgrown]
      refine ⟨[sourced _], ?_, addVolume_ok hgrown, rfl⟩
      exact congrArg (fun name => [name]) (m.name_buildVolume _ _ _ _)
    | _ =>
      simp only [hdetails] at hbody
      exact absurd hbody (not_silent_of_first not_silent_invalid)
  · rw [hvalue, hcomplete]
    exact ⟨[], rfl, by rw [List.append_nil], rfl⟩

/-- A secret observation adds nothing but a secret. -/
theorem mapSecret_adds (application : Application) (observation : ResourceObservation) :
    ∃ added : List (Sourced Secret), (mapSecret application observation).value =
      { application with secrets := application.secrets ++ added } := by
  have hsame : application =
      { application with secrets := application.secrets ++ ([] : List (Sourced Secret)) } := by
    rw [List.append_nil]
  unfold mapSecret
  rw [Reports.value_bind, value_requireComplete]
  cases observation.header.isComplete with
  | false => exact ⟨[], hsame⟩
  | true =>
    cases observation.details with
    | secret details =>
      simp only [if_true, Reports.value_bind, value_identifier]
      cases Identifier.new observation.header.identity.shownName with
      | error error => exact ⟨[], hsame⟩
      | ok name =>
        simp only [Except.toOption, Reports.value_bind, value_settle]
        cases hadded : application.addSecret (sourced { name, ownership := .uncertain }) with
        | error error => exact ⟨[], hsame⟩
        | ok grown => exact ⟨_, addSecret_ok hadded⟩
    | _ => exact ⟨[], hsame⟩

end Mapping

/-! ## Services -/

theorem addService_ok {application grown : Application} {service : Sourced Service}
    (h : application.addService service = .ok grown) :
    service.value.name ∉ application.serviceNames ∧
      grown = { application with services := application.services ++ [service] } := by
  unfold Application.addService at h
  obtain ⟨_, hunique, h⟩ := bind_eq_ok.mp h
  obtain ⟨_, -, h⟩ := bind_eq_ok.mp h
  obtain ⟨_, -, h⟩ := bind_eq_ok.mp h
  obtain ⟨_, -, h⟩ := bind_eq_ok.mp h
  obtain ⟨_, -, h⟩ := bind_eq_ok.mp h
  exact ⟨ensureUnique_eq_ok.mp hunique, (Except.ok.inj h).symm⟩

namespace Mapping
variable (m : Mapping)

/-- The state after a container: its service is added and its names and pod are recorded. -/
def served (state : MappingState) (container : ServiceContainer) : MappingState :=
  { record state container.identity container.name (m.keptGroup container.details) with
    application := { state.application with
      services := state.application.services ++ [m.service container] } }

/-- A container observation without an error is served under its name, unless it is incomplete
or the infra container of a pod. -/
theorem mapContainer_silent {state : MappingState} {observation : ResourceObservation}
    (h : Silent (m.mapContainer state observation)) :
    (m.mapContainer state observation).value =
        ((serviceContainer? observation).map (m.served state)).getD state ∧
      (∀ container, serviceContainer? observation = some container →
        container.name ∉ state.application.serviceNames) ∧
      (serviceContainer? observation).isSome = observation.isDeclared := by
  unfold mapContainer at h ⊢
  unfold serviceContainer? ResourceObservation.isDeclared ResourceObservation.isInfra
  rcases requireComplete_silent h with ⟨hcomplete, hbody, hvalue⟩ | ⟨hcomplete, hvalue⟩
  · rw [hvalue, hcomplete]
    cases hdetails : observation.details with
    | container details =>
      simp only [hdetails, silent_bind] at hbody ⊢
      cases hinfra : Import.isInfra details with
      | true =>
        simp only [if_true, Reports.value_bind, Reports.value_pure]
        exact ⟨rfl, fun _ hnone => (by cases hnone), rfl⟩
      | false =>
        simp only [hinfra, Bool.false_eq_true, if_false, Reports.value_bind] at hbody ⊢
        unfold mapServiceContainer at hbody ⊢
        rw [silent_bind] at hbody
        obtain ⟨name, hname⟩ := ok_of_silent_identifier hbody.2.1
        have hdeclared : declaredName observation = some name := by
          unfold declaredName
          rw [hcomplete, if_pos rfl, hname]
          rfl
        simp only [Reports.value_bind, value_identifier, hname, Except.toOption, silent_bind,
          value_mapPodMembership, value_buildService] at hbody ⊢
        obtain ⟨grown, hgrown⟩ := ok_of_silent_settle hbody.2.2.2.2.1
        obtain ⟨hfresh, hadded⟩ := addService_ok hgrown
        rw [value_settle, hgrown, hdeclared]
        refine ⟨?_, ?_, rfl⟩
        · rw [hadded]
          rfl
        · intro container hcontainer
          cases hcontainer
          rw [value_sourced, name_serviceOf] at hfresh
          exact hfresh
    | _ =>
      simp only [hdetails] at hbody
      exact absurd hbody (not_silent_of_first not_silent_invalid)
  · rw [hvalue, hcomplete]
    have hundeclared : declaredName observation = none := by
      unfold declaredName
      rw [hcomplete]
      rfl
    rw [hundeclared]
    cases observation.details with
    | container details => simp
    | _ => simp

/-- A container records the pod it belongs to under its id. -/
def joins (container : ServiceContainer) (id : String) : Bool :=
  container.identity.id = id && (m.keptGroup container.details).isSome

/-- The names and pods of a state are those that its containers recorded last. -/
structure Recorded (containers : List ServiceContainer) (state : MappingState) : Prop where
  serviceNames : ∀ key, state.serviceNames.lookup key =
    (LastWins.owner ServiceContainer.answersTo containers key).map ServiceContainer.name
  podMemberships : ∀ id, state.podMemberships.lookup id =
    (LastWins.owner m.joins containers id).bind fun container => m.keptGroup container.details

theorem lookup_keys {α : Type} (keys : List String) (result : α) (pairs : List (String × α))
    (key : String) : (keys.map (fun key => (key, result)) ++ pairs).lookup key =
      if key ∈ keys then some result else pairs.lookup key := by
  induction keys with
  | nil => simp
  | cons first rest ih =>
    rw [List.map_cons, List.cons_append, Lookup.lookup_cons, ih]
    by_cases hfirst : key = first
    · simp [hfirst]
    · simp [hfirst]

theorem mem_serviceKeys {identity : ResourceIdentity} {key : String} :
    key ∈ serviceKeys identity ↔ identity.answersTo key = true := by
  unfold serviceKeys ResourceIdentity.answersTo
  rw [List.mem_append, List.mem_singleton, Option.mem_toList, Bool.or_eq_true, decide_eq_true_eq,
    decide_eq_true_eq, or_comm, eq_comm]

theorem Recorded.served {containers : List ServiceContainer} {state : MappingState}
    (h : m.Recorded containers state) (container : ServiceContainer) :
    m.Recorded (containers ++ [container]) (m.served state container) := by
  constructor
  · intro key
    rw [LastWins.owner_append_singleton]
    show ((serviceKeys container.identity).map _ ++ state.serviceNames).lookup key = _
    rw [lookup_keys, h.serviceNames key]
    have hanswers : key ∈ serviceKeys container.identity ↔ container.answersTo key = true :=
      mem_serviceKeys
    cases hkey : container.answersTo key with
    | true => rw [if_pos (hanswers.mpr hkey), if_pos rfl, Option.map_some]
    | false =>
      have habsent : key ∉ serviceKeys container.identity := by
        rw [hanswers, hkey]
        exact Bool.false_ne_true
      rw [if_neg habsent, if_neg Bool.false_ne_true]
  · intro id
    rw [LastWins.owner_append_singleton]
    show ((m.keptGroup container.details).toList.map _ ++ state.podMemberships).lookup id = _
    cases hgroup : m.keptGroup container.details with
    | none =>
      have hjoins : m.joins container id = false := by simp [joins, hgroup]
      rw [hjoins, if_neg Bool.false_ne_true]
      exact h.podMemberships id
    | some group =>
      have hjoins : m.joins container id = decide (container.identity.id = id) := by
        simp [joins, hgroup]
      have hlookup := Lookup.lookup_cons id container.identity.id group state.podMemberships
      simp only [Option.toList_some, List.map_cons, List.map_nil, List.cons_append, List.nil_append]
      rw [hlookup, h.podMemberships id, hjoins]
      by_cases hid : id = container.identity.id
      · rw [if_pos hid, if_pos (decide_eq_true hid.symm), Option.bind_some, hgroup]
      · have hother : ¬ decide (container.identity.id = id) = true := by
          simpa using fun hsame : container.identity.id = id => hid hsame.symm
        rw [if_neg hid, if_neg hother]

end Mapping

/-! ## Groups -/

theorem addMembers_silent {subject : Subject} {names : List Identifier} {group : ServiceGroup}
    (h : Silent (names.foldlM (addMember subject) group)) :
    (names.foldlM (addMember subject) group).value.name = group.name ∧
      (names.foldlM (addMember subject) group).value.members =
        group.members ++ names.map sourced := by
  induction names generalizing group with
  | nil => exact ⟨rfl, (List.append_nil group.members).symm⟩
  | cons first rest ih =>
    rw [Reports.foldlM_cons, silent_bind] at h
    rw [Reports.foldlM_cons, Reports.value_bind]
    have hfirst : (addMember subject group first).value.name = group.name ∧
        (addMember subject group first).value.members = group.members ++ [sourced first] := by
      have hadded := h.1
      unfold addMember at hadded ⊢
      unfold ServiceGroup.addMember at hadded ⊢
      split at hadded
      · next grown hgrown =>
        split at hgrown
        · cases hgrown
        · cases hgrown
          exact ⟨rfl, rfl⟩
      · exact absurd hadded (not_silent_of_first not_silent_modelError)
    obtain ⟨hname, hmembers⟩ := ih h.2
    rw [hname, hmembers, hfirst.1, hfirst.2, List.append_assoc]
    exact ⟨rfl, rfl⟩

theorem addServiceGroup_ok {application grown : Application} {group : Sourced ServiceGroup}
    (h : application.addServiceGroup group = .ok grown) :
    grown = { application with serviceGroups := application.serviceGroups ++ [group] } := by
  unfold Application.addServiceGroup at h
  obtain ⟨_, -, h⟩ := bind_eq_ok.mp h
  obtain ⟨_, -, h⟩ := bind_eq_ok.mp h
  exact (Except.ok.inj h).symm

namespace Mapping
variable (m : Mapping)

/-- The names that the containers contribute to a group. -/
def memberNames (state : MappingState) (name : Identifier) : List Identifier :=
  (m.observations .container).filterMap (memberOf state name)

/-- A pod observation without an error adds the group of the services its containers contribute. -/
theorem mapPod_silent {state : MappingState} {observation : ResourceObservation}
    (h : Silent (m.mapPod state observation)) :
    ∃ added : List (Sourced ServiceGroup), added.map (fun group => group.value.name) =
        (declaredName observation).toList ∧
      (∀ group ∈ added, group.value.members.map Sourced.value =
        m.memberNames state group.value.name) ∧
      (m.mapPod state observation).value = { state with application := { state.application with
        serviceGroups := state.application.serviceGroups ++ added } } ∧
      (declaredName observation).isSome = observation.isDeclared := by
  unfold mapPod declaredName ResourceObservation.isDeclared ResourceObservation.isInfra at *
  rcases requireComplete_silent h with ⟨hcomplete, hbody, hvalue⟩ | ⟨hcomplete, hvalue⟩
  · rw [hvalue, hcomplete, if_pos rfl]
    cases hdetails : observation.details with
    | pod details =>
      simp only [hdetails, silent_bind] at hbody ⊢
      obtain ⟨name, hname⟩ := ok_of_silent_identifier hbody.1
      simp only [Reports.value_bind, value_identifier, hname, Except.toOption, silent_bind] at hbody ⊢
      obtain ⟨grown, hgrown⟩ := ok_of_silent_settle hbody.2.2.2.1
      have hadded : Silent ((m.memberNames state name).foldlM (addMember (Subject.ofResource
        observation.header.identity)) (ServiceGroup.new name .uncertain)) := hbody.2.1
      obtain ⟨hgroup, hmembers⟩ := addMembers_silent hadded
      rw [value_settle, hgrown]
      refine ⟨[sourced ((m.memberNames state name).foldlM (addMember (Subject.ofResource
        observation.header.identity)) (ServiceGroup.new name .uncertain)).value], ?_, ?_, ?_⟩
      · exact congrArg (fun name => [name]) hgroup
      · intro group hmem
        rw [List.mem_singleton.mp hmem, value_sourced, hmembers, hgroup]
        simp [ServiceGroup.new, List.map_map, Function.comp_def]
      · refine ⟨?_, rfl⟩
        rw [addServiceGroup_ok hgrown]
        rfl
    | _ =>
      simp only [hdetails] at hbody
      exact absurd hbody (not_silent_of_first not_silent_invalid)
  · rw [hvalue, hcomplete]
    refine ⟨[], rfl, ?_, ?_, rfl⟩
    · intro group hmem
      cases hmem
    · rw [List.append_nil]

end Mapping

/-! ## The whole run -/

/-- The application declares the complete resources of a source, its services are those of the
source's containers, and its groups have the members that the containers recorded. -/
structure Declares (m : Mapping) (application : Application) : Prop where
  networks : application.networkNames = (m.observations .network).filterMap declaredName
  volumes : application.volumeNames = (m.observations .volume).filterMap declaredName
  services : application.services = m.serviceContainers.map m.service
  distinct : (m.serviceContainers.map ServiceContainer.name).Nodup
  groups : application.serviceGroupNames = (m.observations .pod).filterMap declaredName
  members : ∀ group ∈ application.serviceGroups, ∃ state, m.Recorded m.serviceContainers state ∧
    group.value.members.map Sourced.value = m.memberNames state group.value.name
  named : ∀ kind, kind = .network ∨ kind = .volume ∨ kind = .pod →
    ∀ observation ∈ m.observations kind,
      (declaredName observation).isSome = observation.isDeclared
  served : ∀ observation ∈ m.observations .container,
    (serviceContainer? observation).isSome = observation.isDeclared

namespace Mapping
variable (m : Mapping)

theorem networks_silent {items : List ResourceObservation} {start : Application}
    (h : Silent (items.foldlM m.mapNetwork start)) :
    ∃ added : List (Sourced Network), added.map (fun network => network.value.name) =
        items.filterMap declaredName ∧
      (items.foldlM m.mapNetwork start).value = { start with networks := start.networks ++ added } ∧
      ∀ item ∈ items, (declaredName item).isSome = item.isDeclared := by
  refine Reports.foldlM_induction (motive := fun done state _ =>
    ∃ added : List (Sourced Network), added.map (fun network => network.value.name) =
        done.filterMap declaredName ∧
      state = { start with networks := start.networks ++ added } ∧
      ∀ item ∈ done, (declaredName item).isSome = item.isDeclared) h ?_ ?_
  · exact ⟨[], rfl, by rw [List.append_nil], fun _ hitem => absurd hitem List.not_mem_nil⟩
  · intro done item state _ _ hdone hsilent
    obtain ⟨before, hbefore, hstate, hearlier⟩ := hdone
    obtain ⟨added, hadded, hvalue, hitem⟩ := m.mapNetwork_silent hsilent
    refine ⟨before ++ added, ?_, ?_, ?_⟩
    · rw [List.map_append, List.filterMap_append, hbefore, hadded]
      cases hname : declaredName item <;> simp [hname]
    · rw [hvalue, hstate, ← List.append_assoc]
    · intro other hother
      rcases List.mem_append.mp hother with hother | hother
      · exact hearlier other hother
      · rw [List.mem_singleton.mp hother]
        exact hitem

theorem volumes_silent {items : List ResourceObservation} {start : Application}
    (h : Silent (items.foldlM m.mapVolume start)) :
    ∃ added : List (Sourced Volume), added.map (fun volume => volume.value.name) =
        items.filterMap declaredName ∧
      (items.foldlM m.mapVolume start).value = { start with volumes := start.volumes ++ added } ∧
      ∀ item ∈ items, (declaredName item).isSome = item.isDeclared := by
  refine Reports.foldlM_induction (motive := fun done state _ =>
    ∃ added : List (Sourced Volume), added.map (fun volume => volume.value.name) =
        done.filterMap declaredName ∧
      state = { start with volumes := start.volumes ++ added } ∧
      ∀ item ∈ done, (declaredName item).isSome = item.isDeclared) h ?_ ?_
  · exact ⟨[], rfl, by rw [List.append_nil], fun _ hitem => absurd hitem List.not_mem_nil⟩
  · intro done item state _ _ hdone hsilent
    obtain ⟨before, hbefore, hstate, hearlier⟩ := hdone
    obtain ⟨added, hadded, hvalue, hitem⟩ := m.mapVolume_silent hsilent
    refine ⟨before ++ added, ?_, ?_, ?_⟩
    · rw [List.map_append, List.filterMap_append, hbefore, hadded]
      cases hname : declaredName item <;> simp [hname]
    · rw [hvalue, hstate, ← List.append_assoc]
    · intro other hother
      rcases List.mem_append.mp hother with hother | hother
      · exact hearlier other hother
      · rw [List.mem_singleton.mp hother]
        exact hitem

theorem secrets_add (items : List ResourceObservation) (start : Application) :
    ∃ added : List (Sourced Secret), (items.foldlM mapSecret start).value =
      { start with secrets := start.secrets ++ added } := by
  refine Reports.value_foldlM_invariant (motive := fun application : Application =>
    ∃ added : List (Sourced Secret),
      application = { start with secrets := start.secrets ++ added }) ?_ ?_
  · exact ⟨[], by rw [List.append_nil]⟩
  · rintro state item - ⟨before, hstate⟩
    obtain ⟨added, hadded⟩ := mapSecret_adds state item
    refine ⟨before ++ added, ?_⟩
    rw [hadded, hstate, ← List.append_assoc]

theorem containers_silent {items : List ResourceObservation} {start : Application}
    (hstart : start.services = [])
    (h : Silent (items.foldlM m.mapContainer { application := start })) :
    (items.foldlM m.mapContainer { application := start }).value.application =
        { start with services := (items.filterMap serviceContainer?).map m.service } ∧
      m.Recorded (items.filterMap serviceContainer?)
        (items.foldlM m.mapContainer { application := start }).value ∧
      ((items.filterMap serviceContainer?).map ServiceContainer.name).Nodup ∧
      ∀ item ∈ items, (serviceContainer? item).isSome = item.isDeclared := by
  refine Reports.foldlM_induction (motive := fun done state _ =>
    state.application =
        { start with services := (done.filterMap serviceContainer?).map m.service } ∧
      m.Recorded (done.filterMap serviceContainer?) state ∧
      ((done.filterMap serviceContainer?).map ServiceContainer.name).Nodup ∧
      ∀ item ∈ done, (serviceContainer? item).isSome = item.isDeclared) h ?_ ?_
  · refine ⟨?_, ⟨fun _ => rfl, fun _ => rfl⟩, List.nodup_nil,
      fun _ hitem => absurd hitem List.not_mem_nil⟩
    show start = { start with services := [] }
    rw [← hstart]
  · intro done item state _ _ hdone hsilent
    obtain ⟨happlication, hrecorded, hdistinct, hearlier⟩ := hdone
    obtain ⟨hvalue, hfresh, hitem⟩ := m.mapContainer_silent hsilent
    have hall : ∀ other ∈ done ++ [item],
        (serviceContainer? other).isSome = other.isDeclared := by
      intro other hother
      rcases List.mem_append.mp hother with hother | hother
      · exact hearlier other hother
      · rw [List.mem_singleton.mp hother]
        exact hitem
    rw [hvalue, List.filterMap_append, List.filterMap_cons, List.filterMap_nil]
    cases hcontainer : serviceContainer? item with
    | none =>
      rw [List.append_nil]
      exact ⟨happlication, hrecorded, hdistinct, hall⟩
    | some container =>
      refine ⟨?_, hrecorded.served m container, ?_, hall⟩
      · rw [Option.map_some, Option.getD_some, List.map_append]
        unfold served
        rw [happlication]
        rfl
      · have hnew := hfresh container hcontainer
        have hnames : state.application.serviceNames =
            (done.filterMap serviceContainer?).map ServiceContainer.name := by
          unfold Application.serviceNames
          rw [happlication, List.map_map]
          refine List.map_congr_left fun other _ => ?_
          exact m.name_serviceOf _ _ _
        rw [hnames] at hnew
        exact Naming.nodup_append hdistinct hnew

theorem pods_silent {items : List ResourceObservation} {start : MappingState}
    (h : Silent (items.foldlM m.mapPod start)) :
    ∃ added : List (Sourced ServiceGroup), added.map (fun group => group.value.name) =
        items.filterMap declaredName ∧
      (∀ group ∈ added, group.value.members.map Sourced.value =
        m.memberNames start group.value.name) ∧
      (items.foldlM m.mapPod start).value = { start with application := { start.application with
        serviceGroups := start.application.serviceGroups ++ added } } ∧
      ∀ item ∈ items, (declaredName item).isSome = item.isDeclared := by
  refine Reports.foldlM_induction (motive := fun done state _ =>
    ∃ added : List (Sourced ServiceGroup), added.map (fun group => group.value.name) =
        done.filterMap declaredName ∧
      (∀ group ∈ added, group.value.members.map Sourced.value =
        m.memberNames start group.value.name) ∧
      state = { start with application := { start.application with
        serviceGroups := start.application.serviceGroups ++ added } } ∧
      ∀ item ∈ done, (declaredName item).isSome = item.isDeclared) h ?_ ?_
  · exact ⟨[], rfl, fun _ hgroup => absurd hgroup List.not_mem_nil, by rw [List.append_nil],
      fun _ hitem => absurd hitem List.not_mem_nil⟩
  · intro done item state _ _ hdone hsilent
    obtain ⟨before, hbefore, hmembers, hstate, hearlier⟩ := hdone
    obtain ⟨added, hadded, hgroups, hvalue, hitem⟩ := m.mapPod_silent hsilent
    refine ⟨before ++ added, ?_, ?_, ?_, ?_⟩
    · rw [List.map_append, List.filterMap_append, hbefore, hadded]
      cases hname : declaredName item <;> simp [hname]
    · intro group hgroup
      rcases List.mem_append.mp hgroup with hgroup | hgroup
      · exact hmembers group hgroup
      · have hsame := hgroups group hgroup
        rw [hstate] at hsame
        exact hsame
    · rw [hvalue, hstate, ← List.append_assoc]
    · intro other hother
      rcases List.mem_append.mp hother with hother | hother
      · exact hearlier other hother
      · rw [List.mem_singleton.mp hother]
        exact hitem

theorem map_silent (h : m.Clean) : Silent m.mapResources := by
  unfold Clean map at h
  intro event hevent
  apply h event
  simp only [Reports.mem_log_bind]
  exact Or.inr (Or.inr (Or.inr (Or.inl hevent)))

/-- The application of an import without an error. -/
theorem declares_of_clean (h : m.Clean) : Declares m m.application := by
  have hsilent := m.map_silent h
  unfold mapResources at hsilent
  simp only [silent_bind] at hsilent
  obtain ⟨hnetworks, hvolumes, -, hcontainers, hpods⟩ := hsilent
  obtain ⟨networks, hnetworkNames, hnetworkValue, hnetworkDeclared⟩ := m.networks_silent hnetworks
  obtain ⟨volumes, hvolumeNames, hvolumeValue, hvolumeDeclared⟩ := m.volumes_silent hvolumes
  rw [hnetworkValue] at hvolumeValue
  obtain ⟨secrets, hsecrets⟩ := secrets_add (m.observations .secret)
    ((m.observations .volume).foldlM m.mapVolume
      ((m.observations .network).foldlM m.mapNetwork
        (Application.new m.source.applicationName)).value).value
  rw [hnetworkValue, hvolumeValue] at hsecrets
  rw [hnetworkValue, hvolumeValue, hsecrets] at hcontainers hpods
  obtain ⟨hservices, hrecorded, hdistinct, hserved⟩ := m.containers_silent rfl hcontainers
  obtain ⟨groups, hgroupNames, hmembers, hpodValue, hpodDeclared⟩ := m.pods_silent hpods
  have happlication : m.application = _ := congrArg MappingState.application (show
    m.mapResources.value = _ by
      unfold mapResources
      simp only [Reports.value_bind]
      rw [hnetworkValue, hvolumeValue, hsecrets, hpodValue])
  rw [happlication]
  constructor
  case networks =>
    show Application.networkNames _ = _
    unfold Application.networkNames
    rw [hservices]
    exact hnetworkNames
  case volumes =>
    show Application.volumeNames _ = _
    unfold Application.volumeNames
    rw [hservices]
    exact hvolumeNames
  case services => exact congrArg Application.services hservices
  case distinct => exact hdistinct
  case groups =>
    show (_ ++ groups).map _ = _
    rw [hservices]
    exact hgroupNames
  case members =>
    intro group hgroup
    change group ∈ _ ++ groups at hgroup
    rw [hservices] at hgroup
    exact ⟨_, hrecorded, hmembers group hgroup⟩
  case named =>
    rintro kind (rfl | rfl | rfl)
    · exact hnetworkDeclared
    · exact hvolumeDeclared
    · exact hpodDeclared
  case served => exact hserved

end Mapping
end Boxferry.Podman.Import
