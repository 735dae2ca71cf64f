import Boxferry.Quadlet.Export.Command

/-! # One pod for all services

Services in one pod share its network and its user namespace. They are accepted for
one exactly when they agree on what they share and no port is declared by two of them. -/
namespace Boxferry.Quadlet.Export
open Engine Lens Model
set_option autoImplicit false

/-! ## The checks -/

/-- Why services cannot share one pod, and what to do instead. -/
structure GroupingProblem where
  summary : String
  reason : String

def sameNetworkAttachments (left right : List (Sourced NetworkAttachment)) : Bool :=
  left.length = right.length && (left.zip right).all fun (left, right) => left.value = right.value

def sameHostMappings (left right : List (Sourced HostMapping)) : Bool :=
  left.length = right.length && (left.zip right).all fun (left, right) => left.value = right.value

def protocolName : Protocol → Option String
  | .tcp => some "tcp"
  | .udp => some "udp"
  | .sctp => some "sctp"
  | .other _ => none

def serviceOrigins (services : List (Sourced Service)) : List Provenance :=
  services.flatMap Sourced.origins

def validateGroupedNetworking (first service : Service) : Except GroupingProblem Unit :=
  if !sameNetworkAttachments service.networks first.networks then
    .error ⟨"single-pod grouping would change declared service networking",
      "all services must have the same ordered network attachments and no aliases"⟩
  else if service.networks.any fun network => !network.value.aliases.isEmpty then
    .error ⟨"single-pod grouping cannot preserve per-service network aliases",
      "remove aliases or retain separate containers"⟩
  else if !sameHostMappings service.hostMappings first.hostMappings then
    .error ⟨"single-pod grouping cannot preserve different per-service host mappings",
      "all services must have the same ordered host mappings or retain separate containers"⟩
  else .ok ()

def userNamespaceText (service : Service) : Option String :=
  service.userNamespace.map fun value => value.value.expose

def validateGroupedUserNamespace (first : Service) (services : List (Sourced Service)) :
    Except GroupingProblem Unit :=
  if services.any fun service => userNamespaceText service.value ≠ userNamespaceText first then
    .error ⟨"single-pod grouping cannot preserve different per-service user namespaces",
      "all services must declare the same user namespace, or every service must leave it implicit"⟩
  else if (userNamespaceText first).any fun value => !isSafeWord value false then
    .error ⟨"single-pod grouping cannot encode the shared user namespace safely",
      "the shared user namespace contains unsupported whitespace or control syntax"⟩
  else .ok ()

/-- The declared ports with the names of their protocols. -/
structure PortSets where
  container : List (UInt16 × String)
  published : List (UInt16 × String)

def overlappingContainerPorts : GroupingProblem :=
  ⟨"single-pod grouping has overlapping declared container ports",
    "services in one pod share a network namespace; retain separate containers or remove the overlap"⟩

def overlappingPublishedPorts : GroupingProblem :=
  ⟨"single-pod grouping has overlapping published host ports",
    "retain separate containers or assign distinct host ports"⟩

/-- Adds one port of a service to its own sets, unless an earlier service has it. -/
def addPort (earlier own : PortSets) (port : Port) : Except GroupingProblem PortSets :=
  match protocolName port.protocol with
  | none =>
    .error ⟨"single-pod grouping cannot validate an unknown port protocol",
      "retain separate containers or use TCP, UDP, or SCTP"⟩
  | some protocol =>
    if (port.container, protocol) ∉ own.container ∧ (port.container, protocol) ∈ earlier.container then
      .error overlappingContainerPorts
    else
      match port.published with
      | none => .ok ⟨(port.container, protocol) :: own.container, own.published⟩
      | some published =>
        if (published, protocol) ∉ own.published ∧ (published, protocol) ∈ earlier.published then
          .error overlappingPublishedPorts
        else .ok ⟨(port.container, protocol) :: own.container, (published, protocol) :: own.published⟩

def addServicePorts (earlier : PortSets) (service : Sourced Service) : Except GroupingProblem PortSets := do
  let own ← service.value.ports.foldlM (fun own port => addPort earlier own port.value) ⟨[], []⟩
  return ⟨own.container ++ earlier.container, own.published ++ earlier.published⟩

def checkSinglePod (services : List (Sourced Service)) : Except GroupingProblem Unit := do
  match services with
  | [] =>
    .error ⟨"single-pod grouping requires at least one service", "the neutral application contains no services"⟩
  | first :: rest => do
    (first :: rest).forM fun service => validateGroupedNetworking first.value service.value
    validateGroupedUserNamespace first.value (first :: rest)
    let _ ← (first :: rest).foldlM addServicePorts ⟨[], []⟩
    return ()

namespace Mapping
variable (m : Mapping)

def validateSinglePodGrouping : Mapped Bool :=
  match checkSinglePod m.application.services with
  | .ok () => pure true
  | .error problem => do
    invalid Codes.groupingInvalid (.other "application.grouping") problem.summary problem.reason
      (serviceOrigins m.application.services)
    pure false

theorem validateSinglePodGrouping_iff :
    m.validateSinglePodGrouping.value = true ↔ checkSinglePod m.application.services = .ok () := by
  unfold validateSinglePodGrouping
  cases checkSinglePod m.application.services with
  | ok => simp
  | error problem => simp

end Mapping

/-! ## What services share -/

variable {first service : Service} {services : List (Sourced Service)} {port : Port} {earlier own next : PortSets}

theorem all_zip_iff {α : Type} [DecidableEq α] {left right : List (Sourced α)} :
    (left.length = right.length && (left.zip right).all fun (left, right) => left.value = right.value) = true
      ↔ left.map Sourced.value = right.map Sourced.value := by
  induction left generalizing right with
  | nil =>
    cases right with
    | nil => simp
    | cons => simp
  | cons head rest ih =>
    cases right with
    | nil => simp
    | cons other others =>
      have hrest := @ih others
      simp only [Bool.and_eq_true, decide_eq_true_eq] at hrest
      simp only [List.length_cons, Nat.add_right_cancel_iff, List.zip_cons_cons, List.all_cons,
        Bool.and_eq_true, decide_eq_true_eq, List.map_cons, List.cons.injEq, ← hrest]
      tauto

theorem sameNetworkAttachments_iff {left right : List (Sourced NetworkAttachment)} :
    sameNetworkAttachments left right = true ↔ left.map Sourced.value = right.map Sourced.value := all_zip_iff

theorem sameHostMappings_iff {left right : List (Sourced HostMapping)} :
    sameHostMappings left right = true ↔ left.map Sourced.value = right.map Sourced.value := all_zip_iff

/-- The service has no alias and the networks and host mappings of the first one. -/
structure Shares (first service : Service) : Prop where
  networks : service.networks.map Sourced.value = first.networks.map Sourced.value
  aliases : ∀ network ∈ service.networks, network.value.aliases = []
  hostMappings : service.hostMappings.map Sourced.value = first.hostMappings.map Sourced.value

theorem validateGroupedNetworking_ok : validateGroupedNetworking first service = .ok () ↔ Shares first service := by
  unfold validateGroupedNetworking
  by_cases hnetworks : sameNetworkAttachments service.networks first.networks = true
  · by_cases haliases : (service.networks.any fun network => !network.value.aliases.isEmpty) = true
    · simp only [hnetworks, haliases, Bool.not_true, Bool.false_eq_true, if_false, if_true]
      refine ⟨fun h => (nomatch h), fun h => ?_⟩
      obtain ⟨network, hnetwork, hempty⟩ := List.any_eq_true.mp haliases
      rw [h.aliases network hnetwork] at hempty
      exact nomatch hempty
    · have hnone : ∀ network ∈ service.networks, network.value.aliases = [] := by
        intro network hnetwork
        rw [Bool.not_eq_true, List.any_eq_false] at haliases
        simpa using haliases network hnetwork
      by_cases hmappings : sameHostMappings service.hostMappings first.hostMappings = true
      · simp only [hnetworks, haliases, hmappings, Bool.not_true, Bool.false_eq_true, if_false, true_iff]
        exact ⟨sameNetworkAttachments_iff.mp hnetworks, hnone, sameHostMappings_iff.mp hmappings⟩
      · simp only [hnetworks, haliases, hmappings, Bool.not_true, Bool.false_eq_true, Bool.not_false,
          if_false, if_true]
        exact ⟨fun h => (nomatch h), fun h => absurd (sameHostMappings_iff.mpr h.hostMappings) hmappings⟩
  · simp only [hnetworks, Bool.not_false, if_true]
    exact ⟨fun h => (nomatch h), fun h => absurd (sameNetworkAttachments_iff.mpr h.networks) hnetworks⟩

theorem validateGroupedUserNamespace_ok :
    validateGroupedUserNamespace first services = .ok ()
      ↔ (∀ service ∈ services, userNamespaceText service.value = userNamespaceText first)
        ∧ ∀ value, userNamespaceText first = some value → isSafeWord value false = true := by
  unfold validateGroupedUserNamespace
  by_cases hsame : (services.any fun service => userNamespaceText service.value ≠ userNamespaceText first) = true
  · rw [if_pos hsame]
    refine ⟨fun h => (nomatch h), fun h => ?_⟩
    obtain ⟨service, hservice, hother⟩ := List.any_eq_true.mp hsame
    exact absurd (h.1 service hservice) (of_decide_eq_true hother)
  · rw [if_neg hsame]
    rw [Bool.not_eq_true, List.any_eq_false] at hsame
    have hall : ∀ service ∈ services, userNamespaceText service.value = userNamespaceText first := by
      intro service hservice
      simpa using hsame service hservice
    cases hfirst : userNamespaceText first with
    | none =>
      rw [hfirst] at hall
      simp only [Option.any_none, Bool.false_eq_true, if_false, true_iff]
      exact ⟨hall, fun value hvalue => (nomatch hvalue)⟩
    | some text =>
      rw [hfirst] at hall
      rw [Option.any_some]
      cases hsafe : isSafeWord text false with
      | true =>
        simp only [Bool.not_true, Bool.false_eq_true, if_false, true_iff]
        refine ⟨hall, fun value hvalue => ?_⟩
        rw [← Option.some.inj hvalue]
        exact hsafe
      | false =>
        simp only [Bool.not_false, if_true]
        refine ⟨fun h => (nomatch h), fun h => ?_⟩
        have htext := h.2 text rfl
        rw [hsafe] at htext
        exact nomatch htext

/-! ## Ports -/

/-- The container port of a port with a known protocol. -/
def containerKeys (port : Port) : List (UInt16 × String) :=
  (protocolName port.protocol).toList.map fun protocol => (port.container, protocol)

/-- The published port of a port with a known protocol, if it has one. -/
def publishedKeys (port : Port) : List (UInt16 × String) :=
  (protocolName port.protocol).toList.flatMap fun protocol =>
    port.published.toList.map fun published => (published, protocol)

/-- A port with a known protocol whose numbers no earlier service has. -/
structure Fits (earlier : PortSets) (port : Port) : Prop where
  protocol : (protocolName port.protocol).isSome = true
  container : ∀ key ∈ containerKeys port, key ∉ earlier.container
  published : ∀ key ∈ publishedKeys port, key ∉ earlier.published

/-- No key of the one is a key of the other. -/
structure PortSets.Apart (own earlier : PortSets) : Prop where
  container : ∀ key ∈ own.container, key ∉ earlier.container
  published : ∀ key ∈ own.published, key ∉ earlier.published

def PortSets.append (own earlier : PortSets) : PortSets :=
  ⟨own.container ++ earlier.container, own.published ++ earlier.published⟩

def portKeys (port : Port) : PortSets := ⟨containerKeys port, publishedKeys port⟩

theorem addPort_ok (hapart : own.Apart earlier) :
    addPort earlier own port = .ok next ↔ Fits earlier port ∧ next = (portKeys port).append own := by
  unfold addPort
  cases hprotocol : protocolName port.protocol with
  | none =>
    refine ⟨fun h => (nomatch h), fun h => ?_⟩
    have hsome := h.1.protocol
    rw [hprotocol] at hsome
    exact nomatch hsome
  | some protocol =>
    have hcontainer : containerKeys port = [(port.container, protocol)] := by
      rw [containerKeys, hprotocol]
      rfl
    have hpublished : publishedKeys port = port.published.toList.map fun published => (published, protocol) := by
      rw [publishedKeys, hprotocol]
      simp
    have hfits : Fits earlier port ↔ (port.container, protocol) ∉ earlier.container
        ∧ ∀ published, port.published = some published → (published, protocol) ∉ earlier.published := by
      constructor
      · intro h
        refine ⟨h.container _ (by rw [hcontainer]; exact List.mem_singleton.mpr rfl), fun published hport => ?_⟩
        refine h.published _ ?_
        rw [hpublished, hport]
        exact List.mem_singleton.mpr rfl
      · rintro ⟨hfree, hpublishedFree⟩
        refine ⟨by rw [hprotocol]; rfl, fun key hkey => ?_, fun key hkey => ?_⟩
        · rw [hcontainer] at hkey
          rw [List.mem_singleton.mp hkey]
          exact hfree
        · rw [hpublished] at hkey
          obtain ⟨published, hport, rfl⟩ := List.mem_map.mp hkey
          exact hpublishedFree published (Option.mem_toList.mp hport)
    have hkeys : (portKeys port).append own
        = ⟨(port.container, protocol) :: own.container,
          (port.published.toList.map fun published => (published, protocol)) ++ own.published⟩ := by
      unfold PortSets.append portKeys
      simp only [hcontainer, hpublished]
      rfl
    rw [hfits, hkeys]
    by_cases htaken : (port.container, protocol) ∈ earlier.container
    · have hnew : (port.container, protocol) ∉ own.container := fun hmem => hapart.container _ hmem htaken
      simp only [hnew, not_false_eq_true, htaken, and_self, if_true, not_true_eq_false, false_and, iff_false]
      exact fun h => (nomatch h)
    · simp only [htaken, and_false, if_false, not_false_eq_true, true_and]
      cases hport : port.published with
      | none =>
        simp only [Option.toList_none, List.map_nil, List.nil_append, Except.ok.injEq]
        constructor
        · intro h
          exact ⟨fun published hsome => (nomatch hsome), h.symm⟩
        · intro h
          exact h.2.symm
      | some published =>
        simp only [Option.toList_some, List.map_cons, List.map_nil, List.cons_append, List.nil_append]
        by_cases hused : (published, protocol) ∈ earlier.published
        · have hfresh : (published, protocol) ∉ own.published := fun hmem => hapart.published _ hmem hused
          simp only [hfresh, not_false_eq_true, hused, and_self, if_true]
          refine ⟨fun h => (nomatch h), fun h => ?_⟩
          exact absurd hused (h.1 published rfl)
        · simp only [hused, and_false, if_false, Except.ok.injEq]
          constructor
          · intro h
            refine ⟨fun other hother => ?_, h.symm⟩
            rw [← Option.some.inj hother]
            exact hused
          · intro h
            exact h.2.symm

/-- All keys of the ports of a service. -/
def allKeys (ports : List Port) : PortSets := ⟨ports.flatMap containerKeys, ports.flatMap publishedKeys⟩

def keysOf (service : Sourced Service) : PortSets := allKeys (service.value.ports.map Sourced.value)

/-- Every port has a protocol that can be validated. -/
def KnownProtocols (service : Sourced Service) : Prop :=
  ∀ port ∈ service.value.ports, (protocolName port.value.protocol).isSome = true

theorem fits_iff {ports : List Port} :
    (∀ port ∈ ports, Fits earlier port)
      ↔ (∀ port ∈ ports, (protocolName port.protocol).isSome = true) ∧ (allKeys ports).Apart earlier := by
  constructor
  · intro h
    refine ⟨fun port hport => (h port hport).protocol, fun key hkey => ?_, fun key hkey => ?_⟩
    · obtain ⟨port, hport, hkey⟩ := List.mem_flatMap.mp hkey
      exact (h port hport).container key hkey
    · obtain ⟨port, hport, hkey⟩ := List.mem_flatMap.mp hkey
      exact (h port hport).published key hkey
  · rintro ⟨hknown, hapart⟩ port hport
    exact ⟨hknown port hport, fun key hkey => hapart.container key (List.mem_flatMap.mpr ⟨port, hport, hkey⟩),
      fun key hkey => hapart.published key (List.mem_flatMap.mpr ⟨port, hport, hkey⟩)⟩

/-- The keys that a service has after its ports are added. -/
def collect (ports : List Port) (own : PortSets) : PortSets :=
  ports.foldl (fun own port => (portKeys port).append own) own

theorem Apart.append {keys : PortSets} (h : keys.Apart earlier) (hown : own.Apart earlier) :
    (keys.append own).Apart earlier := by
  constructor
  · intro key hkey
    exact (List.mem_append.mp hkey).elim (h.container key) (hown.container key)
  · intro key hkey
    exact (List.mem_append.mp hkey).elim (h.published key) (hown.published key)

/-- The ports of a service are added when each of them fits, in any order and however often. -/
theorem addPorts_ok {ports : List (Sourced Port)} (hapart : own.Apart earlier) :
    ports.foldlM (fun own port => addPort earlier own port.value) own = .ok next
      ↔ (∀ port ∈ ports.map Sourced.value, Fits earlier port) ∧ next = collect (ports.map Sourced.value) own := by
  induction ports generalizing own with
  | nil =>
    constructor
    · intro h
      exact ⟨fun _ hport => (nomatch hport), (Except.ok.inj h).symm⟩
    · rintro ⟨-, rfl⟩
      rfl
  | cons port rest ih =>
    rw [List.map_cons, List.forall_mem_cons, List.foldlM_cons, Results.bind_eq_ok]
    have hlonger (hfits : Fits earlier port.value) : ((portKeys port.value).append own).Apart earlier :=
      Apart.append ⟨hfits.container, hfits.published⟩ hapart
    constructor
    · rintro ⟨middle, hmiddle, hrest⟩
      obtain ⟨hfits, rfl⟩ := (addPort_ok hapart).mp hmiddle
      obtain ⟨hall, hnext⟩ := (ih (hlonger hfits)).mp hrest
      exact ⟨⟨hfits, hall⟩, hnext⟩
    · rintro ⟨⟨hfits, hall⟩, hnext⟩
      exact ⟨_, (addPort_ok hapart).mpr ⟨hfits, rfl⟩, (ih (hlonger hfits)).mpr ⟨hall, hnext⟩⟩

theorem mem_collect {ports : List Port} {key : UInt16 × String} :
    (key ∈ (collect ports own).container ↔ key ∈ (allKeys ports).container ∨ key ∈ own.container)
      ∧ (key ∈ (collect ports own).published ↔ key ∈ (allKeys ports).published ∨ key ∈ own.published) := by
  induction ports generalizing own with
  | nil => simp [collect, allKeys]
  | cons port rest ih =>
    have hrest := @ih ((portKeys port).append own)
    constructor
    · refine hrest.1.trans ?_
      simp only [PortSets.append, portKeys, allKeys, List.flatMap_cons, List.mem_append]
      tauto
    · refine hrest.2.trans ?_
      simp only [PortSets.append, portKeys, allKeys, List.flatMap_cons, List.mem_append]
      tauto

theorem addServicePorts_ok {service : Sourced Service} :
    addServicePorts earlier service = .ok next
      ↔ (KnownProtocols service ∧ (keysOf service).Apart earlier)
        ∧ next = (collect (service.value.ports.map Sourced.value) ⟨[], []⟩).append earlier := by
  have hempty : (PortSets.mk [] []).Apart earlier :=
    ⟨fun _ hkey => (nomatch hkey), fun _ hkey => (nomatch hkey)⟩
  have hknown : KnownProtocols service
      ↔ ∀ port ∈ service.value.ports.map Sourced.value, (protocolName port.protocol).isSome = true := by
    unfold KnownProtocols
    rw [List.forall_mem_map]
  unfold addServicePorts
  rw [Results.bind_eq_ok, hknown, keysOf, ← fits_iff]
  constructor
  · rintro ⟨own, hown, hnext⟩
    obtain ⟨hfits, rfl⟩ := (addPorts_ok hempty).mp hown
    exact ⟨hfits, (Except.ok.inj hnext).symm⟩
  · rintro ⟨hfits, rfl⟩
    exact ⟨_, (addPorts_ok hempty).mpr ⟨hfits, rfl⟩, rfl⟩

/-- Apart from the keys of a service and of the earlier ones is apart from both. -/
theorem apart_append {keys : PortSets} {service : Sourced Service} :
    keys.Apart ((collect (service.value.ports.map Sourced.value) ⟨[], []⟩).append earlier)
      ↔ keys.Apart (keysOf service) ∧ keys.Apart earlier := by
  have hcontainer (key : UInt16 × String) :
      key ∈ ((collect (service.value.ports.map Sourced.value) ⟨[], []⟩).append earlier).container
        ↔ key ∈ (keysOf service).container ∨ key ∈ earlier.container := by
    show key ∈ _ ++ _ ↔ _
    rw [List.mem_append, mem_collect.1]
    simp [keysOf]
  have hpublished (key : UInt16 × String) :
      key ∈ ((collect (service.value.ports.map Sourced.value) ⟨[], []⟩).append earlier).published
        ↔ key ∈ (keysOf service).published ∨ key ∈ earlier.published := by
    show key ∈ _ ++ _ ↔ _
    rw [List.mem_append, mem_collect.2]
    simp [keysOf]
  constructor
  · intro h
    refine ⟨⟨fun key hkey hmem => ?_, fun key hkey hmem => ?_⟩, ⟨fun key hkey hmem => ?_, fun key hkey hmem => ?_⟩⟩
    · exact h.container key hkey ((hcontainer key).mpr (Or.inl hmem))
    · exact h.published key hkey ((hpublished key).mpr (Or.inl hmem))
    · exact h.container key hkey ((hcontainer key).mpr (Or.inr hmem))
    · exact h.published key hkey ((hpublished key).mpr (Or.inr hmem))
  · rintro ⟨hservice, hearlier⟩
    constructor
    · intro key hkey hmem
      exact ((hcontainer key).mp hmem).elim (hservice.container key hkey) (hearlier.container key hkey)
    · intro key hkey hmem
      exact ((hpublished key).mp hmem).elim (hservice.published key hkey) (hearlier.published key hkey)

/-- The ports of all services are added when no two services have a key in common. -/
theorem addAllPorts_ok :
    (∃ final, services.foldlM addServicePorts earlier = .ok final)
      ↔ (∀ service ∈ services, KnownProtocols service ∧ (keysOf service).Apart earlier)
        ∧ services.Pairwise fun service other => (keysOf other).Apart (keysOf service) := by
  induction services generalizing earlier with
  | nil => exact ⟨fun _ => ⟨fun _ h => (nomatch h), .nil⟩, fun _ => ⟨earlier, rfl⟩⟩
  | cons service rest ih =>
    rw [List.forall_mem_cons, List.pairwise_cons]
    constructor
    · rintro ⟨final, hfinal⟩
      rw [List.foldlM_cons] at hfinal
      obtain ⟨middle, hmiddle, hrest⟩ := Results.bind_eq_ok.mp hfinal
      obtain ⟨hfirst, rfl⟩ := addServicePorts_ok.mp hmiddle
      obtain ⟨hall, hpairs⟩ := ih.mp ⟨final, hrest⟩
      refine ⟨⟨hfirst, fun other hother => ?_⟩, fun other hother => ?_, hpairs⟩
      · exact ⟨(hall other hother).1, (apart_append.mp (hall other hother).2).2⟩
      · exact (apart_append.mp (hall other hother).2).1
    · rintro ⟨⟨hfirst, hall⟩, happarts, hpairs⟩
      obtain ⟨final, hfinal⟩ := ih.mpr ⟨fun other hother =>
        ⟨(hall other hother).1, apart_append.mpr ⟨happarts other hother, (hall other hother).2⟩⟩, hpairs⟩
      refine ⟨final, ?_⟩
      rw [List.foldlM_cons, addServicePorts_ok.mpr ⟨hfirst, rfl⟩]
      exact hfinal

/-! ## Services in one pod -/

/-- No container port and no published port of one protocol is declared by both services. -/
structure NoCommonPort (service other : Service) : Prop where
  container : ∀ port ∈ service.ports, ∀ second ∈ other.ports,
    (port.value.container, port.value.protocol) ≠ (second.value.container, second.value.protocol)
  published : ∀ port ∈ service.ports, ∀ second ∈ other.ports, ∀ number otherNumber,
    port.value.published = some number → second.value.published = some otherNumber →
      (number, port.value.protocol) ≠ (otherNumber, second.value.protocol)

theorem protocolName_injective {protocol other : Protocol} {name : String}
    (h : protocolName protocol = some name) (hother : protocolName other = some name) : protocol = other := by
  rw [← hother] at h
  cases protocol with
  | tcp | udp | sctp =>
    cases other with
    | tcp | udp | sctp => first | rfl | exact absurd h (by decide)
    | other => exact nomatch h
  | other => rw [show protocolName (.other _) = none from rfl] at h; rw [← h] at hother; exact nomatch hother

theorem mem_containerKeys {service : Sourced Service} {key : UInt16 × String} :
    key ∈ (keysOf service).container ↔ ∃ port ∈ service.value.ports,
      port.value.container = key.1 ∧ protocolName port.value.protocol = some key.2 := by
  unfold keysOf allKeys containerKeys
  simp only [List.mem_flatMap, List.mem_map, Option.mem_toList]
  constructor
  · rintro ⟨-, ⟨port, hport, rfl⟩, protocol, hprotocol, rfl⟩
    exact ⟨port, hport, rfl, hprotocol⟩
  · rintro ⟨port, hport, hnumber, hprotocol⟩
    exact ⟨port.value, ⟨port, hport, rfl⟩, key.2, hprotocol, Prod.ext hnumber rfl⟩

theorem mem_publishedKeys {service : Sourced Service} {key : UInt16 × String} :
    key ∈ (keysOf service).published ↔ ∃ port ∈ service.value.ports,
      port.value.published = some key.1 ∧ protocolName port.value.protocol = some key.2 := by
  unfold keysOf allKeys publishedKeys
  simp only [List.mem_flatMap, List.mem_map, Option.mem_toList]
  constructor
  · rintro ⟨-, ⟨port, hport, rfl⟩, protocol, hprotocol, published, hpublished, rfl⟩
    exact ⟨port, hport, hpublished, hprotocol⟩
  · rintro ⟨port, hport, hpublished, hprotocol⟩
    exact ⟨port.value, ⟨port, hport, rfl⟩, key.2, hprotocol, key.1, hpublished, rfl⟩

theorem apart_of_noCommonPort {service other : Sourced Service} (h : NoCommonPort service.value other.value) :
    (keysOf other).Apart (keysOf service) := by
  constructor
  · intro key hother hservice
    obtain ⟨second, hsecond, hnumber, hname⟩ := mem_containerKeys.mp hother
    obtain ⟨port, hport, hsame, hprotocol⟩ := mem_containerKeys.mp hservice
    exact h.container port hport second hsecond
      (Prod.ext (hsame.trans hnumber.symm) (protocolName_injective hprotocol hname))
  · intro key hother hservice
    obtain ⟨second, hsecond, hnumber, hname⟩ := mem_publishedKeys.mp hother
    obtain ⟨port, hport, hsame, hprotocol⟩ := mem_publishedKeys.mp hservice
    exact h.published port hport second hsecond key.1 key.1 hsame hnumber
      (Prod.ext rfl (protocolName_injective hprotocol hname))

theorem noCommonPort_of_apart {service other : Sourced Service} (hknown : KnownProtocols service)
    (h : (keysOf other).Apart (keysOf service)) : NoCommonPort service.value other.value := by
  constructor
  · intro port hport second hsecond hsame
    obtain ⟨hnumber, hprotocol⟩ := Prod.mk.inj hsame
    obtain ⟨name, hname⟩ := Option.isSome_iff_exists.mp (hknown port hport)
    refine h.container (port.value.container, name) ?_ (mem_containerKeys.mpr ⟨port, hport, rfl, hname⟩)
    exact mem_containerKeys.mpr ⟨second, hsecond, hnumber.symm, hprotocol ▸ hname⟩
  · intro port hport second hsecond number otherNumber hnumber hother hsame
    obtain ⟨rfl, hprotocol⟩ := Prod.mk.inj hsame
    obtain ⟨name, hname⟩ := Option.isSome_iff_exists.mp (hknown port hport)
    refine h.published (number, name) ?_ (mem_publishedKeys.mpr ⟨port, hport, hnumber, hname⟩)
    exact mem_publishedKeys.mpr ⟨second, hsecond, hother, hprotocol ▸ hname⟩

theorem NoCommonPort.symm {service other : Service} (h : NoCommonPort service other) :
    NoCommonPort other service :=
  ⟨fun port hport second hsecond hsame => h.container second hsecond port hport hsame.symm,
    fun port hport second hsecond number otherNumber hnumber hother hsame =>
      h.published second hsecond port hport otherNumber number hother hnumber hsame.symm⟩

/-- What services that share one pod have in common, and that no two of them declare a port. -/
structure SharesPod (services : List (Sourced Service)) : Prop where
  networks : ∀ service ∈ services, ∀ other ∈ services,
    service.value.networks.map Sourced.value = other.value.networks.map Sourced.value
  aliases : ∀ service ∈ services, ∀ network ∈ service.value.networks, network.value.aliases = []
  hostMappings : ∀ service ∈ services, ∀ other ∈ services,
    service.value.hostMappings.map Sourced.value = other.value.hostMappings.map Sourced.value
  userNamespaces : ∀ service ∈ services, ∀ other ∈ services,
    userNamespaceText service.value = userNamespaceText other.value
  ports : ∀ (index otherIndex : Nat) (service other : Sourced Service), services[index]? = some service →
    services[otherIndex]? = some other → index ≠ otherIndex → NoCommonPort service.value other.value

/-- What a group needs besides: services, known protocols and a user namespace that can be written. -/
structure Encodable (services : List (Sourced Service)) : Prop where
  nonempty : services ≠ []
  protocols : ∀ service ∈ services, KnownProtocols service
  userNamespace : ∀ service ∈ services, ∀ value, userNamespaceText service.value = some value →
    isSafeWord value false = true

theorem forM_eq_ok {α : Type} {check : α → Except GroupingProblem Unit} {list : List α} :
    list.forM check = .ok () ↔ ∀ item ∈ list, check item = .ok () := by
  induction list with
  | nil => exact ⟨fun _ _ h => (nomatch h), fun _ => rfl⟩
  | cons item rest ih =>
    rw [List.forall_mem_cons, ← ih]
    show (check item >>= fun _ => rest.forM check) = .ok () ↔ _
    rw [Results.bind_eq_ok]
    constructor
    · rintro ⟨⟨⟩, hitem, hrest⟩
      exact ⟨hitem, hrest⟩
    · rintro ⟨hitem, hrest⟩
      exact ⟨(), hitem, hrest⟩

theorem checkSinglePod_ok {first : Sourced Service} {rest : List (Sourced Service)} :
    checkSinglePod (first :: rest) = .ok ()
      ↔ (∀ service ∈ first :: rest, Shares first.value service.value)
        ∧ ((∀ service ∈ first :: rest, userNamespaceText service.value = userNamespaceText first.value)
          ∧ ∀ value, userNamespaceText first.value = some value → isSafeWord value false = true)
        ∧ (∀ service ∈ first :: rest, KnownProtocols service)
        ∧ (first :: rest).Pairwise fun service other => (keysOf other).Apart (keysOf service) := by
  have hempty : ∀ service, (keysOf service).Apart ⟨[], []⟩ :=
    fun _ => ⟨fun _ _ hkey => (nomatch hkey), fun _ _ hkey => (nomatch hkey)⟩
  have hports : (∃ final, (first :: rest).foldlM addServicePorts ⟨[], []⟩ = .ok final)
      ↔ (∀ service ∈ first :: rest, KnownProtocols service)
        ∧ (first :: rest).Pairwise fun service other => (keysOf other).Apart (keysOf service) := by
    rw [addAllPorts_ok]
    exact and_congr_left fun _ => forall₂_congr fun service _ =>
      ⟨fun h => h.1, fun h => ⟨h, hempty service⟩⟩
  have hnetworking : ((first :: rest).forM fun service : Sourced Service =>
        validateGroupedNetworking first.value service.value) = .ok ()
      ↔ ∀ service ∈ first :: rest, Shares first.value service.value :=
    forM_eq_ok.trans (forall₂_congr fun _ _ => validateGroupedNetworking_ok)
  rw [← hports, ← validateGroupedUserNamespace_ok, ← hnetworking]
  unfold checkSinglePod
  simp only
  constructor
  · intro h
    obtain ⟨⟨⟩, hfirst, h⟩ := Results.bind_eq_ok.mp h
    obtain ⟨⟨⟩, hnamespace, h⟩ := Results.bind_eq_ok.mp h
    obtain ⟨final, hfinal, -⟩ := Results.bind_eq_ok.mp h
    exact ⟨hfirst, hnamespace, final, hfinal⟩
  · rintro ⟨hfirst, hnamespace, final, hfinal⟩
    exact Results.bind_eq_ok.mpr ⟨(), hfirst, Results.bind_eq_ok.mpr ⟨(), hnamespace,
      Results.bind_eq_ok.mpr ⟨final, hfinal, rfl⟩⟩⟩

theorem pairwise_iff_indices {α : Type} {r : α → α → Prop} (hsymm : ∀ {a b}, r a b → r b a) {list : List α} :
    list.Pairwise r ↔ ∀ (index other : Nat) (a b : α), list[index]? = some a → list[other]? = some b → index ≠ other → r a b := by
  rw [List.pairwise_iff_getElem]
  constructor
  · intro h index other a b ha hb hne
    obtain ⟨hindex, rfl⟩ := List.getElem?_eq_some_iff.mp ha
    obtain ⟨hother, rfl⟩ := List.getElem?_eq_some_iff.mp hb
    rcases Nat.lt_or_gt_of_ne hne with hlt | hlt
    · exact h index other hindex hother hlt
    · exact hsymm (h other index hother hindex hlt)
  · intro h index other hindex hother hlt
    exact h index other _ _ (List.getElem?_eq_getElem hindex) (List.getElem?_eq_getElem hother) (Nat.ne_of_lt hlt)

theorem checkSinglePod_iff : checkSinglePod services = .ok () ↔ Encodable services ∧ SharesPod services := by
  cases services with
  | nil => exact ⟨fun h => (nomatch h), fun h => absurd rfl h.1.nonempty⟩
  | cons first rest =>
    rw [checkSinglePod_ok]
    constructor
    · rintro ⟨hshares, ⟨hsame, hsafe⟩, hknown, hpairs⟩
      refine ⟨⟨List.cons_ne_nil first rest, hknown, fun service hservice value hvalue => ?_⟩,
        ⟨fun service hservice other hother => ?_, fun service hservice => (hshares service hservice).aliases,
          fun service hservice other hother => ?_, fun service hservice other hother => ?_, ?_⟩⟩
      · exact hsafe value ((hsame service hservice).symm.trans hvalue)
      · exact (hshares service hservice).networks.trans (hshares other hother).networks.symm
      · exact (hshares service hservice).hostMappings.trans (hshares other hother).hostMappings.symm
      · exact (hsame service hservice).trans (hsame other hother).symm
      · have hcommon : (first :: rest).Pairwise fun service other : Sourced Service =>
            NoCommonPort service.value other.value :=
          hpairs.imp_of_mem fun hservice _ hapart => noCommonPort_of_apart (hknown _ hservice) hapart
        exact (pairwise_iff_indices NoCommonPort.symm).mp hcommon
    · rintro ⟨hencodable, hshares⟩
      refine ⟨fun service hservice => ⟨?_, hshares.aliases service hservice, ?_⟩, ⟨fun service hservice => ?_,
        hencodable.userNamespace first List.mem_cons_self⟩, hencodable.protocols, ?_⟩
      · exact hshares.networks service hservice first List.mem_cons_self
      · exact hshares.hostMappings service hservice first List.mem_cons_self
      · exact hshares.userNamespaces service hservice first List.mem_cons_self
      · have hcommon : (first :: rest).Pairwise fun service other : Sourced Service =>
            NoCommonPort service.value other.value :=
          (pairwise_iff_indices NoCommonPort.symm).mpr hshares.ports
        exact hcommon.imp fun h => apart_of_noCommonPort h

/-- Services that are accepted for one pod share it safely, and those that do are accepted. -/
theorem single_pod_grouping_safe (m : Mapping) :
    (m.validateSinglePodGrouping.value = true → SharesPod m.application.services)
      ∧ (SharesPod m.application.services ∧ Encodable m.application.services →
        m.validateSinglePodGrouping.value = true) := by
  rw [m.validateSinglePodGrouping_iff, checkSinglePod_iff]
  exact ⟨fun h => h.2, fun h => ⟨h.2, h.1⟩⟩

def portService (name : Identifier) (published : UInt16) : Service where
  name := name
  ports :=
    [⟨⟨80, some published, none, .tcp, Port.nonzero_http⟩, []⟩,
      ⟨⟨80, none, none, .tcp, Port.nonzero_http⟩, []⟩]

/-- One service that declares a port twice, and one without ports. -/
def portMapping : Mapping where
  exporter := ⟨.permissive, .singlePod, none⟩
  application :=
    { Application.new ⟨"app", Identifier.valid_app⟩ with
      services :=
        [⟨portService ⟨"web", Identifier.valid_web⟩ 8080, []⟩,
          ⟨{ name := ⟨"db", Identifier.valid_db⟩ }, []⟩] }
  podmanTarget := none

theorem single_pod_grouping_safe_ports : SharesPod portMapping.application.services :=
  (single_pod_grouping_safe portMapping).1 (by decide +kernel)

end Boxferry.Quadlet.Export
