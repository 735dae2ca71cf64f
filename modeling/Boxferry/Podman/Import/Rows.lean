import Boxferry.Podman.Import.Dropped

/-! # Rows of a container's networking

Which port bindings and aliases become intent, which are lost, and which stop at
a gate that reports nothing but exact outcomes. -/
namespace Boxferry.Podman.Import
open Engine Model Mapping
set_option autoImplicit false

/-- No part of one subject is a part of the other. -/
def Subject.Apart (whole part : Subject) : Prop := ¬ whole.Below part ∧ ¬ part.Below whole

/-- A step about a subject loses no part of one apart from it. -/
theorem Under.not_loss {α : Type} {whole part : Subject} {steps : Imported α} (h : Under part steps)
    (hapart : whole.Apart part) : ¬ Loss whole steps := by
  rintro ⟨event, hevent, decision, hdecision, hbelow, -⟩
  have hunder := h event hevent decision hdecision
  rcases Subject.below_iff.mp hbelow with hsame | ⟨kind, identity, path, more, rfl, hwhole⟩
  · rw [← hsame] at hunder
    exact hapart.2 hunder
  · rcases Subject.below_iff.mp hunder with hsame | ⟨other, otherIdentity, otherPath, rest, rfl, hpart⟩
    · rw [← hsame] at hbelow
      exact hapart.1 hbelow
    · rw [hwhole] at hpart
      injection hpart with hkind hidentity hpath
      subst hkind hidentity
      rcases List.prefix_or_prefix_of_prefix (List.prefix_append path more)
        (hpath ▸ List.prefix_append otherPath rest) with hshort | hshort
      · exact hapart.1 ⟨rfl, rfl, hshort⟩
      · exact hapart.2 ⟨rfl, rfl, hshort⟩

/-! ## Port bindings -/

namespace Mapping
variable (m : Mapping)

/-- A host field lets its binding pass: it is not observed, or may become intent. -/
def Passes {α : Type} (field : ObservationField α) : Prop :=
  field.isObserved = true → (m.mayPass field).isSome = true

/-- The binding stops at a host field that is evidence of the runtime, and nothing is lost for it. -/
def SilentlyStopped (binding : NativePortBindingObservation) : Prop :=
  binding.hostPort.quiet = true ∨
    (binding.hostPort.gateLoses m.authorizedPortable = false ∧ binding.hostIp.quiet = true)

/-- The other binding becomes a port, with the values that are observed for the binding. -/
structure StandsFor (other binding : NativePortBindingObservation) : Prop where
  hostPort : m.Passes other.hostPort
  hostIp : m.Passes other.hostIp
  nonzero : other.containerPort ≠ 0
  reviewed : (portProtocol other.protocol).isSome
  container : other.containerPort = binding.containerPort
  protocol : portProtocol other.protocol = portProtocol binding.protocol
  published : other.hostPort.observed?.map Observed.value = binding.hostPort.observed?.map Observed.value
  hostAddress : (other.hostIp.observed?.map fun address => address.value.spelling) =
    binding.hostIp.observed?.map fun address => address.value.spelling

section Hosts
variable {α : Type} {field : ObservationField α}

theorem portable_isSome_mayPass :
    (field.portable? m.authorizedPortable).isSome = (m.mayPass field).isSome := by
  unfold mayPass
  rw [Option.isSome_map]

/-- A host field that blocks its binding is lost, or evidence of the runtime. -/
theorem blocked_iff : (field.isObserved && (field.portable? m.authorizedPortable).isNone) = true ↔
    ¬ m.Passes field := by
  unfold Passes
  rw [← portable_isSome_mayPass]
  cases field.isObserved <;> cases field.portable? m.authorizedPortable <;> simp

theorem quiet_not_passes (h : field.quiet = true) : ¬ m.Passes field := by
  unfold Passes
  rw [← portable_isSome_mayPass]
  unfold ObservationField.quiet ObservationField.origin? at h
  cases field with
  | observed observation =>
    obtain ⟨origin, value⟩ := observation
    cases origin <;> simp_all [ObservationField.isObserved, ObservationField.portable?]
  | _ => simp [ObservationField.observed?] at h

theorem quiet_not_gateLoses {authorized : Bool} (h : field.quiet = true) :
    field.gateLoses authorized = false := by
  unfold ObservationField.quiet ObservationField.origin? at h
  unfold ObservationField.gateLoses ObservationField.incomplete ObservationField.origin?
  cases field with
  | observed observation =>
    obtain ⟨origin, value⟩ := observation
    cases origin <;> simp_all
  | _ => simp [ObservationField.observed?] at h

/-- A blocked host field that is not evidence of the runtime is lost. -/
theorem gateLoses_of_blocked (h : ¬ m.Passes field) (hquiet : field.quiet = false) :
    field.gateLoses m.authorizedPortable = true := by
  unfold Passes at h
  rw [Classical.not_imp] at h
  obtain ⟨hobserved, hstopped⟩ := h
  obtain ⟨observation, hobserved⟩ := Option.isSome_iff_exists.mp hobserved
  rw [← portable_isSome_mayPass] at hstopped
  exact gateLoses_of_stopped hobserved (Option.not_isSome_iff_eq_none.mp hstopped) hquiet

theorem keptHost_eq_some (h : m.Passes field) :
    m.keptHost field = some (field.portable? m.authorizedPortable) := by
  unfold keptHost
  rw [if_neg]
  rw [blocked_iff]
  exact not_not_intro h

theorem keptHost_eq_none (h : ¬ m.Passes field) : m.keptHost field = none := by
  unfold keptHost
  rw [if_pos (m.blocked_iff.mpr h)]

/-- The value of a host field that passes is the observed one. -/
theorem value_of_passes (h : m.Passes field) :
    (field.portable? m.authorizedPortable).map Prod.fst = field.observed?.map Observed.value := by
  unfold Passes at h
  rw [← portable_isSome_mayPass] at h
  unfold ObservationField.portable? ObservationField.isObserved at *
  cases hobserved : field.observed? with
  | none => rfl
  | some observation =>
    rw [hobserved] at h
    have hpassed := h rfl
    simp only [Option.bind_some] at hpassed ⊢
    split at hpassed
    · next horigin => rw [if_pos horigin]; rfl
    · next horigin =>
      split at hpassed
      · next heffective => rw [if_neg horigin, if_pos heffective]; rfl
      · cases hpassed

end Hosts

/-- A binding becomes a port when its host fields pass and its own values are valid. -/
theorem keptPort_eq_some {promoted : Bool} {binding : NativePortBindingObservation}
    {port : Sourced Port} (h : m.keptPort promoted binding = some port) :
    m.Passes binding.hostPort ∧ m.Passes binding.hostIp ∧ binding.containerPort ≠ 0 ∧
      Publishes binding port.value := by
  unfold keptPort at h
  by_cases hport : m.Passes binding.hostPort
  · by_cases hip : m.Passes binding.hostIp
    · rw [m.keptHost_eq_some hport, m.keptHost_eq_some hip] at h
      simp only [Option.bind_some] at h
      cases hprotocol : portProtocol binding.protocol with
      | none => simp [hprotocol] at h
      | some protocol =>
        simp only [hprotocol, Option.bind_some] at h
        unfold Port.new at h
        split at h
        · cases h
        · next hnonzero =>
          cases h
          refine ⟨hport, hip, hnonzero, ?_⟩
          rw [value_portableSourced]
          refine ⟨rfl, hprotocol, m.value_of_passes hport, ?_⟩
          have hvalue := congrArg (Option.map NativeIpAddress.spelling) (m.value_of_passes hip)
          rw [Option.map_map, Option.map_map] at hvalue
          exact hvalue
    · rw [m.keptHost_eq_none hip] at h
      cases hkept : m.keptHost binding.hostPort <;> simp [hkept] at h
  · rw [m.keptHost_eq_none hport] at h
    cases h

theorem keptPort_isSome {p : Bool} {binding : NativePortBindingObservation} :
    (m.keptPort p binding).isSome = true ↔ m.Passes binding.hostPort ∧
      m.Passes binding.hostIp ∧ binding.containerPort ≠ 0 ∧
        (portProtocol binding.protocol).isSome = true := by
  constructor
  · intro h
    obtain ⟨port, hport⟩ := Option.isSome_iff_exists.mp h
    obtain ⟨hpassed, hip, hnonzero, hpublishes⟩ := m.keptPort_eq_some hport
    exact ⟨hpassed, hip, hnonzero, by rw [hpublishes.protocol]; rfl⟩
  · rintro ⟨hport, hip, hnonzero, hprotocol⟩
    obtain ⟨protocol, hprotocol⟩ := Option.isSome_iff_exists.mp hprotocol
    unfold keptPort
    rw [m.keptHost_eq_some hport, m.keptHost_eq_some hip, hprotocol]
    unfold Port.new
    simp [hnonzero, Except.toOption]

/-- The ports of a service are the kept bindings of the container's own networking. -/
theorem mem_ports {container : ServiceContainer} {port : Sourced Port}
    (h : port ∈ (m.service container).value.ports) :
    container.details.podMembership.isObserved = false ∧ ∃ networking bindings promoted,
      networkingOf container.details = some networking ∧
        networking.portBindings.portable? m.authorizedPortable = some (bindings, promoted) ∧
          ∃ other ∈ bindings, m.keptPort promoted other = some port := by
  unfold service at h
  rw [value_sourced, serviceOf_eq] at h
  unfold ownNetworking at h
  cases hmember : container.details.podMembership.isObserved with
  | true => simp [hmember] at h
  | false =>
    refine ⟨rfl, ?_⟩
    simp only [hmember, Bool.false_eq_true, if_false] at h
    cases hnetworking : networkingOf container.details with
    | none =>
      unfold networkingOf at hnetworking
      simp [hnetworking] at h
    | some networking =>
      unfold networkingOf at hnetworking
      simp only [hnetworking, Option.elim_some] at h
      unfold keptPorts at h
      cases hpassed : networking.portBindings.portable? m.authorizedPortable with
      | none => simp [hpassed] at h
      | some passed =>
        obtain ⟨bindings, promoted⟩ := passed
        rw [hpassed] at h
        exact ⟨networking, bindings, promoted, rfl, hpassed, List.mem_filterMap.mp h⟩

theorem ports_of_kept {container : ServiceContainer} {networking : NativeNetworkingObservation}
    {bindings : List NativePortBindingObservation} {promoted : Bool}
    {other : NativePortBindingObservation} {port : Sourced Port}
    (hmember : container.details.podMembership.isObserved = false)
    (hnetworking : networkingOf container.details = some networking)
    (hpassed : networking.portBindings.portable? m.authorizedPortable = some (bindings, promoted))
    (hmem : other ∈ bindings) (hkept : m.keptPort promoted other = some port) :
    port ∈ (m.service container).value.ports := by
  unfold service
  rw [value_sourced, serviceOf_eq, ownNetworking_eq hmember hnetworking]
  show port ∈ m.keptPorts networking.portBindings
  unfold keptPorts
  rw [hpassed]
  exact List.mem_filterMap.mpr ⟨other, hmem, hkept⟩

/-! ## Lost rows -/

/-- A row that does not become a port and is not stopped silently is lost. -/
theorem loss_mapPortBinding {subject : Subject} {promoted : Bool} {rows : PortRows}
    {item : NativePortBindingObservation × Nat} (hkept : m.keptPort promoted item.1 = none)
    (hstopped : ¬ m.SilentlyStopped item.1) :
    Loss (subject.index item.2) (m.mapPortBinding subject promoted rows item) := by
  unfold SilentlyStopped at hstopped
  rw [not_or, Bool.not_eq_true] at hstopped
  obtain ⟨hportQuiet, hipQuiet⟩ := hstopped
  unfold mapPortBinding
  simp only [loss_bind, loss_portableSetting, value_portableSetting]
  by_cases hlost : item.1.hostPort.gateLoses m.authorizedPortable = true
  · exact Or.inl ⟨by simp, hlost⟩
  rw [Bool.not_eq_true] at hlost
  by_cases hport : m.Passes item.1.hostPort
  · rw [if_neg (by rw [blocked_iff]; exact not_not_intro hport)]
    simp only [loss_bind, loss_portableSetting, value_portableSetting]
    by_cases hip : m.Passes item.1.hostIp
    · rw [if_neg (by rw [blocked_iff]; exact not_not_intro hip)]
      refine Or.inr (Or.inr ?_)
      have hinvalid : portProtocol item.1.protocol = none ∨ item.1.containerPort = 0 := by
        by_contra hvalid
        rw [not_or] at hvalid
        have hsome := m.keptPort_isSome (p := promoted).mpr
          ⟨hport, hip, hvalid.2, Option.isSome_iff_ne_none.mpr hvalid.1⟩
        rw [hkept] at hsome
        cases hsome
      unfold addPortBinding
      cases hprotocol : portProtocol item.1.protocol with
      | none => simp
      | some protocol =>
        have hzero := hinvalid.resolve_left (by rw [hprotocol]; exact Option.some_ne_none _)
        unfold Port.new
        simp [hzero]
    · refine Or.inr (Or.inl ⟨by simp, m.gateLoses_of_blocked hip ?_⟩)
      rw [not_and, Bool.not_eq_true] at hipQuiet
      exact hipQuiet hlost
  · exact absurd (m.gateLoses_of_blocked hport hportQuiet) (by rw [hlost]; exact Bool.false_ne_true)

/-- A row that is stopped silently is neither lost nor a port. -/
theorem not_loss_mapPortBinding {whole subject : Subject} {promoted : Bool} {rows : PortRows}
    {item : NativePortBindingObservation × Nat} (hstopped : m.SilentlyStopped item.1) :
    ¬ Loss whole (m.mapPortBinding subject promoted rows item) := by
  unfold mapPortBinding
  simp only [loss_bind, loss_portableSetting, value_portableSetting]
  rcases hstopped with hport | ⟨hport, hip⟩
  · rw [if_pos (m.blocked_iff.mpr (m.quiet_not_passes hport)), quiet_not_gateLoses hport]
    simp
  · rw [hport]
    by_cases hpasses : m.Passes item.1.hostPort
    · rw [if_neg (by rw [blocked_iff]; exact not_not_intro hpasses)]
      simp only [loss_bind, loss_portableSetting, value_portableSetting]
      rw [if_pos (m.blocked_iff.mpr (m.quiet_not_passes hip)), quiet_not_gateLoses hip]
      simp
    · rw [if_pos (m.blocked_iff.mpr hpasses)]
      simp

/-! ## Aliases -/

/-- The aliases of a network reference are lost: an outcome about them is not exact. -/
def AliasLoss (networking : NativeNetworkingObservation) (reference : String) : Prop :=
  match networking.networkAttachments.effective? with
  | none => networking.networkAttachments.stateLoses = true
  | some attachments =>
    match attachments.find? fun attachment => attachment.network = reference with
    | none => True
    | some attachment =>
      match attachment.aliases.effective? with
      | none => attachment.aliases.stateLoses = true
      | some aliases => ∃ entry ∈ aliases, entry.kind ≠ .runtimeContainerId

omit m in
theorem mem_aliasCandidates {aliases : List NativeNetworkAlias} {spelling : String} :
    spelling ∈ aliasCandidates aliases ↔
      ∃ entry ∈ aliases, entry.kind = .effectiveCandidate ∧ entry.spelling = spelling := by
  have hdistinct (spellings kept : List String) :
      spelling ∈ spellings.foldl
        (fun kept spelling => if spelling ∈ kept then kept else kept ++ [spelling]) kept ↔
        spelling ∈ kept ∨ spelling ∈ spellings := by
    induction spellings generalizing kept with
    | nil => simp
    | cons first rest ih =>
      rw [List.foldl_cons, ih, List.mem_cons]
      by_cases hmem : first ∈ kept
      · rw [if_pos hmem]
        constructor
        · rintro (h | h)
          · exact Or.inl h
          · exact Or.inr (Or.inr h)
        · rintro (h | h | h)
          · exact Or.inl h
          · exact Or.inl (h ▸ hmem)
          · exact Or.inr h
      · rw [if_neg hmem, List.mem_append, List.mem_singleton, or_assoc]
  unfold aliasCandidates
  rw [hdistinct]
  simp [and_assoc]

theorem loss_promoteAliases {whole subject : Subject} {aliases : List NativeNetworkAlias} :
    Loss whole (m.promoteAliases subject aliases) ↔
      whole.Below subject ∧ ∃ entry ∈ aliases, entry.kind ≠ .runtimeContainerId := by
  have hfuture : (aliases.any fun entry => decide (entry.kind = .unreviewed)) = true ↔
      ∃ entry ∈ aliases, entry.kind = .unreviewed := by simp
  have hcandidates : (aliasCandidates aliases).isEmpty = true ↔
      ¬ ∃ entry ∈ aliases, entry.kind = .effectiveCandidate := by
    rw [List.isEmpty_iff, List.eq_nil_iff_forall_not_mem]
    constructor
    · rintro hnone ⟨entry, hmem, hkind⟩
      exact hnone entry.spelling (mem_aliasCandidates.mpr ⟨entry, hmem, hkind, rfl⟩)
    · intro hnone spelling hmem
      obtain ⟨entry, hentry, hkind, -⟩ := mem_aliasCandidates.mp hmem
      exact hnone ⟨entry, hentry, hkind⟩
  have hkinds : (∃ entry ∈ aliases, entry.kind ≠ .runtimeContainerId) ↔
      (∃ entry ∈ aliases, entry.kind = .unreviewed) ∨
        ∃ entry ∈ aliases, entry.kind = .effectiveCandidate := by
    rw [← exists_or]
    refine exists_congr fun entry => ?_
    rw [← and_or_left]
    refine and_congr_right fun _ => ?_
    cases entry.kind <;> simp
  unfold promoteAliases
  simp only [loss_bind, loss_onlyIf, loss_unsupported]
  rw [hfuture, hkinds]
  by_cases hempty : (aliasCandidates aliases).isEmpty = true
  · rw [if_pos hempty]
    have hnone := hcandidates.mp hempty
    simp only [loss_bind, loss_onlyIf, loss_evidenceOnly, loss_pure, and_false, or_false, hnone]
    exact and_comm
  · rw [if_neg hempty]
    have hsome := not_not.mp (mt hcandidates.mpr hempty)
    cases m.authorizedPortable <;> simp [hsome]

theorem loss_effectiveOnly {α : Type} {whole subject : Subject} {field : ObservationField α} :
    Loss whole (effectiveOnly field subject) ↔
      whole.Below subject ∧ field.effective? = none ∧ field.stateLoses = true := by
  unfold effectiveOnly ObservationField.effective?
  cases field with
  | observed observation =>
    by_cases horigin : observation.origin = .effective
    · simp [horigin]
    · simp [horigin]
  | _ => simp [ObservationField.observed?]

theorem loss_mapEffectiveNetworkAliases {whole subject : Subject}
    {networking : NativeNetworkingObservation} {reference : String} :
    Loss whole (m.mapEffectiveNetworkAliases subject networking reference) ↔
      whole.Below subject ∧ AliasLoss networking reference := by
  unfold mapEffectiveNetworkAliases AliasLoss
  simp only [loss_bind, loss_effectiveOnly, value_effectiveOnly]
  cases hattachments : networking.networkAttachments.effective? with
  | none => simp
  | some attachments =>
    simp only [reduceCtorEq, false_and, and_false, false_or]
    cases hfound : attachments.find? fun attachment => attachment.network = reference with
    | none => simp
    | some attachment =>
      simp only [loss_bind, loss_effectiveOnly, value_effectiveOnly]
      cases haliases : attachment.aliases.effective? with
      | none => simp
      | some aliases => simp [loss_promoteAliases]

/-- The subject of the aliases that one network is attached with. -/
def aliasSubject (identity : ResourceIdentity) (name : Identifier) : Subject :=
  (((Subject.ofResource identity).field "networks").entry name.asStr).field "aliases"

omit m in
theorem aliasSubject_below {identity : ResourceIdentity} {name other : Identifier} :
    (aliasSubject identity name).Below (aliasSubject identity other) ↔ name = other := by
  unfold aliasSubject Subject.ofResource Subject.field Subject.entry Subject.extend Subject.Below
  simp only [List.nil_append, List.cons_append, List.cons_prefix_cons, Segment.entry.injEq, true_and,
    List.prefix_rfl, and_true]
  constructor
  · intro h
    cases name
    cases other
    cases h
    rfl
  · rintro rfl
    rfl

omit m in
theorem not_below_networks {identity : ResourceIdentity} {name : Identifier} :
    ¬ (aliasSubject identity name).Below ((Subject.ofResource identity).field "networks") := by
  unfold aliasSubject Subject.ofResource Subject.field Subject.entry Subject.extend Subject.Below
  simp

theorem loss_mapNetworkReference {identity : ResourceIdentity} {name : Identifier}
    {networking : NativeNetworkingObservation} {service : Service} {reference : String} :
    Loss (aliasSubject identity name) (m.mapNetworkReference
        ((Subject.ofResource identity).field "networks") networking service reference) ↔
      m.resolveName .network reference = some name ∧ AliasLoss networking reference := by
  unfold mapNetworkReference
  cases hname : m.resolveName .network reference with
  | none => simp [-Subject.below_field, not_below_networks]
  | some other =>
    simp only [loss_bind, loss_mapEffectiveNetworkAliases, loss_reconstructed, loss_pure, or_false,
      Option.some.injEq]
    have hbelow := @aliasSubject_below identity name other
    unfold aliasSubject at hbelow ⊢
    rw [hbelow, eq_comm]

/-- The aliases of a network are lost when one of the references to it loses them. -/
theorem loss_mapNetworkReferences {identity : ResourceIdentity} {name : Identifier}
    {networking : NativeNetworkingObservation} {service : Service} :
    Loss (aliasSubject identity name) (m.mapNetworkReferences
        ((Subject.ofResource identity).field "networks") networking service) ↔
      m.source.promotionPolicy.effectiveNamedNetworks = true ∧
        ∃ references, networking.networks.effective? = some references ∧ ∃ reference ∈ references,
          m.resolveName .network reference = some name ∧ AliasLoss networking reference := by
  unfold mapNetworkReferences ObservationField.effective?
  cases hnetworks : networking.networks with
  | observed observation =>
    by_cases horigin : observation.origin = .effective
    · cases hflag : m.source.promotionPolicy.effectiveNamedNetworks with
      | false => simp [-Subject.below_field, horigin, not_below_networks]
      | true =>
        simp only [horigin, ne_eq, not_true_eq_false, if_false, Bool.not_true, Bool.false_eq_true,
          ObservationField.observed?_observed, Option.bind_some, if_true, Option.some.injEq, true_and,
          exists_eq_left']
        constructor
        · intro h
          obtain ⟨reference, hmem, state, hloses⟩ := exists_of_loss_foldlM h
          exact ⟨reference, hmem, m.loss_mapNetworkReference.mp hloses⟩
        · rintro ⟨reference, hmem, hloses⟩
          exact loss_foldlM hmem fun state => m.loss_mapNetworkReference.mpr hloses
    · simp [-Subject.below_field, horigin, not_below_networks]
  | _ => simp [-Subject.below_field, ObservationField.observed?, not_below_networks]

end Mapping
end Boxferry.Podman.Import
