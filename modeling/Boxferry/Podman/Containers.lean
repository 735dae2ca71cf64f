import Mathlib.Data.List.TakeWhile
import Boxferry.Podman.Transactions

/-! # Completed containers

What a completed container, image, pod or dependency carries of the service or
the group it was built from. -/
namespace Boxferry.Podman
open Engine Model Attempts
set_option autoImplicit false

/-! ## Mounts -/

section Mounts
variable {m : Mapping} {identities : Identities} {service : Service} {log : List Event}

/-- The volume a container mount refers to. -/
def ContainerMount.volume? : ContainerMount → Option DeploymentResourceId
  | .namedVolume source _ _ => some source
  | .tmpfs _ _ => none

/-- The prepared identity of the volume a mount names. -/
def preparedVolume? (identities : Identities) (mount : Mount) : Option DeploymentResourceId :=
  match mount.source with
  | .volume name => (identities.volumes.lookup name.asStr).map fun name => ⟨.volume, name⟩
  | _ => none

/-- A named-volume mount under the prepared identity of its volume. -/
def CarriesMount (identities : Identities) (mount : Mount) (mounts : List ContainerMount) : Prop :=
  ∃ id, preparedVolume? identities mount = some id ∧
    .namedVolume id mount.target (Mapping.mountAccess mount) ∈ mounts

theorem reportRelabel_yields {mount : Mount} {index : Nat} {done : Unit}
    (h : Yields (Mapping.reportRelabel service mount index) done log) :
    Silent log ∧ CarriedOrLost (mount.selinuxRelabel = none) log service
      [Mapping.mountPart index "selinux_relabel"] := by
  unfold Mapping.reportRelabel at h
  split at h
  · obtain rfl := yields_report.mp h
    exact ⟨silent_loss _ _, carriedOrLost_loss⟩
  · next hnone =>
    obtain ⟨-, rfl⟩ := yields_pure.mp h
    exact ⟨silent_nil, Or.inl (by simpa using hnone)⟩

/-- One mount adds its volume, if it names one, and accounts for its source and relabelling. -/
theorem mapMount_yields {mounts next : List ContainerMount} {item : Sourced Mount × Nat}
    (hknown : ∀ name, item.1.value.source = .volume name →
      ∃ identity, identities.volumes.lookup name.asStr = some identity)
    (h : Yields (m.mapMount identities service mounts item) next log) :
    Silent log ∧ mounts ⊆ next ∧
      next.filterMap ContainerMount.volume? = mounts.filterMap ContainerMount.volume? ++
        (preparedVolume? identities item.1.value).toList ∧
      CarriedOrLost (CarriesMount identities item.1.value next) log service
        [Mapping.mountPart item.2 "source"] ∧
      CarriedOrLost (item.1.value.selinuxRelabel = none) log service
        [Mapping.mountPart item.2 "selinux_relabel"] := by
  obtain ⟨⟨mount, origins⟩, index⟩ := item
  unfold Mapping.mapMount at h
  obtain ⟨-, h⟩ := call_bind.mp h
  simp only at h hknown ⊢
  cases hsource : mount.source with
  | volume name =>
    obtain ⟨identity, hlookup⟩ := hknown name hsource
    have hprepared : preparedVolume? identities mount = some ⟨.volume, identity⟩ := by
      simp only [preparedVolume?, hsource, hlookup, Option.map_some]
    rw [hsource] at h
    simp only [hlookup] at h
    obtain ⟨source, before, after, hid, hcall, rfl⟩ := yields_bind.mp h
    obtain ⟨rfl, -, rfl⟩ := resourceId_yields (by decide) hid
    obtain ⟨-, hadd⟩ := call_bind.mp hcall
    obtain ⟨done, relabel, rest, hrelabel, hrest, rfl⟩ := yields_bind.mp hadd
    obtain ⟨rfl, rfl⟩ := yields_pure.mp hrest
    obtain ⟨hsilent, hrelabel⟩ := reportRelabel_yields hrelabel
    refine ⟨by simpa using hsilent, List.subset_append_left _ _, ?_, ?_, by simpa using hrelabel⟩
    · rw [hprepared, List.filterMap_append]
      rfl
    · exact Or.inl ⟨_, hprepared, by simp⟩
  | hostPath _ | deferredHostPath _ | anonymous =>
    have hprepared : preparedVolume? identities mount = none := by
      simp only [preparedVolume?, hsource]
    rw [hsource] at h
    obtain ⟨others, hothers, rfl⟩ := lose_bind.mp h
    obtain ⟨done, relabel, rest, hrelabel, hrest, rfl⟩ := yields_bind.mp hothers
    obtain ⟨rfl, rfl⟩ := yields_pure.mp hrest
    obtain ⟨hsilent, hrelabel⟩ := reportRelabel_yields hrelabel
    rw [List.append_nil]
    refine ⟨silent_cons.mpr ⟨isSilent_lose _ _, hsilent⟩, List.Subset.refl _, by rw [hprepared]; simp,
      ?_, ?_⟩
    · exact Or.inr ⟨_, List.mem_singleton_self _, by simp [lost, Event.loss?]⟩
    · exact hrelabel.mono id fun subject hmem => List.mem_cons_of_mem _ hmem

/-- The part of a temporary mount's text that names its destination. -/
theorem mapTmpfs_yields {mounts next : List ContainerMount} {item : Sourced ProtectedString × Nat}
    (h : Yields (m.mapTmpfs service mounts item) next log) :
    Silent log ∧ mounts ⊆ next ∧
      next.filterMap ContainerMount.volume? = mounts.filterMap ContainerMount.volume? ∧
      CarriedOrLost (.tmpfs item.1.value.expose .readWrite ∈ next) log service
        [Mapping.tmpfsPart item.2, Mapping.tmpfsPart item.2 ++ ".options"] := by
  obtain ⟨⟨tmpfs, origins⟩, index⟩ := item
  unfold Mapping.mapTmpfs at h
  simp only at h ⊢
  by_cases hsensitive : tmpfs.isSensitive = true
  · rw [if_pos hsensitive] at h
    obtain ⟨rest, hrest, rfl⟩ := yields_report_bind.mp h
    obtain ⟨rfl, rfl⟩ := yields_pure.mp hrest
    refine ⟨silent_cons.mpr ⟨⟨rfl, rfl, fun _ h => ⟨_, _, (Option.some.inj h).symm⟩⟩, silent_nil⟩,
      List.Subset.refl _, rfl, ?_⟩
    exact Or.inr ⟨Mapping.tmpfsPart index, by simp, by simp [lost, Event.loss?]⟩
  · rw [if_neg hsensitive] at h
    obtain ⟨-, h⟩ := call_bind.mp h
    by_cases hoptions : containsChar tmpfs.expose ':' = true
    · rw [if_pos hoptions] at h
      obtain ⟨rest, hrest, rfl⟩ := lose_bind.mp h
      obtain ⟨rfl, rfl⟩ := yields_pure.mp hrest
      refine ⟨silent_loss _ _, List.subset_append_left _ _, ?_, ?_⟩
      · rw [List.filterMap_append]
        exact List.append_nil _
      · exact Or.inr ⟨Mapping.tmpfsPart index ++ ".options", by simp, by simp [lost_loss]⟩
    · rw [if_neg hoptions] at h
      obtain ⟨rest, hrest, rfl⟩ := yields_report_bind.mp h
      obtain ⟨rfl, rfl⟩ := yields_pure.mp hrest
      -- Without a colon the destination is the whole text.
      have hwhole : String.ofList (tmpfs.expose.toList.takeWhile (· ≠ ':')) = tmpfs.expose := by
        have hall : tmpfs.expose.toList.takeWhile (· ≠ ':') = tmpfs.expose.toList := by
          rw [List.takeWhile_eq_self_iff]
          intro ch hch
          rw [decide_eq_true_eq]
          intro hcolon
          rw [hcolon] at hch
          exact hoptions (List.contains_iff_mem.mpr hch)
        rw [hall, String.ofList_toList]
      refine ⟨silent_cons.mpr ⟨isSilent_exact _, silent_nil⟩, List.subset_append_left _ _, ?_, ?_⟩
      · rw [List.filterMap_append]
        exact List.append_nil _
      · rw [hwhole]
        exact Or.inl (by simp)

/-- What completed mounts of a container carry of a service. -/
structure MountsCarry (identities : Identities) (service : Service) (mounts : List ContainerMount)
    (log : List Event) : Prop where
  sources : mounts.filterMap ContainerMount.volume? =
    service.mounts.filterMap fun mount => preparedVolume? identities mount.value
  mounted : ∀ item ∈ service.mounts.zipIdx,
    CarriedOrLost (CarriesMount identities item.1.value mounts) log service
      [Mapping.mountPart item.2 "source"]
  relabelled : ∀ item ∈ service.mounts.zipIdx,
    CarriedOrLost (item.1.value.selinuxRelabel = none) log service
      [Mapping.mountPart item.2 "selinux_relabel"]
  temporary : ∀ tmpfs, service.tmpfs = some tmpfs → ∀ item ∈ tmpfs.zipIdx,
    CarriedOrLost (.tmpfs item.1.value.expose .readWrite ∈ mounts) log service
      [Mapping.tmpfsPart item.2, Mapping.tmpfsPart item.2 ++ ".options"]

theorem MountsCarry.mono {mounts : List ContainerMount} {log' : List Event}
    (h : MountsCarry identities service mounts log) (hlost : lost log ⊆ lost log') :
    MountsCarry identities service mounts log' where
  sources := h.sources
  mounted item hitem := (h.mounted item hitem).mono id hlost
  relabelled item hitem := (h.relabelled item hitem).mono id hlost
  temporary tmpfs htmpfs item hitem := (h.temporary tmpfs htmpfs item hitem).mono id hlost

theorem CarriesMount.mono {mount : Mount} {mounts mounts' : List ContainerMount}
    (h : CarriesMount identities mount mounts) (hsubset : mounts ⊆ mounts') :
    CarriesMount identities mount mounts' := by
  obtain ⟨id, hprepared, hmem⟩ := h
  exact ⟨id, hprepared, hsubset hmem⟩

theorem mapMounts_yields {mounts : List ContainerMount}
    (hknown : ∀ mount ∈ service.mounts, ∀ name, mount.value.source = .volume name →
      ∃ identity, identities.volumes.lookup name.asStr = some identity)
    (h : Yields (service.mounts.zipIdx.foldlM (m.mapMount identities service) []) mounts log) :
    Silent log ∧
      mounts.filterMap ContainerMount.volume? =
        service.mounts.zipIdx.filterMap (fun item => preparedVolume? identities item.1.value) ∧
      ∀ item ∈ service.mounts.zipIdx,
        CarriedOrLost (CarriesMount identities item.1.value mounts) log service
          [Mapping.mountPart item.2 "source"] ∧
        CarriedOrLost (item.1.value.selinuxRelabel = none) log service
          [Mapping.mountPart item.2 "selinux_relabel"] := by
  apply h.foldlM_induction (motive := fun done state log => Silent log ∧
    state.filterMap ContainerMount.volume? =
      done.filterMap (fun item => preparedVolume? identities item.1.value) ∧
    ∀ item ∈ done,
      CarriedOrLost (CarriesMount identities item.1.value state) log service
        [Mapping.mountPart item.2 "source"] ∧
      CarriedOrLost (item.1.value.selinuxRelabel = none) log service
        [Mapping.mountPart item.2 "selinux_relabel"])
  · exact ⟨silent_nil, rfl, by simp⟩
  · intro done item state before next after hitem hdone hyields
    obtain ⟨hbefore, hsources, hcarried⟩ := hdone
    obtain ⟨hsilent, hsubset, hvolume, hmount, hrelabel⟩ :=
      mapMount_yields (hknown item.1 (List.fst_mem_of_mem_zipIdx hitem)) hyields
    refine ⟨silent_append.mpr ⟨hbefore, hsilent⟩, ?_, ?_⟩
    · rw [hvolume, hsources, List.filterMap_append]
      cases hprepared : preparedVolume? identities item.1.value <;> simp [hprepared]
    · apply Naming.forall_append
      · intro other hother
        obtain ⟨hothermount, hotherlabel⟩ := hcarried other hother
        exact ⟨hothermount.mono (fun hcarry => hcarry.mono hsubset) (lost_subset_left _ _),
          hotherlabel.mono id (lost_subset_left _ _)⟩
      · exact ⟨hmount.mono id (lost_subset_right _ _), hrelabel.mono id (lost_subset_right _ _)⟩

theorem mapTmpfsMounts_yields {tmpfs : List (Sourced ProtectedString)} {start mounts : List ContainerMount}
    (h : Yields (tmpfs.zipIdx.foldlM (m.mapTmpfs service) start) mounts log) :
    Silent log ∧ start ⊆ mounts ∧
      mounts.filterMap ContainerMount.volume? = start.filterMap ContainerMount.volume? ∧
      ∀ item ∈ tmpfs.zipIdx,
        CarriedOrLost (.tmpfs item.1.value.expose .readWrite ∈ mounts) log service
          [Mapping.tmpfsPart item.2, Mapping.tmpfsPart item.2 ++ ".options"] := by
  apply h.foldlM_induction (motive := fun done state log => Silent log ∧ start ⊆ state ∧
    state.filterMap ContainerMount.volume? = start.filterMap ContainerMount.volume? ∧
    ∀ item ∈ done, CarriedOrLost (.tmpfs item.1.value.expose .readWrite ∈ state) log service
      [Mapping.tmpfsPart item.2, Mapping.tmpfsPart item.2 ++ ".options"])
  · exact ⟨silent_nil, List.Subset.refl _, rfl, by simp⟩
  · intro done item state before next after hitem hdone hyields
    obtain ⟨hbefore, hstart, hsources, hcarried⟩ := hdone
    obtain ⟨hsilent, hsubset, hvolume, htmpfs⟩ := mapTmpfs_yields hyields
    refine ⟨silent_append.mpr ⟨hbefore, hsilent⟩, List.Subset.trans hstart hsubset,
      hvolume.trans hsources, ?_⟩
    apply Naming.forall_append
    · intro other hother
      exact (hcarried other hother).mono (fun hmem => hsubset hmem) (lost_subset_left _ _)
    · exact htmpfs.mono id (lost_subset_right _ _)

theorem map_fst_zipIdx {α β : Type} (change : α → β) (items : List α) :
    items.zipIdx.map (fun item => change item.1) = items.map change := by
  have hcompose : items.zipIdx.map (change ∘ Prod.fst) = items.map change := by
    rw [← List.map_map, List.zipIdx_map_fst]
  exact hcompose

theorem filterMap_fst_zipIdx {α β : Type} (change : α → Option β) (items : List α) :
    items.zipIdx.filterMap (fun item => change item.1) = items.filterMap change := by
  have hcompose : items.zipIdx.filterMap (change ∘ Prod.fst) = items.filterMap change := by
    rw [← List.filterMap_map, List.zipIdx_map_fst]
  exact hcompose

theorem mapServiceMounts_yields {mounts : List ContainerMount}
    (hknown : ∀ mount ∈ service.mounts, ∀ name, mount.value.source = .volume name →
      ∃ identity, identities.volumes.lookup name.asStr = some identity)
    (h : Yields (m.mapServiceMounts identities service) mounts log) :
    Silent log ∧ MountsCarry identities service mounts log := by
  unfold Mapping.mapServiceMounts at h
  obtain ⟨plain, before, after, hplain, hrest, rfl⟩ := yields_bind.mp h
  obtain ⟨hsilent, hsources, hmounts⟩ := mapMounts_yields hknown hplain
  rw [filterMap_fst_zipIdx fun mount : Sourced Mount => preparedVolume? identities mount.value]
    at hsources
  have htail : Silent after ∧ plain ⊆ mounts ∧
      mounts.filterMap ContainerMount.volume? = plain.filterMap ContainerMount.volume? ∧
      ∀ tmpfs, service.tmpfs = some tmpfs → ∀ item ∈ tmpfs.zipIdx,
        CarriedOrLost (.tmpfs item.1.value.expose .readWrite ∈ mounts) after service
          [Mapping.tmpfsPart item.2, Mapping.tmpfsPart item.2 ++ ".options"] := by
    cases htmpfs : service.tmpfs with
    | none =>
      rw [htmpfs] at hrest
      obtain ⟨rfl, rfl⟩ := yields_pure.mp hrest
      exact ⟨silent_nil, List.Subset.refl _, rfl, by simp⟩
    | some tmpfs =>
      rw [htmpfs] at hrest
      simp only [Option.some.injEq, forall_eq']
      by_cases hempty : tmpfs.isEmpty = true
      · simp only [if_pos hempty] at hrest
        obtain ⟨others, hothers, rfl⟩ := yields_report_bind.mp hrest
        obtain ⟨hothers, hsubset, hvolume, hcarried⟩ := mapTmpfsMounts_yields hothers
        refine ⟨silent_cons.mpr ⟨isSilent_exact _, hothers⟩, hsubset, hvolume, ?_⟩
        exact fun item hitem => (hcarried item hitem).mono id (List.Subset.refl _)
      · simp only [if_neg hempty] at hrest
        exact mapTmpfsMounts_yields hrest
  obtain ⟨hafter, hsubset, hvolume, htemporary⟩ := htail
  constructor
  · exact silent_append.mpr ⟨hsilent, hafter⟩
  · exact {
      sources := hvolume.trans hsources
      mounted := fun item hitem =>
        (hmounts item hitem).1.mono (fun hcarry => hcarry.mono hsubset) (lost_subset_left _ _)
      relabelled := fun item hitem => (hmounts item hitem).2.mono id (lost_subset_left _ _)
      temporary := fun tmpfs htmpfs item hitem =>
        (htemporary tmpfs htmpfs item hitem).mono id (lost_subset_right _ _) }

end Mounts

/-! ## Networks -/

section Networks
variable {m : Mapping} {service : Service}

/-- The native attachment of a neutral one, without its addresses. -/
def attachedNetwork (attachment : NetworkAttachment) : AttachedNetwork :=
  ⟨⟨.network, attachment.network.asStr⟩, attachment.aliases.map fun name => name.value.expose⟩

theorem addAliases_kept {part : String} {aliases : List (Sourced ProtectedString)} {start : Nat}
    {attachment : AttachedNetwork}
    (hkept : Keeps (m.addAliases service part attachment (aliases.zipIdx start)).log) :
    (m.addAliases service part attachment (aliases.zipIdx start)).value =
        some ⟨attachment.network, attachment.aliases ++ aliases.map fun name => name.value.expose⟩ ∧
      (m.addAliases service part attachment (aliases.zipIdx start)).log = [] := by
  induction aliases generalizing start attachment with
  | nil => simp [Mapping.addAliases]
  | cons spelling rest ih =>
    rw [List.zipIdx_cons, Mapping.addAliases] at hkept ⊢
    cases hrejected : m.lens.rejects (.networkAttachment
        { attachment with aliases := attachment.aliases ++ [spelling.value.expose] }) with
    | some reason => simp [hrejected, nativeError, Keeps, Event.rejects] at hkept
    | none =>
      simp only [hrejected] at hkept ⊢
      obtain ⟨hvalue, hlog⟩ := ih hkept
      rw [hvalue, hlog, List.append_assoc]
      exact ⟨rfl, rfl⟩

/-- In a kept intent an attachment is added with all its aliases, and its addresses are lost. -/
theorem mapServiceNetwork_kept {networks : List AttachedNetwork} {item : Sourced NetworkAttachment × Nat}
    (hkept : Keeps (m.mapServiceNetwork service networks item).log) :
    (m.mapServiceNetwork service networks item).value = networks ++ [attachedNetwork item.1.value] ∧
      Silent (m.mapServiceNetwork service networks item).log ∧
      CarriedOrLost (item.1.value.ipv4Address = none ∧ item.1.value.ipv6Address = none)
        (m.mapServiceNetwork service networks item).log service
        [Mapping.networkPart item.2 ++ ".addresses"] := by
  obtain ⟨⟨network, origins⟩, index⟩ := item
  unfold Mapping.mapServiceNetwork at hkept ⊢
  simp only at hkept ⊢
  cases hrejected : (m.lens.rejects (.resourceId ⟨.network, network.network.asStr⟩) <|>
      m.lens.rejects (.networkAttachment ⟨⟨.network, network.network.asStr⟩, []⟩)) with
  | some reason => simp [hrejected, nativeError, Keeps, Event.rejects] at hkept
  | none =>
    simp only [hrejected, Reports.log_bind, keeps_append, Reports.value_bind] at hkept ⊢
    obtain ⟨hvalue, hlog⟩ := addAliases_kept hkept.1
    simp only [hvalue, hlog, List.nil_append] at hkept ⊢
    have hadded : attachedNetwork network = ⟨⟨.network, network.network.asStr⟩,
        network.aliases.map fun name => name.value.expose⟩ := rfl
    rw [← hadded] at hkept ⊢
    cases hlist : m.lens.rejects (.containerNetworks (networks ++ [attachedNetwork network])) with
    | some reason =>
      have hrejects := hkept.2 (.nativeError (Mapping.servicePart service (Mapping.networkPart index)) reason)
        (by rw [hlist]; split <;> simp [nativeError])
      cases hrejects
    | none =>
      by_cases haddress : (network.ipv4Address.isSome || network.ipv6Address.isSome) = true
      · simp only [if_pos haddress]
        refine ⟨rfl, silent_loss _ _, carriedOrLost_loss⟩
      · simp only [if_neg haddress]
        refine ⟨rfl, silent_nil, Or.inl ?_⟩
        simpa using haddress

theorem mapServiceNetworks_kept
    (hkept : Keeps (service.networks.zipIdx.foldlM (m.mapServiceNetwork service) []).log) :
    (service.networks.zipIdx.foldlM (m.mapServiceNetwork service) []).value =
        service.networks.map (fun network => attachedNetwork network.value) ∧
      Silent (service.networks.zipIdx.foldlM (m.mapServiceNetwork service) []).log ∧
      ∀ item ∈ service.networks.zipIdx,
        CarriedOrLost (item.1.value.ipv4Address = none ∧ item.1.value.ipv6Address = none)
          (service.networks.zipIdx.foldlM (m.mapServiceNetwork service) []).log service
          [Mapping.networkPart item.2 ++ ".addresses"] := by
  have hrun := Reports.foldlM_induction (motive := fun done state log =>
    state = done.map (fun item => attachedNetwork item.1.value) ∧ Silent log ∧
    ∀ item ∈ done, CarriedOrLost (item.1.value.ipv4Address = none ∧ item.1.value.ipv6Address = none)
      log service [Mapping.networkPart item.2 ++ ".addresses"]) hkept
    ⟨rfl, silent_nil, by simp⟩ (by
      intro done item state entries _ hdone hstep
      obtain ⟨rfl, hsilent, hcarried⟩ := hdone
      obtain ⟨hvalue, hadded, haddresses⟩ := mapServiceNetwork_kept hstep
      refine ⟨by rw [hvalue, List.map_append]; rfl, silent_append.mpr ⟨hsilent, hadded⟩, ?_⟩
      apply Naming.forall_append
      · exact fun other hother => (hcarried other hother).mono id (lost_subset_left _ _)
      · exact haddresses.mono id (lost_subset_right _ _))
  refine ⟨hrun.1.trans ?_, hrun.2⟩
  exact map_fst_zipIdx (fun network : Sourced NetworkAttachment => attachedNetwork network.value) _

end Networks

/-! ## Containers, images, pods and dependencies -/

section Resources
variable {m : Mapping} {identities : Identities} {service : Service} {log : List Event}

theorem joinPod_yields {container : DeploymentResourceId} {pod : Option DeploymentResourceId}
    (h : Yields (m.joinPod identities service container) pod log) :
    pod = (m.groupFor service.name.asStr).map (fun group => ⟨.pod, group⟩) ∧ log = [] := by
  unfold Mapping.joinPod at h
  cases hgroup : m.groupFor service.name.asStr with
  | none =>
    rw [hgroup] at h
    obtain ⟨rfl, rfl⟩ := yields_pure.mp h
    exact ⟨rfl, rfl⟩
  | some group =>
    rw [hgroup] at h
    obtain ⟨id, before, after, hid, hcall, rfl⟩ := yields_bind.mp h
    obtain ⟨rfl, -, rfl⟩ := resourceId_yields (by decide) hid
    obtain ⟨-, hrest⟩ := call_bind.mp hcall
    obtain ⟨rfl, rfl⟩ := yields_pure.mp hrest
    exact ⟨rfl, rfl⟩

/-- What a completed container carries of a service. -/
structure ContainerCarry (m : Mapping) (identities : Identities) (service : Service)
    (container : ContainerIntent) (log : List Event) : Prop where
  identity : identities.containers.lookup service.name.asStr = some container.id
  image : container.image = ⟨.image, Mapping.imageName service⟩
  pod : container.pod = (m.groupFor service.name.asStr).map fun group => ⟨.pod, group⟩
  settings : SettingsCarry service container.settings log
  mounts : MountsCarry identities service container.mounts log
  networks : container.networks = service.networks.map fun network => attachedNetwork network.value
  addresses : ∀ item ∈ service.networks.zipIdx,
    CarriedOrLost (item.1.value.ipv4Address = none ∧ item.1.value.ipv6Address = none) log service
      [Mapping.networkPart item.2 ++ ".addresses"]

theorem ContainerCarry.mono {container : ContainerIntent} {log' : List Event}
    (h : ContainerCarry m identities service container log) (hlost : lost log ⊆ lost log') :
    ContainerCarry m identities service container log' where
  identity := h.identity
  image := h.image
  pod := h.pod
  settings := h.settings.mono hlost
  mounts := h.mounts.mono hlost
  networks := h.networks
  addresses item hitem := (h.addresses item hitem).mono id hlost

theorem buildContainer_yields {container : ContainerIntent}
    (hknown : ∀ mount ∈ service.mounts, ∀ name, mount.value.source = .volume name →
      ∃ identity, identities.volumes.lookup name.asStr = some identity)
    (h : Yields (m.buildContainer identities service) container log) (hkept : Keeps log) :
    Silent log ∧ ContainerCarry m identities service container log := by
  unfold Mapping.buildContainer at h
  obtain ⟨container, log1, rest1, hid, h1, rfl⟩ := yields_bind.mp h
  obtain ⟨image, log2, rest2, himage, h2, rfl⟩ := yields_bind.mp h1
  obtain ⟨-, h3⟩ := call_bind.mp h2
  obtain ⟨pod, log4, rest4, hpod, h4, rfl⟩ := yields_bind.mp h3
  obtain ⟨settings, log5, rest5, hsettings, h5, rfl⟩ := yields_bind.mp h4
  obtain ⟨mounts, log6, rest6, hmounts, h6, rfl⟩ := yields_bind.mp h5
  obtain ⟨networks, log7, rest7, hnetworks, h7, rfl⟩ := yields_bind.mp h6
  obtain ⟨rfl, rfl⟩ := yields_pure.mp h7
  obtain ⟨hlookup, rfl⟩ := containerId_yields hid
  obtain ⟨rfl, -, rfl⟩ := resourceId_yields (by decide) himage
  obtain ⟨rfl, rfl⟩ := joinPod_yields hpod
  obtain ⟨hsilent5, hsettings⟩ := mapServiceSettings_yields hsettings
  obtain ⟨hsilent6, hmounts⟩ := mapServiceMounts_yields hknown hmounts
  obtain ⟨rfl, rfl⟩ := yields_lift.mp hnetworks
  simp only [List.nil_append, List.append_nil, keeps_append] at hkept
  obtain ⟨hnetworks, hsilent7, haddresses⟩ := mapServiceNetworks_kept hkept.2.2
  constructor
  · simp only [silent_append]
    exact ⟨silent_nil, silent_nil, silent_nil, hsilent5, hsilent6, hsilent7, silent_nil⟩
  · exact {
      identity := hlookup
      image := rfl
      pod := rfl
      settings := hsettings.mono fun subject hmem => by simp [hmem]
      mounts := hmounts.mono fun subject hmem => by simp [hmem]
      networks := hnetworks
      addresses := fun item hitem => (haddresses item hitem).mono id fun subject hmem => by simp [hmem] }

/-- The native pull policy that carries a neutral one without loss. -/
def pullPolicy? : PullPolicy → Option ImagePullPolicy
  | .always => some .always
  | .missing => some .missing
  | .never => some .never
  | _ => none

theorem mapPullPolicy_yields {policy : ImagePullPolicy}
    (h : Yields (Mapping.mapPullPolicy service) policy log) :
    Silent log ∧ ∀ neutral, service.pullPolicy = some neutral →
      CarriedOrLost (pullPolicy? neutral.value = some policy) log service ["pull_policy"] := by
  unfold Mapping.mapPullPolicy at h
  cases hpolicy : service.pullPolicy with
  | none =>
    rw [hpolicy] at h
    obtain ⟨-, rfl⟩ := yields_pure.mp h
    exact ⟨silent_nil, by simp⟩
  | some neutral =>
    obtain ⟨neutral, origins⟩ := neutral
    rw [hpolicy] at h
    simp only [Option.some.injEq, forall_eq']
    cases neutral with
    | always | missing | never =>
      obtain ⟨rfl, rfl⟩ := yields_pure.mp h
      exact ⟨silent_nil, Or.inl rfl⟩
    | ifNotPresent | build | daily | weekly | every _ | raw _ =>
      obtain ⟨rest, hrest, rfl⟩ := lose_bind.mp h
      obtain ⟨-, rfl⟩ := yields_pure.mp hrest
      exact ⟨silent_loss _ _, carriedOrLost_loss⟩

theorem buildImage_yields {image : ImageReference} {added : DeploymentResource}
    (h : Yields (m.buildImage identities service image) added log) :
    ∃ policy, added = .image ⟨.image, Mapping.imageName service⟩ image.asStr policy ∧
      Yields (Mapping.mapPullPolicy service) policy log := by
  unfold Mapping.buildImage at h
  obtain ⟨id, log1, rest1, hid, h1, rfl⟩ := yields_bind.mp h
  obtain ⟨rfl, -, rfl⟩ := resourceId_yields (by decide) hid
  obtain ⟨-, h2⟩ := call_bind.mp h1
  obtain ⟨policy, log3, rest3, hpolicy, h3, rfl⟩ := yields_bind.mp h2
  obtain ⟨-, h4⟩ := call_bind.mp h3
  obtain ⟨rfl, rfl⟩ := yields_pure.mp h4
  rw [List.nil_append, List.append_nil]
  exact ⟨policy, rfl, hpolicy⟩

/-- Every member of a completed pod is added under its container identity. -/
theorem addMembers_yields {members : List (Sourced Identifier)} {start pod : PodIntent}
    (h : Yields (members.foldlM (m.addMember identities) start) pod log) :
    log = [] ∧ pod.id = start.id ∧ pod.members.map some = start.members.map some ++
      members.map fun member => identities.containers.lookup member.value.asStr := by
  apply h.foldlM_induction (motive := fun done state log => log = [] ∧ state.id = start.id ∧
    state.members.map some = start.members.map some ++
      done.map fun member => identities.containers.lookup member.value.asStr)
  · exact ⟨rfl, rfl, by simp⟩
  · intro done member state before next after _ hdone hyields
    obtain ⟨rfl, hid, hmembers⟩ := hdone
    unfold Mapping.addMember at hyields
    obtain ⟨identity, log1, rest1, hidentity, h1, rfl⟩ := yields_bind.mp hyields
    obtain ⟨hlookup, rfl⟩ := containerId_yields hidentity
    obtain ⟨-, h2⟩ := call_bind.mp h1
    obtain ⟨rfl, rfl⟩ := yields_pure.mp h2
    refine ⟨rfl, hid, ?_⟩
    simp [hmembers, hlookup]

theorem buildDependency_yields {dependency : ServiceDependency} {edge : StartupDependency}
    (h : Yields (m.buildDependency identities service dependency) edge log) :
    log = [] ∧ identities.containers.lookup dependency.service.asStr = some edge.predecessor ∧
      identities.containers.lookup service.name.asStr = some edge.dependent := by
  unfold Mapping.buildDependency at h
  obtain ⟨predecessor, log1, rest1, hpredecessor, h1, rfl⟩ := yields_bind.mp h
  obtain ⟨dependent, log2, rest2, hdependent, h2, rfl⟩ := yields_bind.mp h1
  obtain ⟨-, h3⟩ := call_bind.mp h2
  obtain ⟨rfl, rfl⟩ := yields_pure.mp h3
  obtain ⟨hfirst, rfl⟩ := containerId_yields hpredecessor
  obtain ⟨hsecond, rfl⟩ := containerId_yields hdependent
  exact ⟨rfl, hfirst, hsecond⟩

end Resources
end Boxferry.Podman
