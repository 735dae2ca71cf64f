import Boxferry.Podman.Consistency

/-! # Exposed texts

The resources of a kept intent as functions of the application: which texts of a
service its container holds, and in what spelling. -/
namespace Boxferry.Podman
open Engine Model Attempts
set_option autoImplicit false

/-! ## Settings -/

/-- The native spelling of a working directory, unless the library refuses it. -/
def publicWorkdir (lens : PodmanLens) (text : String) : Option String :=
  let path := Mapping.normalizedWorkdir text
  match lens.rejects (.absoluteContainerPath path) <|> lens.rejects (.containerWorkdir path) with
  | none => some path
  | some _ => none

/-- A label whose value the library takes as a public one. -/
def publicLabel (lens : PodmanLens) (label : MetadataLabel) : Option (String × String) :=
  match lens.rejects (.publicLabelValue label.value.expose) with
  | none => some (label.name.asStr, label.value.expose)
  | some _ => none

/-- The text of an environment value that has a public spelling. -/
def publicText (value : EnvironmentValue) : Option String :=
  if (Mapping.environmentLoss value).isNone then some (Mapping.literalText value) else none

def publicVariable (entry : EnvironmentVariable) : String × Option String :=
  (entry.name.asStr, publicText entry.value)

def assignment (entry : String × Option String) : Option (String × String) :=
  entry.2.map fun value => (entry.1, value)

/-- The public assignments of a service in name order. -/
def publicEnvironment (service : Service) : List (String × String) :=
  ((service.environment.map fun entry => publicVariable entry.value).mergeSort
    fun left right => left.1 ≤ right.1).filterMap assignment

def nativeRestart : RestartPolicy → ContainerRestartPolicy
  | .never => .no
  | .always => .always
  | .onFailure _ => .onFailure
  | .unlessStopped => .unlessStopped

def nativePull (policy : Option PullPolicy) : ImagePullPolicy :=
  (policy.bind pullPolicy?).getD .missing

def nativeUser (service : Service) : Option String :=
  service.user.map fun user => Mapping.userSpelling user.value (service.group.map Sourced.value)

def exposedSettings (lens : PodmanLens) (service : Service) : ContainerSettings where
  command := service.command.bind fun command => commandWords command.value
  entrypoint := service.entrypoint.bind fun entrypoint => entrypointWords entrypoint.value
  user := nativeUser service
  workdir := service.workingDirectory.bind fun workdir => publicWorkdir lens workdir.value.expose
  hostname := service.hostname.map fun hostname => hostname.value.expose
  labels := service.labels.filterMap fun label => publicLabel lens label.value
  environment := publicEnvironment service
  restartPolicy := service.restartPolicy.map fun restart => nativeRestart restart.value

section Settings
variable {m : Mapping} {service : Service} {log : List Event}

/-- A loop whose steps append what they gather, as long as the intent is kept. -/
theorem loop_gathers {β ι : Type} {step : List β → ι → Building (List β)} {items : List ι}
    {start result : List β} (gather : ι → Option β)
    (hstep : ∀ item ∈ items, ∀ state next log, Yields (step state item) next log → Keeps log →
      next = state ++ (gather item).toList)
    (h : Yields (items.foldlM step start) result log) (hkept : Keeps log) :
    result = start ++ items.filterMap gather := by
  have hrun := h.foldlM_induction (motive := fun done state log =>
    Keeps log → state = start ++ done.filterMap gather) (by simp) (by
      intro done item state before next after hitem hdone hyields hboth
      obtain ⟨hbefore, hafter⟩ := keeps_append.mp hboth
      rw [hstep item hitem state next after hyields hafter, hdone hbefore, List.filterMap_append,
        List.append_assoc]
      cases hgather : gather item <;> simp [hgather])
  exact hrun hkept

theorem mapCommand_value {result : Option (List String)}
    (h : Yields (m.mapCommand service) result log) :
    result = service.command.bind fun command => commandWords command.value := by
  unfold Mapping.mapCommand at h
  cases hcommand : service.command with
  | none =>
    rw [hcommand] at h
    exact (yields_pure.mp h).1.symm
  | some command =>
    obtain ⟨command, origins⟩ := command
    rw [hcommand] at h
    cases command with
    | exec arguments => exact (setCommand_yields h).1
    | shell text => exact (setCommand_yields h).1
    | empty =>
      obtain ⟨rest, hrest, -⟩ := lose_bind.mp h
      exact (yields_pure.mp hrest).1.symm

theorem mapEntrypoint_value {result : Option (List String)}
    (h : Yields (m.mapEntrypoint service) result log) :
    result = service.entrypoint.bind fun entrypoint => entrypointWords entrypoint.value := by
  unfold Mapping.mapEntrypoint at h
  cases hentrypoint : service.entrypoint with
  | none =>
    rw [hentrypoint] at h
    exact (yields_pure.mp h).1.symm
  | some entrypoint =>
    obtain ⟨entrypoint, origins⟩ := entrypoint
    rw [hentrypoint] at h
    cases entrypoint with
    | exec arguments => exact (setEntrypoint_yields h).1
    | shell text => exact (setEntrypoint_yields h).1
    | empty =>
      obtain ⟨rest, hrest, -⟩ := lose_bind.mp h
      exact (yields_pure.mp hrest).1.symm

theorem mapUser_value {result : Option String} (h : Yields (m.mapUser service) result log) :
    result = nativeUser service := by
  unfold Mapping.mapUser at h
  unfold nativeUser
  cases huser : service.user with
  | some user =>
    simp only [huser, call_bind, yields_pure] at h
    exact h.2.1.symm
  | none =>
    rw [huser] at h
    by_cases hgroup : service.group.isSome = true
    · simp only [if_pos hgroup] at h
      obtain ⟨rest, hrest, -⟩ := lose_bind.mp h
      exact (yields_pure.mp hrest).1.symm
    · simp only [if_neg hgroup] at h
      exact (yields_pure.mp h).1.symm

theorem mapWorkdir_value {result : Option String} (h : Yields (m.mapWorkdir service) result log) :
    result = service.workingDirectory.bind fun workdir => publicWorkdir m.lens workdir.value.expose := by
  unfold Mapping.mapWorkdir at h
  cases hworkdir : service.workingDirectory with
  | none =>
    rw [hworkdir] at h
    exact (yields_pure.mp h).1.symm
  | some workdir =>
    rw [hworkdir] at h
    simp only [Option.bind_some, publicWorkdir] at h ⊢
    cases hrejected : (m.lens.rejects (.absoluteContainerPath (Mapping.normalizedWorkdir workdir.value.expose)) <|>
        m.lens.rejects (.containerWorkdir (Mapping.normalizedWorkdir workdir.value.expose))) with
    | none =>
      rw [hrejected] at h
      exact (yields_pure.mp h).1.symm
    | some error =>
      rw [hrejected] at h
      obtain ⟨rest, hrest, -⟩ := lose_bind.mp h
      exact (yields_pure.mp hrest).1.symm

theorem mapHostname_value {result : Option String} (h : Yields (m.mapHostname service) result log) :
    result = service.hostname.map fun hostname => hostname.value.expose := by
  unfold Mapping.mapHostname at h
  cases hhostname : service.hostname with
  | none =>
    rw [hhostname] at h
    exact (yields_pure.mp h).1.symm
  | some hostname =>
    simp only [hhostname, call_bind, yields_pure] at h
    exact h.2.1.symm

theorem mapLabel_value {labels next : List (String × String)} {label : Sourced MetadataLabel}
    (h : Yields (m.mapLabel service labels label) next log) :
    next = labels ++ (publicLabel m.lens label.value).toList := by
  unfold Mapping.mapLabel at h
  unfold publicLabel
  obtain ⟨-, h⟩ := call_bind.mp h
  cases hrejected : m.lens.rejects (.publicLabelValue label.value.value.expose) with
  | none =>
    rw [hrejected] at h
    simp only [call_bind, yields_pure] at h
    exact h.2.1.symm
  | some error =>
    rw [hrejected] at h
    obtain ⟨rest, hrest, -⟩ := lose_bind.mp h
    exact (yields_pure.mp hrest).1.symm.trans (List.append_nil _).symm

theorem mapEnvironmentVariable_value {environment next : List (String × String)}
    {entry : Sourced EnvironmentVariable}
    (h : Yields (m.mapEnvironmentVariable service environment entry) next log) :
    next = environment ++ (assignment (publicVariable entry.value)).toList := by
  unfold Mapping.mapEnvironmentVariable at h
  unfold assignment publicVariable publicText
  simp only at h ⊢
  split at h
  · next hloss =>
    obtain ⟨rest, hrest, -⟩ := lose_bind.mp h
    rw [hloss]
    exact (yields_pure.mp hrest).1.symm.trans (List.append_nil _).symm
  · next hliteral =>
    simp only [call_bind, yields_pure] at h
    rw [hliteral]
    exact h.2.2.2.1.symm

theorem mapEnvironment_value {environment : List (String × String)}
    (h : Yields ((Mapping.sortedEnvironment service).foldlM (m.mapEnvironmentVariable service) [])
      environment log) (hkept : Keeps log) : environment = publicEnvironment service := by
  have hgathered := loop_gathers (fun entry => assignment (publicVariable entry.value))
    (fun _ _ _ _ _ hstep _ => mapEnvironmentVariable_value hstep) h hkept
  have hsorted : (Mapping.sortedEnvironment service).map (fun entry => publicVariable entry.value) =
      (service.environment.map fun entry => publicVariable entry.value).mergeSort
        fun left right => left.1 ≤ right.1 :=
    List.map_mergeSort fun _ _ _ _ => rfl
  rw [hgathered, List.nil_append, publicEnvironment, ← hsorted, List.filterMap_map]
  rfl

theorem mapRestartPolicy_value {result : Option ContainerRestartPolicy}
    (h : Yields (m.mapRestartPolicy service) result log) :
    result = service.restartPolicy.map fun restart => nativeRestart restart.value := by
  unfold Mapping.mapRestartPolicy at h
  cases hrestart : service.restartPolicy with
  | none =>
    rw [hrestart] at h
    exact (yields_pure.mp h).1.symm
  | some restart =>
    obtain ⟨restart, origins⟩ := restart
    rw [hrestart] at h
    rcases restart with _ | _ | ⟨_ | retries⟩ | _
    all_goals simp only [Option.map_some] at h
    · exact (setRestart_yields h).1
    · exact (setRestart_yields h).1
    · exact (setRestart_yields h).1
    · obtain ⟨rest, hrest, -⟩ := lose_bind.mp h
      exact (setRestart_yields hrest).1
    · exact (setRestart_yields h).1

theorem mapServiceSettings_value {settings : ContainerSettings}
    (h : Yields (m.mapServiceSettings service) settings log) (hkept : Keeps log) :
    settings = exposedSettings m.lens service := by
  unfold Mapping.mapServiceSettings at h
  obtain ⟨command, log1, rest1, hcommand, h1, rfl⟩ := yields_bind.mp h
  obtain ⟨entrypoint, log2, rest2, hentrypoint, h2, rfl⟩ := yields_bind.mp h1
  obtain ⟨user, log3, rest3, huser, h3, rfl⟩ := yields_bind.mp h2
  obtain ⟨workdir, log4, rest4, hworkdir, h4, rfl⟩ := yields_bind.mp h3
  obtain ⟨hostname, log5, rest5, hhostname, h5, rfl⟩ := yields_bind.mp h4
  obtain ⟨labels, log6, rest6, hlabels, h6, rfl⟩ := yields_bind.mp h5
  obtain ⟨environment, log7, rest7, henvironment, h7, rfl⟩ := yields_bind.mp h6
  obtain ⟨restart, log8, rest8, hrestart, h8, rfl⟩ := yields_bind.mp h7
  obtain ⟨rfl, rfl⟩ := yields_pure.mp h8
  simp only [keeps_append] at hkept
  have hlabels := loop_gathers (fun label : Sourced MetadataLabel => publicLabel m.lens label.value)
    (fun _ _ _ _ _ hstep _ => mapLabel_value hstep) hlabels hkept.2.2.2.2.2.1
  unfold exposedSettings
  rw [mapCommand_value hcommand, mapEntrypoint_value hentrypoint, mapUser_value huser,
    mapWorkdir_value hworkdir, mapHostname_value hhostname, hlabels, List.nil_append,
    mapEnvironment_value henvironment hkept.2.2.2.2.2.2.1, mapRestartPolicy_value hrestart]

end Settings

/-! ## Mounts -/

/-- The native mount of a named volume. -/
def volumeMount (identities : Identities) (mount : Mount) : Option ContainerMount :=
  (preparedVolume? identities mount).map fun id =>
    .namedVolume id mount.target (Mapping.mountAccess mount)

def tmpfsMount (tmpfs : ProtectedString) : ContainerMount :=
  .tmpfs (String.ofList (tmpfs.expose.toList.takeWhile (· ≠ ':'))) .readWrite

def exposedMounts (identities : Identities) (service : Service) : List ContainerMount :=
  (service.mounts.filterMap fun mount => volumeMount identities mount.value) ++
    (service.tmpfs.getD []).map fun tmpfs => tmpfsMount tmpfs.value

section Mounts
variable {m : Mapping} {identities : Identities} {service : Service} {log : List Event}

theorem mapMount_value {mounts next : List ContainerMount} {item : Sourced Mount × Nat}
    (h : Yields (m.mapMount identities service mounts item) next log) :
    next = mounts ++ (volumeMount identities item.1.value).toList := by
  obtain ⟨⟨mount, origins⟩, index⟩ := item
  unfold Mapping.mapMount at h
  obtain ⟨-, h⟩ := call_bind.mp h
  unfold volumeMount preparedVolume?
  simp only at h ⊢
  cases hsource : mount.source with
  | volume name =>
    rw [hsource] at h
    simp only at h ⊢
    cases hlookup : identities.volumes.lookup name.asStr with
    | none =>
      rw [hlookup] at h
      exact (yields_pure.mp h).1.symm.trans (List.append_nil _).symm
    | some identity =>
      rw [hlookup] at h
      obtain ⟨source, before, after, hid, hcall, -⟩ := yields_bind.mp h
      obtain ⟨rfl, -, -⟩ := resourceId_yields (by decide) hid
      obtain ⟨-, hadd⟩ := call_bind.mp hcall
      obtain ⟨done, relabel, rest, -, hrest, -⟩ := yields_bind.mp hadd
      exact (yields_pure.mp hrest).1.symm
  | hostPath _ | deferredHostPath _ | anonymous =>
    rw [hsource] at h
    obtain ⟨others, hothers, -⟩ := lose_bind.mp h
    obtain ⟨done, relabel, rest, -, hrest, -⟩ := yields_bind.mp hothers
    exact (yields_pure.mp hrest).1.symm.trans (List.append_nil _).symm

/-- In a kept intent no temporary mount is protected. -/
theorem mapTmpfs_value {mounts next : List ContainerMount} {item : Sourced ProtectedString × Nat}
    (h : Yields (m.mapTmpfs service mounts item) next log) (hkept : Keeps log) :
    item.1.value.isSensitive = false ∧ next = mounts ++ [tmpfsMount item.1.value] := by
  unfold Mapping.mapTmpfs at h
  by_cases hsensitive : item.1.value.isSensitive = true
  · simp only [if_pos hsensitive] at h
    obtain ⟨rest, hrest, rfl⟩ := yields_report_bind.mp h
    have hrejects := hkept _ List.mem_cons_self
    cases hrejects
  · refine ⟨by simpa using hsensitive, ?_⟩
    simp only [if_neg hsensitive] at h
    obtain ⟨-, h⟩ := call_bind.mp h
    by_cases hoptions : containsChar item.1.value.expose ':' = true
    · rw [if_pos hoptions] at h
      obtain ⟨rest, hrest, -⟩ := lose_bind.mp h
      exact (yields_pure.mp hrest).1.symm
    · rw [if_neg hoptions] at h
      obtain ⟨rest, hrest, -⟩ := yields_report_bind.mp h
      exact (yields_pure.mp hrest).1.symm

theorem mapTmpfsMounts_value {tmpfs : List (Sourced ProtectedString)} {start mounts : List ContainerMount}
    (h : Yields (tmpfs.zipIdx.foldlM (m.mapTmpfs service) start) mounts log) (hkept : Keeps log) :
    (∀ item ∈ tmpfs, item.value.isSensitive = false) ∧
      mounts = start ++ tmpfs.map fun item => tmpfsMount item.value := by
  have hrun := h.foldlM_induction (motive := fun done state log => Keeps log →
    (∀ item ∈ done, item.1.value.isSensitive = false) ∧
      state = start ++ done.map fun item => tmpfsMount item.1.value) (fun _ => by simp) (by
      intro done item state before next after _ hdone hyields hboth
      obtain ⟨hbefore, hafter⟩ := keeps_append.mp hboth
      obtain ⟨hvisible, hstate⟩ := hdone hbefore
      obtain ⟨hplain, hnext⟩ := mapTmpfs_value hyields hafter
      refine ⟨Naming.forall_append hvisible hplain, ?_⟩
      rw [hnext, hstate, List.map_append, List.append_assoc]
      rfl)
  obtain ⟨hvisible, hmounts⟩ := hrun hkept
  rw [map_fst_zipIdx fun item : Sourced ProtectedString => tmpfsMount item.value] at hmounts
  refine ⟨fun item hitem => ?_, hmounts⟩
  obtain ⟨index, hindex, rfl⟩ := List.mem_iff_getElem.mp hitem
  exact hvisible (tmpfs[index], index) (List.mk_mem_zipIdx_iff_getElem?.mpr (List.getElem?_eq_getElem hindex))

theorem mapServiceMounts_value {mounts : List ContainerMount}
    (h : Yields (m.mapServiceMounts identities service) mounts log) (hkept : Keeps log) :
    (∀ tmpfs ∈ service.tmpfs.getD [], tmpfs.value.isSensitive = false) ∧
      mounts = exposedMounts identities service := by
  unfold Mapping.mapServiceMounts at h
  obtain ⟨plain, before, after, hplain, hrest, rfl⟩ := yields_bind.mp h
  obtain ⟨hbefore, hafter⟩ := keeps_append.mp hkept
  have hplain := loop_gathers
    (fun item : Sourced Mount × Nat => volumeMount identities item.1.value)
    (fun _ _ _ _ _ hstep _ => mapMount_value hstep) hplain hbefore
  rw [filterMap_fst_zipIdx fun mount : Sourced Mount => volumeMount identities mount.value,
    List.nil_append] at hplain
  unfold exposedMounts
  cases htmpfs : service.tmpfs with
  | none =>
    rw [htmpfs] at hrest
    obtain ⟨rfl, -⟩ := yields_pure.mp hrest
    exact ⟨by simp, by rw [hplain]; simp⟩
  | some tmpfs =>
    rw [htmpfs] at hrest
    rw [← hplain]
    by_cases hempty : tmpfs.isEmpty = true
    · simp only [if_pos hempty] at hrest
      obtain ⟨others, hothers, rfl⟩ := yields_report_bind.mp hrest
      exact mapTmpfsMounts_value hothers fun event hevent =>
        hafter event (List.mem_cons_of_mem _ hevent)
    · simp only [if_neg hempty] at hrest
      exact mapTmpfsMounts_value hrest hafter

end Mounts

/-! ## Services -/

/-- The container of a service under an identity. -/
def exposedContainer (m : Mapping) (identities : Identities) (service : Service)
    (id : DeploymentResourceId) : ContainerIntent where
  id := id
  image := ⟨.image, Mapping.imageName service⟩
  pod := (m.groupFor service.name.asStr).map fun group => ⟨.pod, group⟩
  settings := exposedSettings m.lens service
  mounts := exposedMounts identities service
  networks := service.networks.map fun network => attachedNetwork network.value

section Services
variable {m : Mapping} {identities : Identities} {service : Service} {log : List Event}

theorem buildContainer_value {container : ContainerIntent}
    (h : Yields (m.buildContainer identities service) container log) (hkept : Keeps log) :
    (∀ tmpfs ∈ service.tmpfs.getD [], tmpfs.value.isSensitive = false) ∧
      identities.containers.lookup service.name.asStr = some container.id ∧
      container = exposedContainer m identities service container.id := by
  unfold Mapping.buildContainer at h
  obtain ⟨container, log1, rest1, hid, h1, rfl⟩ := yields_bind.mp h
  obtain ⟨image, log2, rest2, himage, h2, rfl⟩ := yields_bind.mp h1
  obtain ⟨-, h3⟩ := call_bind.mp h2
  obtain ⟨pod, log4, rest4, hpod, h4, rfl⟩ := yields_bind.mp h3
  obtain ⟨settings, log5, rest5, hsettings, h5, rfl⟩ := yields_bind.mp h4
  obtain ⟨mounts, log6, rest6, hmounts, h6, rfl⟩ := yields_bind.mp h5
  obtain ⟨networks, log7, rest7, hnetworks, h7, rfl⟩ := yields_bind.mp h6
  obtain ⟨rfl, rfl⟩ := yields_pure.mp h7
  obtain ⟨hlookup, rfl⟩ := containerId_yields hid
  obtain ⟨rfl, -, rfl⟩ := resourceId_yields (by decide) himage
  obtain ⟨rfl, rfl⟩ := joinPod_yields hpod
  obtain ⟨rfl, rfl⟩ := yields_lift.mp hnetworks
  simp only [List.nil_append, List.append_nil, keeps_append] at hkept
  obtain ⟨hvisible, rfl⟩ := mapServiceMounts_value hmounts hkept.2.1
  obtain rfl := mapServiceSettings_value hsettings hkept.1
  refine ⟨hvisible, hlookup, ?_⟩
  unfold exposedContainer
  rw [(mapServiceNetworks_kept hkept.2.2).1]

theorem mapPullPolicy_value {policy : ImagePullPolicy}
    (h : Yields (Mapping.mapPullPolicy service) policy log) :
    policy = nativePull (service.pullPolicy.map Sourced.value) := by
  unfold Mapping.mapPullPolicy at h
  cases hpolicy : service.pullPolicy with
  | none =>
    rw [hpolicy] at h
    exact (yields_pure.mp h).1.symm
  | some neutral =>
    obtain ⟨neutral, origins⟩ := neutral
    rw [hpolicy] at h
    cases neutral with
    | always | missing | never => exact (yields_pure.mp h).1.symm
    | ifNotPresent | build | daily | weekly | every _ | raw _ =>
      obtain ⟨rest, hrest, -⟩ := lose_bind.mp h
      exact (yields_pure.mp hrest).1.symm

end Services
end Boxferry.Podman
