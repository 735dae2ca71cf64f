import Boxferry.Podman.Exposed

/-! # Protected texts

Two applications that differ only in protected texts. Runtime names, temporary
mounts and environment values are checked for protection before they reach an
intent; commands, users, directories, host names, labels and aliases are not. -/
namespace Boxferry.Podman
open Engine Model
set_option autoImplicit false

/-! ## Applications that differ in protected texts -/

structure SameText (left right : ProtectedString) : Prop where
  sensitive : left.isSensitive = right.isSensitive
  visible : left.isSensitive = false → left.expose = right.expose

def SameSourced (left right : Sourced ProtectedString) : Prop := SameText left.value right.value

inductive SameCommand : Command → Command → Prop
  | exec {left right : List ProtectedString} (h : List.Forall₂ SameText left right) :
    SameCommand (.exec left) (.exec right)
  | shell {left right : ProtectedString} (h : SameText left right) :
    SameCommand (.shell left) (.shell right)
  | empty : SameCommand .empty .empty

inductive SameEntrypoint : Entrypoint → Entrypoint → Prop
  | exec {left right : List ProtectedString} (h : List.Forall₂ SameText left right) :
    SameEntrypoint (.exec left) (.exec right)
  | shell {left right : ProtectedString} (h : SameText left right) :
    SameEntrypoint (.shell left) (.shell right)
  | empty : SameEntrypoint .empty .empty

inductive SamePull : PullPolicy → PullPolicy → Prop
  | same (policy : PullPolicy) : SamePull policy policy
  | every {left right : ProtectedString} (h : SameText left right) : SamePull (.every left) (.every right)
  | raw {left right : ProtectedString} (h : SameText left right) : SamePull (.raw left) (.raw right)

/-- Literals with the same text up to protection. Other values never have a public text. -/
inductive SameValue : EnvironmentValue → EnvironmentValue → Prop
  | literal {left right : ProtectedString} (h : SameText left right) :
    SameValue (.literal left) (.literal right)
  | other {left right : EnvironmentValue} (hleft : ∀ text, left ≠ .literal text)
    (hright : ∀ text, right ≠ .literal text) : SameValue left right

structure SameMount (left right : Sourced Mount) : Prop where
  volume : namedVolume? left.value = namedVolume? right.value
  target : left.value.target = right.value.target
  readOnly : left.value.readOnly = right.value.readOnly

structure SameAttachment (left right : Sourced NetworkAttachment) : Prop where
  network : left.value.network = right.value.network
  aliases : List.Forall₂ SameSourced left.value.aliases right.value.aliases

/-- Services whose public parts are the same. Fields that reach no intent are left open. -/
structure SameService (left right : Service) : Prop where
  name : left.name = right.name
  runtimeName : Option.Rel SameSourced left.runtimeName right.runtimeName
  image : left.image.map Sourced.value = right.image.map Sourced.value
  pullPolicy : Option.Rel (fun left right => SamePull left.value right.value) left.pullPolicy
    right.pullPolicy
  command : Option.Rel (fun left right => SameCommand left.value right.value) left.command right.command
  entrypoint : Option.Rel (fun left right => SameEntrypoint left.value right.value) left.entrypoint
    right.entrypoint
  user : Option.Rel SameSourced left.user right.user
  group : Option.Rel SameSourced left.group right.group
  workingDirectory : Option.Rel SameSourced left.workingDirectory right.workingDirectory
  hostname : Option.Rel SameSourced left.hostname right.hostname
  labels : List.Forall₂ (fun left right => left.value.name = right.value.name ∧
    SameText left.value.value right.value.value) left.labels right.labels
  environment : List.Forall₂ (fun left right => left.value.name = right.value.name ∧
    SameValue left.value.value right.value.value) left.environment right.environment
  restartPolicy : left.restartPolicy.map Sourced.value = right.restartPolicy.map Sourced.value
  mounts : List.Forall₂ SameMount left.mounts right.mounts
  tmpfs : Option.Rel (List.Forall₂ SameSourced) left.tmpfs right.tmpfs
  networks : List.Forall₂ SameAttachment left.networks right.networks
  dependencies : left.dependencies.map (fun dependency => dependency.value.service) =
    right.dependencies.map fun dependency => dependency.value.service

structure SameVolume (left right : Sourced Volume) : Prop where
  name : left.value.name = right.value.name
  ownership : left.value.ownership = right.value.ownership
  runtimeName : Option.Rel SameSourced left.value.runtimeName right.value.runtimeName

structure SameGroup (left right : Sourced ServiceGroup) : Prop where
  name : left.value.name = right.value.name
  ownership : left.value.ownership = right.value.ownership
  members : left.value.members.map Sourced.value = right.value.members.map Sourced.value

structure SameApplication (left right : Application) : Prop where
  networks : left.networks.map (fun network => (network.value.name, network.value.ownership)) =
    right.networks.map fun network => (network.value.name, network.value.ownership)
  volumes : List.Forall₂ SameVolume left.volumes right.volumes
  secrets : left.secrets.map (fun secret => (secret.value.name, secret.value.ownership)) =
    right.secrets.map fun secret => (secret.value.name, secret.value.ownership)
  groups : List.Forall₂ SameGroup left.serviceGroups right.serviceGroups
  services : List.Forall₂ (fun left right => SameService left.value right.value) left.services
    right.services

/-! ## Texts that reach the intent unchecked -/

/-- Services whose unchecked texts have the same native spelling. -/
structure SameUnchecked (lens : PodmanLens) (left right : Service) : Prop where
  command : left.command.bind (fun command => commandWords command.value) =
    right.command.bind fun command => commandWords command.value
  entrypoint : left.entrypoint.bind (fun entrypoint => entrypointWords entrypoint.value) =
    right.entrypoint.bind fun entrypoint => entrypointWords entrypoint.value
  user : nativeUser left = nativeUser right
  workdir : left.workingDirectory.bind (fun workdir => publicWorkdir lens workdir.value.expose) =
    right.workingDirectory.bind fun workdir => publicWorkdir lens workdir.value.expose
  hostname : left.hostname.map (fun hostname => hostname.value.expose) =
    right.hostname.map fun hostname => hostname.value.expose
  labels : left.labels.filterMap (fun label => publicLabel lens label.value) =
    right.labels.filterMap fun label => publicLabel lens label.value
  aliases : left.networks.map (fun network => network.value.aliases.map fun name => name.value.expose) =
    right.networks.map fun network => network.value.aliases.map fun name => name.value.expose

/-! ## Checked texts -/

/-- A name that is not protected is the same on both sides. -/
theorem nativeName_same {left right : Identifier} {first other : Option (Sourced ProtectedString)}
    (hname : left = right) (hrelated : Option.Rel SameSourced first other)
    (hvisible : isProtected first = false) : nativeName left first = nativeName right other := by
  unfold nativeName
  rcases Related.rel_cases hrelated with ⟨rfl, rfl⟩ | ⟨text, spelling, rfl, rfl, hsame⟩
  · rw [hname]
  · exact hsame.visible hvisible

theorem publicText_same {left right : EnvironmentValue} (h : SameValue left right) :
    publicText left = publicText right := by
  have hother {value : EnvironmentValue} (hvalue : ∀ text, value ≠ .literal text) :
      publicText value = none := by
    cases value with
    | literal text => exact absurd rfl (hvalue text)
    | deferred _ | unresolvedSource _ _ | required | host | unset => rfl
  cases h with
  | @literal text spelling hsame =>
    unfold publicText Mapping.environmentLoss Mapping.literalText
    cases hsensitive : text.isSensitive with
    | true => simp [← hsame.sensitive, hsensitive]
    | false => simp [← hsame.sensitive, hsensitive, hsame.visible hsensitive]
  | other hleft hright => rw [hother hleft, hother hright]

theorem publicEnvironment_same {left right : Service} (h : SameService left right) :
    publicEnvironment left = publicEnvironment right := by
  have hvariables : left.environment.map (fun entry => publicVariable entry.value) =
      right.environment.map fun entry => publicVariable entry.value := by
    refine Related.map_eq h.environment fun first other hrelated => ?_
    unfold publicVariable
    rw [hrelated.1, publicText_same hrelated.2]
  unfold publicEnvironment
  rw [hvariables]

theorem nativePull_same {left right : Service} (h : SameService left right) :
    nativePull (left.pullPolicy.map Sourced.value) = nativePull (right.pullPolicy.map Sourced.value) := by
  rcases Related.rel_cases h.pullPolicy with ⟨hleft, hright⟩ | ⟨first, other, hleft, hright, hsame⟩
  · rw [hleft, hright]
  · rw [hleft, hright, Option.map_some, Option.map_some]
    generalize first.value = policy at hsame ⊢
    generalize other.value = counterpart at hsame ⊢
    cases hsame <;> rfl

theorem volumeMount_same {identities others : Identities} {left right : Sourced Mount}
    (hvolumes : ∀ name, identities.volumes.lookup name = others.volumes.lookup name)
    (h : SameMount left right) :
    volumeMount identities left.value = volumeMount others right.value := by
  have hprepared (identities : Identities) (mount : Mount) : preparedVolume? identities mount =
      (namedVolume? mount).bind fun name =>
        (identities.volumes.lookup name.asStr).map fun name => ⟨.volume, name⟩ := by
    unfold preparedVolume? namedVolume?
    cases mount.source <;> rfl
  unfold volumeMount Mapping.mountAccess
  rw [hprepared, hprepared, h.volume, h.target, h.readOnly]
  simp only [hvolumes]

theorem exposedMounts_same {identities others : Identities} {left right : Service}
    (hvolumes : ∀ name, identities.volumes.lookup name = others.volumes.lookup name)
    (h : SameService left right)
    (hvisible : ∀ tmpfs ∈ left.tmpfs.getD [], tmpfs.value.isSensitive = false) :
    exposedMounts identities left = exposedMounts others right := by
  unfold exposedMounts
  congr 1
  · exact Related.filterMap_eq h.mounts fun _ _ hmount => volumeMount_same hvolumes hmount
  · rcases Related.rel_cases h.tmpfs with ⟨hleft, hright⟩ | ⟨first, other, hleft, hright, hsame⟩
    · rw [hleft, hright]
    · rw [hleft] at hvisible ⊢
      rw [hright]
      refine Related.map_eq (Related.of_left hsame hvisible) fun text spelling hrelated => ?_
      unfold tmpfsMount
      rw [hrelated.2.visible hrelated.1]

/-! ## Containers -/

/-- Containers of one identity and one pod are the same when the unchecked texts are. -/
theorem exposedContainer_same {m other : Mapping} {identities others : Identities}
    {left right : Service} {id : DeploymentResourceId} (hlens : m.lens = other.lens)
    (hgroup : m.groupFor left.name.asStr = other.groupFor right.name.asStr)
    (hvolumes : ∀ name, identities.volumes.lookup name = others.volumes.lookup name)
    (h : SameService left right)
    (hvisible : ∀ tmpfs ∈ left.tmpfs.getD [], tmpfs.value.isSensitive = false) :
    exposedContainer m identities left id = exposedContainer other others right id ↔
      SameUnchecked m.lens left right := by
  constructor
  · intro hcontainers
    have hsettings := congrArg ContainerIntent.settings hcontainers
    have hnetworks := congrArg ContainerIntent.networks hcontainers
    unfold exposedContainer exposedSettings at hsettings
    rw [← hlens] at hsettings
    exact {
      command := congrArg ContainerSettings.command hsettings
      entrypoint := congrArg ContainerSettings.entrypoint hsettings
      user := congrArg ContainerSettings.user hsettings
      workdir := congrArg ContainerSettings.workdir hsettings
      hostname := congrArg ContainerSettings.hostname hsettings
      labels := congrArg ContainerSettings.labels hsettings
      aliases := by
        have haliases := congrArg (List.map AttachedNetwork.aliases) hnetworks
        unfold exposedContainer at haliases
        rw [List.map_map, List.map_map] at haliases
        exact haliases }
  · intro hsame
    have hnetworks : left.networks.map (fun network => attachedNetwork network.value) =
        right.networks.map fun network => attachedNetwork network.value := by
      have haliases := hsame.aliases
      have hrelated := h.networks
      generalize left.networks = first at haliases hrelated ⊢
      generalize right.networks = second at haliases hrelated ⊢
      induction hrelated with
      | nil => rfl
      | @cons network attachment networks attachments hfirst _ ih =>
        rw [List.map_cons, List.map_cons, List.cons.injEq] at haliases
        rw [List.map_cons, List.map_cons, ih haliases.2]
        unfold attachedNetwork
        rw [hfirst.network, haliases.1]
    unfold exposedContainer exposedSettings
    rw [hsame.command, hsame.entrypoint, hsame.user, hsame.workdir, hsame.hostname, hsame.labels,
      publicEnvironment_same h, hnetworks, exposedMounts_same hvolumes h hvisible, hgroup, hlens]
    have hrestart : left.restartPolicy.map (fun restart => nativeRestart restart.value) =
        right.restartPolicy.map fun restart => nativeRestart restart.value := by
      have hpolicy := congrArg (Option.map nativeRestart) h.restartPolicy
      rw [Option.map_map, Option.map_map] at hpolicy
      exact hpolicy
    have himage : Mapping.imageName left = Mapping.imageName right := by
      unfold Mapping.imageName
      rw [h.name]
    rw [hrestart, himage]

/-! ## Intents -/

section Intents
variable {m other : Mapping} {identities others : Identities}

/-- Related applications whose intents are both kept, with the identities prepared for each. -/
structure KeptRuns (m other : Mapping) (identities others : Identities) : Prop where
  lens : m.lens = other.lens
  same : SameApplication m.application other.application
  left : KeptRun m identities
  right : KeptRun other others

@[simp] theorem edgeEnds_inj {left right : StartupDependency} :
    edgeEnds left = edgeEnds right ↔ left = right := by
  obtain ⟨predecessor, dependent⟩ := left
  obtain ⟨first, second⟩ := right
  simp [edgeEnds]

section Kept
variable (h : KeptRuns m other identities others)
include h

theorem KeptRuns.services : List.Forall₂ (fun left right => left ∈ m.application.services ∧
    right ∈ other.application.services ∧ SameService left.value right.value)
      m.application.services other.application.services :=
  Related.of_mem h.same.services

theorem KeptRuns.volumes : List.Forall₂ (fun left right => left ∈ m.application.volumes ∧
    right ∈ other.application.volumes ∧ SameVolume left right)
      m.application.volumes other.application.volumes :=
  Related.of_mem h.same.volumes

theorem KeptRuns.containerId_same {left right : Sourced Service}
    (hleft : left ∈ m.application.services) (hsame : SameService left.value right.value) :
    containerId left = containerId right := by
  unfold containerId containerName
  rw [nativeName_same hsame.name hsame.runtimeName (h.left.prepared.containers_visible left hleft)]

theorem KeptRuns.volumeName_same {left right : Sourced Volume} (hleft : left ∈ m.application.volumes)
    (hsame : SameVolume left right) : volumeName left = volumeName right :=
  nativeName_same hsame.name hsame.runtimeName (h.left.prepared.volumes_visible left hleft)

theorem KeptRuns.serviceIdentity (name : String) :
    serviceIdentity? m.application name = serviceIdentity? other.application name := by
  have hfound : Option.Rel _ (m.application.services.find? fun service => serviceKey service = name)
      (other.application.services.find? fun service => serviceKey service = name) :=
    Related.find?_related h.services fun left right hrelated => by
      unfold serviceKey
      rw [hrelated.2.2.name]
  unfold serviceIdentity?
  rcases Related.rel_cases hfound with ⟨hleft, hright⟩ | ⟨left, right, hleft, hright, hmem, -, hsame⟩
  · rw [hleft, hright]
  · rw [hleft, hright, Option.map_some, Option.map_some, h.containerId_same hmem hsame]

theorem KeptRuns.containers_lookup (name : String) :
    identities.containers.lookup name = others.containers.lookup name := by
  rw [h.left.prepared.containers, h.right.prepared.containers, h.serviceIdentity]

theorem KeptRuns.volumes_lookup (name : String) :
    identities.volumes.lookup name = others.volumes.lookup name := by
  rw [h.left.prepared.volumes, h.right.prepared.volumes]
  have hfound : Option.Rel _ (m.application.volumes.find? fun volume => volumeKey volume = name)
      (other.application.volumes.find? fun volume => volumeKey volume = name) :=
    Related.find?_related h.volumes fun left right hrelated => by
      unfold volumeKey
      rw [hrelated.2.2.name]
  rcases Related.rel_cases hfound with ⟨hleft, hright⟩ | ⟨left, right, hleft, hright, hmem, -, hsame⟩
  · rw [hleft, hright]
  · rw [hleft, hright, Option.map_some, Option.map_some, h.volumeName_same hmem hsame]

theorem KeptRuns.groupFor (name : String) : m.groupFor name = other.groupFor name := by
  have hmembers (group : Sourced ServiceGroup) :
      (group.value.members.any fun member => member.value.asStr = name) =
        (group.value.members.map Sourced.value).any fun member => member.asStr = name := by
    rw [List.any_map]
    rfl
  have hfound := Related.find?_related h.same.groups (fun left right hrelated =>
    show (decide (left.value.ownership = .application) &&
        left.value.members.any fun member => member.value.asStr = name) =
      (decide (right.value.ownership = .application) &&
        right.value.members.any fun member => member.value.asStr = name) by
      rw [hmembers, hmembers, hrelated.members, hrelated.ownership])
  unfold Mapping.groupFor
  rcases Related.rel_cases hfound with ⟨hleft, hright⟩ | ⟨left, right, hleft, hright, hsame⟩
  · rw [hleft, hright]
  · rw [hleft, hright, Option.map_some, Option.map_some, hsame.name]

/-! ### What both runs add -/

theorem KeptRuns.networks_added : m.application.networks.map networkResource =
    other.application.networks.map networkResource := by
  have hnetworks := congrArg (List.map fun declared : Identifier × ResourceOwnership =>
    ownedResource declared.2 ⟨.network, declared.1.asStr⟩ (.network ⟨.network, declared.1.asStr⟩))
      h.same.networks
  rw [List.map_map, List.map_map] at hnetworks
  exact hnetworks

theorem KeptRuns.secrets_added : m.application.secrets.map secretResource =
    other.application.secrets.map secretResource := by
  have hsecrets := congrArg (List.map fun declared : Identifier × ResourceOwnership =>
    ownedResource declared.2 ⟨.secret, declared.1.asStr⟩
      (.secret ⟨.secret, declared.1.asStr⟩ ("boxferry-secret-" ++ declared.1.asStr))) h.same.secrets
  rw [List.map_map, List.map_map] at hsecrets
  exact hsecrets

theorem KeptRuns.volumes_added : m.application.volumes.map volumeResource =
    other.application.volumes.map volumeResource := by
  refine Related.map_eq h.volumes fun left right hrelated => ?_
  unfold volumeResource volumeId
  rw [h.volumeName_same hrelated.1 hrelated.2.2, hrelated.2.2.ownership]

theorem KeptRuns.groups_added :
    m.application.serviceGroups.flatMap (fun group => added (m.mapGroup identities group).log) =
      other.application.serviceGroups.flatMap fun group => added (other.mapGroup others group).log := by
  refine Related.flatMap_eq (Related.of_mem h.same.groups) fun left right hrelated => ?_
  obtain ⟨hleft, hright, hsame⟩ := hrelated
  by_cases howned : left.value.ownership = .application
  · have howned' : right.value.ownership = .application := hsame.ownership ▸ howned
    obtain ⟨pod, hid, hmembers, hlog⟩ := mapGroup_kept howned (h.left.groups left hleft)
    obtain ⟨twin, hid', hmembers', hlog'⟩ := mapGroup_kept howned' (h.right.groups right hright)
    have hlists : pod.members = twin.members := by
      have hnames := congrArg (List.map fun name : Identifier =>
        identities.containers.lookup name.asStr) hsame.members
      rw [List.map_map, List.map_map] at hnames
      have hboth : pod.members.map some = twin.members.map some := by
        rw [hmembers, hmembers']
        simp only [← h.containers_lookup]
        exact hnames
      exact List.map_injective_iff.mpr (Option.some_injective _) hboth
    have hids : pod.id = twin.id := by rw [hid, hid', hsame.name]
    have hpods : pod = twin := by
      cases pod
      cases twin
      cases hids
      cases hlists
      rfl
    rw [hlog, hlog', added_append, added_append, added_addedEntries, added_addedEntries,
      added_lostFields, added_lostFields, hpods]
  · have hexternal : right.value.ownership ≠ .application := hsame.ownership ▸ howned
    rw [(mapGroup_external howned).1, (mapGroup_external hexternal).1]

theorem KeptRuns.edges_added :
    edges (m.mapResources identities).log = edges (other.mapResources others).log := by
  apply List.map_injective_iff.mpr fun _ _ => edgeEnds_inj.mp
  rw [h.left.added_edges, h.right.added_edges]
  refine Related.flatMap_eq h.services fun left right hrelated => ?_
  obtain ⟨-, -, hsame⟩ := hrelated
  have hends := congrArg (List.map fun name : Identifier =>
    (identities.containers.lookup name.asStr, identities.containers.lookup left.value.name.asStr))
      hsame.dependencies
  rw [List.map_map, List.map_map] at hends
  unfold endpoints
  simp only [← h.containers_lookup, ← hsame.name]
  exact hends

theorem KeptRuns.service_added {left right : Sourced Service} (hleft : left ∈ m.application.services)
    (hright : right ∈ other.application.services) (hsame : SameService left.value right.value) :
    (added (m.mapService identities left.value).log).length =
        (added (other.mapService others right.value).log).length ∧
      (added (m.mapService identities left.value).log =
          added (other.mapService others right.value).log ↔
        SameUnchecked m.lens left.value right.value) := by
  obtain ⟨image, policy, container, pulled, built, hpulled, hbuilt, hkept, hservice⟩ :=
    mapService_kept (h.left.mounts_known hleft) (h.left.services left hleft)
  obtain ⟨image', policy', container', pulled', built', hpulled', hbuilt', hkept', hservice'⟩ :=
    mapService_kept (h.right.mounts_known hright) (h.right.services right hright)
  obtain ⟨hvisible, hidentity, hcontainer⟩ := buildContainer_value hbuilt hkept
  obtain ⟨-, hidentity', hcontainer'⟩ := buildContainer_value hbuilt' hkept'
  have hid : container.id = container'.id := by
    rw [h.containers_lookup, hsame.name] at hidentity
    exact Option.some.inj (hidentity.symm.trans hidentity')
  have hpolicy : policy = policy' := by
    rw [mapPullPolicy_value hpulled, mapPullPolicy_value hpulled', nativePull_same hsame]
  have himage : image.value = image'.value := by
    have himages := hsame.image
    rw [hservice.source, hservice'.source] at himages
    exact Option.some.inj himages
  have hname : Mapping.imageName left.value = Mapping.imageName right.value := by
    unfold Mapping.imageName
    rw [hsame.name]
  have hgroup : m.groupFor left.value.name.asStr = other.groupFor right.value.name.asStr := by
    rw [h.groupFor, hsame.name]
  rw [hservice.resources, hservice'.resources]
  refine ⟨rfl, ?_⟩
  rw [hpolicy, himage, hname, List.cons.injEq, List.cons.injEq, DeploymentResource.container.injEq,
    hcontainer, hcontainer', hid]
  simp only [true_and, and_true]
  exact exposedContainer_same h.lens hgroup h.volumes_lookup hsame hvisible

theorem KeptRuns.added_eq_iff :
    added (m.mapResources identities).log = added (other.mapResources others).log ↔
      List.Forall₂ (fun left right => SameUnchecked m.lens left.value right.value)
        m.application.services other.application.services := by
  rw [h.left.added_resources, h.right.added_resources, h.networks_added, h.volumes_added,
    h.secrets_added, h.groups_added, List.append_right_inj, List.append_right_inj,
    List.append_right_inj, List.append_right_inj,
    Related.flatMap_eq_iff h.services fun left right hrelated =>
      (h.service_added hrelated.1 hrelated.2.1 hrelated.2.2).1]
  have hboth := h.services
  constructor
  · intro hadded
    exact (Related.of_pairs hboth hadded).imp fun left right hpair =>
      (h.service_added hpair.1.1 hpair.1.2.1 hpair.1.2.2).2.mp hpair.2
  · intro hunchecked
    exact (Related.of_pairs hboth hunchecked).imp fun left right hpair =>
      (h.service_added hpair.1.1 hpair.1.2.1 hpair.1.2.2).2.mpr hpair.2

end Kept

end Intents

/-! ## A protected command and a protected variable -/

def protectedService (argument secret : String) : Service where
  name := ⟨"web", Identifier.valid_web⟩
  image := some ⟨⟨"web:1", "web", some "1", none⟩, []⟩
  command := some ⟨.exec [.sensitive argument], []⟩
  environment := [⟨⟨⟨"TOKEN", by decide⟩, .literal (.sensitive secret)⟩, []⟩]

def protectedMapping (argument secret : String) : Mapping where
  lens := .permissive
  application := { Application.new ⟨"demo", Identifier.valid_demo⟩ with
    services := [⟨protectedService argument secret, []⟩] }
  quoted := id

theorem protectedMapping_wellFormed (argument secret : String) :
    (protectedMapping argument secret).application.WellFormed :=
  { Application.new_wellFormed ⟨"demo", by decide⟩ with
    services_unique := List.nodup_singleton _
    members_declared := by simp [protectedMapping, Application.new]
    evidence_owned := by simp [protectedMapping, Application.new]
    metadata_owned := by simp [protectedMapping, Application.new]
    services_admitted := by
      intro service hservice
      obtain rfl := List.mem_singleton.mp hservice
      exact {
        acquisition_declared := fun _ h => nomatch h
        build_declared := fun _ h => nomatch h
        rootfs_exclusive := fun h => nomatch h
        deferred_valid := rfl } }

theorem sameText_sensitive (left right : String) : SameText (.sensitive left) (.sensitive right) :=
  ⟨rfl, fun h => nomatch h⟩

theorem protectedMapping_same (argument secret other hidden : String) :
    SameApplication (protectedMapping argument secret).application
      (protectedMapping other hidden).application where
  networks := rfl
  volumes := .nil
  secrets := rfl
  groups := .nil
  services := .cons {
    name := rfl
    runtimeName := .none
    image := rfl
    pullPolicy := .none
    command := .some (.exec (.cons (sameText_sensitive argument other) .nil))
    entrypoint := .none
    user := .none
    group := .none
    workingDirectory := .none
    hostname := .none
    labels := .nil
    environment := .cons ⟨rfl, .literal (sameText_sensitive secret hidden)⟩ .nil
    restartPolicy := rfl
    mounts := .nil
    tmpfs := .none
    networks := .nil
    dependencies := rfl } .nil

end Boxferry.Podman
