import Boxferry.Podman.Import.Resources

/-! # Container settings

The mapping of one container's own settings. Configured values become intent as
they are; reviewed effective settings become intent when they are authorized. -/
namespace Boxferry.Podman.Import
open Engine Model
set_option autoImplicit false

/-! ## Creation evidence -/

/-- Reports evidence that is not observed; malformed evidence may have its own finding. -/
def reportAbsentEvidence {α : Type} (subject : Subject) (field : ObservationField α)
    (malformedIsReported : Bool) (unusable unreviewed : String) : Imported Unit :=
  match field with
  | .absent | .notApplicable => exact subject
  | .malformed => if malformedIsReported then pure () else unsupported subject unusable
  | .unavailable | .versionInapplicable | .unmodelled => unsupported subject unusable
  | .observed _ | .unreviewed => unsupported subject unreviewed

def unsupportedWithOrigin (subject : Subject) (summary : String) (origin : ObservationOrigin) :
    Imported Unit :=
  Reports.report (.unsupportedWithOrigin subject summary origin)

def reportCreationImageHint (subject : Subject) (field : ObservationField AuthoredImageSpellingHint) :
    Imported Unit :=
  let hintSubject := (subject.field "image").field "authored_spelling"
  match field with
  | .observed observation =>
    if observation.origin ≠ .configured then
      unsupportedWithOrigin hintSubject
        "authored image consistency evidence cannot replace configured image intent" observation.origin
    else match observation.value with
      | .matchesConfiguredImage => exact hintSubject
      | .matchesLocalImageId => unsupported hintSubject
          "recorded creation operand matched a host-local image ID, not portable image intent; no automatic promotion exists"
      -- the native finding of a contradiction is reported instead
      | .contradictory => pure ()
      | .unreviewed => unsupported hintSubject "future authored-image hint is not reviewed"
  | field => reportAbsentEvidence hintSubject field false
      "authored image spelling could not be corroborated; no automatic promotion exists"
      "future authored-image evidence state is not reviewed"

/-- A relabel hint is corroborated by a configured relabel of the same kind. -/
def corroborated (mounts : ObservationField (List ContainerMountObservation)) (mountIndex : Nat)
    (expected : ContainerMountSelinuxRelabel) : Bool :=
  (((mounts.observed?.bind fun mounts => mounts.value[mountIndex]?).bind
    fun mount => mount.selinuxRelabel.observed?).any fun typed =>
      typed.origin = .configured && typed.value = expected)

def reportRelabelHint (subject : Subject) (mounts : ObservationField (List ContainerMountObservation))
    (position mountIndex : Nat) (expected : ContainerMountSelinuxRelabel) : Imported Unit :=
  if corroborated mounts mountIndex expected then
    exact (((subject.field "creation_evidence").field "mount_relabels").index position)
  else unsupported (((subject.field "mounts").index mountIndex).field "selinux_relabel")
    "recorded creation relabel hint does not corroborate typed configured mount evidence; no automatic promotion exists"

def reportCreationMountHint (subject : Subject)
    (mounts : ObservationField (List ContainerMountObservation))
    (item : AuthoredMountRelabelHint × Nat) : Imported Unit :=
  match item.1 with
  | .shared mountIndex => reportRelabelHint subject mounts item.2 mountIndex .shared
  | .private mountIndex => reportRelabelHint subject mounts item.2 mountIndex .private
  | .contradictory => pure ()
  | .unreviewed =>
    unsupported (((subject.field "creation_evidence").field "mount_relabels").index item.2)
      "future authored-mount relabel hint is not reviewed"

def reportCreationMountHints (subject : Subject) (evidence : ContainerCreationEvidence)
    (mounts : ObservationField (List ContainerMountObservation)) : Imported Unit :=
  let fieldSubject := (subject.field "creation_evidence").field "mount_relabels"
  match evidence.mountRelabels with
  | .observed observation =>
    if observation.origin ≠ .configured then
      unsupportedWithOrigin fieldSubject
        "creation-command relabel hints are corroborating evidence only" observation.origin
    else observation.value.zipIdx.forM (reportCreationMountHint subject mounts)
  | field => reportAbsentEvidence fieldSubject field false
      "authored mount relabel hints could not be correlated; no automatic promotion exists"
      "future authored-mount evidence state is not reviewed"

def reportCreationEvidence (subject : Subject) (details : ContainerObservation) : Imported Unit :=
  let evidenceSubject := subject.field "creation_evidence"
  match details.creationEvidence with
  | .observed observation =>
    if observation.origin ≠ .configured then
      unsupportedWithOrigin evidenceSubject
        "creation-command projection is corroborating evidence only and cannot become desired state"
        observation.origin
    else do
      exact evidenceSubject
      reportCreationImageHint subject observation.value.image
      reportCreationMountHints subject observation.value details.mounts
  | field => reportAbsentEvidence evidenceSubject field true
      "optional recorded creation evidence was not safely usable; no automatic promotion exists"
      "future creation-evidence state is not reviewed"

/-! ## Secret grants -/

def secretIncomplete (subject : Subject) (summary : String) : Imported Unit :=
  Reports.report (.secretIncomplete subject summary)

def reportSecretGrantField {α : Type} (subject : Subject) (field : ObservationField α) :
    Imported Unit :=
  if field.isObserved then
    secretIncomplete subject
      "secret grant metadata cannot reconstruct authored delivery form or target"
  else reportState field subject

def reportSecretGrant (subject : Subject) (item : ContainerSecretGrantObservation × Nat) :
    Imported Unit := do
  let grantSubject := subject.index item.2
  reportSecretGrantField (grantSubject.field "reference") item.1.reference
  reportSecretGrantField (grantSubject.field "uid") item.1.uid
  reportSecretGrantField (grantSubject.field "gid") item.1.gid
  reportSecretGrantField (grantSubject.field "mode") item.1.mode

def reportSecretGrants (subject : Subject)
    (field : ObservationField (List ContainerSecretGrantObservation)) : Imported Unit :=
  match field with
  | .observed grants => do
    secretIncomplete subject "inspect does not preserve secret delivery form and target"
    grants.value.zipIdx.forM (reportSecretGrant subject)
  | field => reportState field subject

/-! ## Configured settings -/

/-- The configured image, when its reference is well formed. -/
def parseConfiguredImage (fieldSubject : Subject) (field : ObservationField String) :
    Imported (Option (Sourced ImageReference)) := do
  match ← configured field fieldSubject with
  | none => pure none
  | some spelling =>
    match ImageReference.parse spelling with
    | .ok image => pure (some (sourced image))
    | .error error => do
      modelError fieldSubject error
      pure none

def localImageReason (configuredImageRetained : Bool) : String :=
  if configuredImageRetained then
    "Podman local image ID is host-local resolution evidence; Image= was copied unchanged from Podman inspect $.ImageName"
  else
    "Podman local image ID is host-local resolution evidence; no portable configured image reference was available"

def mapConfiguredImage (subject : Subject) (details : ContainerObservation) (service : Service) :
    Imported Service := do
  let image ← parseConfiguredImage (subject.field "image") details.configuredImage
  observationOnly (subject.field "local_image_id") details.localImageId
    (localImageReason image.isSome)
  pure { service with image := image }

def commandOf (arguments : List String) : Command :=
  if arguments.isEmpty then .empty else .exec (arguments.map ProtectedString.plain)

def entrypointOf (arguments : List String) : Entrypoint :=
  if arguments.isEmpty then .empty else .exec (arguments.map ProtectedString.plain)

def setUser (service : Service) (user : String) : Service :=
  { service with user := some (sourced (.plain user)) }

/-- A user spelling is a user with a group when both sides of its only colon are given. -/
def applyUser (service : Service) (spelling : String) : Service :=
  if spelling.isEmpty then service
  else match splitOnce ':' spelling with
    | some (user, group) =>
      if !user.isEmpty && !group.isEmpty && !containsChar group ':' then
        { setUser service user with group := some (sourced (.plain group)) }
      else setUser service spelling
    | none => setUser service spelling

/-- The hostname that Podman derives from a container id. -/
def runtimeHostname (nativeId : String) : String :=
  ((takeBytes 12 nativeId.toList).map String.ofList).getD nativeId

/-- The container was observed in the UTS namespace of its host. -/
def hostUtsNamespace (details : ContainerObservation) : Bool :=
  (details.namespaces.observed?.bind fun namespaces => namespaces.value.uts.observed?).any
    fun uts => uts.value = .host

def hostnameReason (details : ContainerObservation) : String :=
  if hostUtsNamespace details then
    "a hostname observed with the host UTS namespace is not portable authored intent"
  else "Podman's ID-derived hostname is runtime-assigned evidence"

def rejectsHostname (nativeId : String) (details : ContainerObservation) (hostname : String) : Bool :=
  hostname = runtimeHostname nativeId || hostUtsNamespace details

def mapConfiguredSettings (subject : Subject) (nativeId : String) (details : ContainerObservation)
    (service : Service) : Imported Service := do
  let command ← configured details.command (subject.field "command")
  let entrypoint ← configured details.entrypoint (subject.field "entrypoint")
  let user ← configured details.user (subject.field "user")
  let workdir ← configured details.workingDirectory (subject.field "working_directory")
  let hostname ← configuredUnless details.hostname (subject.field "hostname")
    (rejectsHostname nativeId details) (hostnameReason details)
  let service := { service with
    command := command.map fun arguments => sourced (commandOf arguments)
    entrypoint := entrypoint.map fun arguments => sourced (entrypointOf arguments)
    workingDirectory := workdir.map fun path => sourced (.plain path)
    hostname := hostname.map fun name => sourced (.plain name) }
  pure (match user with
    | some spelling => applyUser service spelling
    | none => service)

def mapContainerLabels (subject : Subject) (field : ObservationField (List (String × String)))
    (service : Service) : Imported Service := do
  let labels ← Mapping.mapLabels subject field
  pure { service with labels := service.labels ++ labels }

namespace Mapping
variable (m : Mapping)

def mapDependency (subject : Subject) (service : Service) (reference : String) : Imported Service :=
  match m.resolveName .container reference with
  | some name =>
    pure { service with dependencies := service.dependencies ++ [sourced ⟨name, none, none, none⟩] }
  | none => do
    identityConflict subject "container dependency does not resolve uniquely"
    pure service

def mapDependencies (subject : Subject) (details : ContainerObservation) (service : Service) :
    Imported Service := do
  match ← configured details.nativeDependencies (subject.field "dependencies") with
  | some references => references.foldlM (m.mapDependency (subject.field "dependencies")) service
  | none => pure service

/-! ## Environment -/

/-- The variable of an entry whose value is authorized or withheld. -/
def mapEnvironmentEntry (fieldSubject : Subject) (promoted : Bool) (service : Service)
    (entry : ProtectedEnvironmentEntry) : Imported Service := do
  let entrySubject := fieldSubject.entry entry.name
  match Identifier.new entry.name, entry.value with
  | .error _, _ => do
    unsupported entrySubject "environment name cannot be represented in the neutral model"
    pure service
  | .ok name, .authorizedOpaque value =>
    pure { service with environment := service.environment ++
      [portableSourced ⟨name, .literal (.sensitive value)⟩ promoted] }
  | .ok name, .redacted => do
    unsupported entrySubject
      "environment value was withheld; supply this named value on the target before use"
    pure { service with environment := service.environment ++
      [portableSourced ⟨name, .required⟩ promoted] }
  | .ok _, .unreviewed => do
    unsupported entrySubject "future protected environment value is not reviewed"
    pure service

/-- An entry whose value the importer retains. -/
def retainsEntry (entry : ProtectedEnvironmentEntry) : Bool :=
  (Identifier.new entry.name).toOption.isSome &&
    match entry.value with
    | .authorizedOpaque _ => true
    | _ => false

def mapPortableEnvironment (subject : Subject)
    (field : ObservationField (List ProtectedEnvironmentEntry)) (service : Service) :
    Imported Service := do
  let fieldSubject := subject.field "environment"
  match ← portableSetting field fieldSubject m.authorizedPortable
      "protected environment values require caller authorization" with
  | none => pure service
  | some (entries, promoted) => do
    let service ← entries.foldlM (mapEnvironmentEntry fieldSubject promoted) service
    Reports.onlyIf (promoted && entries.any retainsEntry) (approximateWithFlag fieldSubject
      "effective environment values were explicitly promoted as protected portable intent"
      portableEffectiveSettingsFlag)
    pure service

/-! ## Restart policy -/

/-- `RestartPolicy::on_failure` of a native count, which is no limit when it is zero. -/
def retryLimit (count : Option UInt64) : Option {retries : UInt64 // retries ≠ 0} :=
  count.bind fun count => if h : count ≠ 0 then some ⟨count, h⟩ else none

def restartPolicyOf (name : NativeRestartPolicyName) (retryCount : Option UInt64) :
    Option RestartPolicy :=
  match name with
  | .no => some .never
  | .always => some .always
  | .onFailure => some (.onFailure (retryLimit retryCount))
  | .unlessStopped => some .unlessStopped
  | .unreviewed => none

def reportPromotedRestart (fieldSubject : Subject) (name : NativeRestartPolicyName)
    (retryCount : Option UInt64) : Imported Unit :=
  if name = .onFailure ∧ retryCount = none then
    approximateWithFlag fieldSubject
      "effective on-failure retry limit is not known to be complete" portableEffectiveSettingsFlag
  else reconstructed fieldSubject
    "effective restart behavior reconstructed from reviewed native state"

def mapPortableRestartPolicy (subject : Subject)
    (field : ObservationField NativeRestartPolicyObservation) (service : Service) :
    Imported Service := do
  let fieldSubject := subject.field "restart_policy"
  match ← portableSetting field fieldSubject m.authorizedPortable
      "effective restart policy needs explicit promotion policy" with
  | none => pure service
  | some (restart, promoted) =>
    match ← portableSetting restart.name (fieldSubject.field "name") m.authorizedPortable
        "effective restart policy name needs explicit promotion policy" with
    | none => pure service
    | some (name, _) => do
      let retryCount ← portableSetting restart.maximumRetryCount
        (fieldSubject.field "maximum_retry_count") m.authorizedPortable
        "effective restart retry count needs explicit promotion policy"
      let retryCount := retryCount.map Prod.fst
      match restartPolicyOf name retryCount with
      | none => do
        unsupported fieldSubject "native restart policy is not reviewed for neutral promotion"
        pure service
      | some policy => do
        Reports.onlyIf promoted (reportPromotedRestart fieldSubject name retryCount)
        pure { service with restartPolicy := some (portableSourced policy promoted) }

/-! ## Health check -/

/-- A health check in the making, and whether anything was retained for it. -/
structure HealthState where
  healthcheck : Healthcheck := {}
  retained : Bool := false

def mapHealthCommand (fieldSubject : Subject) (field : ObservationField NativeHealthCommand)
    (promoted : Bool) (state : HealthState) : Imported HealthState := do
  let commandSubject := fieldSubject.field "command"
  match ← portableSetting field commandSubject m.authorizedPortable
      "effective health command needs explicit promotion policy" with
  | none => pure state
  | some (.disabled, _) => pure ⟨{ state.healthcheck with
      disabled := some (portableSourced true promoted) }, true⟩
  | some (.shell arguments, _) => pure ⟨{ state.healthcheck with
      command := some (portableSourced (.shell (.sensitive (" ".intercalate arguments))) promoted) },
      true⟩
  | some (.exec arguments, _) => pure ⟨{ state.healthcheck with
      command := some (portableSourced (.exec (arguments.map ProtectedString.sensitive)) promoted) },
      true⟩
  | some (.unreviewed, _) => do
    unsupported commandSubject "native health command is not reviewed for neutral promotion"
    pure state

def mapHealthDuration (field : ObservationField Int) (subject : Subject) (promoted : Bool)
    (set : Healthcheck → Sourced HealthcheckDuration → Healthcheck) (state : HealthState) :
    Imported HealthState := do
  match ← portableSetting field subject m.authorizedPortable
      "effective health duration needs explicit promotion policy" with
  | none => pure state
  | some (value, _) =>
    if value < 0 then do
      unsupported subject "negative native health duration cannot become portable intent"
      pure state
    else match HealthcheckDuration.new (toString value ++ "ns") with
      | .ok duration => pure ⟨set state.healthcheck (portableSourced duration promoted), true⟩
      | .error error => do
        modelError subject error
        pure state

def mapHealthRetries (fieldSubject : Subject) (field : ObservationField Int) (promoted : Bool)
    (state : HealthState) : Imported HealthState := do
  let retriesSubject := fieldSubject.field "retries"
  match ← portableSetting field retriesSubject m.authorizedPortable
      "effective health retries need explicit promotion policy" with
  | none => pure state
  | some (retries, _) =>
    match HealthcheckRetries.new (toString retries) with
    | .ok value => pure ⟨{ state.healthcheck with
        retries := some (portableSourced value promoted) }, true⟩
    | .error error => do
      modelError retriesSubject error
      pure state

/-- The settings of a health check, in the order they are read. -/
def mapHealthSettings (fieldSubject : Subject) (native : NativeHealthCheckObservation)
    (promoted : Bool) : Imported HealthState := do
  let state ← m.mapHealthCommand fieldSubject native.command promoted {}
  let state ← m.mapHealthDuration native.interval (fieldSubject.field "interval") promoted
    (fun healthcheck value => { healthcheck with interval := some value }) state
  let state ← m.mapHealthDuration native.timeout (fieldSubject.field "timeout") promoted
    (fun healthcheck value => { healthcheck with timeout := some value }) state
  let state ← m.mapHealthDuration native.startPeriod (fieldSubject.field "start_period") promoted
    (fun healthcheck value => { healthcheck with startPeriod := some value }) state
  m.mapHealthRetries fieldSubject native.retries promoted state

/-- The command of the health check is retained as a shell text. -/
def retainsShell (healthcheck : Healthcheck) : Bool :=
  match healthcheck.command.map Sourced.value with
  | some (.shell _) => true
  | _ => false

def recordHealthcheckDecision (subject : Subject) (shellCommand : Bool) (childEvents : List Event) :
    Imported Unit :=
  if childEvents.any fun event => event.decisions.any fun decision => decision.2 ≠ .exact then
    Reports.report (.partiallyRetainedHealthcheck subject)
  else if shellCommand then
    approximateWithFlag subject
      "effective shell health command was normalized and needs target review"
      portableEffectiveSettingsFlag
  else reconstructed subject
    "effective normal health behavior reconstructed from reviewed native state"

def mapPortableHealthcheck (subject : Subject) (field : ObservationField NativeHealthCheckObservation)
    (service : Service) : Imported Service := do
  let fieldSubject := subject.field "healthcheck"
  match ← portableSetting field fieldSubject m.authorizedPortable
      "effective health configuration needs explicit promotion policy" with
  | none => pure service
  | some (native, promoted) => do
    let settings := m.mapHealthSettings fieldSubject native promoted
    let state ← settings
    if state.retained then do
      Reports.onlyIf promoted
        (recordHealthcheckDecision fieldSubject (retainsShell state.healthcheck) settings.log)
      pure { service with healthcheck := some (portableSourced state.healthcheck promoted) }
    else pure service

end Mapping
end Boxferry.Podman.Import
