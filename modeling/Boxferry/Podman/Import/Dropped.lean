import Boxferry.Podman.Import.Evidence

/-! # What a step reports as lost

Whether the report of a step has an outcome other than an exact one for a subject
or a part of it, step by step. -/
namespace Boxferry.Podman.Import
open Engine Model Mapping
set_option autoImplicit false

namespace ObservationField
variable {α : Type}

/-- The field is not observed, and not known to be absent. -/
def incomplete : ObservationField α → Bool
  | .observed _ | .absent | .notApplicable => false
  | _ => true

def origin? (field : ObservationField α) : Option ObservationOrigin :=
  field.observed?.map Observed.origin

/-- The value is evidence of the runtime that never becomes intent. -/
def quiet (field : ObservationField α) : Bool :=
  field.origin? = some .runtimeAssigned || field.origin? = some .localResolution

/-- A report of the state of a field is not exact. -/
def stateLoses (field : ObservationField α) : Bool :=
  field.incomplete || field.origin? = some .effective || field.origin? = some .unreviewed

/-- A report of a field that never becomes intent is not exact. -/
def observationLoses (field : ObservationField α) : Bool :=
  field.stateLoses || field.origin? = some .configured

/-- A field that is stopped at its gate is reported as lost. -/
def gateLoses (field : ObservationField α) (authorized : Bool) : Bool :=
  field.incomplete || field.origin? = some .unreviewed ||
    (field.origin? = some .effective && !authorized)

end ObservationField

/-- Some outcome of the step other than an exact one is about the subject or a part of it. -/
def Loss {α : Type} (subject : Subject) (steps : Imported α) : Prop :=
  ∃ event ∈ steps.log, event.Loses subject

section Loss
variable {α β : Type} {whole subject : Subject} {summary : String}

@[simp] theorem loss_pure {result : α} : ¬ Loss whole (pure result : Imported α) := by
  rintro ⟨event, hevent, -⟩
  cases hevent

@[simp] theorem loss_bind {first : Imported α} {next : α → Imported β} :
    Loss whole (first >>= next) ↔ Loss whole first ∨ Loss whole (next first.value) := by
  unfold Loss
  simp only [Reports.mem_log_bind, or_and_right, exists_or]

theorem loss_report {event : Event} {kind : ConversionKind}
    (h : event.decisions = [(subject, kind)]) :
    Loss whole (Reports.report event : Imported Unit) ↔ whole.Below subject ∧ kind ≠ .exact := by
  unfold Loss Event.Loses
  constructor
  · rintro ⟨reported, hreported, decision, hdecision, hbelow, hkind⟩
    rw [List.mem_singleton.mp hreported, h, List.mem_singleton] at hdecision
    rw [hdecision] at hbelow hkind
    exact ⟨hbelow, hkind⟩
  · rintro ⟨hbelow, hkind⟩
    exact ⟨event, List.mem_singleton.mpr rfl, (subject, kind), by rw [h]; exact List.mem_singleton.mpr rfl,
      hbelow, hkind⟩

@[simp] theorem loss_exact : ¬ Loss whole (exact subject) := by
  unfold exact
  rw [loss_report rfl]
  simp

@[simp] theorem loss_evidenceOnly : ¬ Loss whole (evidenceOnly subject) := loss_exact

@[simp] theorem loss_reconstructed : ¬ Loss whole (reconstructed subject summary) := by
  unfold reconstructed
  rw [loss_report rfl]
  simp

@[simp] theorem loss_unsupported :
    Loss whole (unsupported subject summary) ↔ whole.Below subject := by
  unfold unsupported
  rw [loss_report rfl]
  simp

@[simp] theorem loss_unsupportedWithOrigin {origin : ObservationOrigin} :
    Loss whole (Reports.report (.unsupportedWithOrigin subject summary origin) : Imported Unit) ↔
      whole.Below subject := by
  rw [loss_report rfl]
  simp

@[simp] theorem loss_invalid : Loss whole (invalid subject summary) ↔ whole.Below subject := by
  unfold invalid
  rw [loss_report rfl]
  simp

@[simp] theorem loss_identityConflict :
    Loss whole (identityConflict subject summary) ↔ whole.Below subject := by
  unfold identityConflict
  rw [loss_report rfl]
  simp

@[simp] theorem loss_approximateWithFlag {flag : String} :
    Loss whole (approximateWithFlag subject summary flag) ↔ whole.Below subject := by
  unfold approximateWithFlag
  rw [loss_report rfl]
  simp

@[simp] theorem loss_promotionRequired :
    Loss whole (promotionRequired subject summary) ↔ whole.Below subject := by
  unfold promotionRequired
  rw [loss_report rfl]
  simp

@[simp] theorem loss_promotionRequiredWithFlag {flag : String} :
    Loss whole (promotionRequiredWithFlag subject summary flag) ↔ whole.Below subject := by
  unfold promotionRequiredWithFlag
  rw [loss_report rfl]
  simp

@[simp] theorem loss_modelError {error : ModelError} :
    Loss whole (modelError subject error) ↔ whole.Below subject := by
  unfold modelError
  split <;> simp

@[simp] theorem loss_onlyIf {condition : Bool} {steps : Imported PUnit} :
    Loss whole (Reports.onlyIf condition steps) ↔ condition = true ∧ Loss whole steps := by
  cases condition <;> simp

@[simp] theorem loss_forM {ι : Type} {items : List ι} {step : ι → Imported PUnit} :
    Loss whole (forM items step) ↔ ∃ item ∈ items, Loss whole (step item) := by
  unfold Loss
  change (∃ event ∈ (items.forM step).log, _) ↔ _
  rw [Reports.log_forM]
  constructor
  · rintro ⟨event, hevent, hloses⟩
    obtain ⟨item, hitem, hevent⟩ := List.mem_flatMap.mp hevent
    exact ⟨item, hitem, event, hevent, hloses⟩
  · rintro ⟨item, hitem, event, hevent, hloses⟩
    exact ⟨event, List.mem_flatMap.mpr ⟨item, hitem, hevent⟩, hloses⟩

/-- A row that is lost from every state is lost by the loop. -/
theorem loss_foldlM {ι : Type} {items : List ι} {item : ι} {step : α → ι → Imported α} {start : α}
    (hitem : item ∈ items) (h : ∀ state, Loss whole (step state item)) :
    Loss whole (items.foldlM step start) := Reports.exists_mem_log_foldlM hitem h start

/-- What a loop loses is lost by one of its rows. -/
theorem exists_of_loss_foldlM {ι : Type} {items : List ι} {step : α → ι → Imported α} {start : α}
    (h : Loss whole (items.foldlM step start)) : ∃ item ∈ items, ∃ state, Loss whole (step state item) := by
  obtain ⟨event, hevent, hloses⟩ := h
  obtain ⟨item, hitem, state, hevent⟩ := Reports.of_mem_log_foldlM hevent
  exact ⟨item, hitem, state, event, hevent, hloses⟩

@[simp] theorem loss_reportState {field : ObservationField α} :
    Loss whole (reportState field subject) ↔ whole.Below subject ∧ field.stateLoses = true := by
  unfold reportState reportOrigin
  cases field with
  | observed observation =>
    obtain ⟨origin, value⟩ := observation
    cases origin <;> simp [ObservationField.stateLoses, ObservationField.incomplete,
      ObservationField.origin?]
  | _ => simp [ObservationField.stateLoses, ObservationField.incomplete, ObservationField.origin?,
      ObservationField.observed?]

@[simp] theorem loss_observationOnly {field : ObservationField α} :
    Loss whole (observationOnly subject field summary) ↔
      whole.Below subject ∧ field.observationLoses = true := by
  unfold observationOnly
  cases field with
  | observed observation =>
    obtain ⟨origin, value⟩ := observation
    cases origin <;> simp [ObservationField.observationLoses, ObservationField.stateLoses,
      ObservationField.incomplete, ObservationField.origin?]
  | _ => simp [ObservationField.observationLoses, ObservationField.origin?,
      ObservationField.observed?]

@[simp] theorem loss_configured {field : ObservationField α} :
    Loss whole (configured field subject) ↔ whole.Below subject ∧ field.stateLoses = true := by
  unfold configured
  simp

@[simp] theorem loss_portableSetting {field : ObservationField α} {authorized : Bool} :
    Loss whole (portableSetting field subject authorized summary) ↔
      whole.Below subject ∧ field.gateLoses authorized = true := by
  unfold portableSetting
  cases field with
  | observed observation =>
    obtain ⟨origin, value⟩ := observation
    cases origin <;> cases authorized <;> simp [ObservationField.gateLoses,
      ObservationField.incomplete, ObservationField.origin?]
  | _ => simp [ObservationField.gateLoses, ObservationField.stateLoses, ObservationField.incomplete,
      ObservationField.origin?, ObservationField.observed?]

end Loss

/-! ## Fields that pass -/

section Fields
variable {α : Type} {field : ObservationField α} {authorized : Bool}

theorem portable?_isSome : (field.portable? authorized).isSome = true ↔
    field.origin? = some .configured ∨ (field.origin? = some .effective ∧ authorized = true) := by
  unfold ObservationField.portable? ObservationField.origin?
  cases field.observed? with
  | none => simp
  | some observation =>
    obtain ⟨origin, value⟩ := observation
    cases origin <;> cases authorized <;> simp

/-- A field that passes its gate is not reported as lost there. -/
theorem gateLoses_of_portable (h : (field.portable? authorized).isSome = true) :
    field.gateLoses authorized = false := by
  rw [portable?_isSome] at h
  unfold ObservationField.gateLoses ObservationField.incomplete
  unfold ObservationField.origin? at *
  cases field with
  | observed observation =>
    obtain ⟨origin, value⟩ := observation
    cases origin <;> simp_all
  | _ => simp [ObservationField.observed?] at h

end Fields

/-! ## Evidence that an import drops

Every part of a container that may become intent is carried by its service or
reported as lost, except where a gate around the part, or a gate of a sibling
field, stops it with nothing but exact outcomes. -/

namespace Mapping
variable (m : Mapping) {container : ServiceContainer}

theorem mayPass_eq_some {α : Type} {field : ObservationField α} {value : α} :
    m.mayPass field = some value ↔ ∃ promoted, field.portable? m.authorizedPortable = some (value, promoted) := by
  unfold mayPass
  rw [Option.map_eq_some_iff]
  constructor
  · rintro ⟨⟨_, promoted⟩, hpassed, rfl⟩
    exact ⟨promoted, hpassed⟩
  · rintro ⟨promoted, hpassed⟩
    exact ⟨(value, promoted), hpassed, rfl⟩

theorem value_of_portable {α : Type} {field : ObservationField α} {observation : Observed α}
    {authorized promoted : Bool} {value : α} (h : field.observed? = some observation)
    (hpassed : field.portable? authorized = some (value, promoted)) : value = observation.value := by
  unfold ObservationField.portable? at hpassed
  rw [h, Option.bind_some] at hpassed
  split at hpassed
  · cases hpassed
    rfl
  · split at hpassed
    · cases hpassed
      rfl
    · cases hpassed

/-- An observed value that stops at its gate is lost there, unless it is evidence of the runtime. -/
theorem gateLoses_of_stopped {α : Type} {field : ObservationField α} {observation : Observed α}
    {authorized : Bool} (h : field.observed? = some observation)
    (hstopped : field.portable? authorized = none) (hquiet : field.quiet = false) :
    field.gateLoses authorized = true := by
  rw [ObservationField.observed?_eq_some] at h
  subst h
  obtain ⟨origin, value⟩ := observation
  unfold ObservationField.portable? at hstopped
  unfold ObservationField.quiet at hquiet
  unfold ObservationField.gateLoses
  cases origin <;> cases authorized <;> simp_all [ObservationField.origin?]

theorem policyName_restartPolicyOf {name : NativeRestartPolicyName} {count : Option UInt64}
    {policy : RestartPolicy} (h : restartPolicyOf name count = some policy) :
    policyName policy = name := by
  cases name <;> cases h <;> rfl

theorem duration_asStr {text : String} {duration : HealthcheckDuration}
    (h : (HealthcheckDuration.new text).toOption = some duration) : duration.asStr = text := by
  unfold HealthcheckDuration.new at h
  split at h
  · cases h
    rfl
  · cases h

theorem retries_asStr {text : String} {retries : HealthcheckRetries}
    (h : HealthcheckRetries.new text = .ok retries) : retries.asStr = text := by
  unfold HealthcheckRetries.new at h
  split at h
  · cases h
    rfl
  · cases h

/-! ## Configured settings -/

theorem command_kept (h : m.Eligible container.details .command) :
    m.Carries container.details (m.service container).value .command := by
  obtain ⟨arguments, harguments⟩ := Option.isSome_iff_exists.mp h
  refine ⟨arguments, harguments, ?_⟩
  unfold service
  rw [value_sourced, serviceOf_eq, harguments]
  rfl

theorem entrypoint_kept (h : m.Eligible container.details .entrypoint) :
    m.Carries container.details (m.service container).value .entrypoint := by
  obtain ⟨arguments, harguments⟩ := Option.isSome_iff_exists.mp h
  refine ⟨arguments, harguments, ?_⟩
  unfold service
  rw [value_sourced, serviceOf_eq, harguments]
  rfl

theorem workingDirectory_kept (h : m.Eligible container.details .workingDirectory) :
    m.Carries container.details (m.service container).value .workingDirectory := by
  obtain ⟨path, hpath⟩ := Option.isSome_iff_exists.mp h
  refine ⟨path, hpath, ?_⟩
  unfold service
  rw [value_sourced, serviceOf_eq, hpath]
  rfl

theorem user_kept (h : m.Eligible container.details .user) :
    m.Carries container.details (m.service container).value .user := by
  obtain ⟨spelling, hspelling, -⟩ := h
  refine ⟨spelling, hspelling, ?_⟩
  unfold service
  rw [value_sourced, serviceOf_eq]
  unfold keptUser keptUserGroup
  simp only [hspelling, Option.bind_some, Option.map_map]
  exact ⟨rfl, rfl⟩

section Settings
variable (hcontainer : container ∈ m.serviceContainers)
include hcontainer

theorem hostname_kept (h : m.Eligible container.details .hostname) :
    m.Carries container.details (m.service container).value .hostname ∨
      m.Accounted container .hostname := by
  obtain ⟨hostname, hhostname⟩ := Option.isSome_iff_exists.mp h
  cases hrejected : rejectsHostname container.identity.id container.details hostname with
  | false =>
    refine Or.inl ⟨hostname, hhostname, ?_⟩
    unfold service
    rw [value_sourced, serviceOf_eq]
    unfold keptHostname
    simp [hhostname, Option.filter_some, hrejected]
  | true =>
    refine Or.inr (m.accounted_of_step hcontainer (reaches_settings m _ _ _ _) fun service => ?_)
    show Loss _ _
    unfold mapConfiguredSettings
    simp only [loss_bind]
    refine Or.inr (Or.inr (Or.inr (Or.inr (Or.inl ?_))))
    unfold ObservationField.configured? at hhostname
    cases hfield : container.details.hostname with
    | observed observation =>
      rw [hfield] at hhostname
      by_cases horigin : observation.origin = .configured
      · simp only [ObservationField.observed?_observed, Option.bind_some, horigin, if_true,
          Option.some.injEq] at hhostname
        unfold configuredUnless
        simp [horigin, hhostname, hrejected, subjectOf]
      · simp [horigin] at hhostname
    | _ => simp [hfield, ObservationField.observed?] at hhostname

theorem label_kept {name value : String} (h : m.Eligible container.details (.label name value)) :
    m.Carries container.details (m.service container).value (.label name value) ∨
      m.Accounted container (.label name value) := by
  obtain ⟨labels, hlabels, hmem, hlifecycle⟩ := h
  cases hname : Identifier.new name with
  | ok key =>
    refine Or.inl ⟨sourced ⟨key, .plain value⟩, ?_, Identifier.new_asStr hname, rfl⟩
    unfold service
    rw [value_sourced, serviceOf_eq]
    show _ ∈ keptLabels container.details.labels
    unfold keptLabels
    rw [hlabels, Option.getD_some, List.mem_flatMap]
    refine ⟨(name, value), hmem, ?_⟩
    simp [keptLabel, hlifecycle, hname, Except.toOption]
  | error error =>
    refine Or.inr (m.accounted_of_step hcontainer (reaches_labels m _ _ _ _) fun service => ?_)
    show Loss _ _
    unfold mapContainerLabels mapLabels
    simp only [loss_bind, value_configured, hlabels]
    refine Or.inl (Or.inr (loss_foldlM hmem fun state => ?_))
    unfold mapLabel
    simp [hlifecycle, hname, subjectOf]

theorem dependency_kept {reference : String} (h : m.Eligible container.details (.dependency reference)) :
    m.Carries container.details (m.service container).value (.dependency reference) ∨
      m.Accounted container (.dependency reference) := by
  obtain ⟨references, hreferences, hmem⟩ := h
  cases hname : m.resolveName .container reference with
  | some name =>
    refine Or.inl ⟨name, hname, sourced ⟨name, none, none, none⟩, ?_, rfl⟩
    unfold service
    rw [value_sourced, serviceOf_eq]
    show _ ∈ m.keptDependencies container.details
    unfold keptDependencies
    rw [hreferences, Option.getD_some, List.mem_filterMap]
    exact ⟨reference, hmem, by simp [keptDependency, hname]⟩
  | none =>
    refine Or.inr (m.accounted_of_step hcontainer (reaches_dependencies m _ _ _ _) fun service => ?_)
    show Loss _ _
    unfold mapDependencies
    simp only [loss_bind, value_configured, hreferences]
    refine Or.inr (loss_foldlM hmem fun state => ?_)
    unfold mapDependency
    simp [hname, subjectOf]

theorem environmentEntry_kept {entry : ProtectedEnvironmentEntry}
    (h : m.Eligible container.details (.environmentEntry entry)) :
    m.Carries container.details (m.service container).value (.environmentEntry entry) ∨
      m.Accounted container (.environmentEntry entry) := by
  obtain ⟨entries, hpasses, hmem⟩ := h
  obtain ⟨promoted, hpassed⟩ := m.mayPass_eq_some.mp hpasses
  have hlost (hentry : ∀ state, Loss (m.subjectOf container.identity container.details
      (.environmentEntry entry)) (mapEnvironmentEntry ((Subject.ofResource
        container.identity).field "environment") promoted state entry)) :
      m.Accounted container (.environmentEntry entry) := by
    refine m.accounted_of_step hcontainer (reaches_environment m _ _ _ _) fun service => ?_
    show Loss _ _
    unfold mapPortableEnvironment
    simp only [loss_bind, value_portableSetting, hpassed]
    exact Or.inr (Or.inl (loss_foldlM hmem hentry))
  cases hname : Identifier.new entry.name with
  | error error =>
    refine Or.inr (hlost fun state => ?_)
    unfold mapEnvironmentEntry
    simp [hname, subjectOf]
  | ok name =>
    cases hvalue : entry.value with
    | authorizedOpaque text =>
      refine Or.inl ⟨portableSourced ⟨name, .literal (.sensitive text)⟩ promoted, ?_, ?_, text, hvalue, ?_⟩
      · unfold service
        rw [value_sourced, serviceOf_eq]
        show _ ∈ m.keptEnvironment container.details.environment
        unfold keptEnvironment
        rw [hpassed]
        exact List.mem_filterMap.mpr ⟨entry, hmem, by simp [keptVariable, hname, hvalue, Except.toOption]⟩
      · rw [value_portableSourced]
        exact Identifier.new_asStr hname
      · rw [value_portableSourced]
    | redacted =>
      refine Or.inr (hlost fun state => ?_)
      unfold mapEnvironmentEntry
      simp [hname, hvalue, subjectOf]
    | unreviewed =>
      refine Or.inr (hlost fun state => ?_)
      unfold mapEnvironmentEntry
      simp [hname, hvalue, subjectOf]

/-! ## Restart policy -/

theorem restartPolicy_kept (h : m.Eligible container.details .restartPolicy)
    (hquiet : container.details.restartPolicy.quiet = false) :
    m.Carries container.details (m.service container).value .restartPolicy ∨
      m.Accounted container .restartPolicy := by
  obtain ⟨restart, hrestart, hname⟩ := h
  obtain ⟨name, hname⟩ := Option.isSome_iff_exists.mp hname
  obtain ⟨flag, hnamed⟩ := m.mayPass_eq_some.mp hname
  have hlost (hloses : ∀ service, Loss ((Subject.ofResource container.identity).field "restart_policy")
      (m.mapPortableRestartPolicy (Subject.ofResource container.identity)
        container.details.restartPolicy service)) : m.Accounted container .restartPolicy :=
    m.accounted_of_step hcontainer (reaches_restartPolicy m _ _ _ _) hloses
  cases hpassed : container.details.restartPolicy.portable? m.authorizedPortable with
  | none =>
    refine Or.inr (hlost fun service => ?_)
    unfold mapPortableRestartPolicy
    simp only [loss_bind, loss_portableSetting, Subject.below_refl, true_and]
    exact Or.inl (gateLoses_of_stopped hrestart hpassed hquiet)
  | some passed =>
    obtain ⟨value, promoted⟩ := passed
    have hvalue : value = restart.value := value_of_portable hrestart hpassed
    subst hvalue
    cases hpolicy : restartPolicyOf name
        ((restart.value.maximumRetryCount.portable? m.authorizedPortable).map Prod.fst) with
    | none =>
      refine Or.inr (hlost fun service => ?_)
      unfold mapPortableRestartPolicy
      simp [hpassed, hnamed, hpolicy]
    | some policy =>
      refine Or.inl ⟨restart, name, hrestart, hname, ?_⟩
      unfold service
      rw [value_sourced, serviceOf_eq]
      unfold keptRestartPolicy
      simp only [hpassed, hnamed, hpolicy, Option.bind_some, Option.map_some, value_portableSourced]
      exact congrArg some (policyName_restartPolicyOf hpolicy)

omit hcontainer in
theorem retryLimit_kept (h : m.Eligible container.details .retryLimit)
    (hpolicy : ∃ restart, m.mayPass container.details.restartPolicy = some restart ∧
      m.mayPass restart.name = some .onFailure) :
    m.Carries container.details (m.service container).value .retryLimit := by
  obtain ⟨restart, count, hrestart, hcount, -⟩ := h
  obtain ⟨value, hpassed, hname⟩ := hpolicy
  obtain ⟨promoted, hpassed⟩ := m.mayPass_eq_some.mp hpassed
  obtain ⟨flag, hnamed⟩ := m.mayPass_eq_some.mp hname
  have hvalue : value = restart.value := value_of_portable hrestart hpassed
  subst hvalue
  refine ⟨restart, count, hrestart, hcount, ?_⟩
  unfold mayPass at hcount
  unfold service
  rw [value_sourced, serviceOf_eq]
  unfold keptRestartPolicy
  simp only [hpassed, hnamed, hcount, Option.bind_some, Option.map_some, value_portableSourced,
    restartPolicyOf]

/-! ## Health check -/

omit hcontainer in
theorem kept_withHealthCommand (setting : HealthSetting) (field : ObservationField NativeHealthCommand)
    (promoted : Bool) : setting.kept (m.withHealthCommand field promoted {}).healthcheck = none := by
  unfold withHealthCommand
  split <;> cases setting <;> rfl

omit hcontainer in
/-- Each duration of the health check is the kept duration of its own field. -/
theorem kept_healthSettings (setting : HealthSetting) (native : NativeHealthCheckObservation)
    (promoted : Bool) : setting.kept (m.healthSettings native promoted).healthcheck =
      (m.keptDuration (setting.observed native)).map (portableSourced · promoted) := by
  have hcommand := m.kept_withHealthCommand setting native.command promoted
  unfold healthSettings withHealthRetries withHealthDuration
  generalize m.withHealthCommand native.command promoted {} = state at hcommand ⊢
  cases m.keptRetries native.retries <;> cases setting <;>
    cases hinterval : m.keptDuration native.interval <;>
    cases htimeout : m.keptDuration native.timeout <;>
    cases hstart : m.keptDuration native.startPeriod <;>
    simp_all [HealthSetting.kept, HealthSetting.observed]

omit hcontainer in
theorem command_healthSettings (native : NativeHealthCheckObservation) (promoted : Bool) :
    (m.healthSettings native promoted).healthcheck.command =
        (m.withHealthCommand native.command promoted {}).healthcheck.command ∧
      (m.healthSettings native promoted).healthcheck.disabled =
        (m.withHealthCommand native.command promoted {}).healthcheck.disabled := by
  unfold healthSettings withHealthRetries withHealthDuration
  cases m.keptRetries native.retries <;> cases m.keptDuration native.interval <;>
    cases m.keptDuration native.timeout <;> cases m.keptDuration native.startPeriod <;>
    exact ⟨rfl, rfl⟩

omit hcontainer in
theorem retries_healthSettings {native : NativeHealthCheckObservation} {promoted : Bool}
    {retries : HealthcheckRetries} (h : m.keptRetries native.retries = some retries) :
    (m.healthSettings native promoted).healthcheck.retries = some (portableSourced retries promoted) := by
  unfold healthSettings withHealthRetries
  rw [h]

omit hcontainer in
/-- A health check with a kept setting is retained. -/
theorem retained_healthSettings (native : NativeHealthCheckObservation) (promoted : Bool) :
    (m.healthSettings native promoted).retained =
      ((m.withHealthCommand native.command promoted {}).retained ||
        (m.keptDuration native.interval).isSome || (m.keptDuration native.timeout).isSome ||
        (m.keptDuration native.startPeriod).isSome || (m.keptRetries native.retries).isSome) := by
  unfold healthSettings withHealthRetries withHealthDuration
  cases m.keptRetries native.retries <;> cases m.keptDuration native.interval <;>
    cases m.keptDuration native.timeout <;> cases m.keptDuration native.startPeriod <;> simp

omit hcontainer in
theorem healthcheck_service {native : NativeHealthCheckObservation} {promoted : Bool}
    (hpassed : container.details.healthCheck.portable? m.authorizedPortable = some (native, promoted))
    (hretained : (m.healthSettings native promoted).retained = true) :
    (m.service container).value.healthcheck =
      some (portableSourced (m.healthSettings native promoted).healthcheck promoted) := by
  unfold service
  rw [value_sourced, serviceOf_eq]
  unfold keptHealthcheck
  simp only [hpassed, Option.bind_some, hretained, if_true]

/-- What the settings of a health check that passes lose, the import loses. -/
theorem accounted_of_settings {part : Evidence} {native : NativeHealthCheckObservation}
    {promoted : Bool}
    (hpassed : container.details.healthCheck.portable? m.authorizedPortable = some (native, promoted))
    (hloses : Loss (m.subjectOf container.identity container.details part)
      (m.mapHealthSettings ((Subject.ofResource container.identity).field "healthcheck") native
        promoted)) : m.Accounted container part := by
  refine m.accounted_of_step hcontainer (reaches_healthcheck m _ _ _ _) fun service => ?_
  show Loss _ _
  unfold mapPortableHealthcheck
  simp only [loss_bind, value_portableSetting, hpassed]
  exact Or.inr (Or.inl hloses)

theorem healthCommand_kept (h : m.Eligible container.details .healthCommand)
    (hhealth : (m.mayPass container.details.healthCheck).isSome = true) :
    m.Carries container.details (m.service container).value .healthCommand ∨
      m.Accounted container .healthCommand := by
  obtain ⟨health, hobserved, hcommand⟩ := h
  obtain ⟨native, hhealth⟩ := Option.isSome_iff_exists.mp hhealth
  obtain ⟨promoted, hpassed⟩ := m.mayPass_eq_some.mp hhealth
  have hnative : native = health.value := value_of_portable hobserved hpassed
  subst hnative
  obtain ⟨command, hcommand⟩ := Option.isSome_iff_exists.mp hcommand
  obtain ⟨flag, hcommanded⟩ := m.mayPass_eq_some.mp hcommand
  by_cases hreviewed : command = .unreviewed
  · subst hreviewed
    refine Or.inr (m.accounted_of_settings hcontainer hpassed ?_)
    unfold mapHealthSettings mapHealthCommand
    simp [hcommanded, subjectOf]
  · have hretained : (m.healthSettings health.value promoted).retained = true := by
      rw [retained_healthSettings]
      unfold withHealthCommand
      rw [hcommanded]
      cases command <;> simp_all
    refine Or.inl ⟨health, command, _, hobserved, hcommand, m.healthcheck_service hpassed hretained, ?_⟩
    rw [value_portableSourced]
    obtain ⟨hkept, hdisabled⟩ := m.command_healthSettings health.value promoted
    unfold withHealthCommand at hkept hdisabled
    rw [hcommanded] at hkept hdisabled
    cases command with
    | unreviewed => exact hreviewed rfl
    | disabled =>
      show Option.map _ _ = _
      rw [hdisabled]
      simp
    | shell arguments =>
      show Option.map _ _ = _
      rw [hkept]
      simp
    | exec arguments =>
      show Option.map _ _ = _
      rw [hkept]
      simp

theorem healthDuration_kept {setting : HealthSetting}
    (h : m.Eligible container.details (.healthDuration setting))
    (hhealth : (m.mayPass container.details.healthCheck).isSome = true) :
    m.Carries container.details (m.service container).value (.healthDuration setting) ∨
      m.Accounted container (.healthDuration setting) := by
  obtain ⟨health, hobserved, hvalue⟩ := h
  obtain ⟨native, hhealth⟩ := Option.isSome_iff_exists.mp hhealth
  obtain ⟨promoted, hpassed⟩ := m.mayPass_eq_some.mp hhealth
  have hnative : native = health.value := value_of_portable hobserved hpassed
  subst hnative
  obtain ⟨value, hvalue⟩ := Option.isSome_iff_exists.mp hvalue
  obtain ⟨flag, hvalued⟩ := m.mayPass_eq_some.mp hvalue
  cases hduration : m.keptDuration (setting.observed health.value) with
  | some duration =>
    have hretained : (m.healthSettings health.value promoted).retained = true := by
      rw [retained_healthSettings]
      cases setting <;> simp_all [HealthSetting.observed]
    refine Or.inl ⟨health, value, _, hobserved, hvalue, m.healthcheck_service hpassed hretained, ?_⟩
    rw [value_portableSourced, kept_healthSettings, hduration]
    simp only [Option.map_some, value_portableSourced, Option.some.injEq]
    unfold keptDuration at hduration
    simp only [hvalued, Option.bind_some] at hduration
    by_cases hnegative : value < 0
    · rw [if_pos hnegative] at hduration
      cases hduration
    · rw [if_neg hnegative] at hduration
      exact duration_asStr hduration
  | none =>
    have hlost (set : Healthcheck → Sourced HealthcheckDuration → Healthcheck) (state : HealthState) :
        Loss (m.subjectOf container.identity container.details (.healthDuration setting))
          (m.mapHealthDuration (setting.observed health.value)
            (((Subject.ofResource container.identity).field "healthcheck").field setting.name)
            promoted set state) := by
      unfold mapHealthDuration
      unfold keptDuration at hduration
      simp only [hvalued, Option.bind_some] at hduration
      simp only [loss_bind, value_portableSetting, hvalued]
      by_cases hnegative : value < 0
      · simp [hnegative, subjectOf]
      · rw [if_neg hnegative] at hduration
        cases hnew : HealthcheckDuration.new (toString value ++ "ns") with
        | ok duration =>
          rw [hnew] at hduration
          cases hduration
        | error error => simp [hnegative, subjectOf]
    refine Or.inr (m.accounted_of_settings hcontainer hpassed ?_)
    unfold mapHealthSettings
    simp only [loss_bind]
    cases setting with
    | interval => exact Or.inr (Or.inl (hlost _ _))
    | timeout => exact Or.inr (Or.inr (Or.inl (hlost _ _)))
    | startPeriod => exact Or.inr (Or.inr (Or.inr (Or.inl (hlost _ _))))

theorem healthRetries_kept (h : m.Eligible container.details .healthRetries)
    (hhealth : (m.mayPass container.details.healthCheck).isSome = true) :
    m.Carries container.details (m.service container).value .healthRetries ∨
      m.Accounted container .healthRetries := by
  obtain ⟨health, hobserved, hvalue⟩ := h
  obtain ⟨native, hhealth⟩ := Option.isSome_iff_exists.mp hhealth
  obtain ⟨promoted, hpassed⟩ := m.mayPass_eq_some.mp hhealth
  have hnative : native = health.value := value_of_portable hobserved hpassed
  subst hnative
  obtain ⟨value, hvalue⟩ := Option.isSome_iff_exists.mp hvalue
  obtain ⟨flag, hvalued⟩ := m.mayPass_eq_some.mp hvalue
  cases hnew : HealthcheckRetries.new (toString value) with
  | ok retries =>
    have hretries : m.keptRetries health.value.retries = some retries := by
      unfold keptRetries
      simp only [hvalued, Option.bind_some, hnew]
      rfl
    have hretained : (m.healthSettings health.value promoted).retained = true := by
      rw [retained_healthSettings, hretries]
      simp
    refine Or.inl ⟨health, value, _, hobserved, hvalue, m.healthcheck_service hpassed hretained, ?_⟩
    rw [value_portableSourced, m.retries_healthSettings hretries]
    simp only [Option.map_some, value_portableSourced, retries_asStr hnew]
  | error error =>
    refine Or.inr (m.accounted_of_settings hcontainer hpassed ?_)
    unfold mapHealthSettings
    simp only [loss_bind]
    refine Or.inr (Or.inr (Or.inr (Or.inr ?_)))
    unfold mapHealthRetries
    simp only [loss_bind, value_portableSetting, hvalued, hnew, loss_modelError]
    exact Or.inr (Or.inl (Subject.below_refl _))

/-! ## Name service -/

omit hcontainer in
theorem ownNetworking_eq {networking : NativeNetworkingObservation}
    (hmember : container.details.podMembership.isObserved = false)
    (hnetworking : networkingOf container.details = some networking) :
    ownNetworking container.details = some networking := by
  unfold ownNetworking
  rw [hmember, if_neg (by simp)]
  exact hnetworking

omit hcontainer in
theorem observed_of_networkingOf {networking : NativeNetworkingObservation}
    (hnetworking : networkingOf container.details = some networking) :
    ∃ origin, container.details.networking = .observed ⟨origin, networking⟩ := by
  unfold networkingOf at hnetworking
  rw [Option.map_eq_some_iff] at hnetworking
  obtain ⟨⟨origin, value⟩, hobserved, rfl⟩ := hnetworking
  exact ⟨origin, ObservationField.observed?_eq_some.mp hobserved⟩

/-- A member of a pod reports its name service and its port bindings as never becoming intent. -/
theorem accounted_of_member {part : Evidence} {networking : NativeNetworkingObservation}
    (hmember : container.details.podMembership.isObserved = true)
    (hnetworking : networkingOf container.details = some networking)
    (hloses : Loss (m.subjectOf container.identity container.details part) (reportNetworkingRemainders
        ((Subject.ofResource container.identity).field "pod_member_networking") networking false) ∨
      Loss (m.subjectOf container.identity container.details part) (observationOnly
        (((Subject.ofResource container.identity).field "pod_member_networking").field "references")
        networking.networks
        "native network references are not promoted at this topology boundary")) :
    m.Accounted container part := by
  refine m.accounted_of_step hcontainer (reaches_networks m _ _ _ _) fun service => ?_
  show Loss _ _
  obtain ⟨origin, hobserved⟩ := observed_of_networkingOf hnetworking
  unfold mapContainerNetworks reportNetworkingOnly
  simp only [hmember, if_true, loss_bind, hobserved, ObservationField.observed?_observed]
  exact Or.inl (Or.inr hloses)

/-- What the portable networking or the references of a container lose, the import loses. -/
theorem accounted_of_networking {part : Evidence} {networking : NativeNetworkingObservation}
    (hmember : container.details.podMembership.isObserved = false)
    (hnetworking : networkingOf container.details = some networking)
    (hloses : ∀ service, Loss (m.subjectOf container.identity container.details part)
        (m.mapPortableNetworking ((Subject.ofResource container.identity).field "networks") networking
          service) ∨
      Loss (m.subjectOf container.identity container.details part)
        (m.mapNetworkReferences ((Subject.ofResource container.identity).field "networks") networking
          (m.withNetworking networking service))) : m.Accounted container part := by
  refine m.accounted_of_step hcontainer (reaches_networks m _ _ _ _) fun service => ?_
  show Loss _ _
  obtain ⟨origin, hobserved⟩ := observed_of_networkingOf hnetworking
  unfold mapContainerNetworks
  simp only [hmember, Bool.false_eq_true, if_false, hobserved, loss_bind, value_mapPortableNetworking]
  rcases hloses service with h | h
  · exact Or.inl h
  · exact Or.inr (Or.inr h)

omit hcontainer in
/-- A configured or effective field of a member is not reported as exact. -/
theorem observationLoses_of_mayPass {α : Type} {field : ObservationField α} {value : α}
    (h : m.mayPass field = some value) : field.observationLoses = true := by
  obtain ⟨promoted, hpassed⟩ := m.mayPass_eq_some.mp h
  have horigin := portable?_isSome.mp (Option.isSome_iff_exists.mpr ⟨_, hpassed⟩)
  unfold ObservationField.observationLoses ObservationField.stateLoses
  rcases horigin with horigin | ⟨horigin, -⟩ <;> simp [horigin]

omit hcontainer in
theorem keptDns_eq {α : Type} {field : ObservationField (List α)} {f : α → String}
    {entries : List α} {entry : α} (hpasses : m.mayPass field = some entries) (hmem : entry ∈ entries) :
    ∃ kept, m.keptDns field f = some kept ∧ ∃ text ∈ kept, text.value = .plain (f entry) := by
  obtain ⟨promoted, hpassed⟩ := m.mayPass_eq_some.mp hpasses
  unfold keptDns
  simp only [hpassed, Option.bind_some]
  have hnonempty : entries.isEmpty = false := by
    cases entries with
    | nil => cases hmem
    | cons => rfl
  rw [hnonempty, if_neg (by simp)]
  exact ⟨_, rfl, _, List.mem_map.mpr ⟨entry, hmem, rfl⟩, value_portableSourced _ _⟩

theorem dnsServer_kept {address : NativeIpAddress}
    (h : m.Eligible container.details (.dnsServer address)) :
    m.Carries container.details (m.service container).value (.dnsServer address) ∨
      m.Accounted container (.dnsServer address) := by
  obtain ⟨networking, entries, hnetworking, hpasses, hmem⟩ := h
  cases hmember : container.details.podMembership.isObserved with
  | true =>
    refine Or.inr (m.accounted_of_member hcontainer hmember hnetworking (Or.inl ?_))
    unfold reportNetworkingRemainders reportNameService
    simp [subjectOf, networkSubject, hmember, m.observationLoses_of_mayPass hpasses]
  | false =>
    obtain ⟨kept, hkept, hcarried⟩ := m.keptDns_eq (f := NativeIpAddress.spelling) hpasses hmem
    refine Or.inl ⟨kept, ?_, hcarried⟩
    unfold service
    rw [value_sourced, serviceOf_eq, ownNetworking_eq hmember hnetworking]
    exact hkept

theorem dnsSearch_kept {domain : String} (h : m.Eligible container.details (.dnsSearch domain)) :
    m.Carries container.details (m.service container).value (.dnsSearch domain) ∨
      m.Accounted container (.dnsSearch domain) := by
  obtain ⟨networking, entries, hnetworking, hpasses, hmem⟩ := h
  cases hmember : container.details.podMembership.isObserved with
  | true =>
    refine Or.inr (m.accounted_of_member hcontainer hmember hnetworking (Or.inl ?_))
    unfold reportNetworkingRemainders reportNameService
    simp [subjectOf, networkSubject, hmember, m.observationLoses_of_mayPass hpasses]
  | false =>
    obtain ⟨kept, hkept, hcarried⟩ := m.keptDns_eq (f := id) hpasses hmem
    refine Or.inl ⟨kept, ?_, hcarried⟩
    unfold service
    rw [value_sourced, serviceOf_eq, ownNetworking_eq hmember hnetworking]
    exact hkept

theorem dnsOption_kept {option : String} (h : m.Eligible container.details (.dnsOption option)) :
    m.Carries container.details (m.service container).value (.dnsOption option) ∨
      m.Accounted container (.dnsOption option) := by
  obtain ⟨networking, entries, hnetworking, hpasses, hmem⟩ := h
  cases hmember : container.details.podMembership.isObserved with
  | true =>
    refine Or.inr (m.accounted_of_member hcontainer hmember hnetworking (Or.inl ?_))
    unfold reportNetworkingRemainders reportNameService
    simp [subjectOf, networkSubject, hmember, m.observationLoses_of_mayPass hpasses]
  | false =>
    obtain ⟨kept, hkept, hcarried⟩ := m.keptDns_eq (f := id) hpasses hmem
    refine Or.inl ⟨kept, ?_, hcarried⟩
    unfold service
    rw [value_sourced, serviceOf_eq, ownNetworking_eq hmember hnetworking]
    exact hkept

end Settings
end Mapping

end Boxferry.Podman.Import
