import Boxferry.Engine.Adapter
import Boxferry.Podman.Import.Mapping

/-! # Releasing an import

The diagnostics of an import name the loss policy each decision requires. Output of a conversion is
released exactly where the policy reaches all that they name, and no loss of an import lacks its
diagnostic. -/
namespace Boxferry.Podman.Import
open Engine Model
set_option autoImplicit false

/-! ## What a diagnostic requires -/

/-- The policy permits what the named policy is required for. -/
def Reaches (policy : LossPolicy) (required : String) : Prop :=
  required = "approximate" ∧ policy.permits .approximate = true ∨
    required = "partial" ∧ policy.permits .unsupported = true

/-- The policy reaches every required policy among the fields, and none says rejected. -/
def FieldsAllow (policy : LossPolicy) (fields : List (String × String)) : Prop :=
  ∀ field ∈ fields, (field.1 = "required_loss_policy" → Reaches policy field.2) ∧
    (field.1 = "decision" → field.2 ≠ "rejected")

/-- The policy reaches what the diagnostic requires, and the diagnostic says of no decision that it is
rejected. -/
def Allows (policy : LossPolicy) (diagnostic : Diagnostic) : Prop :=
  ∀ field ∈ diagnostic.fields,
    (field.name = "required_loss_policy" → ∃ required, field.value = .plain required ∧ Reaches policy required) ∧
    (field.name = "decision" → field.value ≠ .plain "rejected")

/-- The decisions of an event are permitted, and it is no error. -/
def Event.Permitted (policy : LossPolicy) (event : Event) : Prop :=
  (∀ decision ∈ event.decisions, policy.permits decision.2 = true) ∧ event.severity? ≠ some .error

theorem fieldsAllow_append {policy : LossPolicy} {first second : List (String × String)} :
    FieldsAllow policy (first ++ second) ↔ FieldsAllow policy first ∧ FieldsAllow policy second :=
  List.forall_mem_append

theorem allows_plain {policy : LossPolicy} {code : DiagnosticCode} {severity : Severity} {summary : String}
    {fields : List (String × String)} :
    Allows policy ⟨code, severity, summary, fields.map fun field => ⟨field.1, .plain field.2⟩⟩ ↔
      FieldsAllow policy fields := by
  unfold Allows FieldsAllow
  rw [List.forall_mem_map]
  simp

/-- Only the fields of the decision are about policies. -/
theorem fieldsAllow_advice (policy : LossPolicy) (event : Event) : FieldsAllow policy event.adviceFields := by
  unfold FieldsAllow
  cases event <;> simp [Event.adviceFields]

/-- The fields of a decision require exactly what permits it. -/
theorem fieldsAllow_decision (policy : LossPolicy) (event : Event) (h : event.severity? ≠ none) :
    FieldsAllow policy event.decisionFields ↔ event.Permitted policy := by
  unfold FieldsAllow Event.Permitted
  cases event with
  | nativeInventoryFindings findings =>
    cases findings with
    | nil => exact absurd rfl h
    | cons first rest =>
      simp only [Event.decisionFields, Event.decisions, Event.severity?, Reaches]
      simp +contextual
  | exact subject => exact absurd rfl h
  | _ =>
    cases policy <;>
      simp [Event.decisionFields, Event.decisions, Event.severity?, Reaches, LossPolicy.permits]

/-- An event without a diagnostic loses nothing. -/
theorem permitted_of_severity (policy : LossPolicy) {event : Event} (h : event.severity? = none) :
    event.Permitted policy := by
  unfold Event.Permitted
  rw [h]
  refine ⟨?_, by simp⟩
  cases event with
  | nativeInventoryFindings findings =>
    cases findings with
    | nil => exact fun _ hmem => absurd hmem List.not_mem_nil
    | cons first rest => cases h
  | exact subject => simp [Event.decisions, LossPolicy.permits]
  | _ => cases h

section Release
variable (library : NativeLibrary)

theorem Event.allows_iff (policy : LossPolicy) (event : Event) :
    (∀ diagnostic, event.diagnostic? library = some diagnostic → Allows policy diagnostic) ↔
      event.Permitted policy := by
  unfold Event.diagnostic?
  cases hseverity : event.severity? with
  | none => simp [permitted_of_severity policy hseverity]
  | some severity =>
    have hdecision := fieldsAllow_decision policy event (by simp [hseverity])
    have hadvice := fieldsAllow_advice policy event
    have hplace : FieldsAllow policy
        [("subject", event.shownSubject library), ("reason", event.reason library)] := by
      simp [FieldsAllow]
    simp only [Option.map_some, Option.some.injEq, forall_eq']
    rw [allows_plain, fieldsAllow_append, fieldsAllow_append, hdecision]
    exact ⟨fun h => h.1.2, fun h => ⟨⟨hplace, h⟩, hadvice⟩⟩

theorem Event.permits_outcomes (policy : LossPolicy) (event : Event) :
    (∀ outcome ∈ event.outcomes library, policy.permits outcome.kind = true) ↔
      ∀ decision ∈ event.decisions, policy.permits decision.2 = true := by
  unfold Event.outcomes
  rw [List.forall_mem_map]
  refine forall₂_congr fun decision _ => ?_
  dsimp only
  split <;> rfl

theorem Event.free_of_errors (event : Event) :
    (∀ diagnostic, event.diagnostic? library = some diagnostic → diagnostic.severity ≠ .error) ↔
      event.severity? ≠ some .error := by
  unfold Event.diagnostic?
  cases event.severity? <;> simp

/-- A loss comes with the diagnostic of its code. -/
theorem Event.outcome_referenced {event : Event} {outcome : ConversionOutcome} {code : DiagnosticCode}
    (h : outcome ∈ event.outcomes library) (hcode : outcome.diagnostic = some code) :
    ∃ diagnostic, event.diagnostic? library = some diagnostic ∧ diagnostic.code = code := by
  obtain ⟨⟨subject, kind⟩, hdecision, rfl⟩ := List.mem_map.mp h
  have hloss : kind ≠ .exact := by
    intro hexact
    simp [hexact] at hcode
  have hsame : event.code = code := by
    simpa [hloss] using hcode
  cases hseverity : event.severity? with
  | none =>
    have hpermitted := (permitted_of_severity .exactOnly hseverity).1 _ hdecision
    cases kind with
    | exact => exact absurd rfl hloss
    | approximate | unsupported | invalid => cases hpermitted
  | some severity =>
    unfold Event.diagnostic?
    rw [hseverity]
    exact ⟨_, rfl, hsame⟩

end Release

/-! ## Whole imports -/

/-- `PodmanImporter::import`: the application with all decisions and diagnostics. -/
def Mapping.importResult (m : Mapping) : ImportResult where
  application := some m.application
  outcomes := m.map.log.flatMap (Event.outcomes m.native)
  diagnostics := m.map.log.filterMap (Event.diagnostic? m.native)

variable (m : Mapping)

theorem importResult_referenced (earlier : List Diagnostic) :
    Referenced m.importResult.outcomes (earlier ++ m.importResult.diagnostics) := by
  intro outcome houtcome code hcode
  obtain ⟨event, hevent, houtcome⟩ := List.mem_flatMap.mp houtcome
  obtain ⟨diagnostic, hdiagnostic, hsame⟩ := event.outcome_referenced m.native houtcome hcode
  exact ⟨diagnostic, List.mem_append_right _ (List.mem_filterMap.mpr ⟨event, hevent, hdiagnostic⟩), hsame⟩

/-- The import's part of a release is what its diagnostics allow. -/
theorem importResult_permitted (policy : LossPolicy) :
    ((∀ outcome ∈ m.importResult.outcomes, policy.permits outcome.kind = true) ∧
      ∀ diagnostic ∈ m.importResult.diagnostics, diagnostic.severity ≠ .error) ↔
    ∀ diagnostic ∈ m.importResult.diagnostics, Allows policy diagnostic := by
  unfold Mapping.importResult
  rw [List.forall_mem_flatMap, List.forall_mem_filterMap, List.forall_mem_filterMap, ← forall₂_and]
  refine forall₂_congr fun event _ => ?_
  rw [event.permits_outcomes m.native, event.free_of_errors m.native, event.allows_iff m.native]
  rfl

/-- A conversion of an import releases the planned output exactly where the plan is permitted and the
policy reaches whatever the diagnostics of the import require; it never fails for a missing diagnostic. -/
theorem import_releases_iff {Output : Type} (exporter : ExportAdapter Output) (target : TargetProfile)
    (policy : LossPolicy) :
    (∀ output, Releases m.importResult exporter target policy output ↔
      ∃ plan, exporter.plan m.application target = .ok plan ∧ plan.candidate = some output ∧
        (∀ outcome ∈ plan.outcomes, policy.permits outcome.kind = true) ∧
        (∀ diagnostic ∈ plan.diagnostics, diagnostic.severity ≠ .error) ∧
        ∀ diagnostic ∈ m.importResult.diagnostics, Allows policy diagnostic) ∧
    ∀ subject code, convertImported m.importResult exporter target policy =
        .error (.invalidPlan (.missingDiagnostic subject code)) →
      exporter.plan m.application target = .error (.missingDiagnostic subject code) := by
  refine ⟨fun output => ?_, fun subject code h => ?_⟩
  · rw [releases_iff]
    constructor
    · rintro ⟨application, plan, happlication, hplan, hcandidate, -, hpermitted⟩
      obtain rfl : m.application = application := Option.some.inj happlication
      obtain ⟨himported, hplanned⟩ := List.forall_mem_append.mp hpermitted.outcomes
      exact ⟨plan, hplan, hcandidate, hplanned, hpermitted.planned,
        (importResult_permitted m policy).mp ⟨himported, hpermitted.imported⟩⟩
    · rintro ⟨plan, hplan, hcandidate, hplanned, herrors, hallows⟩
      obtain ⟨himported, hdiagnostics⟩ := (importResult_permitted m policy).mpr hallows
      exact ⟨m.application, plan, rfl, hplan, hcandidate, importResult_referenced m plan.diagnostics,
        ⟨List.forall_mem_append.mpr ⟨himported, hplanned⟩, hdiagnostics, herrors⟩⟩
  · unfold convertImported at h
    split at h
    · cases h
    · show exporter.plan m.application target = _
      simp only [Mapping.importResult] at h
      cases hplan : exporter.plan m.application target with
      | error failure =>
        rw [hplan] at h
        cases h
        rfl
      | ok plan =>
        have hreferenced := importResult_referenced m plan.diagnostics
        have hextended : plan.extendImport m.importResult.outcomes m.importResult.diagnostics =
            .ok ⟨plan.candidate, m.importResult.outcomes ++ plan.outcomes,
              plan.diagnostics ++ m.importResult.diagnostics, plan.extend_referenced hreferenced⟩ :=
          ConversionPlan.extendImport_eq_ok.mpr ⟨hreferenced, rfl, rfl, rfl⟩
        rw [hplan] at h
        simp only [Mapping.importResult] at hextended
        simp [Except.mapError, hextended, bind, Except.bind] at h

end Boxferry.Podman.Import
