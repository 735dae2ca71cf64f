import Boxferry.Engine.Outcome
import Boxferry.Library.FirstOccurrences
import Boxferry.Library.Results
import Boxferry.Model.Application

/-! # Losses of retained native evidence

Every exporter reports the retained evidence as one unsupported decision a subject. The events are
grouped by the text of their subject; only subjects and locations enter a decision. -/
namespace Boxferry.Engine
open Model
set_option autoImplicit false

/-! ## Losses -/

def NativeEvidence.summary : String := "retained native evidence is not portable desired state"

def NativeEvidence.reason : String :=
  "opaque source evidence is retained for explanation and is never rendered or executed"

def evidenceSubject (evidence : RetainedNativeEvidence) : String := evidence.subject.conversionSubject

/-- The locations of an event, and then those of its physical segments. -/
def evidenceOrigins (evidence : RetainedNativeEvidence) : List Provenance :=
  evidence.event.origins ++ evidence.event.value.physicalSegments.flatMap Sourced.origins

def evidenceDiagnostic (code : DiagnosticCode) (subject : String) : Diagnostic :=
  ⟨code, .warning, NativeEvidence.summary,
    [⟨"subject", .plain subject⟩, ⟨"reason", .plain NativeEvidence.reason⟩, ⟨"decision", .plain "omitted"⟩,
      ⟨"required_loss_policy", .plain "partial"⟩]⟩

def evidenceOutcome (code : DiagnosticCode) (group : String × List Provenance) :
    Except PlanError ConversionOutcome := do
  let outcome ← ConversionOutcome.loss group.1 .unsupported code
  pure (group.2.foldl ConversionOutcome.withOrigin outcome)

def retainedNativeEvidenceLosses (application : Application) (code : DiagnosticCode) :
    Except PlanError (List ConversionOutcome × List Diagnostic) := do
  let grouped := application.retainedNativeEvidence.foldl
    (fun grouped evidence =>
      FirstOccurrences.collect (evidenceSubject evidence) (evidenceOrigins evidence) grouped) []
  let outcomes ← grouped.mapM (evidenceOutcome code)
  pure (outcomes, grouped.map fun group => evidenceDiagnostic code group.1)

/-! ## Subjects -/

/-- Two subjects with one text are one subject. -/
theorem conversionSubject_injective : Function.Injective RetainedNativeEvidenceSubject.conversionSubject := by
  have hcut : ∀ {front left right back : String}, front ++ left ++ back = front ++ right ++ back → left = right := by
    intro front left right back h
    have hchars := congrArg String.toList h
    simp only [String.toList_append, List.append_assoc, List.append_cancel_left_eq,
      List.append_cancel_right_eq] at hchars
    exact String.toList_inj.mp hchars
  -- Texts of different kinds differ in their first characters or in their last ones.
  have hfront : ∀ left right back other : String, "services." ++ left ++ back ≠ "volumes." ++ right ++ other := by
    intro left right back other h
    have hchars := congrArg (fun text : String => text.toList.head?) h
    simp at hchars
  have hback : ∀ {left right back other : String}, (back.toList.reverse.take 8 ≠ other.toList.reverse.take 8) →
      8 ≤ back.toList.length → 8 ≤ other.toList.length →
      "volumes." ++ left ++ back ≠ "volumes." ++ right ++ other := by
    intro left right back other hdiffer hlong hlonger h
    apply hdiffer
    have hchars := congrArg (fun text : String => text.toList.reverse.take 8) h
    simp only [String.toList_append, List.reverse_append] at hchars
    rwa [List.take_append_of_le_length (by simpa using hlong),
      List.take_append_of_le_length (by simpa using hlonger)] at hchars
  intro first second h
  cases first with
  | quadletServicePodmanArgs name =>
    cases second with
    | quadletServicePodmanArgs other => rw [Identifier.ext_asStr (hcut h)]
    | _ => exact absurd h (hfront _ _ _ _)
  | quadletVolumeContainersConfModules name =>
    cases second with
    | quadletServicePodmanArgs other => exact absurd h.symm (hfront _ _ _ _)
    | quadletVolumeContainersConfModules other => rw [Identifier.ext_asStr (hcut h)]
    | _ => exact absurd h (hback (by decide) (by decide) (by decide))
  | quadletVolumeGlobalArgs name =>
    cases second with
    | quadletServicePodmanArgs other => exact absurd h.symm (hfront _ _ _ _)
    | quadletVolumeGlobalArgs other => rw [Identifier.ext_asStr (hcut h)]
    | _ => exact absurd h (hback (by decide) (by decide) (by decide))
  | quadletVolumePodmanArgs name =>
    cases second with
    | quadletServicePodmanArgs other => exact absurd h.symm (hfront _ _ _ _)
    | quadletVolumePodmanArgs other => rw [Identifier.ext_asStr (hcut h)]
    | _ => exact absurd h (hback (by decide) (by decide) (by decide))

/-! ## What is reported -/

/-- The distinct subjects of an application's evidence, in order of their first events. -/
def evidenceSubjects (application : Application) : List String :=
  (application.retainedNativeEvidence.map evidenceSubject).eraseDups

/-- The distinct locations of a subject's events and segments, in order of first occurrence. -/
def subjectOrigins (application : Application) (subject : String) : List Provenance :=
  ((application.retainedNativeEvidence.filter fun evidence => evidenceSubject evidence = subject).flatMap
    evidenceOrigins).eraseDups

def evidenceLoss (application : Application) (code : DiagnosticCode) (subject : String) : ConversionOutcome :=
  ⟨subject, .unsupported, some code, subjectOrigins application subject, by simp⟩

theorem foldl_withOrigin (outcome : ConversionOutcome) (origins : List Provenance) :
    origins.foldl ConversionOutcome.withOrigin outcome =
      { outcome with origins := outcome.origins ++ origins } := by
  induction origins generalizing outcome with
  | nil => simp
  | cons origin rest ih =>
    rw [List.foldl_cons, ih]
    simp [ConversionOutcome.withOrigin]

theorem losses_eq (application : Application) (code : DiagnosticCode) :
    retainedNativeEvidenceLosses application code =
      .ok ((evidenceSubjects application).map (evidenceLoss application code),
        (evidenceSubjects application).map (evidenceDiagnostic code)) := by
  have houtcome : ∀ subject, evidenceOutcome code (subject, subjectOrigins application subject) =
      .ok (evidenceLoss application code subject) := by
    intro subject
    show Except.ok ((subjectOrigins application subject).foldl ConversionOutcome.withOrigin
      ⟨subject, .unsupported, some code, [], by simp⟩) = _
    rw [foldl_withOrigin]
    rfl
  have houtcomes : ((evidenceSubjects application).map fun subject =>
      (subject, subjectOrigins application subject)).mapM (evidenceOutcome code) =
      .ok ((evidenceSubjects application).map (evidenceLoss application code)) := by
    rw [Results.mapM_eq_ok, List.forall₂_map_left_iff, List.forall₂_map_right_iff, List.forall₂_same]
    exact fun subject _ => houtcome subject
  unfold retainedNativeEvidenceLosses
  rw [FirstOccurrences.foldl_collect]
  show (do
    let outcomes ← ((evidenceSubjects application).map fun subject =>
      (subject, subjectOrigins application subject)).mapM (evidenceOutcome code)
    pure (outcomes, ((evidenceSubjects application).map fun subject =>
      (subject, subjectOrigins application subject)).map fun (group : String × List Provenance) =>
        evidenceDiagnostic code group.1)) = _
  rw [houtcomes, List.map_map]
  rfl

/-- Two events that differ in their protected texts only. -/
structure Reworded (first second : RetainedNativeEvidence) : Prop where
  subject : first.subject = second.subject
  origins : first.event.origins = second.event.origins
  segments : first.event.value.physicalSegments.map Sourced.origins =
    second.event.value.physicalSegments.map Sourced.origins

theorem Reworded.kept {first second : RetainedNativeEvidence} (h : Reworded first second) :
    evidenceSubject first = evidenceSubject second ∧ evidenceOrigins first = evidenceOrigins second := by
  unfold evidenceSubject evidenceOrigins
  rw [h.subject, h.origins, List.flatMap_def, List.flatMap_def, h.segments]
  exact ⟨rfl, rfl⟩

theorem foldl_reworded {first second : List RetainedNativeEvidence} (h : List.Forall₂ Reworded first second)
    (grouped : List (String × List Provenance)) :
    second.foldl (fun grouped evidence =>
        FirstOccurrences.collect (evidenceSubject evidence) (evidenceOrigins evidence) grouped) grouped =
      first.foldl (fun grouped evidence =>
        FirstOccurrences.collect (evidenceSubject evidence) (evidenceOrigins evidence) grouped) grouped := by
  induction h generalizing grouped with
  | nil => rfl
  | cons hfirst _ ih => rw [List.foldl_cons, List.foldl_cons, hfirst.kept.1, hfirst.kept.2, ih]

/-- The losses of an application's evidence: one unsupported outcome and one diagnostic a subject, in order
of first events, with the distinct locations of the subject's events and segments. Different subjects have
different texts, each outcome's code is the code of a diagnostic, and no protected text makes a
difference. -/
theorem retained_evidence_accounted (application : Application) (code : DiagnosticCode) :
    Function.Injective RetainedNativeEvidenceSubject.conversionSubject ∧
      retainedNativeEvidenceLosses application code =
        .ok ((evidenceSubjects application).map (evidenceLoss application code),
          (evidenceSubjects application).map (evidenceDiagnostic code)) ∧
      Referenced ((evidenceSubjects application).map (evidenceLoss application code))
        ((evidenceSubjects application).map (evidenceDiagnostic code)) ∧
      ∀ other : Application,
        List.Forall₂ Reworded application.retainedNativeEvidence other.retainedNativeEvidence →
          retainedNativeEvidenceLosses other code = retainedNativeEvidenceLosses application code := by
  refine ⟨conversionSubject_injective, losses_eq application code, ?_, ?_⟩
  · intro outcome houtcome known hcode
    obtain ⟨subject, hsubject, rfl⟩ := List.mem_map.mp houtcome
    exact ⟨evidenceDiagnostic code subject, List.mem_map_of_mem hsubject, Option.some.inj hcode⟩
  · intro other hreworded
    unfold retainedNativeEvidenceLosses
    rw [foldl_reworded hreworded]

end Boxferry.Engine
