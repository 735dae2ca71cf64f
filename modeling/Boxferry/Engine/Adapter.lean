import Boxferry.Engine.Outcome
import Boxferry.Library.Results
import Boxferry.Model.Application

/-! # Import, plan, authorize

The conversion path from a finished import to a policy-authorized result. -/
namespace Boxferry.Engine
open Model Results
set_option autoImplicit false

/-- Recoverable result of importing a native source model. -/
structure ImportResult where
  application : Option Application
  outcomes : List ConversionOutcome
  diagnostics : List Diagnostic

/-- Plans one neutral application for a native target model. -/
structure ExportAdapter (Output : Type) where
  plan : Application → TargetProfile → Except PlanError (ConversionPlan Output)

/-- Failure before a policy-authorized conversion result can be created. -/
inductive ConversionError where
  | import (diagnostics : List Diagnostic)
  | invalidPlan (error : PlanError)

section Convert
variable {Output : Type}

/-- `convert_imported`: plans, extends with the import report, and authorizes. -/
def convertImported (imported : ImportResult) (exporter : ExportAdapter Output)
    (target : TargetProfile) (policy : LossPolicy) :
    Except ConversionError (ConversionResult Output) :=
  if imported.application.isNone || ConversionPlan.hasError imported.diagnostics then
    .error (.import imported.diagnostics)
  else
    match imported.application with
    | none => .error (.import imported.diagnostics)
    | some application => do
      let plan ← (exporter.plan application target).mapError .invalidPlan
      let plan ← (plan.extendImport imported.outcomes imported.diagnostics).mapError .invalidPlan
      .ok (plan.authorize policy)

variable {imported : ImportResult} {exporter : ExportAdapter Output} {target : TargetProfile}
  {policy : LossPolicy}

theorem convertImported_eq_ok {result : ConversionResult Output} :
    convertImported imported exporter target policy = .ok result ↔
      ConversionPlan.hasError imported.diagnostics = false ∧
        ∃ application plan extended, imported.application = some application ∧
          exporter.plan application target = .ok plan ∧
          plan.extendImport imported.outcomes imported.diagnostics = .ok extended ∧
          result = extended.authorize policy := by
  unfold convertImported
  rw [guard_eq_ok, Bool.not_eq_true, Bool.or_eq_false_iff]
  cases imported.application with
  | none => simp
  | some application =>
    simp only [Option.isNone_some, true_and, bind_eq_ok, mapError_eq_ok, Option.some.injEq]
    refine and_congr_right fun _ => ?_
    constructor
    · rintro ⟨plan, hplan, extended, hextended, h⟩
      exact ⟨application, plan, extended, rfl, hplan, hextended, (Except.ok.inj h).symm⟩
    · rintro ⟨_, plan, extended, rfl, hplan, hextended, rfl⟩
      exact ⟨plan, hplan, extended, hextended, rfl⟩

/-- Output is released. -/
def Releases (imported : ImportResult) (exporter : ExportAdapter Output) (target : TargetProfile)
    (policy : LossPolicy) (output : Output) : Prop :=
  ∃ result, convertImported imported exporter target policy = .ok result ∧
    result.output = some output

/-- Import and plan are free of errors and of losses beyond the policy. -/
structure Permitted (imported : ImportResult) (plan : ConversionPlan Output) (policy : LossPolicy) :
    Prop where
  outcomes : ∀ outcome ∈ imported.outcomes ++ plan.outcomes, policy.permits outcome.kind = true
  imported : ∀ diagnostic ∈ imported.diagnostics, diagnostic.severity ≠ .error
  planned : ∀ diagnostic ∈ plan.diagnostics, diagnostic.severity ≠ .error

theorem releases_iff {output : Output} : Releases imported exporter target policy output ↔
    ∃ application plan, imported.application = some application ∧
      exporter.plan application target = .ok plan ∧ plan.candidate = some output ∧
      Referenced imported.outcomes (plan.diagnostics ++ imported.diagnostics) ∧
      Permitted imported plan policy := by
  unfold Releases
  constructor
  · rintro ⟨result, hresult, houtput⟩
    obtain ⟨hfree, application, plan, extended, happlication, hplan, hextended, rfl⟩ :=
      convertImported_eq_ok.mp hresult
    obtain ⟨hreferenced, hcandidate, houtcomes, hdiagnostics⟩ :=
      ConversionPlan.extendImport_eq_ok.mp hextended
    obtain ⟨hsome, hpermitted, herrors⟩ := ConversionPlan.authorize_output.mp houtput
    rw [houtcomes] at hpermitted
    rw [hdiagnostics, List.forall_mem_append] at herrors
    exact ⟨application, plan, happlication, hplan, hcandidate ▸ hsome, hreferenced,
      hpermitted, herrors.2, herrors.1⟩
  · rintro ⟨application, plan, happlication, hplan, hcandidate, hreferenced, hpermitted⟩
    have hextended : plan.extendImport imported.outcomes imported.diagnostics =
        .ok ⟨plan.candidate, imported.outcomes ++ plan.outcomes,
          plan.diagnostics ++ imported.diagnostics, plan.extend_referenced hreferenced⟩ :=
      ConversionPlan.extendImport_eq_ok.mpr ⟨hreferenced, rfl, rfl, rfl⟩
    refine ⟨_, convertImported_eq_ok.mpr ⟨ConversionPlan.hasError_eq_false.mpr hpermitted.imported,
      application, plan, _, happlication, hplan, hextended, rfl⟩, ?_⟩
    rw [ConversionPlan.authorize_output]
    refine ⟨hcandidate, hpermitted.outcomes, ?_⟩
    rw [List.forall_mem_append]
    exact ⟨hpermitted.planned, hpermitted.imported⟩

theorem LossPolicy.permits_approximate {kind : ConversionKind}
    (h : exactOnly.permits kind = true) : allowApproximate.permits kind = true := by
  cases kind with
  | exact | approximate => rfl
  | unsupported | invalid => cases h

theorem LossPolicy.permits_partial {kind : ConversionKind}
    (h : allowApproximate.permits kind = true) : allowPartial.permits kind = true := by
  cases kind with
  | exact | approximate | unsupported => rfl
  | invalid => cases h

/-- A policy that permits more kinds releases the same output. -/
theorem Releases.mono {strict weak : LossPolicy} {output : Output}
    (hpermits : ∀ kind, strict.permits kind = true → weak.permits kind = true)
    (h : Releases imported exporter target strict output) :
    Releases imported exporter target weak output := by
  obtain ⟨application, plan, happlication, hplan, hcandidate, hreferenced, hpermitted⟩ :=
    releases_iff.mp h
  refine releases_iff.mpr ⟨application, plan, happlication, hplan, hcandidate, hreferenced, ?_⟩
  exact { hpermitted with
    outcomes := fun outcome hmem => hpermits _ (hpermitted.outcomes outcome hmem) }

/-- The report of every result: nothing is dropped, and every loss has its diagnostic. -/
theorem convertImported_report {result : ConversionResult Output}
    (h : convertImported imported exporter target policy = .ok result) :
    (∃ application plan, imported.application = some application ∧
      exporter.plan application target = .ok plan ∧
      result.outcomes = imported.outcomes ++ plan.outcomes) ∧
    ∀ outcome ∈ result.outcomes, outcome.kind ≠ .exact → ∃ code, outcome.diagnostic = some code ∧
      ∃ diagnostic ∈ result.diagnostics, diagnostic.code = code := by
  obtain ⟨-, application, plan, extended, happlication, hplan, hextended, rfl⟩ :=
    convertImported_eq_ok.mp h
  obtain ⟨-, -, houtcomes, -⟩ := ConversionPlan.extendImport_eq_ok.mp hextended
  refine ⟨⟨application, plan, happlication, hplan, houtcomes⟩, ?_⟩
  intro outcome hmem hloss
  cases hcode : outcome.diagnostic with
  | none => exact absurd (outcome.linked.mpr hcode) hloss
  | some code => exact ⟨code, rfl, extended.referenced outcome hmem code hcode⟩

end Convert

/-- Output is released exactly for a permitted import and plan whose imported losses have
their diagnostics; the report drops nothing, and weaker policies release the same output. -/
theorem convertImported_authorization :
    ∀ (Output : Type) (imported : ImportResult) (exporter : ExportAdapter Output)
      (target : TargetProfile),
      (∀ policy output, Releases imported exporter target policy output ↔
        ∃ application plan, imported.application = some application ∧
          exporter.plan application target = .ok plan ∧ plan.candidate = some output ∧
          Referenced imported.outcomes (plan.diagnostics ++ imported.diagnostics) ∧
          Permitted imported plan policy) ∧
      (∀ policy result, convertImported imported exporter target policy = .ok result →
        (∃ application plan, imported.application = some application ∧
          exporter.plan application target = .ok plan ∧
          result.outcomes = imported.outcomes ++ plan.outcomes) ∧
        ∀ outcome ∈ result.outcomes, outcome.kind ≠ .exact →
          ∃ code, outcome.diagnostic = some code ∧
            ∃ diagnostic ∈ result.diagnostics, diagnostic.code = code) ∧
      ∀ output,
        (Releases imported exporter target .exactOnly output →
          Releases imported exporter target .allowApproximate output) ∧
        (Releases imported exporter target .allowApproximate output →
          Releases imported exporter target .allowPartial output) := by
  intro Output imported exporter target
  refine ⟨fun policy output => releases_iff, fun policy result h => convertImported_report h, ?_⟩
  intro output
  exact ⟨Releases.mono fun _ => LossPolicy.permits_approximate,
    Releases.mono fun _ => LossPolicy.permits_partial⟩

/-! ## An import loss without its diagnostic -/

def podmanTarget : TargetProfile := ⟨"podman", ⟨⟨5, 4, 0⟩, none, fun _ h => nomatch h⟩, by decide⟩

/-- A deterministic exporter of one exact candidate. -/
def exactExporter {Output : Type} (output : Output) : ExportAdapter Output where
  plan _ _ := .ok ⟨some output, [.exact "application"], [], by
    intro outcome hmem code hcode
    rw [List.mem_singleton.mp hmem] at hcode
    cases hcode⟩

/-- An imported approximation whose diagnostic is on neither side. -/
def unreferencedImport : ImportResult where
  application := some (.new ⟨"example", by decide⟩)
  outcomes := [⟨"services.web.command", .approximate, some ⟨"BFE0003", by decide⟩, [], by simp⟩]
  diagnostics := []

theorem unreferencedImport_not_released :
    ¬ ∀ (imported : ImportResult) (exporter : ExportAdapter String) (target : TargetProfile)
        (policy : LossPolicy) (output : String),
      Releases imported exporter target policy output ↔
        ∃ application plan, imported.application = some application ∧
          exporter.plan application target = .ok plan ∧ plan.candidate = some output ∧
          Permitted imported plan policy := by
  intro hclaim
  have hreleased := (hclaim unreferencedImport (exactExporter "candidate") podmanTarget
    .allowApproximate "candidate").mpr ⟨_, _, rfl, rfl, rfl, by decide, by decide, by decide⟩
  obtain ⟨application, plan, -, hplan, -, hreferenced, -⟩ := releases_iff.mp hreleased
  obtain ⟨diagnostic, hmem, -⟩ := hreferenced _ List.mem_cons_self _ rfl
  cases Except.ok.inj hplan
  exact List.not_mem_nil hmem

end Boxferry.Engine
