import Boxferry.Model.Values

/-! # Targets, outcomes and plans

Implementation version ranges a caller selects for a conversion. -/
namespace Boxferry.Engine
set_option autoImplicit false

/-- Numeric target implementation version. -/
structure PlatformVersion where
  major : UInt64
  minor : UInt64
  patch : UInt64
deriving DecidableEq

def versionIsBefore (left right : PlatformVersion) : Bool :=
  left.major < right.major || (left.major == right.major && left.minor < right.minor) ||
    (left.major == right.major && left.minor == right.minor && left.patch < right.patch)

/-- Inclusive minimum and optional maximum target versions. -/
structure VersionRange where
  minimum : PlatformVersion
  maximum : Option PlatformVersion
  ordered : ∀ highest, maximum = some highest → versionIsBefore highest minimum = false

/-- Caller-selected target implementation and supported compatibility range. -/
structure TargetProfile where
  implementation : String
  versions : VersionRange
  named : (implementation.isEmpty || implementation.toList.contains '\x00') = false

/-! ## Outcomes and plans

Subject-level fidelity decisions, the diagnostics they refer to, and the plan
whose candidate a loss policy releases. -/
open Model

/-! ## Diagnostics -/

/-- Stable machine-readable diagnostic identifier. -/
structure DiagnosticCode where
  asStr : String
  valid : (!asStr.isEmpty && asStr.toList.all fun ch => ch.isUpper || ch.isDigit) = true
deriving DecidableEq

inductive Severity where
  | error
  | warning
  | note
deriving DecidableEq

/-- Plain or sensitive diagnostic field value. -/
inductive DiagnosticValue where
  | plain (value : String)
  | sensitive (value : String)
deriving DecidableEq

structure DiagnosticField where
  name : String
  value : DiagnosticValue
deriving DecidableEq

/-- Structured conversion diagnostic. -/
structure Diagnostic where
  code : DiagnosticCode
  severity : Severity
  summary : String
  fields : List DiagnosticField
deriving DecidableEq

/-! ## Outcomes -/

/-- Fidelity of one source-to-target decision. -/
inductive ConversionKind where
  | exact
  | approximate
  | unsupported
  | invalid
deriving DecidableEq

/-- One subject-level conversion decision; a code accompanies exactly the losses. -/
structure ConversionOutcome where
  subject : String
  kind : ConversionKind
  diagnostic : Option DiagnosticCode
  origins : List Provenance
  linked : kind = .exact ↔ diagnostic = none
deriving DecidableEq

/-- Invalid conversion plan invariant. -/
inductive PlanError where
  | exactOutcomeHasDiagnostic
  | missingDiagnostic (subject : String) (code : DiagnosticCode)
deriving DecidableEq

namespace ConversionOutcome

theorem linked_exact : ConversionKind.exact = .exact ↔ (none : Option DiagnosticCode) = none := by simp

def exact (subject : String) : ConversionOutcome := ⟨subject, .exact, none, [], linked_exact⟩

def loss (subject : String) (kind : ConversionKind) (diagnostic : DiagnosticCode) :
    Except PlanError ConversionOutcome :=
  if h : kind = .exact then .error .exactOutcomeHasDiagnostic
  else .ok ⟨subject, kind, some diagnostic, [], by simp [h]⟩

def withOrigin (outcome : ConversionOutcome) (origin : Provenance) : ConversionOutcome :=
  { outcome with origins := outcome.origins ++ [origin] }

end ConversionOutcome

/-- Caller-selected authorization for non-exact candidate output. -/
inductive LossPolicy where
  | exactOnly
  | allowApproximate
  | allowPartial
deriving DecidableEq

def LossPolicy.permits : LossPolicy → ConversionKind → Bool
  | _, .exact => true
  | policy, .approximate => policy != .exactOnly
  | policy, .unsupported => policy == .allowPartial
  | _, .invalid => false

/-- Every loss among the outcomes has its diagnostic. -/
def Referenced (outcomes : List ConversionOutcome) (diagnostics : List Diagnostic) : Prop :=
  ∀ outcome ∈ outcomes, ∀ code, outcome.diagnostic = some code →
    ∃ diagnostic ∈ diagnostics, diagnostic.code = code

/-- The reference check shared by plan construction and extension. -/
def checkReferences : List ConversionOutcome → List Diagnostic → Except PlanError Unit
  | [], _ => .ok ()
  | outcome :: rest, diagnostics =>
    match outcome.diagnostic with
    | none => checkReferences rest diagnostics
    | some code =>
      if diagnostics.any fun diagnostic => diagnostic.code == code then
        checkReferences rest diagnostics
      else .error (.missingDiagnostic outcome.subject code)

theorem checkReferences_eq_ok {outcomes : List ConversionOutcome} {diagnostics : List Diagnostic} :
    checkReferences outcomes diagnostics = .ok () ↔ Referenced outcomes diagnostics := by
  induction outcomes with
  | nil => simp [checkReferences, Referenced]
  | cons outcome rest ih =>
    unfold Referenced at ih ⊢
    rw [checkReferences, List.forall_mem_cons]
    cases hcode : outcome.diagnostic with
    | none => simp [ih]
    | some code =>
      simp only [Option.some.injEq, forall_eq']
      split
      · next hany =>
        obtain ⟨diagnostic, hmem, hequal⟩ := List.any_eq_true.mp hany
        rw [ih]
        exact ⟨fun hrest => ⟨⟨diagnostic, hmem, beq_iff_eq.mp hequal⟩, hrest⟩, fun h => h.2⟩
      · next hnone =>
        constructor
        · intro h
          cases h
        · rintro ⟨⟨diagnostic, hmem, hequal⟩, -⟩
          exact absurd (List.any_eq_true.mpr ⟨diagnostic, hmem, by rw [hequal, beq_self_eq_true]⟩) hnone

/-! ## Plans -/

/-- Target candidate, decisions, and the diagnostics every loss refers to. -/
structure ConversionPlan (Output : Type) where
  candidate : Option Output
  outcomes : List ConversionOutcome
  diagnostics : List Diagnostic
  referenced : Referenced outcomes diagnostics

/-- Policy-authorized conversion output and its complete report. -/
structure ConversionResult (Output : Type) where
  output : Option Output
  candidateBlocked : Bool
  outcomes : List ConversionOutcome
  diagnostics : List Diagnostic

namespace ConversionPlan
variable {Output : Type}

def new (candidate : Option Output) (outcomes : List ConversionOutcome)
    (diagnostics : List Diagnostic) : Except PlanError (ConversionPlan Output) :=
  match h : checkReferences outcomes diagnostics with
  | .error error => .error error
  | .ok () => .ok ⟨candidate, outcomes, diagnostics, checkReferences_eq_ok.mp h⟩

theorem extend_referenced (plan : ConversionPlan Output) {outcomes : List ConversionOutcome}
    {diagnostics : List Diagnostic} (h : Referenced outcomes (plan.diagnostics ++ diagnostics)) :
    Referenced (outcomes ++ plan.outcomes) (plan.diagnostics ++ diagnostics) := by
  intro outcome hmem code hcode
  rcases List.mem_append.mp hmem with himported | hplanned
  · exact h outcome himported code hcode
  · obtain ⟨diagnostic, hdiagnostic, hequal⟩ := plan.referenced outcome hplanned code hcode
    exact ⟨diagnostic, List.mem_append_left _ hdiagnostic, hequal⟩

/-- Puts the import decisions before the planned ones; the diagnostics follow the planned ones. -/
def extendImport (plan : ConversionPlan Output) (outcomes : List ConversionOutcome)
    (diagnostics : List Diagnostic) : Except PlanError (ConversionPlan Output) :=
  match h : checkReferences outcomes (plan.diagnostics ++ diagnostics) with
  | .error error => .error error
  | .ok () => .ok ⟨plan.candidate, outcomes ++ plan.outcomes, plan.diagnostics ++ diagnostics,
      plan.extend_referenced (checkReferences_eq_ok.mp h)⟩

theorem extendImport_eq_ok {plan extended : ConversionPlan Output}
    {outcomes : List ConversionOutcome} {diagnostics : List Diagnostic} :
    plan.extendImport outcomes diagnostics = .ok extended ↔
      Referenced outcomes (plan.diagnostics ++ diagnostics) ∧
        extended.candidate = plan.candidate ∧ extended.outcomes = outcomes ++ plan.outcomes ∧
        extended.diagnostics = plan.diagnostics ++ diagnostics := by
  unfold extendImport
  rw [← checkReferences_eq_ok]
  split
  · next herror => simp [herror]
  · next hok =>
    obtain ⟨candidate, planned, found, hreferenced⟩ := extended
    simp only [Except.ok.injEq, ConversionPlan.mk.injEq, hok, true_and]
    constructor
    · rintro ⟨rfl, rfl, rfl⟩
      exact ⟨rfl, rfl, rfl⟩
    · rintro ⟨rfl, rfl, rfl⟩
      exact ⟨rfl, rfl, rfl⟩

def hasError (diagnostics : List Diagnostic) : Bool :=
  diagnostics.any fun diagnostic => diagnostic.severity == .error

def blocked (plan : ConversionPlan Output) (policy : LossPolicy) : Bool :=
  plan.candidate.isNone || plan.outcomes.any (fun outcome => !policy.permits outcome.kind) ||
    hasError plan.diagnostics

/-- Applies a loss policy without changing the candidate. -/
def authorize (plan : ConversionPlan Output) (policy : LossPolicy) : ConversionResult Output where
  output := if plan.blocked policy then none else plan.candidate
  candidateBlocked := plan.blocked policy
  outcomes := plan.outcomes
  diagnostics := plan.diagnostics

theorem hasError_eq_false {diagnostics : List Diagnostic} :
    hasError diagnostics = false ↔ ∀ diagnostic ∈ diagnostics, diagnostic.severity ≠ .error := by
  unfold hasError
  rw [List.any_eq_false]
  simp

theorem authorize_output {plan : ConversionPlan Output} {policy : LossPolicy} {output : Output} :
    (plan.authorize policy).output = some output ↔
      plan.candidate = some output ∧ (∀ outcome ∈ plan.outcomes, policy.permits outcome.kind = true) ∧
        ∀ diagnostic ∈ plan.diagnostics, diagnostic.severity ≠ .error := by
  have hblocked : plan.blocked policy = false ↔ plan.candidate.isNone = false ∧
      (∀ outcome ∈ plan.outcomes, policy.permits outcome.kind = true) ∧
        ∀ diagnostic ∈ plan.diagnostics, diagnostic.severity ≠ .error := by
    rw [← hasError_eq_false]
    simp [blocked, and_assoc]
  rw [authorize]
  simp only
  split
  · next hheld =>
    simp only [reduceCtorEq, false_iff]
    rintro ⟨hcandidate, hpermitted⟩
    have hfree := hblocked.mpr ⟨by rw [hcandidate]; rfl, hpermitted⟩
    rw [hheld] at hfree
    cases hfree
  · next hfree =>
    rw [Bool.not_eq_true] at hfree
    constructor
    · intro h
      exact ⟨h, (hblocked.mp hfree).2⟩
    · intro h
      exact h.1

end ConversionPlan

end Boxferry.Engine
