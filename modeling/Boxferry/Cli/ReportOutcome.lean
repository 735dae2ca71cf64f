import Mathlib.Data.List.Destutter
import Mathlib.Data.Prod.Lex
import Mathlib.Data.String.Basic
import Mathlib.Algebra.Order.BigOperators.Group.List
import Mathlib.Algebra.Order.Group.Nat
import Boxferry.Cli.ReportFitting
import Boxferry.Cli.WithinLimits
import Boxferry.Library.FirstOccurrences
import Boxferry.Library.StableSort

/-! # The outcome of a report

The diagnostics of a report without repetitions and in order, the diagnostic to fix first before all
others, and the JSON of the report within its size. -/
namespace Boxferry.Cli
open FirstOccurrences Model StableSort
set_option autoImplicit false

def maxJsonBytes : Nat := 4 * 1024 * 1024

/-- A rule of the registry. -/
structure DiagnosticRule extends RuleDefinition where
  description : String

def eqIgnoreAsciiCase (left right : String) : Bool := asciiLower left = asciiLower right

def findRule (rules : List DiagnosticRule) (value : String) : Option DiagnosticRule :=
  rules.find? fun rule => eqIgnoreAsciiCase rule.code value || eqIgnoreAsciiCase rule.name value

/-! ## The order of the diagnostics -/

/-- Diagnostics of one debug text are one diagnostic. -/
def deduplicateReportDiagnostics (debug : ReportDiagnostic → String) (diagnostics : List ReportDiagnostic) :
    List ReportDiagnostic :=
  distinctBy debug [] diagnostics

/-- The number of an input alias. -/
def inputNumber (source : String) : Option Nat :=
  if startsWith source "<input-" then
    let value := source.toList.drop 7
    if value.getLast? = some '>' then parseUnsigned (usizeMax + 1) (String.ofList value.dropLast) else none
  else none

def diagnosticOccurrenceKey (diagnostic : ReportDiagnostic) : Nat × Nat :=
  match diagnostic.spans.head? with
  | none => (usizeMax, usizeMax)
  | some span => ((inputNumber span.source).getD usizeMax, span.start)

/-- The code, and then the occurrence. -/
def diagnosticOrder (diagnostic : ReportDiagnostic) : Lex (String × Lex (Nat × Nat)) :=
  toLex (diagnostic.code, toLex (diagnosticOccurrenceKey diagnostic))

def normalizeReportDiagnostics (debug : ReportDiagnostic → String) (diagnostics : List ReportDiagnostic) :
    List ReportDiagnostic :=
  sortBy diagnosticOrder (deduplicateReportDiagnostics debug diagnostics)

def causalRank (primary : Option String) (diagnostic : ReportDiagnostic) : Nat :=
  if some diagnostic.code = primary then 0
  else if diagnostic.code = "BFO3001" ∨ diagnostic.code = "BFO3002" then 3
  else if diagnostic.severity = "error" then 1
  else 2

def orderReportDiagnosticsCausally (report : ConversionReport) : ConversionReport :=
  { report with diagnostics := sortBy (causalRank report.primaryDiagnosticCode) report.diagnostics }

/-! ## The primary diagnostic -/

/-- The code that a stage fails with, or the beginning of its codes. -/
def stageCode : Option FailedStage → Option String
  | some .inputRead => some "BFO1001"
  | some .interpolation => some "BFO1004"
  | some .composeLoad | some .composeMerge | some .profileSelection => some "BFO1005"
  | some .quadletParse | some .quadletDocumentSet => some "BFO1007"
  | some .outputWrite => some "BFO2"
  | some .reportWrite => some "BFO3"
  | _ => none

/-- The diagnostic to fix first, of normalized diagnostics. -/
def ConversionReport.primaryDiagnostic (report : ConversionReport) : Option ReportDiagnostic :=
  let retained := report.primaryDiagnosticCode.bind fun code =>
    report.diagnostics.find? fun diagnostic => diagnostic.code = code
  if report.status = .blocked then
    retained.or (report.diagnostics.find? fun diagnostic =>
      diagnostic.severity = "error" || diagnostic.severity = "warning")
  else
    (retained.or ((stageCode report.failedStage).bind fun code =>
      report.diagnostics.find? fun diagnostic => diagnostic.code = code || startsWith diagnostic.code code)).or
        (report.diagnostics.find? fun diagnostic => diagnostic.severity = "error")

def fixFirstOf (rules : List DiagnosticRule) (primary : ReportDiagnostic) : FixFirst where
  code := primary.code
  name := primary.name
  description := (findRule rules primary.code).elim primary.summary DiagnosticRule.description
  help := (findRule rules primary.code).elim primary.help fun rule => rule.help
  nextStep := "Apply this help, then rerun BoxFerry; remaining findings may disappear or change."

/-- The report with what it says about its primary diagnostic. -/
def ConversionReport.withPrimary (rules : List DiagnosticRule) (report : ConversionReport)
    (primary : Option ReportDiagnostic) : ConversionReport :=
  { report with
    primaryDiagnosticCode := primary.map ReportDiagnostic.code
    failureSummary := primary.map fun primary => primary.code ++ " " ++ primary.name ++ " — " ++ primary.summary
    fixFirst := primary.map (fixFirstOf rules) }

def ConversionReport.refreshOutcome (debug : ReportDiagnostic → String) (rules : List DiagnosticRule)
    (report : ConversionReport) : ConversionReport :=
  let report := { report with diagnostics := normalizeReportDiagnostics debug report.diagnostics }
  if report.status = .success then report.withPrimary rules none
  else orderReportDiagnosticsCausally (report.withPrimary rules report.primaryDiagnostic)

def refreshReportOutcome (debug : ReportDiagnostic → String) (rules : List DiagnosticRule)
    (report : InvocationReport) : InvocationReport :=
  { report with conversion := report.conversion.refreshOutcome debug rules }

/-! ## The JSON of a report -/

def nativeRedactions (finding : ReportNativeFinding) : Nat :=
  (if finding.summary = redacted then 1 else 0) + (if finding.help = some redacted then 1 else 0) +
    finding.fields.countP (fun field => field.value = redacted) +
    finding.labels.countP (fun label => label.message = redacted) + finding.notes.countP (fun note => note = redacted)

/-- How much of the diagnostics is redacted, with what a snapshot has redacted. -/
def ConversionReport.redactionCounted (report : ConversionReport) (podmanSnapshotRedactions : Option Nat) :
    RedactionSummary :=
  let summaries := report.diagnostics.countP fun diagnostic => diagnostic.summary = redacted
  let fields := (report.diagnostics.flatMap ReportDiagnostic.fields).countP fun field => field.value = redacted
  let found := ((report.diagnostics.filterMap ReportDiagnostic.nativeFinding).map nativeRedactions).sum
  let classes := (if 0 < summaries then ["plain-text-pattern"] else []) ++
    (if 0 < fields + found then ["protected-value"] else [])
  match podmanSnapshotRedactions with
  | none => { report.redaction with count := summaries + fields + found, classes := classes }
  | some count => { report.redaction with
      count := min (summaries + fields + found + count) usizeMax
      classes := (sortBy id (classes ++ ["podman-support-snapshot"])).destutter (· ≠ ·) }

def InvocationReport.countRedaction (podmanSnapshotRedactions : Option Nat) (report : InvocationReport) :
    InvocationReport :=
  { report with conversion := { report.conversion with
      redaction := report.conversion.redactionCounted podmanSnapshotRedactions } }

/-! ## Normal order -/

section Order
variable {debug : ReportDiagnostic → String} {rules : List DiagnosticRule} {diagnostics : List ReportDiagnostic}

theorem normalize_subperm : (normalizeReportDiagnostics debug diagnostics).Subperm diagnostics :=
  sortBy_perm.subperm.trans distinctBy_sublist.subperm

theorem map_debug_nodup : ((normalizeReportDiagnostics debug diagnostics).map debug).Nodup :=
  (sortBy_perm.map debug).nodup_iff.mpr distinctBy_nodup.1

/-- Normalizing an arrangement of normalized diagnostics only sorts. -/
theorem normalize_of_perm {others : List ReportDiagnostic}
    (h : others.Perm (normalizeReportDiagnostics debug diagnostics)) :
    normalizeReportDiagnostics debug others = sortBy diagnosticOrder others := by
  have hnodup : (others.map debug).Nodup := (h.map debug).nodup_iff.mpr map_debug_nodup
  unfold normalizeReportDiagnostics deduplicateReportDiagnostics
  rw [distinctBy_eq_self hnodup fun _ _ => List.not_mem_nil]

/-- The causal order of normalized diagnostics is settled. -/
theorem causal_settled (primary : Option String) :
    sortBy (causalRank primary) (normalizeReportDiagnostics debug
      (sortBy (causalRank primary) (normalizeReportDiagnostics debug diagnostics))) =
    sortBy (causalRank primary) (normalizeReportDiagnostics debug diagnostics) := by
  rw [normalize_of_perm sortBy_perm]
  exact sortBy_settled

/-- Which diagnostic is found, if any, depends on the arrangement; that one is found does not. -/
theorem find_perm_isSome {others : List ReportDiagnostic} (h : others.Perm diagnostics)
    (p : ReportDiagnostic → Bool) : (others.find? p).isSome = (diagnostics.find? p).isSome := by
  rw [Bool.eq_iff_iff, List.find?_isSome, List.find?_isSome]
  simp only [h.mem_iff]

end Order

/-! ## The primary diagnostic stays -/

section Primary
variable {debug : ReportDiagnostic → String} {rules : List DiagnosticRule} {report : ConversionReport}
  {primary : ReportDiagnostic}

theorem primaryDiagnostic_mem (h : report.primaryDiagnostic = some primary) : primary ∈ report.diagnostics := by
  have hfind : ∀ p, report.diagnostics.find? p = some primary → primary ∈ report.diagnostics :=
    fun _ => List.mem_of_find?_eq_some
  unfold ConversionReport.primaryDiagnostic at h
  by_cases hblocked : report.status = .blocked
  · rw [if_pos hblocked, Option.or_eq_some_iff] at h
    obtain h | ⟨-, h⟩ := h
    · obtain ⟨code, -, h⟩ := Option.bind_eq_some_iff.mp h
      exact hfind _ h
    · exact hfind _ h
  · rw [if_neg hblocked, Option.or_eq_some_iff, Option.or_eq_some_iff] at h
    obtain (h | ⟨-, h⟩) | ⟨-, h⟩ := h
    · obtain ⟨code, -, h⟩ := Option.bind_eq_some_iff.mp h
      exact hfind _ h
    · obtain ⟨code, -, h⟩ := Option.bind_eq_some_iff.mp h
      exact hfind _ h
    · exact hfind _ h

/-- Without a primary diagnostic there is no error. -/
theorem severity_of_primaryDiagnostic (h : report.primaryDiagnostic = none) :
    ∀ diagnostic ∈ report.diagnostics, diagnostic.severity ≠ "error" := by
  intro diagnostic hdiagnostic herror
  unfold ConversionReport.primaryDiagnostic at h
  by_cases hblocked : report.status = .blocked
  · rw [if_pos hblocked, Option.or_eq_none_iff, List.find?_eq_none] at h
    have hnone := h.2 diagnostic hdiagnostic
    simp [herror] at hnone
  · rw [if_neg hblocked, Option.or_eq_none_iff, List.find?_eq_none] at h
    have hnone := h.2 diagnostic hdiagnostic
    simp [herror] at hnone

/-- A retained code whose diagnostic is still there is that of the primary diagnostic. -/
theorem primaryDiagnostic_retained {code : String} (hcode : report.primaryDiagnosticCode = some code)
    (hmem : ∃ diagnostic ∈ report.diagnostics, diagnostic.code = code) :
    report.primaryDiagnostic = report.diagnostics.find? fun diagnostic => diagnostic.code = code := by
  have hsome : (report.diagnostics.find? fun diagnostic => diagnostic.code = code).isSome := by
    rw [List.find?_isSome]
    simpa using hmem
  obtain ⟨found, hfound⟩ := Option.isSome_iff_exists.mp hsome
  unfold ConversionReport.primaryDiagnostic
  rw [hcode, Option.bind_some, hfound]
  split <;> rfl

/-- Without a retained code, that there is a primary diagnostic does not depend on the arrangement. -/
theorem primaryDiagnostic_none {others : ConversionReport} (h : report.primaryDiagnostic = none)
    (hcode : others.primaryDiagnosticCode = none) (hstatus : others.status = report.status)
    (hstage : others.failedStage = report.failedStage) (hperm : others.diagnostics.Perm report.diagnostics) :
    others.primaryDiagnostic = none := by
  have hfind : ∀ p, report.diagnostics.find? p = none → others.diagnostics.find? p = none := by
    intro p hnone
    have hsame := find_perm_isSome hperm p
    rw [hnone] at hsame
    exact Option.not_isSome_iff_eq_none.mp (by simp [hsame])
  unfold ConversionReport.primaryDiagnostic at h ⊢
  rw [hcode, hstatus, hstage]
  by_cases hblocked : report.status = .blocked
  · rw [if_pos hblocked, Option.or_eq_none_iff] at h
    rw [if_pos hblocked, Option.bind_none, Option.none_or]
    exact hfind _ h.2
  · rw [if_neg hblocked, Option.or_eq_none_iff, Option.or_eq_none_iff] at h
    rw [if_neg hblocked, Option.bind_none, Option.none_or, Option.or_eq_none_iff]
    refine ⟨?_, hfind _ h.2⟩
    cases hstart : stageCode report.failedStage with
    | none => rfl
    | some code =>
      rw [hstart] at h
      exact hfind _ h.1.2

end Primary

/-! ## Refreshing again -/

section Refreshing
variable (debug : ReportDiagnostic → String) (rules : List DiagnosticRule)

/-- The report with its diagnostics normalized, which the outcome is read from. -/
def ConversionReport.normalized (report : ConversionReport) : ConversionReport :=
  { report with diagnostics := normalizeReportDiagnostics debug report.diagnostics }

theorem refreshOutcome_success (report : ConversionReport) (h : report.status = .success) :
    report.refreshOutcome debug rules = (report.normalized debug).withPrimary rules none :=
  if_pos h

theorem refreshOutcome_else (report : ConversionReport) (h : report.status ≠ .success) :
    report.refreshOutcome debug rules = orderReportDiagnosticsCausally
      ((report.normalized debug).withPrimary rules (report.normalized debug).primaryDiagnostic) :=
  if_neg h

/-- The primary diagnostic of a refreshed report has the code of the one it was refreshed with. -/
theorem primaryDiagnostic_refreshed (report : ConversionReport) (h : report.status ≠ .success) :
    (((report.refreshOutcome debug rules).normalized debug).primaryDiagnostic).map ReportDiagnostic.code =
      ((report.normalized debug).primaryDiagnostic).map ReportDiagnostic.code := by
  have hperm : ((report.refreshOutcome debug rules).normalized debug).diagnostics.Perm
      (report.normalized debug).diagnostics := by
    rw [refreshOutcome_else debug rules report h]
    show (normalizeReportDiagnostics debug (sortBy _ (normalizeReportDiagnostics debug report.diagnostics))).Perm _
    rw [normalize_of_perm sortBy_perm]
    exact sortBy_perm.trans sortBy_perm
  have hcode : ((report.refreshOutcome debug rules).normalized debug).primaryDiagnosticCode =
      ((report.normalized debug).primaryDiagnostic).map ReportDiagnostic.code := by
    rw [refreshOutcome_else debug rules report h]
    rfl
  have hstatus : ((report.refreshOutcome debug rules).normalized debug).status = (report.normalized debug).status := by
    rw [refreshOutcome_else debug rules report h]
    rfl
  have hstage : ((report.refreshOutcome debug rules).normalized debug).failedStage =
      (report.normalized debug).failedStage := by
    rw [refreshOutcome_else debug rules report h]
    rfl
  cases hprimary : (report.normalized debug).primaryDiagnostic with
  | none =>
    rw [hprimary] at hcode
    rw [primaryDiagnostic_none hprimary hcode hstatus hstage hperm]
  | some primary =>
    rw [hprimary] at hcode
    have hmem := hperm.mem_iff.mpr (primaryDiagnostic_mem hprimary)
    rw [primaryDiagnostic_retained hcode ⟨primary, hmem, rfl⟩, Option.map_some]
    cases hfound : ((report.refreshOutcome debug rules).normalized debug).diagnostics.find?
        fun diagnostic => diagnostic.code = primary.code with
    | none =>
      rw [List.find?_eq_none] at hfound
      exact absurd (decide_eq_true rfl) (hfound primary hmem)
    | some found =>
      have hsame := List.find?_some hfound
      rw [Option.map_some, of_decide_eq_true hsame]

/-- What a refreshed report is refreshed to, but for its diagnostics. -/
theorem withPrimary_refreshed (report : ConversionReport) (primary : Option ReportDiagnostic) :
    ((report.refreshOutcome debug rules).normalized debug).withPrimary rules primary =
      ({ report with
        diagnostics := normalizeReportDiagnostics debug (report.refreshOutcome debug rules).diagnostics } :
          ConversionReport).withPrimary rules primary := by
  by_cases h : report.status = .success
  · rw [refreshOutcome_success debug rules report h]
    rfl
  · rw [refreshOutcome_else debug rules report h]
    rfl

theorem status_refreshed (report : ConversionReport) :
    (report.refreshOutcome debug rules).status = report.status := by
  by_cases h : report.status = .success
  · rw [refreshOutcome_success debug rules report h]
    rfl
  · rw [refreshOutcome_else debug rules report h]
    rfl

/-- A report without failure is refreshed once. -/
theorem refresh_success (report : ConversionReport) (h : report.status = .success) :
    (report.refreshOutcome debug rules).refreshOutcome debug rules = report.refreshOutcome debug rules := by
  have hagain := (status_refreshed debug rules report).trans h
  have hdiagnostics : normalizeReportDiagnostics debug (report.refreshOutcome debug rules).diagnostics =
      normalizeReportDiagnostics debug report.diagnostics := by
    rw [refreshOutcome_success debug rules report h]
    show normalizeReportDiagnostics debug (normalizeReportDiagnostics debug report.diagnostics) = _
    rw [normalize_of_perm (List.Perm.refl _)]
    exact sortBy_eq_self sorted_sortBy
  rw [refreshOutcome_success debug rules _ hagain, withPrimary_refreshed, hdiagnostics,
    refreshOutcome_success debug rules report h]
  rfl

section Failed
variable (report : ConversionReport) (h : report.status ≠ .success)
include h

theorem code_refreshed : (report.refreshOutcome debug rules).primaryDiagnosticCode =
    ((report.normalized debug).primaryDiagnostic).map ReportDiagnostic.code := by
  rw [refreshOutcome_else debug rules report h]
  rfl

theorem diagnostics_refreshed : (report.refreshOutcome debug rules).diagnostics =
    sortBy (causalRank (((report.normalized debug).primaryDiagnostic).map ReportDiagnostic.code))
      (normalizeReportDiagnostics debug report.diagnostics) := by
  rw [refreshOutcome_else debug rules report h]
  rfl

theorem code_refreshed_twice :
    ((report.refreshOutcome debug rules).refreshOutcome debug rules).primaryDiagnosticCode =
      (report.refreshOutcome debug rules).primaryDiagnosticCode := by
  have hagain : (report.refreshOutcome debug rules).status ≠ .success := by
    rwa [status_refreshed debug rules report]
  rw [code_refreshed debug rules _ hagain, primaryDiagnostic_refreshed debug rules report h,
    code_refreshed debug rules report h]

theorem diagnostics_refreshed_twice :
    ((report.refreshOutcome debug rules).refreshOutcome debug rules).diagnostics =
      (report.refreshOutcome debug rules).diagnostics := by
  have hagain : (report.refreshOutcome debug rules).status ≠ .success := by
    rwa [status_refreshed debug rules report]
  rw [diagnostics_refreshed debug rules _ hagain, primaryDiagnostic_refreshed debug rules report h,
    diagnostics_refreshed debug rules report h]
  exact causal_settled _

end Failed

/-- The same code retained among the same diagnostics is that of the same primary diagnostic. -/
theorem primaryDiagnostic_refreshed_twice (report : ConversionReport) (h : report.status ≠ .success) :
    (((report.refreshOutcome debug rules).refreshOutcome debug rules).normalized debug).primaryDiagnostic =
      ((report.refreshOutcome debug rules).normalized debug).primaryDiagnostic := by
  have hagain : (report.refreshOutcome debug rules).status ≠ .success := by
    rwa [status_refreshed debug rules report]
  have hsame := primaryDiagnostic_refreshed debug rules (report.refreshOutcome debug rules) hagain
  have hcode := code_refreshed_twice debug rules report h
  have hdiagnostics : (((report.refreshOutcome debug rules).refreshOutcome debug rules).normalized debug).diagnostics =
      ((report.refreshOutcome debug rules).normalized debug).diagnostics :=
    congrArg (normalizeReportDiagnostics debug) (diagnostics_refreshed_twice debug rules report h)
  have hretained := primaryDiagnostic_refreshed debug rules report h
  rw [← code_refreshed debug rules report h] at hretained
  cases hprimary : ((report.refreshOutcome debug rules).normalized debug).primaryDiagnostic with
  | none =>
    rw [hprimary, Option.map_none, Option.map_eq_none_iff] at hsame
    exact hsame
  | some primary =>
    rw [hprimary, Option.map_some] at hretained
    have hmem := primaryDiagnostic_mem hprimary
    have hfound := @primaryDiagnostic_retained ((report.refreshOutcome debug rules).normalized debug) primary.code
      hretained.symm ⟨primary, hmem, rfl⟩
    rw [← hdiagnostics] at hmem hfound
    rw [← hprimary, hfound]
    exact primaryDiagnostic_retained (hcode.trans hretained.symm) ⟨primary, hmem, rfl⟩

/-- Refreshing a refreshed report leaves its diagnostics and its primary code; after that it changes nothing. -/
theorem refresh_settles (report : InvocationReport) :
    (refreshReportOutcome debug rules (refreshReportOutcome debug rules report)).conversion.diagnostics =
      (refreshReportOutcome debug rules report).conversion.diagnostics ∧
    (refreshReportOutcome debug rules (refreshReportOutcome debug rules report)).conversion.primaryDiagnosticCode =
      (refreshReportOutcome debug rules report).conversion.primaryDiagnosticCode ∧
    refreshReportOutcome debug rules (refreshReportOutcome debug rules (refreshReportOutcome debug rules report)) =
      refreshReportOutcome debug rules (refreshReportOutcome debug rules report) := by
  obtain ⟨conversion, operation, members, inputs⟩ := report
  unfold refreshReportOutcome
  dsimp only
  by_cases h : conversion.status = .success
  · rw [refresh_success debug rules conversion h, refresh_success debug rules conversion h]
    exact ⟨rfl, rfl, rfl⟩
  · refine ⟨diagnostics_refreshed_twice debug rules conversion h, code_refreshed_twice debug rules conversion h, ?_⟩
    have honce : (conversion.refreshOutcome debug rules).status ≠ .success := by
      rwa [status_refreshed debug rules conversion]
    have htwice : ((conversion.refreshOutcome debug rules).refreshOutcome debug rules).status ≠ .success := by
      rwa [status_refreshed debug rules _]
    have hsettled : ((conversion.refreshOutcome debug rules).refreshOutcome debug rules).refreshOutcome debug rules =
        (conversion.refreshOutcome debug rules).refreshOutcome debug rules := by
      rw [refreshOutcome_else debug rules _ htwice, primaryDiagnostic_refreshed_twice debug rules conversion h,
        withPrimary_refreshed, diagnostics_refreshed_twice debug rules conversion h,
        refreshOutcome_else debug rules _ honce]
      rfl
    rw [hsettled]

end Refreshing
end Boxferry.Cli
