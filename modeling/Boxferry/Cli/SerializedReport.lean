import Boxferry.Cli.EnforcedLimits
import Boxferry.Cli.ReportOutcome

/-! # The serialized report

The report whose JSON is written: refreshed, limited, and reduced until the JSON fits, with a refresh
after every reduction. -/
namespace Boxferry.Cli
open FirstOccurrences Model StableSort
set_option autoImplicit false

/-! ## Refreshing adds nothing -/

section Refreshing
variable (debug : ReportDiagnostic → String) (rules : List DiagnosticRule)

theorem refreshed_subperm (report : ConversionReport) :
    (report.refreshOutcome debug rules).diagnostics.Subperm report.diagnostics := by
  by_cases h : report.status = .success
  · rw [refreshOutcome_success debug rules report h]
    exact normalize_subperm
  · rw [diagnostics_refreshed debug rules report h]
    exact sortBy_perm.subperm.trans normalize_subperm

theorem sum_map_le_of_subperm {α : Type} {values others : List α} (measure : α → Nat) (h : values.Subperm others) :
    (values.map measure).sum ≤ (others.map measure).sum := by
  obtain ⟨kept, hperm, hsublist⟩ := h
  calc (values.map measure).sum
      = (kept.map measure).sum := ((hperm.map _).sum_eq).symm
    _ ≤ (others.map measure).sum := (hsublist.map _).sum_le_sum fun _ _ => Nat.zero_le _

theorem refreshed_elements_le (report : ConversionReport) :
    (report.refreshOutcome debug rules).elements ≤ report.elements := by
  have hsub := refreshed_subperm debug rules report
  have hsum := sum_map_le_of_subperm ReportDiagnostic.elements hsub
  have hlength := hsub.length_le
  have hothers : (report.refreshOutcome debug rules).elements =
      { report with diagnostics := (report.refreshOutcome debug rules).diagnostics }.elements := by
    by_cases h : report.status = .success
    · rw [refreshOutcome_success debug rules report h]
      rfl
    · rw [refreshOutcome_else debug rules report h]
      rfl
  rw [hothers]
  unfold ConversionReport.elements
  dsimp only
  omega

/-- The refresh between two reductions. -/
def outcomeRefresh : Refresh where
  apply := refreshReportOutcome debug rules
  elements_le report := by
    have h := refreshed_elements_le debug rules report.conversion
    unfold InvocationReport.elements refreshReportOutcome
    dsimp only
    omega
  truncations_eq report := by
    show (report.conversion.refreshOutcome debug rules).truncations = _
    by_cases h : report.conversion.status = .success
    · rw [refreshOutcome_success debug rules report.conversion h]
      rfl
    · rw [refreshOutcome_else debug rules report.conversion h]
      rfl

def serializeReport (encode : InvocationReport → String) (podmanSnapshotRedactions : Option Nat)
    (report : InvocationReport) : Except String String × InvocationReport :=
  let limited := (refreshReportOutcome debug rules report).enforceV1Limits
  let counted := limited.countRedaction podmanSnapshotRedactions
  let last := (counted.shrink (fun report => (encode report).utf8ByteSize ≤ maxJsonBytes)
    (outcomeRefresh debug rules)).2
  if maxJsonBytes < (encode last).utf8ByteSize then (.error "report exceeds the v1 JSON size cap", last)
  else (.ok (encode last), last)

end Refreshing

/-! ## The diagnostic to fix first -/

/-- What a report says about its primary diagnostic: that of the code, the one to fix first and the first
of the diagnostics are the same, and only a report without errors has none. -/
inductive ConversionReport.Headed (report : ConversionReport) : Prop
  | absent (hcode : report.primaryDiagnosticCode = none) (hsummary : report.failureSummary = none)
      (hfix : report.fixFirst = none)
      (herrors : report.status = .success ∨ ∀ diagnostic ∈ report.diagnostics, diagnostic.severity ≠ "error")
  | present {first : ReportDiagnostic} {rest : List ReportDiagnostic} {fixFirst : FixFirst}
      (hstatus : report.status ≠ .success) (hdiagnostics : report.diagnostics = first :: rest)
      (hcode : report.primaryDiagnosticCode = some first.code) (hsummary : report.failureSummary.isSome)
      (hfix : report.fixFirst = some fixFirst) (hsame : fixFirst.code = first.code)

theorem refreshOutcome_headed (debug : ReportDiagnostic → String) (rules : List DiagnosticRule)
    (report : ConversionReport) : (report.refreshOutcome debug rules).Headed := by
  by_cases h : report.status = .success
  · rw [refreshOutcome_success debug rules report h]
    exact .absent rfl rfl rfl (.inl h)
  · rw [refreshOutcome_else debug rules report h]
    cases hprimary : (report.normalized debug).primaryDiagnostic with
    | none =>
      refine .absent rfl rfl rfl (.inr fun diagnostic hdiagnostic => ?_)
      have hmem := (mem_sortBy.mp hdiagnostic : diagnostic ∈ (report.normalized debug).diagnostics)
      exact severity_of_primaryDiagnostic hprimary diagnostic hmem
    | some primary =>
      obtain ⟨first, rest, hsort, hrank⟩ := @head_sortBy _ _ _ (causalRank (some primary.code)) _ _
        (primaryDiagnostic_mem hprimary)
      have hzero : causalRank (some primary.code) primary = 0 := if_pos rfl
      have hcode : first.code = primary.code := by
        by_contra hother
        rw [hzero, causalRank, if_neg fun hsame => hother (Option.some.inj hsame)] at hrank
        split at hrank
        · omega
        · split at hrank <;> omega
      exact .present h hsort (congrArg some hcode.symm) rfl rfl hcode.symm

/-! ## Limits -/

/-- A short text is the cut of itself only. -/
theorem limitText_eq_short {value short : String} (hshort : short.utf8ByteSize + 4 ≤ maxTextBytes)
    (h : limitText value = short) : value = short := by
  by_cases hfits : value.utf8ByteSize ≤ maxTextBytes
  · rw [← limitText_eq_self hfits, h]
  · rw [utf8ByteSize_toList] at hfits
    have hlong := Utf8Text.lt_size_upTo (Nat.not_le.mp hfits)
    have hsize : (limitText value).utf8ByteSize = Utf8Text.size (Utf8Text.upTo maxTextBytes value.toList) :=
      utf8ByteSize_ofList _
    rw [h] at hsize
    omega

theorem enforce_conversion (report : InvocationReport) : ∃ truncations,
    report.enforceV1Limits.conversion = { report.conversion.limited with truncations := truncations } := by
  have hlimit : (report.conversion.limit report.conversion.truncations).1 = report.conversion.limited := by
    unfold ConversionReport.limit
    rw [run_bind, report.conversion.emits_collections]
    dsimp only
    rw [run_bind, run_bind, report.conversion.emits_contents]
    rfl
  refine ⟨report.enforceV1Limits.conversion.truncations, ?_⟩
  rw [← hlimit]
  rfl

/-- Codes that agree are cut alike, and the first diagnostic is kept. -/
theorem ConversionReport.Headed.limited {report : ConversionReport} (h : report.Headed) (truncations : List Truncation) :
    ({ report.limited with truncations := truncations } : ConversionReport).Headed := by
  cases h with
  | absent hcode hsummary hfix herrors =>
    refine .absent ?_ ?_ ?_ ?_
    · show report.primaryDiagnosticCode.map limitText = _
      rw [hcode, Option.map_none]
    · show report.failureSummary.map limitText = _
      rw [hsummary, Option.map_none]
    · show report.fixFirst.map FixFirst.limited = _
      rw [hfix, Option.map_none]
    · refine herrors.imp_right fun herrors diagnostic hdiagnostic hsame => ?_
      obtain ⟨original, horiginal, rfl⟩ := List.mem_map.mp
        (show diagnostic ∈ (keptItems report.diagnostics).map ReportDiagnostic.limited from hdiagnostic)
      have hsize : "error".utf8ByteSize + 4 ≤ maxTextBytes := by decide
      exact herrors original (List.mem_of_mem_take horiginal) (limitText_eq_short hsize hsame)
  | present hstatus hdiagnostics hcode hsummary hfix hsame =>
    rename_i first rest fixFirst
    have hkept : keptItems (first :: rest) = first :: rest.take 2047 := rfl
    have hfirst : (keptItems report.diagnostics).map ReportDiagnostic.limited =
        first.limited :: (rest.take 2047).map ReportDiagnostic.limited := by
      rw [hdiagnostics, hkept, List.map_cons]
    have hlimited : report.primaryDiagnosticCode.map limitText = some first.limited.code := by
      rw [hcode]
      rfl
    have hfixed : report.fixFirst.map FixFirst.limited = some fixFirst.limited := by
      rw [hfix]
      rfl
    have hsummarized : (report.failureSummary.map limitText).isSome := by
      rw [Option.isSome_map]
      exact hsummary
    exact .present hstatus hfirst hlimited hsummarized hfixed (congrArg limitText hsame)

theorem ConversionReport.Headed.redaction {report : ConversionReport} (h : report.Headed) (redaction : RedactionSummary) :
    ({ report with redaction := redaction } : ConversionReport).Headed := by
  cases h with
  | absent hcode hsummary hfix herrors => exact .absent hcode hsummary hfix herrors
  | present hstatus hdiagnostics hcode hsummary hfix hsame =>
    exact .present hstatus hdiagnostics hcode hsummary hfix hsame

/-! ## Reductions -/

section Serialized
variable (debug : ReportDiagnostic → String) (rules : List DiagnosticRule)

/-- Whatever is reduced, the last report was refreshed or not reduced. -/
theorem shrink_headed (fits : InvocationReport → Bool) (report : InvocationReport) (h : report.conversion.Headed) :
    (report.shrink fits (outcomeRefresh debug rules)).2.conversion.Headed := by
  fun_induction InvocationReport.shrink fits (outcomeRefresh debug rules) report with
  | case1 report hfits => exact h
  | case2 report hfits next hnext hless rest ih => exact ih (refreshOutcome_headed debug rules next.conversion)
  | case3 report hfits same hsame =>
    rw [(InvocationReport.reduceForJson_false hsame).2]
    exact h

/-- The report that is serialized is headed by its primary diagnostic, and what is written is the JSON of
that report, within the size. -/
theorem serialize_report_headed (encode : InvocationReport → String) (podmanSnapshotRedactions : Option Nat)
    (report : InvocationReport) :
    (serializeReport debug rules encode podmanSnapshotRedactions report).2.conversion.Headed ∧
    ∀ json, (serializeReport debug rules encode podmanSnapshotRedactions report).1 = .ok json →
      json = encode (serializeReport debug rules encode podmanSnapshotRedactions report).2 ∧
        json.utf8ByteSize ≤ maxJsonBytes := by
  have hrefreshed := refreshOutcome_headed debug rules report.conversion
  obtain ⟨truncations, hlimited⟩ := enforce_conversion (refreshReportOutcome debug rules report)
  have hheaded := hrefreshed.limited truncations
  have hcounted : ((refreshReportOutcome debug rules report).enforceV1Limits.countRedaction
      podmanSnapshotRedactions).conversion.Headed := by
    unfold InvocationReport.countRedaction
    dsimp only
    rw [hlimited]
    exact hheaded.redaction _
  have hlast := shrink_headed debug rules (fun report => (encode report).utf8ByteSize ≤ maxJsonBytes) _ hcounted
  unfold serializeReport
  dsimp only
  split
  · next hlarge =>
    refine ⟨hlast, fun json hjson => ?_⟩
    cases hjson
  · next hfits =>
    refine ⟨hlast, fun json hjson => ?_⟩
    obtain rfl := Except.ok.inj hjson
    exact ⟨rfl, Nat.not_lt.mp hfits⟩

end Serialized
end Boxferry.Cli
