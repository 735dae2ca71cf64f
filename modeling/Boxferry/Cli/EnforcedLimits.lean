import Boxferry.Cli.RecordedCuts

/-! # Enforced limits

What enforcing the limits makes of a report without records, and exactly when a record keeps to
the unit of its field: some names are those of a collection and of the texts in it. -/
namespace Boxferry.Cli
set_option autoImplicit false

/-! ## The steps over known records -/

variable {α β : Type} {truncations : List Truncation}

theorem run_bind (step : Limiting α) (next : α → Limiting β) (truncations : List Truncation) :
    (step >>= next) truncations = next (step truncations).1 (step truncations).2 := rfl

theorem Known.truncateRecords (h : Known truncations) : truncateRecords truncations = (⟨⟩, truncations) := by
  have hlength : truncations.length ≤ maxCollectionItems :=
    Nat.le_of_lt (Nat.lt_of_le_of_lt h.length_le length_allNames)
  have hself : (truncateCollection truncations "truncations" []).1 = truncations := by
    rw [emits_truncateCollection truncations "truncations" []]
    exact keptItems_eq_self hlength
  exact congrArg (Prod.mk PUnit.unit) hself

theorem Known.truncateRecordFields (h : Known truncations) : truncateRecordFields truncations = (⟨⟩, truncations) := by
  have hself : truncations.map (fun truncation =>
      { truncation with field := (truncateText truncation.field "truncations.field" []).1 }) = truncations.map id := by
    apply List.map_congr_left
    intro truncation htruncation
    rw [emits_truncateText truncation.field "truncations.field" [],
      limitText_eq_self (utf8ByteSize_allNames _ (h.named truncation htruncation))]
    rfl
  rw [List.map_id] at hself
  exact congrArg (Prod.mk PUnit.unit) hself

theorem named_filter {sizes : List Sized} (h : Named sizes) : Named (sizes.filter Sized.exceeds) :=
  fun sized hsized => h sized (List.mem_filter.mp hsized).1

def ConversionReport.cuts (report : ConversionReport) : List Sized := report.sizes.filter Sized.exceeds

def InvocationReport.cuts (report : InvocationReport) : List Sized := report.sizes.filter Sized.exceeds

theorem ConversionReport.named (report : ConversionReport) : Named report.cuts :=
  named_filter (named_append.mpr ⟨report.named_collections, report.named_contents⟩)

theorem InvocationReport.named (report : InvocationReport) : Named report.cuts :=
  named_filter (named_append.mpr
    ⟨named_append.mpr ⟨report.conversion.named_collections, report.conversion.named_contents⟩, report.named_own⟩)

theorem ConversionReport.enforce_eq (report : ConversionReport) (h : Known report.truncations) :
    report.enforceV1Limits =
      { report.limited with truncations := report.cuts.foldl Sized.record report.truncations } := by
  have hcollections := h.foldl (named_filter report.named_collections)
  have hcontents := hcollections.foldl (named_filter report.named_contents)
  have hlimit : report.limit report.truncations =
      (report.limited, report.cuts.foldl Sized.record report.truncations) := by
    unfold limit
    rw [run_bind, report.emits_collections]
    dsimp only
    rw [run_bind, hcollections.truncateRecords]
    dsimp only
    rw [run_bind, report.emits_contents]
    dsimp only
    rw [run_bind, hcontents.truncateRecordFields, ← List.foldl_append, ← List.filter_append]
    rfl
  rw [enforceV1Limits, hlimit]

theorem InvocationReport.enforce_eq (report : InvocationReport) (h : Known report.conversion.truncations) :
    report.enforceV1Limits = { report.limited with
      conversion := { report.conversion.limited with
        truncations := report.cuts.foldl Sized.record report.conversion.truncations } } := by
  have hconversion := h.foldl report.conversion.named
  have hown := hconversion.foldl (named_filter report.named_own)
  have hlimit : report.limit (report.conversion.cuts.foldl Sized.record report.conversion.truncations) =
      ({ report.limited with conversion := report.conversion },
        report.cuts.foldl Sized.record report.conversion.truncations) := by
    unfold limit
    rw [run_bind, report.emits_transport]
    dsimp only
    rw [run_bind, hown.truncateRecords]
    unfold cuts sizes ConversionReport.cuts
    rw [List.filter_append, List.foldl_append]
    rfl
  rw [enforceV1Limits, report.conversion.enforce_eq h]
  dsimp only
  rw [hlimit]

/-! ## Records in the unit of their field -/

variable {cut : Sized} {cuts : List Sized}

/-- The sizes of the cuts of one name in one unit. -/
def sizesIn (cuts : List Sized) (size : Sized → Nat) (field : String) (unit : SizeUnit) : Set Nat :=
  {n | ∃ cut ∈ cuts, cut.field = field ∧ cut.unit = unit ∧ size cut = n}

/-- A record has the extreme sizes of each field of its name, in the unit of that field. -/
def Extreme (cuts : List Sized) (truncations : List Truncation) : Prop :=
  ∀ truncation ∈ truncations, ∀ unit, (∃ cut ∈ cuts, cut.field = truncation.field ∧ cut.unit = unit) →
    IsGreatest (sizesIn cuts Sized.original truncation.field unit) truncation.original ∧
      IsLeast (sizesIn cuts Sized.retained truncation.field unit) truncation.retained

/-- No shared name is cut both as a collection and as a text. -/
def OneUnit (cuts : List Sized) : Prop :=
  ∀ name ∈ sharedNames, ¬ ((∃ cut ∈ cuts, cut.field = name ∧ cut.unit = .items) ∧
    ∃ cut ∈ cuts, cut.field = name ∧ cut.unit = .bytes)

theorem OneUnit.unit_eq (h : OneUnit cuts) (hnamed : Named cuts) {other : Sized} (hcut : cut ∈ cuts)
    (hother : other ∈ cuts) (hfield : cut.field = other.field) : cut.unit = other.unit := by
  have hshared : ∀ {first second : Sized}, first ∈ cuts → second ∈ cuts → first.field = second.field →
      first.unit = .items → second.unit ≠ .bytes := by
    intro first second hfirst hsecond hsame hitems hbytes
    have hname : first.field ∈ sharedNames :=
      mem_sharedNames first.field (hitems ▸ hnamed first hfirst) (hsame ▸ hbytes ▸ hnamed second hsecond)
    exact h first.field hname ⟨⟨first, hfirst, rfl, hitems⟩, second, hsecond, hsame.symm, hbytes⟩
  cases hunit : cut.unit with
  | items =>
    cases hotherUnit : other.unit with
    | items => rfl
    | bytes => exact absurd hotherUnit (hshared hcut hother hfield hunit)
  | bytes =>
    cases hotherUnit : other.unit with
    | items => exact absurd hunit (hshared hother hcut hfield.symm hotherUnit)
    | bytes => rfl

theorem retained_items (h : cut.exceeds) (hunit : cut.unit = .items) : cut.retained = maxCollectionItems := by
  cases cut with
  | items field count => exact Nat.min_eq_right (Nat.le_of_lt (of_decide_eq_true h))
  | text field value => cases hunit

/-- What is kept of a cut text is far more than a collection keeps of elements. -/
theorem retained_bytes (h : cut.exceeds) (hunit : cut.unit = .bytes) : maxCollectionItems < cut.retained := by
  cases cut with
  | items field count => cases hunit
  | text field value =>
    have hexceeds : maxTextBytes < value.utf8ByteSize := of_decide_eq_true h
    have hkept : maxTextBytes < (limitText value).utf8ByteSize + 4 := by
      rw [utf8ByteSize_toList] at hexceeds
      rw [limitText, utf8ByteSize_ofList]
      exact Utf8Text.lt_size_upTo hexceeds
    show maxCollectionItems < (limitText value).utf8ByteSize
    unfold maxTextBytes at hkept
    unfold maxCollectionItems
    omega

theorem Merged.extreme_iff (h : Merged cuts truncations) (hnamed : Named cuts)
    (hexceeds : ∀ cut ∈ cuts, cut.exceeds) :
    Extreme cuts truncations ↔ OneUnit cuts := by
  constructor
  · rintro hextreme name - ⟨⟨first, hfirst, rfl, hitems⟩, second, hsecond, hsame, hbytes⟩
    obtain ⟨truncation, htruncation, hfield⟩ := h.recorded_iff.mpr ⟨first, hfirst, rfl⟩
    have hcollection := hextreme truncation htruncation .items ⟨first, hfirst, hfield.symm, hitems⟩
    have htext := hextreme truncation htruncation .bytes ⟨second, hsecond, hsame.trans hfield.symm, hbytes⟩
    obtain ⟨cut, hcut, -, hunit, hretained⟩ := hcollection.2.1
    obtain ⟨other, hother, -, hotherUnit, hotherRetained⟩ := htext.2.1
    have hless := retained_bytes (hexceeds other hother) hotherUnit
    rw [hotherRetained, ← hretained, retained_items (hexceeds cut hcut) hunit] at hless
    exact Nat.lt_irrefl _ hless
  · intro hone truncation htruncation unit ⟨cut, hcut, hfield, hunit⟩
    have hsizes : ∀ size : Sized → Nat,
        sizesIn cuts size truncation.field unit = sizesOf cuts size truncation.field := by
      intro size
      ext n
      constructor
      · rintro ⟨other, hother, hotherField, -, hsize⟩
        exact ⟨other, hother, hotherField, hsize⟩
      · rintro ⟨other, hother, hotherField, hsize⟩
        have hsame := hone.unit_eq hnamed hother hcut (hotherField.trans hfield.symm)
        exact ⟨other, hother, hotherField, hsame.trans hunit, hsize⟩
    rw [hsizes, hsizes]
    exact ⟨h.largest truncation htruncation, h.smallest truncation htruncation⟩

/-! ## Kept limits -/

/-- The records are within the limits themselves, one for each name that was cut, and each of them
keeps to the unit of its field. -/
structure RecordsCuts (cuts : List Sized) (truncations : List Truncation) : Prop where
  length_le : truncations.length ≤ maxCollectionItems
  names_le : ∀ truncation ∈ truncations, truncation.field.utf8ByteSize ≤ maxTextBytes
  recorded : ∀ name, (∃ truncation ∈ truncations, truncation.field = name) ↔ ∃ cut ∈ cuts, cut.field = name
  extreme : Extreme cuts truncations

theorem recordsCuts_iff (hnamed : Named cuts) (hexceeds : ∀ cut ∈ cuts, cut.exceeds) :
    RecordsCuts cuts (cuts.foldl Sized.record []) ↔ OneUnit cuts := by
  have hmerged := merged_foldl hnamed
  rw [← hmerged.extreme_iff hnamed hexceeds]
  refine ⟨RecordsCuts.extreme, fun hextreme => ⟨?_, ?_, fun name => hmerged.recorded_iff, hextreme⟩⟩
  · exact Nat.le_of_lt (Nat.lt_of_le_of_lt hmerged.known.length_le length_allNames)
  · exact fun truncation htruncation => utf8ByteSize_allNames _ (hmerged.known.named truncation htruncation)

/-- The report is limited in every depth, its records tell what was cut, and enforcing the limits
again changes nothing. -/
structure ConversionReport.LimitsKept (report : ConversionReport) : Prop where
  limited : report.enforceV1Limits = { report.limited with truncations := report.enforceV1Limits.truncations }
  within : InLimits report.enforceV1Limits.sizes
  records : RecordsCuts report.cuts report.enforceV1Limits.truncations
  again : report.enforceV1Limits.enforceV1Limits = report.enforceV1Limits

structure InvocationReport.LimitsKept (report : InvocationReport) : Prop where
  limited : report.enforceV1Limits = { report.limited with
    conversion := { report.conversion.limited with truncations := report.enforceV1Limits.conversion.truncations } }
  within : InLimits report.enforceV1Limits.sizes
  records : RecordsCuts report.cuts report.enforceV1Limits.conversion.truncations
  again : report.enforceV1Limits.enforceV1Limits = report.enforceV1Limits

theorem cuts_eq_nil {sizes : List Sized} (h : InLimits sizes) : sizes.filter Sized.exceeds = [] :=
  List.filter_eq_nil_iff.mpr fun sized hsized hexceeds =>
    Nat.not_lt.mpr (h sized hsized) (of_decide_eq_true hexceeds)

/-- A report within the limits stays as it is. -/
theorem ConversionReport.enforce_eq_self {report : ConversionReport} (h : Known report.truncations)
    (hwithin : InLimits report.sizes) : report.enforceV1Limits = report := by
  rw [report.enforce_eq h, limited_eq_self hwithin, cuts, cuts_eq_nil hwithin]
  rfl

theorem InvocationReport.enforce_eq_self {report : InvocationReport} (h : Known report.conversion.truncations)
    (hwithin : InLimits report.sizes) : report.enforceV1Limits = report := by
  have hconversion : InLimits report.conversion.sizes := (within_append.mp hwithin).1
  rw [report.enforce_eq h, limited_eq_self hwithin, report.conversion.limited_eq_self hconversion, cuts,
    cuts_eq_nil hwithin]
  rfl

theorem ConversionReport.limitsKept_iff (report : ConversionReport) (h : report.truncations = []) :
    report.LimitsKept ↔ OneUnit report.cuts := by
  have henforce := report.enforce_eq (h ▸ known_nil)
  rw [h] at henforce
  have hexceeds : ∀ cut ∈ report.cuts, cut.exceeds := fun cut hcut => (List.mem_filter.mp hcut).2
  have hrecords := recordsCuts_iff report.named hexceeds
  constructor
  · intro hkept
    rw [← hrecords]
    have hresult := hkept.records
    rwa [henforce] at hresult
  · intro hone
    have hwithin : InLimits report.enforceV1Limits.sizes := by
      rw [henforce]
      exact report.within
    refine ⟨by rw [henforce], hwithin, by rw [henforce]; exact hrecords.mpr hone, ?_⟩
    have hknown : Known report.enforceV1Limits.truncations := by
      rw [henforce]
      exact (merged_foldl report.named).known
    exact enforce_eq_self hknown hwithin

theorem InvocationReport.limitsKept_iff (report : InvocationReport) (h : report.conversion.truncations = []) :
    report.LimitsKept ↔ OneUnit report.cuts := by
  have henforce := report.enforce_eq (h ▸ known_nil)
  rw [h] at henforce
  have hexceeds : ∀ cut ∈ report.cuts, cut.exceeds := fun cut hcut => (List.mem_filter.mp hcut).2
  have hrecords := recordsCuts_iff report.named hexceeds
  constructor
  · intro hkept
    rw [← hrecords]
    have hresult := hkept.records
    rwa [henforce] at hresult
  · intro hone
    have hwithin : InLimits report.enforceV1Limits.sizes := by
      rw [henforce]
      exact report.within
    refine ⟨by rw [henforce], hwithin, by rw [henforce]; exact hrecords.mpr hone, ?_⟩
    have hknown : Known report.enforceV1Limits.conversion.truncations := by
      rw [henforce]
      exact (merged_foldl report.named).known
    exact enforce_eq_self hknown hwithin

/-- The limits are kept exactly when no shared name is cut both as a collection and as a text; and
what is kept of a text is a beginning of it. -/
theorem enforce_v1_limits_iff (report : ConversionReport) (invocation : InvocationReport) (value : String)
    (hreport : report.truncations = []) (hinvocation : invocation.conversion.truncations = []) :
    (report.LimitsKept ↔ OneUnit report.cuts) ∧ (invocation.LimitsKept ↔ OneUnit invocation.cuts) ∧
      (limitText value).toList <+: value.toList :=
  ⟨report.limitsKept_iff hreport, invocation.limitsKept_iff hinvocation, limitText_prefix value⟩

def plainReport : ConversionReport where
  boxferryVersion := "version"
  sourceType := "compose"
  targetType := "quadlet"
  requestedVersions := ⟨"5.4", "6.0"⟩
  events := ["loaded"]

theorem enforce_v1_limits_plain :
    plainReport.LimitsKept ∧ InvocationReport.LimitsKept ⟨plainReport, "convert", [], []⟩ := by
  have hiff := enforce_v1_limits_iff plainReport ⟨plainReport, "convert", [], []⟩ "" rfl rfl
  have hnone : OneUnit [] := fun _ _ hboth => hboth.1.elim fun _ h => List.not_mem_nil h.1
  have hcuts : plainReport.cuts = [] := by decide
  have hown : InvocationReport.cuts ⟨plainReport, "convert", [], []⟩ = [] := by decide
  exact ⟨hiff.1.mpr (hcuts ▸ hnone), hiff.2.1.mpr (hown ▸ hnone)⟩

def longEvent : String := String.ofList (List.replicate 16385 'x')

/-- One event too many, and the events are too long. -/
def eventfulReport : ConversionReport := { plainReport with events := List.replicate 2049 longEvent }

theorem utf8ByteSize_replicate (count : Nat) : (String.ofList (List.replicate count 'x')).utf8ByteSize = count := by
  rw [utf8ByteSize_ofList]
  induction count with
  | zero => rfl
  | succ count ih =>
    have hone : 'x'.utf8Size = 1 := rfl
    rw [List.replicate_succ, Utf8Text.size_cons, ih, hone, Nat.add_comm]

theorem exceeds_longEvent : (Sized.text "events" longEvent).exceeds := by
  have hsize : (Sized.text "events" longEvent).original = 16385 := utf8ByteSize_replicate 16385
  rw [Sized.exceeds, hsize]
  rfl

/-- The record of the events has the size of a text, and keeps a number of elements. -/
theorem eventful_limits_not_kept : ¬ eventfulReport.LimitsKept := by
  rw [eventfulReport.limitsKept_iff rfl]
  intro hone
  have hevents : eventfulReport.events = List.replicate 2049 longEvent := rfl
  have hitems : Sized.items "events" 2049 ∈ eventfulReport.cuts := by
    refine List.mem_filter.mpr ⟨List.mem_append_left _ (List.mem_flatten.mpr ⟨[.items "events" 2049], ?_, ?_⟩), ?_⟩
    · have hlength : [Sized.items "events" 2049] = collectionSize eventfulReport.events "events" := by
        rw [hevents, collectionSize, List.length_replicate]
      rw [hlength]
      simp
    · exact List.mem_cons_self
    · rfl
  have htext : Sized.text "events" longEvent ∈ eventfulReport.cuts := by
    refine List.mem_filter.mpr ⟨List.mem_append_right _ (List.mem_flatten.mpr
      ⟨(keptItems eventfulReport.events).flatMap (textSize · "events"), ?_, ?_⟩), ?_⟩
    · simp
    · refine List.mem_flatMap.mpr ⟨longEvent, ?_, List.mem_cons_self⟩
      rw [hevents, keptItems, List.take_replicate]
      exact List.mem_replicate.mpr ⟨by decide, rfl⟩
    · exact exceeds_longEvent
  exact hone "events" (by decide) ⟨⟨_, hitems, rfl, rfl⟩, _, htext, rfl, rfl⟩

end Boxferry.Cli
