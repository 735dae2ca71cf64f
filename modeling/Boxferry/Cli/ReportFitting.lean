import Boxferry.Cli.ReportReduction

/-! # Fitting a report

A call drops one element and records it where the records have room for its name; dropping ends,
at the latest when no collection has an element left. -/
namespace Boxferry.Cli
set_option autoImplicit false

variable {truncations : List Truncation} {field : String} {original retained : Nat}

/-! ## The record of a drop -/

theorem exists_mem_widenFirst (h : field ∈ truncations.map Truncation.field) :
    ∃ truncation ∈ widenFirst field original retained truncations,
      truncation.field = field ∧ original ≤ truncation.original ∧ truncation.retained ≤ retained := by
  induction truncations with
  | nil => cases h
  | cons existing rest ih =>
    by_cases hfield : existing.field = field
    · rw [widenFirst, if_pos hfield]
      exact ⟨_, List.mem_cons_self, hfield, Nat.le_max_right _ _, Nat.min_le_right _ _⟩
    · rw [List.map_cons, List.mem_cons] at h
      rw [widenFirst, if_neg hfield]
      obtain ⟨truncation, hmem, hrecorded⟩ := ih (h.resolve_left fun hsame => hfield hsame.symm)
      exact ⟨truncation, List.mem_cons_of_mem existing hmem, hrecorded⟩

theorem any_field_iff : truncations.any (·.field = field) ↔ field ∈ truncations.map Truncation.field := by
  rw [List.any_eq_true, List.mem_map]
  simp

/-- The records have one of the name, or room for it. -/
def Recordable (truncations : List Truncation) (field : String) : Prop :=
  field ∈ truncations.map Truncation.field ∨ truncations.length < maxCollectionItems

theorem exists_mem_record (h : Recordable truncations field) :
    ∃ truncation ∈ recordTruncation truncations field original retained,
      truncation.field = field ∧ original ≤ truncation.original ∧ truncation.retained ≤ retained := by
  unfold recordTruncation
  by_cases hpresent : field ∈ truncations.map Truncation.field
  · rw [if_pos (any_field_iff.mpr hpresent)]
    exact exists_mem_widenFirst hpresent
  · rw [if_neg fun hany => hpresent (any_field_iff.mp hany), if_pos (h.resolve_left hpresent)]
    exact ⟨_, List.mem_append_right _ List.mem_cons_self, rfl, Nat.le_refl _, Nat.le_refl _⟩

theorem record_eq_self (h : ¬ Recordable truncations field) :
    recordTruncation truncations field original retained = truncations := by
  unfold Recordable at h
  push Not at h
  rw [recordTruncation, if_neg fun hany => h.1 (any_field_iff.mp hany), if_neg (Nat.not_lt.mpr h.2)]

/-! ## One call -/

/-- One element is dropped from one collection, and nothing else of the report changes. -/
inductive InvocationReport.Drops (report : InvocationReport) : InvocationReport → String → Nat → Prop
  | conversion {conversion : ConversionReport} {field : String} {original : Nat}
      (h : Cli.Drops report.conversion conversion field original) :
      Drops report { report with conversion := conversion } field original
  | bundleMembers (h : report.bundleMembers ≠ []) :
      Drops report { report with bundleMembers := report.bundleMembers.dropLast } "bundle_members"
        report.bundleMembers.length
  | inputBundleMembers (h : report.inputBundleMembers ≠ []) :
      Drops report { report with inputBundleMembers := report.inputBundleMembers.dropLast } "input_bundle_members"
        report.inputBundleMembers.length

def InvocationReport.recordDrop (report : InvocationReport) (field : String) (original : Nat) : InvocationReport :=
  { report with conversion := report.conversion.recordDrop field original }

variable {report result reduced : InvocationReport}

theorem InvocationReport.Drops.elements_succ (h : report.Drops result field original) :
    result.elements + 1 = report.elements := by
  unfold InvocationReport.elements
  cases h with
  | conversion h =>
    have hconversion := h.elements_succ
    dsimp only
    omega
  | bundleMembers h | inputBundleMembers h =>
    have hlength := length_dropLast_succ h
    dsimp only
    omega

theorem InvocationReport.Drops.mem_reducibleNames (h : report.Drops result field original) :
    field ∈ reducibleNames := by
  cases h with
  | conversion h => exact h.mem_reducibleNames
  | bundleMembers _ => decide
  | inputBundleMembers _ => decide

theorem InvocationReport.Drops.truncations_eq (h : report.Drops result field original) :
    result.conversion.truncations = report.conversion.truncations := by
  cases h with
  | conversion h => exact h.truncations_eq
  | bundleMembers _ => rfl
  | inputBundleMembers _ => rfl

/-- The conversion's own call, within the envelope. -/
theorem InvocationReport.reduceConversion_drops (h : report.reduceConversion = (true, result)) :
    ∃ reduced field original, report.Drops reduced field original ∧ result = reduced.recordDrop field original := by
  unfold reduceConversion ConversionReport.reduceForJson at h
  cases hdrop : report.conversion.dropOne with
  | none =>
    rw [hdrop] at h
    cases h
  | some removed =>
    obtain ⟨conversion, field, original⟩ := removed
    rw [hdrop] at h
    cases h
    exact ⟨_, field, original, .conversion (report.conversion.dropOne_drops hdrop), rfl⟩

theorem InvocationReport.reduceForJson_drops (h : report.reduceForJson = (true, result)) :
    ∃ reduced field original, report.Drops reduced field original ∧ result = reduced.recordDrop field original := by
  unfold reduceForJson at h
  split at h
  · exact reduceConversion_drops h
  · split at h
    · next hmembers =>
      cases h
      rw [List.isEmpty_iff] at hmembers
      exact ⟨_, _, _, .bundleMembers hmembers, rfl⟩
    · split at h
      · next hmembers =>
        cases h
        rw [List.isEmpty_iff] at hmembers
        exact ⟨_, _, _, .inputBundleMembers hmembers, rfl⟩
      · exact reduceConversion_drops h

/-- A call that drops nothing found no element, and leaves the report. -/
theorem InvocationReport.reduceForJson_false (h : report.reduceForJson = (false, result)) :
    report.elements = 0 ∧ result = report := by
  have hconversion : ∀ {result}, report.reduceConversion = (false, result) →
      report.conversion.elements = 0 ∧ result = report := by
    intro result h
    unfold reduceConversion ConversionReport.reduceForJson at h
    cases hdrop : report.conversion.dropOne with
    | none =>
      rw [hdrop] at h
      cases h
      exact ⟨report.conversion.dropOne_eq_none hdrop, rfl⟩
    | some removed =>
      rw [hdrop] at h
      cases h
  unfold reduceForJson at h
  split at h
  · next hnonempty =>
    obtain ⟨helements, -⟩ := hconversion h
    unfold ConversionReport.elements at helements
    simp only [List.isEmpty_iff, ← List.length_eq_zero_iff] at hnonempty
    omega
  · split at h
    · cases h
    · next hmembers =>
      split at h
      · cases h
      · next hinputs =>
        obtain ⟨helements, hresult⟩ := hconversion h
        rw [not_not, List.isEmpty_iff] at hmembers hinputs
        exact ⟨by simp [elements, helements, hmembers, hinputs], hresult⟩

theorem InvocationReport.elements_recordDrop : (reduced.recordDrop field original).elements = reduced.elements := rfl

/-! ## The loop -/

/-- What is done to the report between two calls: it adds no element, and leaves the records. -/
structure Refresh where
  apply : InvocationReport → InvocationReport
  elements_le : ∀ report, (apply report).elements ≤ report.elements
  truncations_eq : ∀ report, (apply report).conversion.truncations = report.conversion.truncations

def Refresh.none : Refresh := ⟨id, fun _ => Nat.le_refl _, fun _ => rfl⟩

theorem InvocationReport.elements_lt (h : report.reduceForJson = (true, result)) : result.elements < report.elements := by
  obtain ⟨reduced, field, original, hdrops, rfl⟩ := reduceForJson_drops h
  have hsucc := hdrops.elements_succ
  rw [elements_recordDrop]
  omega

/-- Calls until the report fits or nothing is left: the number of drops, and the last report. -/
def InvocationReport.shrink (fits : InvocationReport → Bool) (refresh : Refresh) (report : InvocationReport) :
    Nat × InvocationReport :=
  if fits report then (0, report)
  else
    match h : report.reduceForJson with
    | (true, next) =>
      have := Nat.lt_of_le_of_lt (refresh.elements_le next) (elements_lt h)
      let rest := shrink fits refresh (refresh.apply next)
      (rest.1 + 1, rest.2)
    | (false, same) => (0, same)
termination_by report.elements

/-- The later records have the earlier names, and then new ones of reducible collections, each once. -/
def AddsNames (first last : List Truncation) : Prop :=
  ∃ added : List String, last.map Truncation.field = first.map Truncation.field ++ added ∧ added.Nodup ∧
    ∀ name ∈ added, name ∉ first.map Truncation.field ∧ name ∈ reducibleNames

theorem AddsNames.refl (truncations : List Truncation) : AddsNames truncations truncations :=
  ⟨[], (List.append_nil _).symm, List.nodup_nil, fun _ h => absurd h List.not_mem_nil⟩

theorem AddsNames.trans {first middle last : List Truncation} (h : AddsNames first middle)
    (hnext : AddsNames middle last) : AddsNames first last := by
  obtain ⟨added, hmiddle, hnodup, hnew⟩ := h
  obtain ⟨more, hlast, hmore, hnewer⟩ := hnext
  rw [hmiddle] at hlast hnewer
  refine ⟨added ++ more, by rw [hlast, List.append_assoc], ?_, ?_⟩
  · rw [List.nodup_append]
    refine ⟨hnodup, hmore, fun name hname other hother hsame => ?_⟩
    exact (hnewer other hother).1 (List.mem_append_right _ (hsame ▸ hname))
  · intro name hname
    rcases List.mem_append.mp hname with hname | hname
    · exact hnew name hname
    · exact ⟨fun hmem => (hnewer name hname).1 (List.mem_append_left _ hmem), (hnewer name hname).2⟩

theorem addsNames_record (h : field ∈ reducibleNames) :
    AddsNames truncations (recordTruncation truncations field original retained) := by
  unfold AddsNames
  rw [map_field_record]
  split
  · exact AddsNames.refl truncations
  · next hfresh =>
    split
    · refine ⟨[field], rfl, by simp, fun name hname => ?_⟩
      rw [List.mem_singleton.mp hname]
      exact ⟨hfresh, h⟩
    · exact AddsNames.refl truncations

theorem InvocationReport.shrink_spec (fits : InvocationReport → Bool) (refresh : Refresh) (report : InvocationReport) :
    (report.shrink fits refresh).1 ≤ report.elements ∧
    (fits (report.shrink fits refresh).2 ∨ (report.shrink fits refresh).2.elements = 0) ∧
    AddsNames report.conversion.truncations (report.shrink fits refresh).2.conversion.truncations := by
  fun_induction shrink fits refresh report with
  | case1 report hfits => exact ⟨Nat.zero_le _, Or.inl hfits, AddsNames.refl _⟩
  | case2 report hfits next h hless rest ih =>
    obtain ⟨hsteps, hend, hnames⟩ := ih
    have hrest : rest.1 ≤ (refresh.apply next).elements := hsteps
    have hrecorded : AddsNames report.conversion.truncations (refresh.apply next).conversion.truncations := by
      obtain ⟨reduced, field, original, hdrops, rfl⟩ := reduceForJson_drops h
      rw [refresh.truncations_eq, ← hdrops.truncations_eq]
      exact addsNames_record hdrops.mem_reducibleNames
    exact ⟨Nat.lt_of_le_of_lt hrest hless, hend, hrecorded.trans hnames⟩
  | case3 report hfits same h =>
    obtain ⟨helements, rfl⟩ := reduceForJson_false h
    exact ⟨Nat.zero_le _, Or.inr helements, AddsNames.refl _⟩

/-- Each call that returns true drops one element from one collection, and records it where the
records have its name or room for it; a call returns false when no element is left, and the report
stays. The loop ends within as many drops as there are elements. -/
theorem reduce_for_json_exhausts (report : InvocationReport) :
    (∀ result, report.reduceForJson = (true, result) → ∃ reduced field original,
      report.Drops reduced field original ∧ result = reduced.recordDrop field original ∧
      result.elements + 1 = report.elements ∧
      (Recordable report.conversion.truncations field → ∃ truncation ∈ result.conversion.truncations,
        truncation.field = field ∧ original ≤ truncation.original ∧ truncation.retained ≤ original - 1) ∧
      (¬ Recordable report.conversion.truncations field →
        result.conversion.truncations = report.conversion.truncations)) ∧
    (∀ result, report.reduceForJson = (false, result) → report.elements = 0 ∧ result = report) ∧
    ∀ (fits : InvocationReport → Bool) (refresh : Refresh),
      (report.shrink fits refresh).1 ≤ report.elements ∧
      (fits (report.shrink fits refresh).2 ∨ (report.shrink fits refresh).2.elements = 0) ∧
      AddsNames report.conversion.truncations (report.shrink fits refresh).2.conversion.truncations := by
  refine ⟨fun result h => ?_, fun result => report.reduceForJson_false, fun fits refresh =>
    report.shrink_spec fits refresh⟩
  obtain ⟨reduced, field, original, hdrops, rfl⟩ := InvocationReport.reduceForJson_drops h
  have htruncations : (reduced.recordDrop field original).conversion.truncations =
      recordTruncation report.conversion.truncations field original (original - 1) := by
    rw [← hdrops.truncations_eq]
    rfl
  refine ⟨reduced, field, original, hdrops, rfl, ?_, ?_, ?_⟩
  · exact hdrops.elements_succ
  · intro hrecordable
    rw [htruncations]
    exact exists_mem_record hrecordable
  · intro hfull
    rw [htruncations, record_eq_self hfull]

def eventReport (events : List String) (truncations : List Truncation) : InvocationReport where
  conversion :=
    { boxferryVersion := "version"
      sourceType := "compose"
      targetType := "quadlet"
      requestedVersions := ⟨"5.4", "6.0"⟩
      events := events
      truncations := truncations }

theorem eventReport_reduces (truncations : List Truncation) : (eventReport ["loaded"] truncations).reduceForJson =
    (true, eventReport [] (recordTruncation truncations "events" 1 0)) := rfl

/-- Records of another name that leave no room. -/
def crowded : List Truncation := List.replicate maxCollectionItems ⟨"inputs", 1, 0⟩

/-- The event is dropped, and no record tells it. -/
theorem crowded_drop_is_not_recorded :
    (eventReport ["loaded"] crowded).reduceForJson.1 = true ∧
    (eventReport ["loaded"] crowded).reduceForJson.2.conversion.events = [] ∧
    ¬ ∃ truncation ∈ (eventReport ["loaded"] crowded).reduceForJson.2.conversion.truncations,
      truncation.field = "events" := by
  have hfields : ∀ truncation ∈ crowded, truncation.field = "inputs" := by
    intro truncation htruncation
    rw [(List.mem_replicate.mp htruncation).2]
  have hfull : ¬ Recordable crowded "events" := by
    rintro (hmem | hroom)
    · obtain ⟨truncation, htruncation, hevents⟩ := List.mem_map.mp hmem
      rw [hfields truncation htruncation] at hevents
      exact absurd hevents (by decide)
    · rw [crowded, List.length_replicate] at hroom
      exact Nat.lt_irrefl _ hroom
  rw [eventReport_reduces, record_eq_self hfull]
  refine ⟨rfl, rfl, ?_⟩
  rintro ⟨truncation, htruncation, hevents⟩
  rw [hfields truncation htruncation] at hevents
  exact absurd hevents (by decide)

end Boxferry.Cli
