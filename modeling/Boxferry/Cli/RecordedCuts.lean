import Boxferry.Cli.WithinLimits
import Mathlib.Order.Bounds.Basic

/-! # The records of what was cut

Cuts of one field are merged into one record: the largest original size and the smallest that
was kept. The names are few, so that the record itself is never cut. -/
namespace Boxferry.Cli
set_option autoImplicit false

/-- The names of the collections, and those of the texts. -/
def fieldNames : SizeUnit → List String
  | .items =>
    ["discovery.ignored", "diagnostics.native_finding.fields", "diagnostics.native_finding.labels",
      "diagnostics.native_finding.notes", "diagnostics.fields", "diagnostics.spans", "inputs", "discovery",
      "choices", "invocation.provided_option_names", "diagnostics", "events", "output_artifacts",
      "redaction.classes", "bundle_members", "input_bundle_members"]
  | .bytes =>
    ["fix_first.code", "fix_first.name", "fix_first.description", "fix_first.help", "fix_first.next_step",
      "inputs.alias", "inputs.kind", "discovery.selected", "discovery.ignored", "choices.name", "choices.value",
      "output_artifacts.name", "bundle_members.transport", "bundle_members.name", "bundle_members.unit_type",
      "input_bundle_members.transport_alias", "input_bundle_members.member_alias", "diagnostics.spans.source",
      "diagnostics.native_finding.labels.kind", "diagnostics.native_finding.labels.source",
      "diagnostics.native_finding.labels.message", "diagnostics.native_finding.source_format",
      "diagnostics.native_finding.producer", "diagnostics.native_finding.producer_version",
      "diagnostics.native_finding.code", "diagnostics.native_finding.stage",
      "diagnostics.native_finding.severity", "diagnostics.native_finding.summary",
      "diagnostics.native_finding.help", "diagnostics.native_finding.fields.name",
      "diagnostics.native_finding.fields.value", "diagnostics.native_finding.notes", "diagnostics.code",
      "diagnostics.name", "diagnostics.source_code", "diagnostics.severity", "diagnostics.summary",
      "diagnostics.help", "diagnostics.fields.name", "diagnostics.fields.value", "boxferry_version",
      "source_type", "target_type", "primary_diagnostic_code", "failure_summary", "application",
      "requested_versions.minimum", "requested_versions.maximum", "resolved_versions.minimum",
      "resolved_versions.maximum", "invocation.command_kind", "invocation.provided_option_names",
      "host.os_family", "host.architecture", "events", "redaction.classes", "operation"]

/-- The names of a collection and of the texts that are in it. -/
def sharedNames : List String :=
  ["invocation.provided_option_names", "events", "redaction.classes", "discovery.ignored",
    "diagnostics.native_finding.notes"]

theorem mem_sharedNames : ∀ name ∈ fieldNames .items, name ∈ fieldNames .bytes → name ∈ sharedNames :=
  List.forall_iff_forall_mem.mp (by decide)

def allNames : List String := fieldNames .items ++ fieldNames .bytes

theorem length_allNames : allNames.length < maxCollectionItems := by decide

theorem utf8ByteSize_allNames : ∀ name ∈ allNames, name.utf8ByteSize ≤ maxTextBytes :=
  List.forall_iff_forall_mem.mp (by decide)

/-- Every value has a name of its unit. -/
def Named (sizes : List Sized) : Prop := ∀ sized ∈ sizes, sized.field ∈ fieldNames sized.unit

variable {α β : Type} {sizes rest cuts : List Sized} {value field : String} {values : List α}

theorem named_append : Named (sizes ++ rest) ↔ Named sizes ∧ Named rest := List.forall_mem_append

theorem named_flatten {parts : List (List Sized)} : Named parts.flatten ↔ ∀ sizes ∈ parts, Named sizes := by
  constructor
  · intro h sizes hsizes sized hsized
    exact h sized (List.mem_flatten.mpr ⟨sizes, hsizes, hsized⟩)
  · intro h sized hsized
    obtain ⟨sizes, hsizes, hmem⟩ := List.mem_flatten.mp hsized
    exact h sizes hsizes sized hmem

theorem named_flatMap {parts : α → List Sized} (h : ∀ value, Named (parts value)) : Named (values.flatMap parts) := by
  intro sized hsized
  obtain ⟨value, -, hmem⟩ := List.mem_flatMap.mp hsized
  exact h value sized hmem

theorem named_textSize : Named (textSize value field) ↔ field ∈ fieldNames .bytes := List.forall_mem_singleton

theorem named_collectionSize : Named (collectionSize values field) ↔ field ∈ fieldNames .items :=
  List.forall_mem_singleton

theorem named_optional {found : Option α} {parts : α → List Sized} (h : ∀ value, Named (parts value)) :
    Named (found.elim [] parts) := by
  cases found with
  | none => exact fun _ h => absurd h List.not_mem_nil
  | some value => exact h value

theorem named_optionalText {found : Option String} (h : field ∈ fieldNames .bytes) : Named (optionalSize found field) :=
  named_optional fun _ => named_textSize.mpr h

/-! ## The names of a report -/

theorem FixFirst.named (fixFirst : FixFirst) : Named fixFirst.sizes := by
  simp [sizes, named_append, named_textSize, fieldNames]

theorem ReportInput.named (input : ReportInput) : Named input.sizes := by
  simp [sizes, named_append, named_textSize, fieldNames]

theorem ReportChoice.named (choice : ReportChoice) : Named choice.sizes := by
  simp [sizes, named_append, named_textSize, fieldNames]

theorem OutputArtifact.named (artifact : OutputArtifact) : Named artifact.sizes := by
  simp [sizes, named_textSize, fieldNames]

theorem BundleMember.named (member : BundleMember) : Named member.sizes := by
  simp [sizes, named_append, named_textSize, fieldNames]

theorem InputBundleMember.named (member : InputBundleMember) : Named member.sizes := by
  simp [sizes, named_append, named_textSize, fieldNames]

theorem ReportSpan.named (span : ReportSpan) : Named span.sizes := by
  simp [sizes, named_textSize, fieldNames]

theorem ReportNativeLabel.named (label : ReportNativeLabel) : Named label.sizes := by
  simp [sizes, named_append, named_textSize, fieldNames]

theorem ReportField.named {names : String × String} (hname : names.1 ∈ fieldNames .bytes)
    (hvalue : names.2 ∈ fieldNames .bytes)
    (field : ReportField) : Named (field.sizes names) := by
  simp [sizes, named_append, named_textSize, hname, hvalue]

theorem DiscoveryDecision.named (discovery : DiscoveryDecision) : Named discovery.sizes := by
  simp only [sizes, named_flatten, List.forall_mem_cons, named_textSize, named_collectionSize]
  exact ⟨by decide, by decide, named_flatMap fun _ => named_textSize.mpr (by decide),
    fun _ h => absurd h List.not_mem_nil⟩

theorem ReportNativeFinding.named (native : ReportNativeFinding) : Named native.sizes := by
  simp only [sizes, named_flatten, List.forall_mem_cons, named_textSize, named_collectionSize]
  exact ⟨by decide, by decide, named_optionalText (by decide), by decide, by decide, by decide, by decide,
    named_optionalText (by decide), by decide, by decide, by decide,
    named_flatMap (ReportField.named (by decide) (by decide)), named_flatMap ReportNativeLabel.named,
    named_flatMap fun _ => named_textSize.mpr (by decide), fun _ h => absurd h List.not_mem_nil⟩

theorem ReportDiagnostic.named (diagnostic : ReportDiagnostic) : Named diagnostic.sizes := by
  simp only [sizes, named_flatten, List.forall_mem_cons, named_textSize, named_collectionSize]
  exact ⟨by decide, by decide, by decide, by decide, named_optionalText (by decide), by decide, by decide, by decide,
    named_flatMap (ReportField.named (by decide) (by decide)), named_flatMap ReportSpan.named,
    named_optional ReportNativeFinding.named, fun _ h => absurd h List.not_mem_nil⟩

theorem ConversionReport.named_collections (report : ConversionReport) : Named report.collectionSizes := by
  simp [collectionSizes, named_append, named_collectionSize, fieldNames]

theorem ConversionReport.named_contents (report : ConversionReport) : Named report.contentSizes := by
  simp only [contentSizes, named_flatten, List.forall_mem_cons, named_textSize]
  exact ⟨by decide, by decide, by decide, named_optionalText (by decide), named_optionalText (by decide),
    named_optional FixFirst.named, named_optionalText (by decide), by decide, by decide, by decide, by decide,
    named_flatMap ReportInput.named, named_flatMap DiscoveryDecision.named, named_flatMap ReportChoice.named,
    by decide, named_flatMap fun _ => named_textSize.mpr (by decide), by decide, by decide,
    named_flatMap ReportDiagnostic.named, named_flatMap fun _ => named_textSize.mpr (by decide),
    named_flatMap OutputArtifact.named, named_flatMap fun _ => named_textSize.mpr (by decide),
    fun _ h => absurd h List.not_mem_nil⟩

theorem InvocationReport.named_own (report : InvocationReport) : Named report.ownSizes := by
  simp only [ownSizes, named_flatten, List.forall_mem_cons, named_textSize, named_collectionSize]
  exact ⟨by decide, by decide, by decide, named_flatMap BundleMember.named, named_flatMap InputBundleMember.named,
    fun _ h => absurd h List.not_mem_nil⟩

/-! ## Merged records -/

variable {truncations : List Truncation} {truncation : Truncation} {cut : Sized}

/-- The records have distinct names, all of them of fields. -/
structure Known (truncations : List Truncation) : Prop where
  nodup : (truncations.map Truncation.field).Nodup
  named : ∀ truncation ∈ truncations, truncation.field ∈ allNames

theorem Named.mem_allNames (h : Named cuts) (hcut : cut ∈ cuts) : cut.field ∈ allNames := by
  have hfield := h cut hcut
  cases hunit : cut.unit with
  | items => exact List.mem_append_left _ (hunit ▸ hfield)
  | bytes => exact List.mem_append_right _ (hunit ▸ hfield)

theorem known_nil : Known [] := ⟨List.nodup_nil, fun _ h => absurd h List.not_mem_nil⟩

theorem Known.length_le (h : Known truncations) : truncations.length ≤ allNames.length := by
  rw [← List.length_map]
  apply (List.subperm_of_subset h.nodup ?_).length_le
  intro name hname
  obtain ⟨truncation, htruncation, rfl⟩ := List.mem_map.mp hname
  exact h.named truncation htruncation

theorem Known.record (h : Known truncations) (hcut : cut.field ∈ allNames) : Known (cut.record truncations) := by
  have hmap : (cut.record truncations).map Truncation.field = _ := map_field_record
  refine ⟨?_, fun truncation htruncation => ?_⟩
  · rw [hmap]
    split
    · exact h.nodup
    · next hfresh =>
      split
      · rw [List.nodup_append]
        refine ⟨h.nodup, by simp, fun name hname other hother hsame => ?_⟩
        rw [hsame, List.mem_singleton.mp hother] at hname
        exact hfresh hname
      · exact h.nodup
  · have hfield : truncation.field ∈ (cut.record truncations).map Truncation.field :=
      List.mem_map_of_mem htruncation
    have hold : ∀ name ∈ truncations.map Truncation.field, name ∈ allNames := by
      intro name hname
      obtain ⟨other, hother, rfl⟩ := List.mem_map.mp hname
      exact h.named other hother
    rw [hmap] at hfield
    split at hfield
    · exact hold _ hfield
    · split at hfield
      · rcases List.mem_append.mp hfield with hfield | hfield
        · exact hold _ hfield
        · rw [List.mem_singleton.mp hfield]
          exact hcut
      · exact hold _ hfield

theorem Known.foldl (h : Known truncations) (hnamed : Named cuts) : Known (cuts.foldl Sized.record truncations) := by
  induction cuts generalizing truncations with
  | nil => exact h
  | cons cut cuts ih =>
    exact ih (h.record (hnamed.mem_allNames List.mem_cons_self)) (List.forall_mem_cons.mp hnamed).2

/-- The first record of the name is widened; the names being distinct, it is the only one. -/
theorem mem_widenFirst {field : String} {original retained : Nat}
    (hnodup : (truncations.map Truncation.field).Nodup) :
    truncation ∈ widenFirst field original retained truncations ↔
      (truncation ∈ truncations ∧ truncation.field ≠ field) ∨ ∃ existing ∈ truncations, existing.field = field ∧
        truncation = ⟨field, max existing.original original, min existing.retained retained⟩ := by
  induction truncations with
  | nil => simp [widenFirst]
  | cons first rest ih =>
    obtain ⟨hfresh, hrest⟩ := List.nodup_cons.mp hnodup
    by_cases hfield : first.field = field
    · have hothers : ∀ other ∈ rest, other.field ≠ field := by
        intro other hother hsame
        rw [← hfield] at hsame
        exact hfresh (hsame ▸ List.mem_map_of_mem hother)
      rw [widenFirst, if_pos hfield, List.mem_cons]
      constructor
      · rintro (rfl | hmem)
        · exact Or.inr ⟨first, List.mem_cons_self, hfield, by rw [← hfield]⟩
        · exact Or.inl ⟨List.mem_cons_of_mem _ hmem, hothers truncation hmem⟩
      · rintro (⟨hmem, hne⟩ | ⟨existing, hexisting, hsame, rfl⟩)
        · rcases List.mem_cons.mp hmem with rfl | hmem
          · exact absurd hfield hne
          · exact Or.inr hmem
        · rcases List.mem_cons.mp hexisting with rfl | hexisting
          · exact Or.inl (by rw [← hfield])
          · exact absurd hsame (hothers existing hexisting)
    · rw [widenFirst, if_neg hfield, List.mem_cons, ih hrest, List.mem_cons]
      simp only [List.mem_cons, exists_eq_or_imp, hfield, false_and, false_or]
      constructor
      · rintro (rfl | ⟨hmem, hne⟩ | hwidened)
        · exact Or.inl ⟨Or.inl rfl, hfield⟩
        · exact Or.inl ⟨Or.inr hmem, hne⟩
        · exact Or.inr hwidened
      · rintro (⟨rfl | hmem, hne⟩ | hwidened)
        · exact Or.inl rfl
        · exact Or.inr (Or.inl ⟨hmem, hne⟩)
        · exact Or.inr (Or.inr hwidened)

/-- The sizes of the cuts of one name. -/
def sizesOf (cuts : List Sized) (size : Sized → Nat) (field : String) : Set Nat :=
  {n | ∃ cut ∈ cuts, cut.field = field ∧ size cut = n}

/-- Each name that was cut has one record, of the largest original size and the smallest kept one. -/
structure Merged (cuts : List Sized) (truncations : List Truncation) : Prop where
  known : Known truncations
  recorded : ∀ cut ∈ cuts, cut.field ∈ truncations.map Truncation.field
  largest : ∀ truncation ∈ truncations, IsGreatest (sizesOf cuts Sized.original truncation.field) truncation.original
  smallest : ∀ truncation ∈ truncations, IsLeast (sizesOf cuts Sized.retained truncation.field) truncation.retained

theorem sizesOf_concat_self {size : Sized → Nat} :
    sizesOf (cuts ++ [cut]) size cut.field = sizesOf cuts size cut.field ∪ {size cut} := by
  ext n
  simp [sizesOf, or_and_right, exists_or, eq_comm, or_comm]

theorem sizesOf_concat_of_ne {size : Sized → Nat} (h : cut.field ≠ field) :
    sizesOf (cuts ++ [cut]) size field = sizesOf cuts size field := by
  ext n
  simp [sizesOf, or_and_right, exists_or, h]

theorem Merged.record (h : Merged cuts truncations) (hcut : cut.field ∈ allNames) :
    Merged (cuts ++ [cut]) (cut.record truncations) := by
  have hknown := h.known.record hcut
  have hmap : (cut.record truncations).map Truncation.field = _ := map_field_record
  have hroom : truncations.length < maxCollectionItems := Nat.lt_of_le_of_lt h.known.length_le length_allNames
  have hall : ∀ truncation ∈ cut.record truncations,
      IsGreatest (sizesOf (cuts ++ [cut]) Sized.original truncation.field) truncation.original ∧
        IsLeast (sizesOf (cuts ++ [cut]) Sized.retained truncation.field) truncation.retained := by
    intro truncation htruncation
    have hkept : truncation ∈ truncations → truncation.field ≠ cut.field →
        IsGreatest (sizesOf (cuts ++ [cut]) Sized.original truncation.field) truncation.original ∧
          IsLeast (sizesOf (cuts ++ [cut]) Sized.retained truncation.field) truncation.retained := by
      intro hmem hne
      have hgreatest := h.largest truncation hmem
      have hleast := h.smallest truncation hmem
      rw [← sizesOf_concat_of_ne hne.symm] at hgreatest hleast
      exact ⟨hgreatest, hleast⟩
    by_cases hpresent : cut.field ∈ truncations.map Truncation.field
    · have hany : truncations.any (·.field = cut.field) := by
        obtain ⟨existing, hexisting, hsame⟩ := List.mem_map.mp hpresent
        exact List.any_eq_true.mpr ⟨existing, hexisting, decide_eq_true hsame⟩
      rw [Sized.record, recordTruncation, if_pos hany, mem_widenFirst h.known.nodup] at htruncation
      rcases htruncation with ⟨hmem, hne⟩ | ⟨existing, hexisting, hsame, rfl⟩
      · exact hkept hmem hne
      · have hgreatest := (h.largest existing hexisting).union (isGreatest_singleton (a := cut.original))
        have hleast := (h.smallest existing hexisting).union (isLeast_singleton (a := cut.retained))
        rw [hsame] at hgreatest hleast
        rw [sizesOf_concat_self, sizesOf_concat_self]
        exact ⟨hgreatest, hleast⟩
    · have hany : ¬ truncations.any (·.field = cut.field) := by
        intro hany
        obtain ⟨existing, hexisting, hsame⟩ := List.any_eq_true.mp hany
        exact hpresent (of_decide_eq_true hsame ▸ List.mem_map_of_mem hexisting)
      have hempty : ∀ size : Sized → Nat, sizesOf cuts size cut.field = ∅ := by
        intro size
        rw [Set.eq_empty_iff_forall_notMem]
        rintro n ⟨other, hother, hsame, -⟩
        exact hpresent (hsame ▸ h.recorded other hother)
      rw [Sized.record, recordTruncation, if_neg hany, if_pos hroom, List.mem_append, List.mem_singleton] at htruncation
      rcases htruncation with hmem | rfl
      · exact hkept hmem fun hsame => hpresent (hsame ▸ List.mem_map_of_mem hmem)
      · rw [sizesOf_concat_self, sizesOf_concat_self, hempty, hempty, Set.empty_union, Set.empty_union]
        exact ⟨isGreatest_singleton, isLeast_singleton⟩
  refine ⟨hknown, ?_, fun truncation hmem => (hall truncation hmem).1, fun truncation hmem => (hall truncation hmem).2⟩
  intro other hother
  rw [hmap, if_pos hroom]
  rcases List.mem_append.mp hother with hold | hnew
  · have hmem := h.recorded other hold
    split
    · exact hmem
    · exact List.mem_append_left _ hmem
  · rw [List.mem_singleton.mp hnew]
    split
    · next hmem => exact hmem
    · exact List.mem_append_right _ List.mem_cons_self

theorem merged_foldl (hnamed : Named cuts) : Merged cuts (cuts.foldl Sized.record []) := by
  induction cuts using List.reverseRecOn with
  | nil => exact ⟨known_nil, fun _ h => absurd h List.not_mem_nil, fun _ h => absurd h List.not_mem_nil,
      fun _ h => absurd h List.not_mem_nil⟩
  | append_singleton cuts cut ih =>
    rw [List.foldl_append]
    exact (ih (named_append.mp hnamed).1).record (hnamed.mem_allNames (List.mem_append_right _ List.mem_cons_self))

/-- A name has a record exactly when one of its values was cut. -/
theorem Merged.recorded_iff (h : Merged cuts truncations) :
    (∃ truncation ∈ truncations, truncation.field = field) ↔ ∃ cut ∈ cuts, cut.field = field := by
  constructor
  · rintro ⟨truncation, htruncation, rfl⟩
    obtain ⟨⟨cut, hcut, hfield, -⟩, -⟩ := h.largest truncation htruncation
    exact ⟨cut, hcut, hfield⟩
  · rintro ⟨cut, hcut, rfl⟩
    exact List.mem_map.mp (h.recorded cut hcut)

end Boxferry.Cli
