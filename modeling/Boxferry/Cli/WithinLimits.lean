import Boxferry.Cli.ReportLimits

/-! # Reports within the limits

A limited report has no field beyond its limit, and limiting it again changes nothing. -/
namespace Boxferry.Cli
set_option autoImplicit false

/-- No size exceeds its limit. -/
def InLimits (sizes : List Sized) : Prop := ∀ sized ∈ sizes, sized.original ≤ sized.unit.limit

variable {α β : Type} {sizes rest : List Sized} {value field : String} {values : List α}

@[simp] theorem within_nil : InLimits [] := fun _ h => absurd h List.not_mem_nil

@[simp] theorem within_append : InLimits (sizes ++ rest) ↔ InLimits sizes ∧ InLimits rest := List.forall_mem_append

@[simp] theorem within_flatten {parts : List (List Sized)} : InLimits parts.flatten ↔ ∀ sizes ∈ parts, InLimits sizes := by
  constructor
  · intro h sizes hsizes sized hsized
    exact h sized (List.mem_flatten.mpr ⟨sizes, hsizes, hsized⟩)
  · intro h sized hsized
    obtain ⟨sizes, hsizes, hmem⟩ := List.mem_flatten.mp hsized
    exact h sizes hsizes sized hmem

@[simp] theorem within_flatMap {parts : α → List Sized} :
    InLimits (values.flatMap parts) ↔ ∀ value ∈ values, InLimits (parts value) := by
  constructor
  · intro h value hvalue sized hsized
    exact h sized (List.mem_flatMap.mpr ⟨value, hvalue, hsized⟩)
  · intro h sized hsized
    obtain ⟨value, hvalue, hmem⟩ := List.mem_flatMap.mp hsized
    exact h value hvalue sized hmem

@[simp] theorem within_textSize : InLimits (textSize value field) ↔ value.utf8ByteSize ≤ maxTextBytes :=
  List.forall_mem_singleton

@[simp] theorem within_collectionSize : InLimits (collectionSize values field) ↔ values.length ≤ maxCollectionItems :=
  List.forall_mem_singleton

@[simp] theorem within_limitText : InLimits (textSize (limitText value) field) :=
  within_textSize.mpr (utf8ByteSize_limitText_le value)

@[simp] theorem within_optional {value : Option String} : InLimits (optionalSize (value.map limitText) field) := by
  cases value with
  | none => exact within_nil
  | some value => exact within_limitText

theorem map_limitText_eq {value : Option String} (h : InLimits (optionalSize value field)) :
    value.map limitText = value := by
  cases value with
  | none => rfl
  | some value => exact congrArg some (limitText_eq_self (within_textSize.mp h))

@[simp] theorem length_keptItems_le : (keptItems values).length ≤ maxCollectionItems := by
  rw [keptItems, List.length_take]
  exact Nat.min_le_left _ _

theorem keptItems_eq_self (h : values.length ≤ maxCollectionItems) : keptItems values = values :=
  List.take_of_length_le h

@[simp] theorem within_map_keptItems {limit : α → β} :
    InLimits (collectionSize ((keptItems values).map limit) field) := by
  rw [within_collectionSize, List.length_map]
  exact length_keptItems_le

/-- A limited collection is limited in its elements where each of them is. -/
theorem within_limited {limit : α → β} {parts : β → List Sized} (h : ∀ value, InLimits (parts (limit value))) :
    InLimits ((keptItems ((keptItems values).map limit)).flatMap parts) := by
  rw [within_flatMap]
  intro value hvalue
  obtain ⟨original, -, rfl⟩ := List.mem_map.mp (List.mem_of_mem_take hvalue)
  exact h original

theorem map_keptItems_eq {limit : α → α} {parts : α → List Sized} (hlength : InLimits (collectionSize values field))
    (hvalues : InLimits ((keptItems values).flatMap parts)) (h : ∀ value, InLimits (parts value) → limit value = value) :
    (keptItems values).map limit = values := by
  rw [within_collectionSize] at hlength
  rw [keptItems_eq_self hlength, within_flatMap] at *
  calc values.map limit = values.map id := List.map_congr_left fun value hvalue => h value (hvalues value hvalue)
    _ = values := List.map_id values

/-! ## The parts -/

theorem FixFirst.within (fixFirst : FixFirst) : InLimits fixFirst.limited.sizes := by
  simp [sizes, limited]

theorem FixFirst.limited_eq_self {fixFirst : FixFirst} (h : InLimits fixFirst.sizes) :
    fixFirst.limited = fixFirst := by
  simp only [sizes, within_flatten, List.forall_mem_cons, within_textSize] at h
  simp [limited, limitText_eq_self, h]

theorem ReportInput.within (input : ReportInput) : InLimits input.limited.sizes := by
  simp [sizes, limited]

theorem ReportInput.limited_eq_self {input : ReportInput} (h : InLimits input.sizes) :
    input.limited = input := by
  simp only [sizes, within_flatten, List.forall_mem_cons, within_textSize] at h
  simp [limited, limitText_eq_self, h]

theorem ReportChoice.within (choice : ReportChoice) : InLimits choice.limited.sizes := by
  simp [sizes, limited]

theorem ReportChoice.limited_eq_self {choice : ReportChoice} (h : InLimits choice.sizes) :
    choice.limited = choice := by
  simp only [sizes, within_flatten, List.forall_mem_cons, within_textSize] at h
  simp [limited, limitText_eq_self, h]

theorem OutputArtifact.within (artifact : OutputArtifact) : InLimits artifact.limited.sizes := by
  simp [sizes, limited]

theorem OutputArtifact.limited_eq_self {artifact : OutputArtifact} (h : InLimits artifact.sizes) :
    artifact.limited = artifact := by
  simp only [sizes, within_flatten, List.forall_mem_cons, within_textSize] at h
  simp [limited, limitText_eq_self, h]

theorem BundleMember.within (member : BundleMember) : InLimits member.limited.sizes := by
  simp [sizes, limited]

theorem BundleMember.limited_eq_self {member : BundleMember} (h : InLimits member.sizes) :
    member.limited = member := by
  simp only [sizes, within_flatten, List.forall_mem_cons, within_textSize] at h
  simp [limited, limitText_eq_self, h]

theorem InputBundleMember.within (member : InputBundleMember) : InLimits member.limited.sizes := by
  simp [sizes, limited]

theorem InputBundleMember.limited_eq_self {member : InputBundleMember} (h : InLimits member.sizes) :
    member.limited = member := by
  simp only [sizes, within_flatten, List.forall_mem_cons, within_textSize] at h
  simp [limited, limitText_eq_self, h]

theorem ReportSpan.within (span : ReportSpan) : InLimits span.limited.sizes := by
  simp [sizes, limited]

theorem ReportSpan.limited_eq_self {span : ReportSpan} (h : InLimits span.sizes) :
    span.limited = span := by
  simp only [sizes, within_flatten, List.forall_mem_cons, within_textSize] at h
  simp [limited, limitText_eq_self, h]

theorem ReportNativeLabel.within (label : ReportNativeLabel) : InLimits label.limited.sizes := by
  simp [sizes, limited]

theorem ReportNativeLabel.limited_eq_self {label : ReportNativeLabel} (h : InLimits label.sizes) :
    label.limited = label := by
  simp only [sizes, within_flatten, List.forall_mem_cons, within_textSize] at h
  simp [limited, limitText_eq_self, h]

theorem ReportField.within (names : String × String) (field : ReportField) : InLimits (field.limited.sizes names) := by
  simp [sizes, limited]

theorem ReportField.limited_eq_self {names : String × String} {field : ReportField}
    (h : InLimits (field.sizes names)) : field.limited = field := by
  simp only [sizes, within_flatten, List.forall_mem_cons, within_textSize] at h
  simp [limited, limitText_eq_self, h]

theorem limitText_of_within (h : InLimits (textSize value field)) : limitText value = value :=
  limitText_eq_self (within_textSize.mp h)

theorem DiscoveryDecision.within (discovery : DiscoveryDecision) : InLimits discovery.limited.sizes := by
  simp only [sizes, limited, within_flatten, List.forall_mem_cons]
  exact ⟨within_limitText, within_map_keptItems, within_limited fun _ => within_limitText,
    fun _ h => absurd h List.not_mem_nil⟩

theorem DiscoveryDecision.limited_eq_self {discovery : DiscoveryDecision} (h : InLimits discovery.sizes) :
    discovery.limited = discovery := by
  simp only [sizes, within_flatten, List.forall_mem_cons] at h
  obtain ⟨hselected, hignored, htexts, -⟩ := h
  rw [limited, limitText_of_within hselected, map_keptItems_eq hignored htexts fun _ => limitText_of_within]

theorem ReportNativeFinding.within (native : ReportNativeFinding) : InLimits native.limited.sizes := by
  simp only [sizes, limited, within_flatten, List.forall_mem_cons]
  exact ⟨within_limitText, within_limitText, within_optional, within_limitText, within_limitText, within_limitText,
    within_limitText, within_optional, within_map_keptItems, within_map_keptItems, within_map_keptItems,
    within_limited (ReportField.within _), within_limited ReportNativeLabel.within,
    within_limited fun _ => within_limitText, fun _ h => absurd h List.not_mem_nil⟩

theorem ReportNativeFinding.limited_eq_self {native : ReportNativeFinding} (h : InLimits native.sizes) :
    native.limited = native := by
  simp only [sizes, within_flatten, List.forall_mem_cons] at h
  obtain ⟨hformat, hproducer, hversion, hcode, hstage, hseverity, hsummary, hhelp, hfields, hlabels, hnotes,
    hfield, hlabel, hnote, -⟩ := h
  rw [limited, limitText_of_within hformat, limitText_of_within hproducer, map_limitText_eq hversion,
    limitText_of_within hcode, limitText_of_within hstage, limitText_of_within hseverity,
    limitText_of_within hsummary, map_limitText_eq hhelp,
    map_keptItems_eq hfields hfield fun _ => ReportField.limited_eq_self,
    map_keptItems_eq hlabels hlabel fun _ => ReportNativeLabel.limited_eq_self,
    map_keptItems_eq hnotes hnote fun _ => limitText_of_within]

theorem within_elim {limit : α → α} {parts : α → List Sized} {found : Option α}
    (h : ∀ value, InLimits (parts (limit value))) : InLimits ((found.map limit).elim [] parts) := by
  cases found with
  | none => exact within_nil
  | some value => exact h value

theorem map_eq_self {limit : α → α} {parts : α → List Sized} {found : Option α} (hfound : InLimits (found.elim [] parts))
    (h : ∀ value, InLimits (parts value) → limit value = value) : found.map limit = found := by
  cases found with
  | none => rfl
  | some value => exact congrArg some (h value hfound)

theorem ReportDiagnostic.within (diagnostic : ReportDiagnostic) : InLimits diagnostic.limited.sizes := by
  simp only [sizes, limited, within_flatten, List.forall_mem_cons]
  exact ⟨within_map_keptItems, within_map_keptItems, within_limitText, within_limitText, within_optional,
    within_limitText, within_limitText, within_limitText, within_limited (ReportField.within _),
    within_limited ReportSpan.within, within_elim ReportNativeFinding.within, fun _ h => absurd h List.not_mem_nil⟩

theorem ReportDiagnostic.limited_eq_self {diagnostic : ReportDiagnostic} (h : InLimits diagnostic.sizes) :
    diagnostic.limited = diagnostic := by
  simp only [sizes, within_flatten, List.forall_mem_cons] at h
  obtain ⟨hfields, hspans, hcode, hname, hsource, hseverity, hsummary, hhelp, hfield, hspan, hnative, -⟩ := h
  rw [limited, limitText_of_within hcode, limitText_of_within hname, map_limitText_eq hsource,
    limitText_of_within hseverity, limitText_of_within hsummary, limitText_of_within hhelp,
    map_keptItems_eq hfields hfield fun _ => ReportField.limited_eq_self,
    map_keptItems_eq hspans hspan fun _ => ReportSpan.limited_eq_self,
    map_eq_self hnative fun _ => ReportNativeFinding.limited_eq_self]

/-! ## Whole reports -/

theorem ConversionReport.within (report : ConversionReport) : InLimits report.limited.sizes := by
  simp only [sizes, collectionSizes, contentSizes, limited, within_append, within_flatten, List.forall_mem_cons]
  exact ⟨⟨within_map_keptItems, within_map_keptItems, within_map_keptItems, within_map_keptItems,
      within_map_keptItems, within_map_keptItems, within_map_keptItems, within_map_keptItems,
      fun _ h => absurd h List.not_mem_nil⟩,
    within_limitText, within_limitText, within_limitText, within_optional, within_optional,
    within_elim FixFirst.within, within_optional, within_limitText, within_limitText, within_limitText,
    within_limitText, within_limited ReportInput.within, within_limited DiscoveryDecision.within,
    within_limited ReportChoice.within, within_limitText, within_limited fun _ => within_limitText,
    within_limitText, within_limitText, within_limited ReportDiagnostic.within,
    within_limited fun _ => within_limitText, within_limited OutputArtifact.within,
    within_limited fun _ => within_limitText, fun _ h => absurd h List.not_mem_nil⟩

theorem ConversionReport.limited_eq_self {report : ConversionReport} (h : InLimits report.sizes) :
    report.limited = report := by
  simp only [sizes, collectionSizes, contentSizes, within_append, within_flatten, List.forall_mem_cons] at h
  obtain ⟨⟨hinputs, hdiscovery, hchoices, hoptions, hdiagnostics, hevents, hartifacts, hclasses, -⟩, hversion,
    hsource, htarget, hcode, hsummary, hfix, happlication, hrequested, hrequestedMax, hresolved, hresolvedMax,
    hinput, hdecision, hchoice, hcommand, hoption, hfamily, harchitecture, hdiagnostic, hevent, hartifact,
    hclass, -⟩ := h
  rw [limited, limitText_of_within hversion, limitText_of_within hsource, limitText_of_within htarget,
    map_limitText_eq hcode, map_limitText_eq hsummary, map_eq_self hfix fun _ => FixFirst.limited_eq_self,
    map_limitText_eq happlication, limitText_of_within hrequested, limitText_of_within hrequestedMax,
    limitText_of_within hresolved, limitText_of_within hresolvedMax,
    map_keptItems_eq hinputs hinput fun _ => ReportInput.limited_eq_self,
    map_keptItems_eq hdiscovery hdecision fun _ => DiscoveryDecision.limited_eq_self,
    map_keptItems_eq hchoices hchoice fun _ => ReportChoice.limited_eq_self, limitText_of_within hcommand,
    map_keptItems_eq hoptions hoption fun _ => limitText_of_within, limitText_of_within hfamily,
    limitText_of_within harchitecture,
    map_keptItems_eq hdiagnostics hdiagnostic fun _ => ReportDiagnostic.limited_eq_self,
    map_keptItems_eq hevents hevent fun _ => limitText_of_within,
    map_keptItems_eq hartifacts hartifact fun _ => OutputArtifact.limited_eq_self,
    map_keptItems_eq hclasses hclass fun _ => limitText_of_within]

theorem InvocationReport.within (report : InvocationReport) : InLimits report.limited.sizes := by
  simp only [sizes, ownSizes, limited, within_append, within_flatten, List.forall_mem_cons]
  exact ⟨ConversionReport.within _, within_map_keptItems, within_map_keptItems, within_limitText,
    within_limited BundleMember.within, within_limited InputBundleMember.within,
    fun _ h => absurd h List.not_mem_nil⟩

theorem InvocationReport.limited_eq_self {report : InvocationReport} (h : InLimits report.sizes) :
    report.limited = report := by
  simp only [sizes, ownSizes, within_append, within_flatten, List.forall_mem_cons] at h
  obtain ⟨hconversion, hmembers, hinputs, hoperation, hmember, hinput, -⟩ := h
  rw [limited, ConversionReport.limited_eq_self hconversion, limitText_of_within hoperation,
    map_keptItems_eq hmembers hmember fun _ => BundleMember.limited_eq_self,
    map_keptItems_eq hinputs hinput fun _ => InputBundleMember.limited_eq_self]

end Boxferry.Cli
