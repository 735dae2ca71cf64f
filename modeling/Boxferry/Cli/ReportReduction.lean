import Boxferry.Cli.ConversionReport
import Mathlib.Algebra.BigOperators.Group.List.Basic
import Mathlib.Algebra.GroupWithZero.Nat
import Mathlib.Data.Option.Basic

/-! # Reducing a report

While the JSON of a report is too large, one element at a time is dropped from the end of a
collection, the details of the diagnostics first. Each call drops one, until none is left. -/
namespace Boxferry.Cli
set_option autoImplicit false

/-! ## Dropping one element -/

variable {α β γ : Type}

/-- A report without one element, the field of the collection and its length before. -/
abbrev Removed (α : Type) : Type := α × String × Nat

def popEnd (field : String) (values : List β) (rebuild : List β → α) : Option (Removed α) :=
  if values.isEmpty then none else some (rebuild values.dropLast, field, values.length)

/-- Drops the last element of the last owner that has one. -/
def popLastOwner (select : β → List γ) (replace : β → List γ → β) : List β → Option (List β × Nat)
  | [] => none
  | owner :: rest => match popLastOwner select replace rest with
    | some (rest, original) => some (owner :: rest, original)
    | none =>
      if (select owner).isEmpty then none
      else some (replace owner (select owner).dropLast :: rest, (select owner).length)

def popOwned (field : String) (owners : List β) (select : β → List γ) (replace : β → List γ → β)
    (rebuild : List β → α) : Option (Removed α) :=
  (popLastOwner select replace owners).map fun popped => (rebuild popped.1, field, popped.2)

def ReportDiagnostic.native (select : ReportNativeFinding → List β) (diagnostic : ReportDiagnostic) : List β :=
  diagnostic.nativeFinding.elim [] select

def ReportDiagnostic.withNative (replace : ReportNativeFinding → List β → ReportNativeFinding)
    (diagnostic : ReportDiagnostic) (values : List β) : ReportDiagnostic :=
  { diagnostic with nativeFinding := diagnostic.nativeFinding.map (replace · values) }

def popNativeCollection (field : String) (select : ReportNativeFinding → List β)
    (replace : ReportNativeFinding → List β → ReportNativeFinding) (report : ConversionReport) :
    Option (Removed ConversionReport) :=
  popOwned field report.diagnostics (ReportDiagnostic.native select) (ReportDiagnostic.withNative replace)
    fun diagnostics => { report with diagnostics := diagnostics }

def reduceDiagnosticDetails (report : ConversionReport) : Option (Removed ConversionReport) :=
  popNativeCollection "diagnostics.native_finding.notes" ReportNativeFinding.notes
      (fun native notes => { native with notes := notes }) report
  <|> popNativeCollection "diagnostics.native_finding.labels" ReportNativeFinding.labels
      (fun native labels => { native with labels := labels }) report
  <|> popNativeCollection "diagnostics.native_finding.fields" ReportNativeFinding.fields
      (fun native fields => { native with fields := fields }) report
  <|> popOwned "diagnostics.fields" report.diagnostics ReportDiagnostic.fields
      (fun diagnostic fields => { diagnostic with fields := fields })
      (fun diagnostics => { report with diagnostics := diagnostics })
  <|> popOwned "diagnostics.spans" report.diagnostics ReportDiagnostic.spans
      (fun diagnostic spans => { diagnostic with spans := spans })
      (fun diagnostics => { report with diagnostics := diagnostics })

/-- What a call drops from the conversion, if there is anything left. -/
def ConversionReport.dropOne (report : ConversionReport) : Option (Removed ConversionReport) :=
  reduceDiagnosticDetails report
  <|> popEnd "diagnostics" report.diagnostics (fun diagnostics => { report with diagnostics := diagnostics })
  <|> popEnd "events" report.events (fun events => { report with events := events })
  <|> popEnd "output_artifacts" report.outputArtifacts (fun artifacts => { report with outputArtifacts := artifacts })
  <|> popOwned "discovery.ignored" report.discovery DiscoveryDecision.ignored
      (fun discovery ignored => { discovery with ignored := ignored })
      (fun discovery => { report with discovery := discovery })
  <|> popEnd "discovery" report.discovery (fun discovery => { report with discovery := discovery })
  <|> popEnd "inputs" report.inputs (fun inputs => { report with inputs := inputs })
  <|> popEnd "choices" report.choices (fun choices => { report with choices := choices })
  <|> popEnd "invocation.provided_option_names" report.invocation.providedOptionNames
      (fun names => { report with invocation := { report.invocation with providedOptionNames := names } })
  <|> popEnd "redaction.classes" report.redaction.classes
      (fun classes => { report with redaction := { report.redaction with classes := classes } })

/-- Records that the last of so many elements was dropped. -/
def ConversionReport.recordDrop (report : ConversionReport) (field : String) (original : Nat) : ConversionReport :=
  { report with truncations := recordTruncation report.truncations field original (original - 1) }

/-- Whether an element was dropped, and the report after the call. -/
def ConversionReport.reduceForJson (report : ConversionReport) : Bool × ConversionReport :=
  match report.dropOne with
  | none => (false, report)
  | some (reduced, field, original) => (true, reduced.recordDrop field original)

def InvocationReport.reduceConversion (report : InvocationReport) : Bool × InvocationReport :=
  let reduced := report.conversion.reduceForJson
  (reduced.1, { report with conversion := reduced.2 })

def InvocationReport.reduceForJson (report : InvocationReport) : Bool × InvocationReport :=
  if ¬ report.conversion.diagnostics.isEmpty ∨ ¬ report.conversion.events.isEmpty then report.reduceConversion
  else if ¬ report.bundleMembers.isEmpty then
    (true, { report with
      bundleMembers := report.bundleMembers.dropLast
      conversion := report.conversion.recordDrop "bundle_members" report.bundleMembers.length })
  else if ¬ report.inputBundleMembers.isEmpty then
    (true, { report with
      inputBundleMembers := report.inputBundleMembers.dropLast
      conversion := report.conversion.recordDrop "input_bundle_members" report.inputBundleMembers.length })
  else report.reduceConversion

/-! ## Elements -/

def ReportNativeFinding.elements (finding : ReportNativeFinding) : Nat :=
  finding.notes.length + finding.labels.length + finding.fields.length

def ReportDiagnostic.elements (diagnostic : ReportDiagnostic) : Nat :=
  diagnostic.nativeFinding.elim 0 ReportNativeFinding.elements + diagnostic.fields.length + diagnostic.spans.length

/-- The elements of all the collections of the conversion, except its records of what was cut. -/
def ConversionReport.elements (report : ConversionReport) : Nat :=
  (report.diagnostics.map ReportDiagnostic.elements).sum + report.diagnostics.length + report.events.length
    + report.outputArtifacts.length + (report.discovery.map fun discovery => discovery.ignored.length).sum
    + report.discovery.length + report.inputs.length + report.choices.length
    + report.invocation.providedOptionNames.length + report.redaction.classes.length

def InvocationReport.elements (report : InvocationReport) : Nat :=
  report.conversion.elements + report.bundleMembers.length + report.inputBundleMembers.length

/-! ## What a call drops -/

variable {select : β → List γ} {replace : β → List γ → β} {owners rest : List β} {original : Nat} {field : String}

/-- The last owner that has an element loses its last one. -/
structure PopsOwner (select : β → List γ) (replace : β → List γ → β) (owners rest : List β) (original : Nat) : Prop where
  splits : ∃ before owner after, owners = before ++ owner :: after ∧ select owner ≠ [] ∧
    (∀ other ∈ after, select other = []) ∧ rest = before ++ replace owner (select owner).dropLast :: after ∧
    original = (select owner).length

theorem popLastOwner_eq_none : popLastOwner select replace owners = none ↔ ∀ owner ∈ owners, select owner = [] := by
  induction owners with
  | nil => exact ⟨fun _ owner howner => absurd howner List.not_mem_nil, fun _ => rfl⟩
  | cons owner owners ih =>
    rw [List.forall_mem_cons, ← ih, popLastOwner]
    cases popLastOwner select replace owners with
    | some popped => simp
    | none =>
      rw [← List.isEmpty_iff]
      cases (select owner).isEmpty <;> simp

theorem popsOwner_of_eq_some (h : popLastOwner select replace owners = some (rest, original)) :
    PopsOwner select replace owners rest original := by
  induction owners generalizing rest with
  | nil => cases h
  | cons owner owners ih =>
    rw [popLastOwner] at h
    cases hpopped : popLastOwner select replace owners with
    | some popped =>
      rw [hpopped] at h
      obtain ⟨popped, count⟩ := popped
      cases h
      obtain ⟨before, found, after, rfl, hfound, hafter, rfl, hcount⟩ := (ih hpopped).splits
      exact ⟨owner :: before, found, after, rfl, hfound, hafter, rfl, hcount⟩
    | none =>
      rw [hpopped] at h
      obtain ⟨hselect, hsome⟩ := Option.ite_none_left_eq_some.mp h
      cases hsome
      rw [List.isEmpty_iff] at hselect
      exact ⟨[], owner, owners, rfl, hselect, popLastOwner_eq_none.mp hpopped, rfl, rfl⟩

theorem popOwned_eq_none {rebuild : List β → α} :
    popOwned field owners select replace rebuild = none ↔ ∀ owner ∈ owners, select owner = [] := by
  rw [popOwned, Option.map_eq_none_iff, popLastOwner_eq_none]

theorem popEnd_eq_none {values : List β} {rebuild : List β → α} : popEnd field values rebuild = none ↔ values = [] := by
  unfold popEnd
  rw [← List.isEmpty_iff]
  cases values.isEmpty <;> simp

/-- One element is dropped from one collection, and nothing else of the conversion changes. Where it
is a diagnostic or a decision, none is left that has elements of its own. -/
inductive Drops (report : ConversionReport) : ConversionReport → String → Nat → Prop
  | notes {diagnostics : List ReportDiagnostic} {original : Nat}
      (h : PopsOwner (ReportDiagnostic.native ReportNativeFinding.notes)
        (ReportDiagnostic.withNative fun native notes => { native with notes := notes })
        report.diagnostics diagnostics original) :
      Drops report { report with diagnostics := diagnostics } "diagnostics.native_finding.notes" original
  | labels {diagnostics : List ReportDiagnostic} {original : Nat}
      (h : PopsOwner (ReportDiagnostic.native ReportNativeFinding.labels)
        (ReportDiagnostic.withNative fun native labels => { native with labels := labels })
        report.diagnostics diagnostics original) :
      Drops report { report with diagnostics := diagnostics } "diagnostics.native_finding.labels" original
  | nativeFields {diagnostics : List ReportDiagnostic} {original : Nat}
      (h : PopsOwner (ReportDiagnostic.native ReportNativeFinding.fields)
        (ReportDiagnostic.withNative fun native fields => { native with fields := fields })
        report.diagnostics diagnostics original) :
      Drops report { report with diagnostics := diagnostics } "diagnostics.native_finding.fields" original
  | fields {diagnostics : List ReportDiagnostic} {original : Nat}
      (h : PopsOwner ReportDiagnostic.fields (fun diagnostic fields => { diagnostic with fields := fields })
        report.diagnostics diagnostics original) :
      Drops report { report with diagnostics := diagnostics } "diagnostics.fields" original
  | spans {diagnostics : List ReportDiagnostic} {original : Nat}
      (h : PopsOwner ReportDiagnostic.spans (fun diagnostic spans => { diagnostic with spans := spans })
        report.diagnostics diagnostics original) :
      Drops report { report with diagnostics := diagnostics } "diagnostics.spans" original
  | diagnostics (hempty : ∀ diagnostic ∈ report.diagnostics, diagnostic.elements = 0) (h : report.diagnostics ≠ []) :
      Drops report { report with diagnostics := report.diagnostics.dropLast } "diagnostics" report.diagnostics.length
  | events (h : report.events ≠ []) :
      Drops report { report with events := report.events.dropLast } "events" report.events.length
  | outputArtifacts (h : report.outputArtifacts ≠ []) :
      Drops report { report with outputArtifacts := report.outputArtifacts.dropLast } "output_artifacts"
        report.outputArtifacts.length
  | ignored {discovery : List DiscoveryDecision} {original : Nat}
      (h : PopsOwner DiscoveryDecision.ignored (fun discovery ignored => { discovery with ignored := ignored })
        report.discovery discovery original) :
      Drops report { report with discovery := discovery } "discovery.ignored" original
  | discovery (hempty : ∀ discovery ∈ report.discovery, discovery.ignored = []) (h : report.discovery ≠ []) :
      Drops report { report with discovery := report.discovery.dropLast } "discovery" report.discovery.length
  | inputs (h : report.inputs ≠ []) :
      Drops report { report with inputs := report.inputs.dropLast } "inputs" report.inputs.length
  | choices (h : report.choices ≠ []) :
      Drops report { report with choices := report.choices.dropLast } "choices" report.choices.length
  | optionNames (h : report.invocation.providedOptionNames ≠ []) :
      Drops report { report with
          invocation := { report.invocation with
            providedOptionNames := report.invocation.providedOptionNames.dropLast } }
        "invocation.provided_option_names" report.invocation.providedOptionNames.length
  | classes (h : report.redaction.classes ≠ []) :
      Drops report { report with redaction := { report.redaction with classes := report.redaction.classes.dropLast } }
        "redaction.classes" report.redaction.classes.length

/-- The names under which elements are dropped. -/
def reducibleNames : List String :=
  ["diagnostics.native_finding.notes", "diagnostics.native_finding.labels", "diagnostics.native_finding.fields",
    "diagnostics.fields", "diagnostics.spans", "diagnostics", "events", "output_artifacts", "discovery.ignored",
    "discovery", "inputs", "choices", "invocation.provided_option_names", "redaction.classes", "bundle_members",
    "input_bundle_members"]

variable {report result : ConversionReport}

theorem sum_map_dropLast {values : List α} (measure : α → Nat) (h : ∀ value ∈ values, measure value = 0) :
    (values.dropLast.map measure).sum = (values.map measure).sum := by
  have hzero : ∀ part : List α, (∀ value ∈ part, measure value = 0) → (part.map measure).sum = 0 := by
    intro part hpart
    rw [List.map_congr_left hpart]
    simp
  rw [hzero values h, hzero values.dropLast fun value hvalue => h value (List.mem_of_mem_dropLast hvalue)]

theorem length_dropLast_succ {values : List α} (h : values ≠ []) : values.dropLast.length + 1 = values.length := by
  have hpos := List.length_pos_iff.mpr h
  rw [List.length_dropLast]
  omega

/-- Where the owner loses one element, so do all owners together. -/
theorem PopsOwner.sum_succ (h : PopsOwner select replace owners rest original) (measure : β → Nat)
    (hone : ∀ owner, select owner ≠ [] → measure (replace owner (select owner).dropLast) + 1 = measure owner) :
    (rest.map measure).sum + 1 = (owners.map measure).sum := by
  obtain ⟨before, owner, after, rfl, hselect, -, rfl, -⟩ := h.splits
  have howner := hone owner hselect
  simp only [List.map_append, List.map_cons, List.sum_append, List.sum_cons]
  omega

theorem PopsOwner.length_eq (h : PopsOwner select replace owners rest original) : rest.length = owners.length := by
  obtain ⟨before, owner, after, rfl, -, -, rfl, -⟩ := h.splits
  simp

/-- A native finding that loses one element leaves its diagnostic with one less. -/
theorem elements_withNative {select : ReportNativeFinding → List β}
    {replace : ReportNativeFinding → List β → ReportNativeFinding}
    (hone : ∀ native, select native ≠ [] → (replace native (select native).dropLast).elements + 1 = native.elements)
    (owner : ReportDiagnostic) (h : owner.native select ≠ []) :
    (owner.withNative replace (owner.native select).dropLast).elements + 1 = owner.elements := by
  unfold ReportDiagnostic.elements ReportDiagnostic.withNative
  unfold ReportDiagnostic.native at h ⊢
  cases hnative : owner.nativeFinding with
  | none =>
    rw [hnative] at h
    exact absurd rfl h
  | some native =>
    rw [hnative] at h
    have hnative := hone native h
    simp only [Option.map_some, Option.elim_some] at hnative ⊢
    omega

theorem Drops.elements_succ (h : Drops report result field original) : result.elements + 1 = report.elements := by
  unfold ConversionReport.elements
  cases h with
  | notes h | labels h | nativeFields h =>
    have hsum := h.sum_succ ReportDiagnostic.elements (elements_withNative fun native hvalues => by
      have hlength := length_dropLast_succ hvalues
      simp only [ReportNativeFinding.elements]
      omega)
    have hlength := h.length_eq
    dsimp only
    omega
  | fields h | spans h =>
    have hsum := h.sum_succ ReportDiagnostic.elements fun owner howner => by
      have hlength := length_dropLast_succ howner
      simp only [ReportDiagnostic.elements]
      omega
    have hlength := h.length_eq
    dsimp only
    omega
  | ignored h =>
    have hsum := h.sum_succ (fun discovery => discovery.ignored.length) fun owner howner =>
      length_dropLast_succ howner
    have hlength := h.length_eq
    dsimp only
    omega
  | diagnostics hempty h =>
    have hsum := sum_map_dropLast ReportDiagnostic.elements hempty
    have hlength := length_dropLast_succ h
    dsimp only
    omega
  | discovery hempty h =>
    have hsum := sum_map_dropLast (fun discovery : DiscoveryDecision => discovery.ignored.length)
      fun discovery hdiscovery => List.length_eq_zero_iff.mpr (hempty discovery hdiscovery)
    have hlength := length_dropLast_succ h
    dsimp only
    omega
  | events h | outputArtifacts h | inputs h | choices h | optionNames h | classes h =>
    have hlength := length_dropLast_succ h
    dsimp only
    omega

theorem Drops.mem_reducibleNames (h : Drops report result field original) : field ∈ reducibleNames := by
  cases h <;> decide

theorem Drops.truncations_eq (h : Drops report result field original) : result.truncations = report.truncations := by
  cases h <;> rfl

/-! ## What remains when nothing is dropped -/

theorem popOwned_eq_some {rebuild : List β → α} {removed : Removed α}
    (h : popOwned field owners select replace rebuild = some removed) :
    ∃ rest original, PopsOwner select replace owners rest original ∧ removed = (rebuild rest, field, original) := by
  obtain ⟨popped, hpopped, rfl⟩ := Option.map_eq_some_iff.mp h
  exact ⟨popped.1, popped.2, popsOwner_of_eq_some hpopped, rfl⟩

theorem popEnd_eq_some {values : List β} {rebuild : List β → α} {removed : Removed α}
    (h : popEnd field values rebuild = some removed) :
    values ≠ [] ∧ removed = (rebuild values.dropLast, field, values.length) := by
  obtain ⟨hvalues, hsome⟩ := Option.ite_none_left_eq_some.mp h
  rw [List.isEmpty_iff] at hvalues
  exact ⟨hvalues, (Option.some.inj hsome).symm⟩

/-- No diagnostic has details when none can be dropped. -/
theorem reduceDiagnosticDetails_eq_none (h : reduceDiagnosticDetails report = none) :
    ∀ diagnostic ∈ report.diagnostics, diagnostic.elements = 0 := by
  simp only [reduceDiagnosticDetails, popNativeCollection, Option.orElse_eq_none, popOwned_eq_none] at h
  obtain ⟨hnotes, hlabels, hnative, hfields, hspans⟩ := h
  intro diagnostic hdiagnostic
  have hnotes := hnotes diagnostic hdiagnostic
  have hlabels := hlabels diagnostic hdiagnostic
  have hnative := hnative diagnostic hdiagnostic
  rw [ReportDiagnostic.elements, hfields diagnostic hdiagnostic, hspans diagnostic hdiagnostic]
  unfold ReportDiagnostic.native at hnotes hlabels hnative
  cases hfinding : diagnostic.nativeFinding with
  | none => rfl
  | some native =>
    rw [hfinding] at hnotes hlabels hnative
    simp only [Option.elim_some] at hnotes hlabels hnative
    simp [ReportNativeFinding.elements, hnotes, hlabels, hnative]

theorem reduceDiagnosticDetails_drops (h : reduceDiagnosticDetails report = some (result, field, original)) :
    Drops report result field original := by
  simp only [reduceDiagnosticDetails, popNativeCollection, Option.orElse_eq_some] at h
  rcases h with h | ⟨-, h | ⟨-, h | ⟨-, h | ⟨-, h⟩⟩⟩⟩
  · obtain ⟨rest, count, hpops, heq⟩ := popOwned_eq_some h
    cases heq
    exact .notes hpops
  · obtain ⟨rest, count, hpops, heq⟩ := popOwned_eq_some h
    cases heq
    exact .labels hpops
  · obtain ⟨rest, count, hpops, heq⟩ := popOwned_eq_some h
    cases heq
    exact .nativeFields hpops
  · obtain ⟨rest, count, hpops, heq⟩ := popOwned_eq_some h
    cases heq
    exact .fields hpops
  · obtain ⟨rest, count, hpops, heq⟩ := popOwned_eq_some h
    cases heq
    exact .spans hpops

theorem ConversionReport.dropOne_drops (h : report.dropOne = some (result, field, original)) :
    Drops report result field original := by
  simp only [dropOne, Option.orElse_eq_some] at h
  rcases h with h | ⟨hdetails, h | ⟨-, h | ⟨-, h | ⟨-, h | ⟨hignored, h | ⟨-, h | ⟨-, h | ⟨-, h | ⟨-, h⟩⟩⟩⟩⟩⟩⟩⟩⟩
  · exact reduceDiagnosticDetails_drops h
  · obtain ⟨hne, heq⟩ := popEnd_eq_some h
    cases heq
    exact .diagnostics (reduceDiagnosticDetails_eq_none hdetails) hne
  · obtain ⟨hne, heq⟩ := popEnd_eq_some h
    cases heq
    exact .events hne
  · obtain ⟨hne, heq⟩ := popEnd_eq_some h
    cases heq
    exact .outputArtifacts hne
  · obtain ⟨rest, count, hpops, heq⟩ := popOwned_eq_some h
    cases heq
    exact .ignored hpops
  · obtain ⟨hne, heq⟩ := popEnd_eq_some h
    cases heq
    exact .discovery (popOwned_eq_none.mp hignored) hne
  · obtain ⟨hne, heq⟩ := popEnd_eq_some h
    cases heq
    exact .inputs hne
  · obtain ⟨hne, heq⟩ := popEnd_eq_some h
    cases heq
    exact .choices hne
  · obtain ⟨hne, heq⟩ := popEnd_eq_some h
    cases heq
    exact .optionNames hne
  · obtain ⟨hne, heq⟩ := popEnd_eq_some h
    cases heq
    exact .classes hne

theorem ConversionReport.dropOne_eq_none (h : report.dropOne = none) : report.elements = 0 := by
  simp only [dropOne, Option.orElse_eq_none, popEnd_eq_none] at h
  obtain ⟨-, hdiagnostics, hevents, hartifacts, -, hdiscovery, hinputs, hchoices, hnames, hclasses⟩ := h
  simp [elements, hdiagnostics, hevents, hartifacts, hdiscovery, hinputs, hchoices, hnames, hclasses]

end Boxferry.Cli
