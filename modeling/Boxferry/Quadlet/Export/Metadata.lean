import Mathlib.Data.String.Basic
import Boxferry.Quadlet.Export.Core
import Boxferry.Quadlet.MetadataRecords

/-! # Placing metadata

Vendor metadata is placed only after the complete set of unit filenames is
known: every item has one owning unit that carries its payload, and application
metadata is referenced from every other unit. -/
namespace Boxferry.Quadlet.Export
open Engine Lens Model
set_option autoImplicit false

/-- What placement uses of the native library and the record codec. -/
structure MetadataCodec (XSectionName : Type) where
  json : Metadata.RecordJson
  sections : NativeNames XSectionName
  acceptsValue : String → Bool

/-! ## Records of one item -/

section Records
variable {XSectionName : Type} (codec : MetadataCodec XSectionName)

def unitRecord (metadata : VendorMetadata) (owner name : String) : Except String String := do
  let text ← Metadata.encode codec.json metadata owner (name != owner)
  if codec.acceptsValue text then .ok text
  else .error "metadata cannot be encoded safely as a native extension record"

/-- Whether a unit carries a record of an item with this owner. -/
def carries (metadata : VendorMetadata) (owner name : String) : Bool :=
  name == owner || metadata.scope = .application

/-- The record every named unit will carry, up to the first error. -/
def collectRecords (metadata : VendorMetadata) (owner : String) :
    List String → List (Option String) × Option String
  | [] => ([], none)
  | name :: rest =>
    if carries metadata owner name then
      match unitRecord codec metadata owner name with
      | .error reason => ([], some reason)
      | .ok text =>
        let (records, error) := collectRecords metadata owner rest
        (some text :: records, error)
    else
      let (records, error) := collectRecords metadata owner rest
      (none :: records, error)

end Records

def recordBytes (records : List (Option String)) : Nat :=
  (records.map fun record => (record.map len).getD 0).sum

/-- Pushes every record on its unit; the flag says whether a push failed. -/
def pushRecords (library : NativeLibrary) (sectionName : String) :
    List StagedDocument → List (Option String) → Bool × List StagedDocument
  | document :: rest, some text :: records =>
    let entry : UnitEntry := ⟨.extension sectionName "Metadata", text⟩
    let (failed, documents) := pushRecords library sectionName rest records
    match library.rejects document.builder entry with
    | some _ => (true, document :: documents)
    | none =>
      let builder := { document.builder with entries := document.builder.entries ++ [entry] }
      (failed, { document with builder := builder } :: documents)
  | document :: rest, none :: records =>
    let (failed, documents) := pushRecords library sectionName rest records
    (failed, document :: documents)
  | documents, _ => (false, documents)

/-! ## All items -/

/-- The staged documents and the bytes of the records placed on them. -/
structure Placement where
  documents : List StagedDocument
  total : Nat

def fileNames (documents : List StagedDocument) : List String :=
  documents.map StagedDocument.fileName

def ownerOf (metadata : VendorMetadata) (names : List String) : Option String :=
  let owner := match metadata.scope with
    | .application => names.min?
    | .service owner => some (owner.asStr ++ ".container")
  owner.filter fun owner => names.any fun name => name == owner

section Placing
variable {XSectionName : Type} (m : Mapping) (codec : MetadataCodec XSectionName)

/-- The owner and the records of an item that can be placed, or why it cannot. -/
def planRecords (names : List String) (total : Nat) (metadata : VendorMetadata) :
    Except (String × List Provenance) (String × List (Option String)) :=
  if metadata.nameSpace.value.isSensitive then
    .error ("protected metadata namespaces cannot become printable vendor sections; retain the original source",
      metadata.nameSpace.origins)
  else
    match codec.sections.new (toAsciiUppercase metadata.nameSpace.value.expose) with
    | none =>
      .error ("vendor namespace cannot be encoded as an X- section; use an ASCII alphanumeric namespace with dots, underscores or hyphens",
        metadata.nameSpace.origins)
    | some sectionName =>
      match ownerOf metadata names with
      | none =>
        .error ("metadata has no generated owning unit; retain the source metadata separately or generate its owning service unit",
          metadata.payload.origins)
      | some owner =>
        let (records, error) := collectRecords codec metadata owner names
        if metadataMaxBytes < total + recordBytes records then
          .error ("generated metadata exceeds the aggregate 1 MiB transport limit; reduce metadata or unit count",
            metadata.payload.origins)
        else
          match error with
          | some reason => .error (reason, metadata.payload.origins)
          | none => .ok (codec.sections.asStr sectionName, records)

/-- Places one item of the application's metadata. -/
def placeMetadata (placement : Placement) (item : VendorMetadata × Nat) : Mapped Placement :=
  let (metadata, index) := item
  match planRecords codec (fileNames placement.documents) placement.total metadata with
  | .error (reason, origins) => do
    unsupported (.vendorMetadata index) reason origins
    pure placement
  | .ok (sectionName, records) => do
    let (failed, documents) :=
      pushRecords m.exporter.library sectionName placement.documents records
    let placement := ⟨documents, placement.total + recordBytes records⟩
    if failed then
      Reports.report .generationFailed
      unsupported (.vendorMetadata index)
        "native generation rejected metadata placement; retain the source document"
        metadata.payload.origins
    else exact (.vendorMetadata index) metadata.payload.origins
    pure placement

/-- Builds one staged document under the next source identity. -/
def buildDocument (nextSourceId : Nat) (document : StagedDocument) : Mapped Nat :=
  if 2 ^ 32 ≤ nextSourceId + 1 then do
    invalid Codes.generation document.subject
      "generated Quadlet document count exceeds the supported source identity space"
      "reduce the number of generated unit files" document.origins
    Reports.report .generationFailed
    pure nextSourceId
  else do
    match m.exporter.library.refuses document.builder with
    | none => exact document.subject document.origins
    | some error => generationError document.subject error document.origins
    pure (nextSourceId + 1)

/-- Places the application's metadata on the staged documents and builds them. -/
def finishStagedDocuments (staged : List StagedDocument) : Mapped (List StagedDocument) := do
  let placement ← m.application.vendorMetadata.zipIdx.foldlM (placeMetadata m codec) ⟨staged, 0⟩
  let _ ← placement.documents.foldlM (buildDocument m) 1
  pure placement.documents

end Placing

/-! ## Placed metadata

What placement leaves on the staged documents: every item reported exact has
its record on each unit that must carry one, and nothing else is added. -/

/-- An item with the unit that owns it and the vendor section that carries it. -/
structure PlacedItem where
  metadata : VendorMetadata
  owner : String
  sectionName : String

section Placed
variable {XSectionName : Type} {codec : MetadataCodec XSectionName}

/-- The text an item leaves on a named unit. -/
def recordText (codec : MetadataCodec XSectionName) (metadata : VendorMetadata)
    (owner name : String) : Option String :=
  if carries metadata owner name then (unitRecord codec metadata owner name).toOption else none

def PlacedItem.recordOn (codec : MetadataCodec XSectionName) (item : PlacedItem) (name : String) :
    Option UnitEntry :=
  (recordText codec item.metadata item.owner name).map
    fun text => ⟨.extension item.sectionName "Metadata", text⟩

/-- A document with the records of some items behind its entries. -/
def withRecords (codec : MetadataCodec XSectionName) (items : List PlacedItem)
    (document : StagedDocument) : StagedDocument :=
  { document with
    builder := { document.builder with
      entries := document.builder.entries ++
        items.filterMap fun item => item.recordOn codec document.fileName } }

structure Placeable (codec : MetadataCodec XSectionName) (names : List String) (item : PlacedItem) :
    Prop where
  plain : item.metadata.nameSpace.value.isSensitive = false
  admitted : ∃ sectionName, codec.sections.asStr sectionName = item.sectionName ∧
    codec.sections.new (toAsciiUppercase item.metadata.nameSpace.value.expose) = some sectionName
  owned : ownerOf item.metadata names = some item.owner
  written : ∀ name ∈ names, carries item.metadata item.owner name = true →
    ∃ text, unitRecord codec item.metadata item.owner name = .ok text

@[simp] theorem withRecords_nil (document : StagedDocument) :
    withRecords codec [] document = document := by
  simp [withRecords]

@[simp] theorem fileName_withRecords (items : List PlacedItem) (document : StagedDocument) :
    (withRecords codec items document).fileName = document.fileName := rfl

theorem withRecords_append (items : List PlacedItem) (item : PlacedItem)
    (document : StagedDocument) :
    withRecords codec (items ++ [item]) document =
      withRecords codec [item] (withRecords codec items document) := by
  simp [withRecords, List.filterMap_append]

/-! ## One item -/

theorem collectRecords_ok {metadata : VendorMetadata} {owner : String} {names : List String}
    {records : List (Option String)} (h : collectRecords codec metadata owner names = (records, none)) :
    records = names.map (recordText codec metadata owner) ∧
      ∀ name ∈ names, carries metadata owner name = true →
        ∃ text, unitRecord codec metadata owner name = .ok text := by
  induction names generalizing records with
  | nil =>
    rw [← (Prod.mk.inj h).1]
    simp
  | cons name rest ih =>
    rw [collectRecords] at h
    rcases hcollect : collectRecords codec metadata owner rest with ⟨collected, error⟩
    split at h
    · next hcarries =>
      cases hrecord : unitRecord codec metadata owner name with
      | error reason =>
        rw [hrecord] at h
        cases (Prod.mk.inj h).2
      | ok text =>
        rw [hrecord, hcollect] at h
        obtain ⟨hrecords, herror⟩ := Prod.mk.inj h
        obtain ⟨hrest, hwritten⟩ := ih (herror ▸ hcollect)
        constructor
        · rw [← hrecords, hrest, List.map_cons, recordText, if_pos hcarries, hrecord]
          rfl
        · intro other hother hother'
          rcases List.mem_cons.mp hother with rfl | hmem
          · exact ⟨text, hrecord⟩
          · exact hwritten other hmem hother'
    · next hcarries =>
      rw [hcollect] at h
      obtain ⟨hrecords, herror⟩ := Prod.mk.inj h
      obtain ⟨hrest, hwritten⟩ := ih (herror ▸ hcollect)
      constructor
      · rw [← hrecords, hrest, List.map_cons, recordText, if_neg hcarries]
      · intro other hother hother'
        rcases List.mem_cons.mp hother with rfl | hmem
        · exact absurd hother' hcarries
        · exact hwritten other hmem hother'

theorem pushRecords_ok {library : NativeLibrary} {item : PlacedItem}
    {documents pushed : List StagedDocument}
    (h : pushRecords library item.sectionName documents
      ((fileNames documents).map (recordText codec item.metadata item.owner)) = (false, pushed)) :
    pushed = documents.map (withRecords codec [item]) := by
  induction documents generalizing pushed with
  | nil =>
    rw [← (Prod.mk.inj h).2]
    rfl
  | cons document rest ih =>
    have hnames : fileNames (document :: rest) = document.fileName :: fileNames rest := rfl
    rw [hnames, List.map_cons] at h
    have hentries : item.recordOn codec document.fileName =
        (recordText codec item.metadata item.owner document.fileName).map
          fun text => ⟨.extension item.sectionName "Metadata", text⟩ := rfl
    rcases hrest : pushRecords library item.sectionName rest
      ((fileNames rest).map (recordText codec item.metadata item.owner)) with ⟨failed, others⟩
    cases hrecord : recordText codec item.metadata item.owner document.fileName with
    | none =>
      rw [hrecord, pushRecords, hrest] at h
      obtain ⟨hfailed, hpushed⟩ := Prod.mk.inj h
      rw [hfailed] at hrest
      have hothers : others = rest.map (withRecords codec [item]) := ih hrest
      rw [← hpushed, hothers, List.map_cons, withRecords]
      simp [hentries, hrecord]
    | some text =>
      rw [hrecord, pushRecords, hrest] at h
      simp only at h
      split at h
      · cases (Prod.mk.inj h).1
      · obtain ⟨hfailed, hpushed⟩ := Prod.mk.inj h
        rw [hfailed] at hrest
        have hothers : others = rest.map (withRecords codec [item]) := ih hrest
        rw [← hpushed, hothers, List.map_cons, withRecords]
        simp [hentries, hrecord]

theorem planRecords_ok {names : List String} {total : Nat} {metadata : VendorMetadata}
    {sectionName : String} {records : List (Option String)}
    (h : planRecords codec names total metadata = .ok (sectionName, records)) :
    ∃ owner, Placeable codec names ⟨metadata, owner, sectionName⟩ ∧
      records = names.map (recordText codec metadata owner) ∧
      total + recordBytes records ≤ metadataMaxBytes := by
  unfold planRecords at h
  rw [Results.guard_eq_ok, Bool.not_eq_true] at h
  obtain ⟨hplain, h⟩ := h
  cases hsection : codec.sections.new (toAsciiUppercase metadata.nameSpace.value.expose) with
  | none =>
    rw [hsection] at h
    cases h
  | some admitted =>
    rw [hsection] at h
    simp only at h
    cases howner : ownerOf metadata names with
    | none =>
      rw [howner] at h
      cases h
    | some owner =>
      rw [howner] at h
      simp only [Results.guard_eq_ok, Nat.not_lt] at h
      obtain ⟨htotal, h⟩ := h
      rcases hcollect : collectRecords codec metadata owner names with ⟨collected, error⟩
      rw [hcollect] at htotal h
      cases error with
      | some reason => cases h
      | none =>
        obtain ⟨hname, hrecords⟩ := Prod.mk.inj (Except.ok.inj h)
        obtain ⟨hcollected, hwritten⟩ := collectRecords_ok hcollect
        simp only at hrecords htotal
        rw [hrecords] at htotal hcollected
        exact ⟨owner, ⟨hplain, ⟨admitted, hname, hsection⟩, howner, hwritten⟩, hcollected, htotal⟩

/-! ## All items -/

/-- A decision about one item: the records it left, if any, and how it was reported. -/
inductive Decided (codec : MetadataCodec XSectionName) (names : List String) :
    VendorMetadata × Nat → Option PlacedItem × Event → Prop
  | placed {item : PlacedItem} {index : Nat} (h : Placeable codec names item) :
    Decided codec names (item.metadata, index)
      (some item, .exact (.vendorMetadata index) item.metadata.payload.origins)
  | refused {metadata : VendorMetadata} {index : Nat} {summary reason : String}
    {origins : List Provenance} :
    Decided codec names (metadata, index)
      (none, .loss Codes.unsupported (.vendorMetadata index) .unsupported summary reason origins)

def PlacedItem.bytesOn (codec : MetadataCodec XSectionName) (names : List String)
    (item : PlacedItem) : Nat :=
  recordBytes (names.map (recordText codec item.metadata item.owner))

/-- The staged documents with the records of some items, within the transport limit. -/
structure Holding (codec : MetadataCodec XSectionName) (staged : List StagedDocument)
    (items : List PlacedItem) (placement : Placement) : Prop where
  documents : placement.documents = staged.map (withRecords codec items)
  total : placement.total = (items.map (PlacedItem.bytesOn codec (fileNames staged))).sum
  bounded : placement.total ≤ metadataMaxBytes

theorem fileNames_withRecords (items : List PlacedItem) (staged : List StagedDocument) :
    fileNames (staged.map (withRecords codec items)) = fileNames staged := by
  unfold fileNames
  rw [List.map_map]
  rfl

theorem holding_start (staged : List StagedDocument) : Holding codec staged [] ⟨staged, 0⟩ where
  documents := by
    have hplain : withRecords codec [] = id := funext withRecords_nil
    rw [hplain, List.map_id]
  total := rfl
  bounded := Nat.zero_le _

variable {m : Mapping} {staged : List StagedDocument}

/-- One item is decided and reported once. -/
theorem placeMetadata_decided {items : List PlacedItem} {placement : Placement}
    {item : VendorMetadata × Nat} (hheld : Holding codec staged items placement)
    (hbuilt : .generationFailed ∉ (placeMetadata m codec placement item).log) :
    ∃ decision, Decided codec (fileNames staged) item decision ∧
      (placeMetadata m codec placement item).log = [decision.2] ∧
      Holding codec staged (items ++ decision.1.toList) (placeMetadata m codec placement item).value := by
  obtain ⟨metadata, index⟩ := item
  have hnames : fileNames placement.documents = fileNames staged := by
    rw [hheld.documents, fileNames_withRecords]
  unfold placeMetadata at hbuilt ⊢
  simp only [hnames] at hbuilt ⊢
  cases hplan : planRecords codec (fileNames staged) placement.total metadata with
  | error refusal =>
    exact ⟨_, .refused, rfl, by simpa using hheld⟩
  | ok plan =>
    obtain ⟨sectionName, records⟩ := plan
    obtain ⟨owner, hplaceable, hrecords, hbound⟩ := planRecords_ok hplan
    rw [hplan] at hbuilt
    simp only at hbuilt ⊢
    rcases hpush : pushRecords m.exporter.library sectionName placement.documents records with
      ⟨failed, documents⟩
    rw [hpush] at hbuilt
    cases failed with
    | true => simp at hbuilt
    | false =>
      refine ⟨_, .placed hplaceable, rfl, ?_, ?_, hbound⟩
      · rw [hrecords, ← hnames] at hpush
        have hpushed : documents = placement.documents.map (withRecords codec [⟨metadata, owner, sectionName⟩]) :=
          pushRecords_ok hpush
        show documents = _
        rw [hpushed, hheld.documents, List.map_map]
        refine List.map_congr_left fun document _ => ?_
        exact (withRecords_append items _ document).symm
      · show placement.total + recordBytes records = _
        rw [hheld.total, hrecords, Option.toList_some, List.map_append, List.sum_append]
        rfl

/-- Every item is decided and reported once, in order. -/
theorem placeMetadata_run {pairs : List (VendorMetadata × Nat)} {items : List PlacedItem}
    {placement : Placement} (hheld : Holding codec staged items placement)
    (hbuilt : .generationFailed ∉ (pairs.foldlM (placeMetadata m codec) placement).log) :
    ∃ decisions, List.Forall₂ (Decided codec (fileNames staged)) pairs decisions ∧
      (pairs.foldlM (placeMetadata m codec) placement).log = decisions.map Prod.snd ∧
      Holding codec staged (items ++ decisions.filterMap Prod.fst)
        (pairs.foldlM (placeMetadata m codec) placement).value := by
  induction pairs generalizing items placement with
  | nil => exact ⟨[], .nil, rfl, by simpa using hheld⟩
  | cons pair rest ih =>
    rw [List.foldlM_cons, Reports.mem_log_bind, not_or] at hbuilt
    obtain ⟨decision, hdecided, hlog, hheld⟩ := placeMetadata_decided hheld hbuilt.1
    obtain ⟨decisions, hrest, hlogs, hheld⟩ := ih hheld hbuilt.2
    refine ⟨decision :: decisions, .cons hdecided hrest, ?_, ?_⟩
    · rw [List.foldlM_cons, Reports.log_bind, hlog, hlogs]
      rfl
    · rw [List.append_assoc] at hheld
      rw [List.foldlM_cons, Reports.value_bind]
      have hitems : decision.1.toList ++ decisions.filterMap Prod.fst =
          (decision :: decisions).filterMap Prod.fst := by
        cases hfirst : decision.1 <;> simp [hfirst]
      rw [← hitems]
      exact hheld

/-! ## Reading the report -/

/-- The index of a metadata item that an event reports exact. -/
def Event.exactMetadata? : Event → Option Nat
  | .exact (.vendorMetadata index) _ => some index
  | _ => none

/-- The index of a metadata item that an event reports lost. -/
def Event.lostMetadata? : Event → Option Nat
  | .loss _ (.vendorMetadata index) _ _ _ _ => some index
  | _ => none

def exactIndices (log : List Event) : List Nat := log.filterMap Event.exactMetadata?

def lostIndices (log : List Event) : List Nat := log.filterMap Event.lostMetadata?

theorem exactIndices_cons (event : Event) (log : List Event) :
    exactIndices (event :: log) = event.exactMetadata?.toList ++ exactIndices log := by
  cases hindex : event.exactMetadata? <;> simp [exactIndices, hindex]

theorem lostIndices_cons (event : Event) (log : List Event) :
    lostIndices (event :: log) = event.lostMetadata?.toList ++ lostIndices log := by
  cases hindex : event.lostMetadata? <;> simp [lostIndices, hindex]

/-- The metadata a report calls exact, in the application's order. -/
def exactMetadata (application : Application) (log : List Event) : List VendorMetadata :=
  (application.vendorMetadata.zipIdx.filter fun item => item.2 ∈ exactIndices log).map Prod.fst

section Report
variable {names : List String} {pairs : List (VendorMetadata × Nat)}
  {decisions : List (Option PlacedItem × Event)}

theorem decided_indices (h : List.Forall₂ (Decided codec names) pairs decisions) {index : Nat}
    (hindex : index ∈ exactIndices (decisions.map Prod.snd) ∨
      index ∈ lostIndices (decisions.map Prod.snd)) : index ∈ pairs.map Prod.snd := by
  induction h with
  | nil => simp [exactIndices, lostIndices] at hindex
  | cons hfirst _ ih =>
    rw [List.map_cons, List.mem_cons]
    rw [List.map_cons, exactIndices_cons, lostIndices_cons, List.mem_append, List.mem_append]
      at hindex
    rcases hindex with (hhead | hexact) | (hhead | hlost)
    · cases hfirst with
      | placed => exact Or.inl (List.mem_singleton.mp hhead)
      | refused => cases hhead
    · exact Or.inr (ih (Or.inl hexact))
    · cases hfirst with
      | placed => cases hhead
      | refused => exact Or.inl (List.mem_singleton.mp hhead)
    · exact Or.inr (ih (Or.inr hlost))

/-- The items reported exact are the placed ones. -/
theorem decided_exact (h : List.Forall₂ (Decided codec names) pairs decisions)
    (hdistinct : (pairs.map Prod.snd).Nodup) :
    (pairs.filter fun item => item.2 ∈ exactIndices (decisions.map Prod.snd)).map Prod.fst =
      (decisions.filterMap Prod.fst).map PlacedItem.metadata := by
  induction h with
  | nil => rfl
  | @cons pair decision rest decisions hfirst hrest ih =>
    rw [List.map_cons, List.nodup_cons] at hdistinct
    have hfresh : pair.2 ∉ exactIndices (decisions.map Prod.snd) := fun hindex =>
      hdistinct.1 (decided_indices hrest (Or.inl hindex))
    have hothers := ih hdistinct.2
    cases hfirst with
    | @placed item index =>
      have hkept : rest.filter (fun item => item.2 ∈ index :: exactIndices (decisions.map Prod.snd)) =
          rest.filter fun item => item.2 ∈ exactIndices (decisions.map Prod.snd) := by
        refine List.filter_congr fun other hother => ?_
        have hne : other.2 ≠ index := fun hsame =>
          hdistinct.1 (List.mem_map.mpr ⟨other, hother, hsame⟩)
        simp [hne]
      have hindices : exactIndices (List.map Prod.snd ((some item,
          Event.exact (.vendorMetadata index) item.metadata.payload.origins) :: decisions)) =
          index :: exactIndices (decisions.map Prod.snd) := rfl
      rw [hindices, List.filter_cons_of_pos (by simp), hkept, List.map_cons, hothers]
      rfl
    | @refused metadata index summary reason origins =>
      have hindices : exactIndices (List.map Prod.snd ((none,
          Event.loss Codes.unsupported (.vendorMetadata index) .unsupported summary reason
            origins) :: decisions)) = exactIndices (decisions.map Prod.snd) := rfl
      rw [hindices, List.filter_cons_of_neg (by simpa using hfresh), hothers]
      rfl

/-- No item is reported exact and lost. -/
theorem decided_lost (h : List.Forall₂ (Decided codec names) pairs decisions)
    (hdistinct : (pairs.map Prod.snd).Nodup) {index : Nat}
    (hlost : index ∈ lostIndices (decisions.map Prod.snd)) :
    index ∉ exactIndices (decisions.map Prod.snd) := by
  induction h with
  | nil => simp [exactIndices]
  | @cons pair decision rest decisions hfirst hrest ih =>
    rw [List.map_cons, List.nodup_cons] at hdistinct
    rw [List.map_cons, lostIndices_cons, List.mem_append] at hlost
    rw [List.map_cons, exactIndices_cons, List.mem_append, not_or]
    cases hfirst with
    | placed =>
      have hrestLost := hlost.resolve_left List.not_mem_nil
      have hindex := decided_indices hrest (Or.inr hrestLost)
      refine ⟨?_, ih hdistinct.2 hrestLost⟩
      intro hsame
      rw [List.mem_singleton.mp hsame] at hindex
      exact hdistinct.1 hindex
    | refused =>
      refine ⟨List.not_mem_nil, ?_⟩
      rcases hlost with hsame | hrestLost
      · intro hexact
        have hindex := decided_indices hrest (Or.inl hexact)
        rw [List.mem_singleton.mp hsame] at hindex
        exact hdistinct.1 hindex
      · exact ih hdistinct.2 hrestLost

end Report

/-! ## The finished documents -/

theorem decided_placeable {names : List String} {pairs : List (VendorMetadata × Nat)}
    {decisions : List (Option PlacedItem × Event)}
    (h : List.Forall₂ (Decided codec names) pairs decisions) :
    ∀ item ∈ decisions.filterMap Prod.fst, Placeable codec names item := by
  induction h with
  | nil => simp
  | cons hfirst _ ih =>
    cases hfirst with
    | placed hplaceable => exact List.forall_mem_cons.mpr ⟨hplaceable, ih⟩
    | refused => exact ih

/-- Building a document says nothing about metadata. -/
theorem buildDocument_silent {next : Nat} {document : StagedDocument}
    (hown : ∀ index, document.subject ≠ .vendorMetadata index) :
    ∀ event ∈ (buildDocument m next document).log,
      event.exactMetadata? = none ∧ event.lostMetadata? = none := by
  intro event hevent
  have hsubject : ∀ code kind summary reason,
      (Event.exact document.subject document.origins).exactMetadata? = none ∧
        (Event.loss code document.subject kind summary reason document.origins).lostMetadata? =
          none := by
    intro code kind summary reason
    cases hsubject : document.subject with
    | vendorMetadata index => exact absurd hsubject (hown index)
    | _ => exact ⟨rfl, rfl⟩
  unfold buildDocument at hevent
  split at hevent
  · simp only [invalid, loss, Reports.log_bind, Reports.log_report, Reports.log_pure,
      List.append_nil, List.mem_append, List.mem_singleton] at hevent
    rcases hevent with rfl | rfl
    · exact ⟨rfl, (hsubject _ _ _ _).2⟩
    · exact ⟨rfl, rfl⟩
  · split at hevent
    · simp only [exact, Reports.log_bind, Reports.log_report, Reports.log_pure,
        List.append_nil, List.mem_singleton] at hevent
      rw [hevent]
      exact ⟨(hsubject Codes.generation .invalid "" "").1, rfl⟩
    · simp only [generationError, invalid, loss, Reports.log_bind, Reports.log_report,
        Reports.log_pure, List.append_nil, List.mem_append, List.mem_singleton] at hevent
      rcases hevent with rfl | rfl
      · exact ⟨rfl, rfl⟩
      · exact ⟨rfl, (hsubject _ _ _ _).2⟩

/-- What generated documents hold: the records of the items reported exact. -/
structure Finished (m : Mapping) (codec : MetadataCodec XSectionName) (staged : List StagedDocument)
    (items : List PlacedItem) : Prop where
  documents : (finishStagedDocuments m codec staged).value = staged.map (withRecords codec items)
  reported : exactMetadata m.application (finishStagedDocuments m codec staged).log =
    items.map PlacedItem.metadata
  placeable : ∀ item ∈ items, Placeable codec (fileNames staged) item
  bounded : (items.map (PlacedItem.bytesOn codec (fileNames staged))).sum ≤ metadataMaxBytes
  decided : ∀ index ∈ lostIndices (finishStagedDocuments m codec staged).log,
    index ∉ exactIndices (finishStagedDocuments m codec staged).log

theorem finishStagedDocuments_run
    (hown : ∀ document ∈ staged, ∀ index, document.subject ≠ .vendorMetadata index)
    (hgenerated : .generationFailed ∉ (finishStagedDocuments m codec staged).log) :
    ∃ items, Finished m codec staged items := by
  have hstart : Holding codec staged [] ⟨staged, 0⟩ := holding_start staged
  unfold finishStagedDocuments at hgenerated
  rw [Reports.mem_log_bind, not_or] at hgenerated
  obtain ⟨decisions, hdecisions, hlog, hheld⟩ := placeMetadata_run hstart hgenerated.1
  rw [List.nil_append] at hheld
  have hdocuments : (finishStagedDocuments m codec staged).value =
      staged.map (withRecords codec (decisions.filterMap Prod.fst)) := hheld.documents
  -- Building adds no decision about metadata to the report of placement.
  have hindices : exactIndices (finishStagedDocuments m codec staged).log =
        exactIndices (decisions.map Prod.snd) ∧
      lostIndices (finishStagedDocuments m codec staged).log =
        lostIndices (decisions.map Prod.snd) := by
    have hsilent : ∀ event ∈ ((staged.map (withRecords codec
        (decisions.filterMap Prod.fst))).foldlM (buildDocument m) 1).log,
        event.exactMetadata? = none ∧ event.lostMetadata? = none := by
      intro event hevent
      obtain ⟨document, hdocument, next, hbuilt⟩ := Reports.of_mem_log_foldlM hevent
      obtain ⟨original, horiginal, rfl⟩ := List.mem_map.mp hdocument
      have hsubject : ∀ index, (withRecords codec (decisions.filterMap Prod.fst)
          original).subject ≠ .vendorMetadata index := hown original horiginal
      exact buildDocument_silent hsubject event hbuilt
    unfold finishStagedDocuments
    rw [Reports.log_bind, Reports.log_bind, Reports.log_pure, List.append_nil, hheld.documents, hlog]
    unfold exactIndices lostIndices
    rw [List.filterMap_append, List.filterMap_append,
      List.filterMap_eq_nil_iff.mpr fun event hevent => (hsilent event hevent).1,
      List.filterMap_eq_nil_iff.mpr fun event hevent => (hsilent event hevent).2,
      List.append_nil, List.append_nil]
    exact ⟨rfl, rfl⟩
  have hdistinct : (m.application.vendorMetadata.zipIdx.map Prod.snd).Nodup := by
    rw [List.zipIdx_map_snd]
    exact List.nodup_range'
  refine ⟨decisions.filterMap Prod.fst, hdocuments, ?_, decided_placeable hdecisions, ?_, ?_⟩
  · unfold exactMetadata
    rw [hindices.1]
    exact decided_exact hdecisions hdistinct
  · rw [← hheld.total]
    exact hheld.bounded
  · rw [hindices.1, hindices.2]
    exact fun index hlost => decided_lost hdecisions hdistinct hlost

end Placed

end Boxferry.Quadlet.Export
