import Mathlib.Algebra.BigOperators.Group.List.Basic
import Boxferry.Library.Related
import Boxferry.Quadlet.Export.Metadata
import Boxferry.Quadlet.Import.Metadata

/-! # Metadata transfer

What the exporter places on generated units is what the importer resolves from
them: the metadata it reported exact, each item once, and nothing else. -/
namespace Boxferry.Quadlet
open Lens Model
set_option autoImplicit false

/-! ## Staged units -/

/-- The units a mapping stages before metadata is placed. -/
structure StagedUnits {UnitFileName : Type} (names : NativeNames UnitFileName)
    (staged : List Export.StagedDocument) : Prop where
  distinct : (Export.fileNames staged).Nodup
  named : ∀ document ∈ staged, ∃ stem unitType, Export.isNativeAtom stem = true ∧
    document.fileName = Export.unitName stem unitType ∧ (names.new document.fileName).isSome = true
  bare : ∀ document ∈ staged, document.builder.extensions = []
  own : ∀ document ∈ staged, ∀ index, document.subject ≠ .vendorMetadata index

theorem extension_alphanum (unitType : QuadletUnitType) :
    (Export.QuadletUnitType.extension unitType).toList.all Char.isAlphanum = true := by
  cases unitType <;> decide

/-- A generated unit filename is a carrier basename. -/
theorem checkCarrier_unitName {UnitFileName : Type} {names : NativeNames UnitFileName}
    {stem : String} {unitType : QuadletUnitType} (hstem : Export.isNativeAtom stem = true)
    (hnative : (names.new (Export.unitName stem unitType)).isSome = true) :
    Metadata.checkCarrier names (Export.unitName stem unitType) = .ok () := by
  have hchars : (Export.unitName stem unitType).toList =
      stem.toList ++ '.' :: (Export.QuadletUnitType.extension unitType).toList := by
    simp [Export.unitName]
  unfold Export.isNativeAtom at hstem
  rw [Bool.and_eq_true, Bool.and_eq_true] at hstem
  obtain ⟨⟨hfirst, -⟩, hall⟩ := hstem
  have hsafe : ∀ ch ∈ (Export.unitName stem unitType).toList,
      ch.isAlphanum = true ∨ ch ∈ ['.', '_', '-'] := by
    rw [hchars]
    intro ch hch
    rcases List.mem_append.mp hch with hch | hch
    · have hsafe := List.all_eq_true.mp hall ch hch
      simpa using hsafe
    · rcases List.mem_cons.mp hch with rfl | hch
      · simp
      · exact Or.inl (List.all_eq_true.mp (extension_alphanum unitType) ch hch)
  have hslash : ∀ separator, separator = '/' ∨ separator = '\\' →
      containsChar (Export.unitName stem unitType) separator = false := by
    intro separator hseparator
    unfold containsChar
    rw [Bool.eq_false_iff, ne_eq, List.contains_iff_mem]
    intro hmem
    have := hsafe separator hmem
    rcases hseparator with rfl | rfl <;> revert this <;> decide
  cases hlist : stem.toList with
  | nil => simp [hlist] at hfirst
  | cons first rest =>
    rw [hlist] at hfirst hchars
    have hhead : first.isAlphanum = true := by simpa using hfirst
    unfold Metadata.checkCarrier
    rw [Results.guard_eq_ok, Results.guard_eq_ok]
    refine ⟨?_, by simp [← Option.not_isSome, hnative], rfl⟩
    rintro (hempty | hbad | hbad | hdot | hdots)
    · rw [String.isEmpty_iff] at hempty
      rw [hempty] at hchars
      cases hchars
    · rw [hslash _ (Or.inl rfl)] at hbad
      cases hbad
    · rw [hslash _ (Or.inr rfl)] at hbad
      cases hbad
    · rw [hdot] at hchars
      have hsame : '.' = first := (List.cons.inj hchars).1
      rw [← hsame] at hhead
      revert hhead
      decide
    · rw [hdots] at hchars
      have hsame : '.' = first := (List.cons.inj hchars).1
      rw [← hsame] at hhead
      revert hhead
      decide

/-! ## Vendor texts -/

/-- The text of one vendor entry of a named unit. -/
structure VendorText where
  fileName : String
  sectionName : String
  key : String
  text : String
deriving DecidableEq

def stagedTexts (document : Export.StagedDocument) : List VendorText :=
  document.builder.extensions.map fun (sectionName, key, text) =>
    ⟨document.fileName, sectionName, key, text⟩

def readText (vendor : Import.VendorEntry) : VendorText :=
  ⟨vendor.fileName, vendor.sectionName, vendor.entry.key, vendor.entry.primary.text⟩

/-- A source that holds generated documents: their filenames and their vendor entries verbatim,
one physical line each. -/
structure Reread (documents : List Export.StagedDocument) (source : Import.QuadletSource) : Prop where
  names : (source.documents.map NamedQuadletDocument.name).Perm (Export.fileNames documents)
  texts : (source.vendorEntries.map readText).Perm (documents.flatMap stagedTexts)
  lines : ∀ vendor ∈ source.vendorEntries, vendor.entry.isContinued = false

section Texts
variable {XSectionName : Type} {codec : Export.MetadataCodec XSectionName}

/-- The vendor text an item leaves on a named unit. -/
def placedText (codec : Export.MetadataCodec XSectionName) (name : String)
    (item : Export.PlacedItem) : Option VendorText :=
  (Export.recordText codec item.metadata item.owner name).map
    fun text => ⟨name, item.sectionName, "Metadata", text⟩

theorem stagedTexts_withRecords {document : Export.StagedDocument}
    (hbare : document.builder.extensions = []) (items : List Export.PlacedItem) :
    stagedTexts (Export.withRecords codec items document) =
      items.filterMap (placedText codec document.fileName) := by
  have hadded : (Export.withRecords codec items document).builder.extensions =
      (items.filterMap fun item => item.recordOn codec document.fileName).filterMap
        Export.UnitEntry.extension? := by
    unfold Export.UnitBuilder.extensions at hbare ⊢
    rw [Export.withRecords, List.filterMap_append, hbare, List.nil_append]
  unfold stagedTexts
  rw [hadded, List.filterMap_filterMap, List.map_filterMap]
  refine List.filterMap_congr fun item _ => ?_
  unfold Export.PlacedItem.recordOn placedText
  cases Export.recordText codec item.metadata item.owner document.fileName <;> rfl

theorem stagedTexts_all {staged : List Export.StagedDocument}
    (hbare : ∀ document ∈ staged, document.builder.extensions = []) (items : List Export.PlacedItem) :
    (staged.map (Export.withRecords codec items)).flatMap stagedTexts =
      (Export.fileNames staged).flatMap fun name => items.filterMap (placedText codec name) := by
  rw [List.flatMap_map, Export.fileNames, List.flatMap_map]
  refine List.flatMap_congr fun document hdocument => ?_
  exact stagedTexts_withRecords (hbare document hdocument) items

theorem mem_placedTexts {names : List String} {items : List Export.PlacedItem} {text : VendorText} :
    (text ∈ names.flatMap fun name => items.filterMap (placedText codec name)) ↔
      ∃ name ∈ names, ∃ item ∈ items, placedText codec name item = some text := by
  simp [List.mem_flatMap, List.mem_filterMap]

def VendorText.bytes (text : VendorText) : Nat := len text.text

/-- The bytes of all vendor texts are the bytes that placement counted. -/
theorem sum_placedTexts (names : List String) (items : List Export.PlacedItem) :
    ((names.flatMap fun name => items.filterMap (placedText codec name)).map
      VendorText.bytes).sum = (items.map (Export.PlacedItem.bytesOn codec names)).sum := by
  have hone : ∀ name, ((items.filterMap (placedText codec name)).map VendorText.bytes).sum =
      (items.map fun item =>
        ((Export.recordText codec item.metadata item.owner name).map len).getD 0).sum := by
    intro name
    induction items with
    | nil => rfl
    | cons item rest ih =>
      rw [List.map_cons, List.sum_cons, ← ih, List.filterMap_cons, placedText]
      cases hrecord : Export.recordText codec item.metadata item.owner name <;>
        simp [VendorText.bytes]
  induction names with
  | nil =>
    have hzero : Export.PlacedItem.bytesOn codec [] = fun _ => 0 := rfl
    simp [hzero]
  | cons name rest ih =>
    rw [List.flatMap_cons, List.map_append, List.sum_append, hone, ih, ← List.sum_map_add]
    congr 1

end Texts

/-! ## Records of placed items -/

/-- What the records of an item are about, on the wire. -/
def wireIdentity (metadata : VendorMetadata) : Metadata.Scope × String :=
  (Metadata.Scope.encode metadata.scope, metadata.nameSpace.value.expose)

theorem wireIdentity_inj {left right : VendorMetadata} (h : wireIdentity left = wireIdentity right) :
    left.identity = right.identity := by
  obtain ⟨hscope, hname⟩ := Prod.mk.inj h
  have hsame : left.scope = right.scope := by
    cases hleft : left.scope with
    | application =>
      cases hright : right.scope with
      | application => rfl
      | service owner =>
        rw [hleft, hright] at hscope
        cases hscope
    | service owner =>
      cases hright : right.scope with
      | application =>
        rw [hleft, hright] at hscope
        cases hscope
      | service other =>
        rw [hleft, hright] at hscope
        rw [Identifier.ext_asStr (Metadata.Scope.service.inj hscope)]
  rw [VendorMetadata.identity, VendorMetadata.identity, hsame, hname]

theorem identity_of_recordOf {metadata : VendorMetadata} {carrier : String}
    {placed : Import.PlacedRecord} (h : Import.RecordOf metadata carrier placed) :
    placed.identity = wireIdentity metadata := by
  obtain ⟨content, -, hrecord⟩ := h.written
  rw [Import.PlacedRecord.identity, hrecord]
  rfl

section Records
variable {UnitFileName XSectionName : Type} {names : NativeNames UnitFileName}
  {codec : Export.MetadataCodec XSectionName} {source : Import.QuadletSource}

/-- A text that an item left is read back as a record of the item. -/
theorem readable_placedText (hjson : codec.json.RoundTrips) (hsections : codec.sections.KeepsSpelling)
    {units : List String} {item : Export.PlacedItem} (hplaceable : Export.Placeable codec units item)
    (hbuilt : item.metadata.payload.value.Built)
    (hcarrier : Metadata.checkCarrier names item.owner = .ok ()) {name : String}
    {vendor : Import.VendorEntry} (hline : vendor.entry.isContinued = false)
    (htext : placedText codec name item = some (readText vendor)) :
    ∃ placed, Import.ReadAs codec.json codec.sections names source vendor placed ∧
      Import.RecordOf item.metadata item.owner placed := by
  unfold placedText at htext
  obtain ⟨text, hrecord, htext⟩ := Option.map_eq_some_iff.mp htext
  have hname : name = vendor.fileName := congrArg VendorText.fileName htext
  have hsection : item.sectionName = vendor.sectionName := congrArg VendorText.sectionName htext
  have hkey : "Metadata" = vendor.entry.key := congrArg VendorText.key htext
  have hspelled : text = vendor.entry.primary.text := congrArg VendorText.text htext
  unfold Export.recordText at hrecord
  by_cases hcarries : Export.carries item.metadata item.owner name = true
  · rw [if_pos hcarries] at hrecord
    cases hunit : Export.unitRecord codec item.metadata item.owner name with
    | error reason =>
      rw [hunit] at hrecord
      cases hrecord
    | ok written =>
      rw [hunit] at hrecord
      have hwritten : written = text := Option.some.inj hrecord
      obtain ⟨encoded, hencoded, haccepted⟩ := Results.bind_eq_ok.mp hunit
      rw [Results.accept_eq_ok] at haccepted
      obtain ⟨admitted, hadmitted, hnew⟩ := hplaceable.admitted
      have hadmits : Metadata.admitsSection codec.sections item.metadata.nameSpace.value := by
        rw [Metadata.admitsSection, hnew]
        rfl
      rw [haccepted.2, hwritten, hspelled] at hencoded
      obtain ⟨content, hcontent, hdecode⟩ := Metadata.decode_encode hjson hbuilt hcarrier
        hplaceable.plain hadmits hencoded
      refine ⟨⟨Metadata.recordOf item.metadata item.owner content, vendor.fileName,
        source.entryOrigin vendor.entry⟩, ?_, ?_⟩
      · exact {
          key := hkey.symm
          line := hline
          decoded := hdecode
          filed := by
            rw [← hsection, ← hadmitted, hsections _ _ hnew]
            rfl
          located := ⟨rfl, rfl⟩ }
      · refine ⟨⟨content, ?_, rfl⟩, ?_⟩
        · rw [hname] at hcontent
          exact hcontent
        · unfold Export.carries at hcarries
          rw [Bool.or_eq_true, beq_iff_eq, decide_eq_true_eq, hname] at hcarries
          exact hcarries
  · rw [if_neg hcarries] at hrecord
    cases hrecord

/-- The payload text of a placed item is on its owner. -/
theorem placedText_owner {units : List String} {item : Export.PlacedItem}
    (hplaceable : Export.Placeable codec units item) :
    item.owner ∈ units ∧ ∃ text, placedText codec item.owner item = some text := by
  have howner := hplaceable.owned
  unfold Export.ownerOf at howner
  obtain ⟨-, hany⟩ := Option.filter_eq_some_iff.mp howner
  have hmem : item.owner ∈ units := by simpa using hany
  have hcarries : Export.carries item.metadata item.owner item.owner = true := by
    simp [Export.carries]
  obtain ⟨text, htext⟩ := hplaceable.written item.owner hmem hcarries
  refine ⟨hmem, ⟨item.owner, item.sectionName, "Metadata", text⟩, ?_⟩
  rw [placedText, Export.recordText, if_pos hcarries, htext]
  rfl

/-- The least filename does not depend on the order of the documents. -/
theorem min?_of_perm {left right : List String} (h : left.Perm right) : left.min? = right.min? := by
  refine Option.ext fun name => ?_
  simp only [List.min?_eq_some_iff, h.mem_iff]

/-- The owner chosen at export is the carrier required at import. -/
theorem canonicalCarrier_of_owner {units : List String} {item : Export.PlacedItem}
    (hplaceable : Export.Placeable codec units item)
    (hunits : (source.documents.map NamedQuadletDocument.name).Perm units) :
    Import.CanonicalCarrier source item.metadata item.owner := by
  have howner := hplaceable.owned
  unfold Export.ownerOf at howner
  obtain ⟨hchosen, -⟩ := Option.filter_eq_some_iff.mp howner
  unfold Import.CanonicalCarrier
  cases hscope : item.metadata.scope with
  | application =>
    rw [hscope] at hchosen
    exact (min?_of_perm hunits).trans hchosen
  | service owner =>
    rw [hscope] at hchosen
    exact (Option.some.inj hchosen).symm

/-! ## The imported metadata -/

/-- Items whose records are all in a source, with nothing beside them. -/
structure Delivered (names : NativeNames UnitFileName) (codec : Export.MetadataCodec XSectionName)
    (units : List String) (items : List Export.PlacedItem) (source : Import.QuadletSource) :
    Prop where
  placeable : ∀ item ∈ items, Export.Placeable codec units item
  built : ∀ item ∈ items, item.metadata.payload.value.Built
  carriers : ∀ unit ∈ units, Metadata.checkCarrier names unit = .ok ()
  distinct : (items.map fun item => item.metadata.identity).Nodup
  documents : (source.documents.map NamedQuadletDocument.name).Perm units
  texts : (source.vendorEntries.map readText).Perm
    (units.flatMap fun name => items.filterMap (placedText codec name))
  lines : ∀ vendor ∈ source.vendorEntries, vendor.entry.isContinued = false
  bounded : (items.map (Export.PlacedItem.bytesOn codec units)).sum ≤ metadataMaxBytes

variable {units : List String} {items : List Export.PlacedItem}

namespace Delivered

/-- Every vendor entry is read as a record of an item. -/
theorem read (h : Delivered names codec units items source) (hjson : codec.json.RoundTrips)
    (hsections : codec.sections.KeepsSpelling) :
    ∀ vendor ∈ source.vendorEntries, ∃ placed,
      Import.ReadAs codec.json codec.sections names source vendor placed ∧
        ∃ item ∈ items, Import.RecordOf item.metadata item.owner placed := by
  intro vendor hvendor
  have hmem : readText vendor ∈ units.flatMap fun name => items.filterMap (placedText codec name) :=
    h.texts.mem_iff.mp (List.mem_map_of_mem hvendor)
  obtain ⟨name, -, item, hitem, htext⟩ := mem_placedTexts.mp hmem
  obtain ⟨placed, hread, hrecord⟩ := readable_placedText hjson hsections (h.placeable item hitem)
    (h.built item hitem) (h.carriers _ (placedText_owner (h.placeable item hitem)).1)
    (h.lines vendor hvendor) htext
  exact ⟨placed, hread, item, hitem, hrecord⟩

/-- The payload of every item is read on its carrier. -/
theorem payload (h : Delivered names codec units items source) (hjson : codec.json.RoundTrips)
    (hsections : codec.sections.KeepsSpelling) {item : Export.PlacedItem} (hitem : item ∈ items) :
    ∃ vendor ∈ source.vendorEntries, vendor.fileName = item.owner ∧
      ∀ placed, Import.ReadAs codec.json codec.sections names source vendor placed →
        Import.RecordOf item.metadata item.owner placed := by
  obtain ⟨howner, text, htext⟩ := placedText_owner (h.placeable item hitem)
  have hmem : text ∈ source.vendorEntries.map readText :=
    h.texts.mem_iff.mpr (mem_placedTexts.mpr ⟨item.owner, howner, item, hitem, htext⟩)
  obtain ⟨vendor, hvendor, rfl⟩ := List.mem_map.mp hmem
  have hfile : vendor.fileName = item.owner := by
    unfold placedText at htext
    obtain ⟨_, -, htext⟩ := Option.map_eq_some_iff.mp htext
    exact (congrArg VendorText.fileName htext).symm
  obtain ⟨found, hfound, hrecord⟩ := @readable_placedText _ _ _ _ source hjson hsections _ _
    (h.placeable item hitem) (h.built item hitem) (h.carriers _ howner) _ _ (h.lines vendor hvendor)
    htext
  refine ⟨vendor, hvendor, hfile, ?_⟩
  intro placed hplaced
  -- Decoding is a function of the text, so the entry is read as this record only.
  have hsame : found.record = placed.record :=
    Except.ok.inj (hfound.decoded.symm.trans hplaced.decoded)
  have hname : found.fileName = placed.fileName :=
    hfound.located.1.trans hplaced.located.1.symm
  obtain ⟨⟨content, hcontent, hwritten⟩, hspread⟩ := hrecord
  rw [hsame] at hwritten
  rw [hname] at hcontent hspread
  exact ⟨⟨content, hcontent, hwritten⟩, hspread⟩

theorem sum_bytes (h : Delivered names codec units items source) :
    0 + (source.vendorEntries.map Import.VendorEntry.bytes).sum ≤ metadataMaxBytes := by
  have htexts : source.vendorEntries.map Import.VendorEntry.bytes =
      (source.vendorEntries.map readText).map VendorText.bytes := by
    rw [List.map_map]
    rfl
  rw [Nat.zero_add, htexts, (h.texts.map _).sum_eq, sum_placedTexts]
  exact h.bounded

/-- A group holds the records of one item. -/
theorem resolvable (h : Delivered names codec units items source) {placed : List Import.PlacedRecord}
    {groups : Import.RecordGroups} (hgroups : Groups.Holds Import.PlacedRecord.identity placed groups)
    (hplaced : ∀ record ∈ placed, ∃ item ∈ items, Import.RecordOf item.metadata item.owner record)
    (hpayload : ∀ item ∈ items, ∃ record ∈ placed,
      Import.RecordOf item.metadata item.owner record ∧ record.fileName = item.owner) :
    ∀ group ∈ groups, ∃ item ∈ items, wireIdentity item.metadata = group.1 ∧
      Import.Resolvable source group.2 (item.metadata, item.owner) := by
  intro group hgroup
  obtain ⟨record, hrecord, hkey⟩ :=
    hgroups.mem_keys.mp (List.mem_map_of_mem (f := Prod.fst) hgroup)
  obtain ⟨item, hitem, hof⟩ := hplaced record hrecord
  rw [identity_of_recordOf hof] at hkey
  refine ⟨item, hitem, hkey, ?_⟩
  have hunique : ∀ other ∈ items, wireIdentity other.metadata = group.1 → other = item := by
    intro other hother hsame
    rw [← hkey] at hsame
    exact List.inj_on_of_nodup_map h.distinct hother hitem (wireIdentity_inj hsame)
  exact {
    built := h.built item hitem
    owned := by
      intro member hmember
      rw [hgroups.group_eq hgroup, List.mem_filter, decide_eq_true_eq] at hmember
      obtain ⟨other, hother, hmemberOf⟩ := hplaced member hmember.1
      rw [identity_of_recordOf hmemberOf] at hmember
      rw [← hunique other hother hmember.2]
      exact hmemberOf
    payload := by
      obtain ⟨member, hmember, hmemberOf, hname⟩ := hpayload item hitem
      refine ⟨member, ?_, hname⟩
      rw [hgroups.group_eq hgroup, List.mem_filter, decide_eq_true_eq]
      exact ⟨hmember, (identity_of_recordOf hmemberOf).trans hkey⟩
    carrier := canonicalCarrier_of_owner (h.placeable item hitem) h.documents
    present := h.documents.mem_iff.mpr (placedText_owner (h.placeable item hitem)).1 }

/-- The groups of a source are its items, each once. -/
theorem groups_perm (h : Delivered names codec units items source) {placed : List Import.PlacedRecord}
    {groups : Import.RecordGroups} (hgroups : Groups.Holds Import.PlacedRecord.identity placed groups)
    (hpayload : ∀ item ∈ items, ∃ record ∈ placed,
      Import.RecordOf item.metadata item.owner record ∧ record.fileName = item.owner)
    {kept : List Export.PlacedItem}
    (hkept : List.Forall₂ (fun group (item : Export.PlacedItem) =>
      item ∈ items ∧ wireIdentity item.metadata = group.1) groups kept) : kept.Perm items := by
  have hkeys : kept.map (fun item => wireIdentity item.metadata) = groups.map Prod.fst := by
    clear hgroups
    induction hkept with
    | nil => rfl
    | cons hfirst _ ih => rw [List.map_cons, List.map_cons, hfirst.2, ih]
  have hnodup : kept.Nodup := by
    have hdistinct := hgroups.distinct
    rw [← hkeys] at hdistinct
    exact hdistinct.of_map _
  rw [List.perm_ext_iff_of_nodup hnodup (h.distinct.of_map _)]
  intro item
  constructor
  · intro hitem
    obtain ⟨group, -, hmem, -⟩ := Related.exists_left hkept item hitem
    exact hmem
  · intro hitem
    obtain ⟨record, hrecord, hof, -⟩ := hpayload item hitem
    have hkey : wireIdentity item.metadata ∈ groups.map Prod.fst :=
      hgroups.mem_keys.mpr ⟨record, hrecord, identity_of_recordOf hof⟩
    rw [← hkeys] at hkey
    obtain ⟨other, hother, hsame⟩ := List.mem_map.mp hkey
    obtain ⟨group, -, hmem, -⟩ := Related.exists_left hkept other hother
    rw [← List.inj_on_of_nodup_map h.distinct hmem hitem (wireIdentity_inj hsame)]
    exact hother

/-- A source that holds the records of items imports the items, with exact decisions only. -/
theorem importMetadata_ok (h : Delivered names codec units items source)
    (hjson : codec.json.RoundTrips) (hsections : codec.sections.KeepsSpelling)
    {application : Application} (hempty : application.vendorMetadata = [])
    (hknown : ∀ item ∈ items, ∀ owner, item.metadata.scope = .service owner →
      owner ∈ application.serviceNames)
    (hbudget : WithinMetadataBudget (items.map Export.PlacedItem.metadata)) :
    let imported := Import.importMetadata codec.json codec.sections names source application
    (∃ kept : List VendorMetadata, kept.Perm (items.map Export.PlacedItem.metadata) ∧
      List.Forall₂ VendorMetadata.SameContent imported.value.vendorMetadata kept) ∧
    ∀ event ∈ imported.log, event.isExact = true := by
  obtain ⟨placed, hplaced⟩ := Related.choose (h.read hjson hsections)
  have hreads : List.Forall₂ (Import.ReadAs codec.json codec.sections names source)
      source.vendorEntries placed := hplaced.imp fun _ _ hpair => hpair.1
  obtain ⟨groups, hvalue, hlog, hgroups⟩ := Import.readRecords_ok hreads h.sum_bytes
    (Groups.holds_nil Import.PlacedRecord.identity)
  rw [List.nil_append] at hgroups
  have hof : ∀ record ∈ placed, ∃ item ∈ items, Import.RecordOf item.metadata item.owner record := by
    intro record hrecord
    obtain ⟨vendor, -, -, hitem⟩ := Related.exists_left hplaced record hrecord
    exact hitem
  have hpayload : ∀ item ∈ items, ∃ record ∈ placed,
      Import.RecordOf item.metadata item.owner record ∧ record.fileName = item.owner := by
    intro item hitem
    obtain ⟨vendor, hvendor, hfile, hread⟩ := h.payload hjson hsections hitem
    obtain ⟨record, hrecord, hreadAs⟩ := Related.exists_right hreads vendor hvendor
    exact ⟨record, hrecord, hread record hreadAs, hreadAs.located.1.trans hfile⟩
  obtain ⟨kept, hkept⟩ := Related.choose (h.resolvable hgroups hof hpayload)
  have hperm : kept.Perm items :=
    h.groups_perm hgroups hpayload (hkept.imp fun _ _ hpair => ⟨hpair.1, hpair.2.1⟩)
  have hresolvable : List.Forall₂ (fun group item => Import.Resolvable source group.2 item) groups
      (kept.map fun item => (item.metadata, item.owner)) :=
    List.forall₂_map_right_iff.mpr (hkept.imp fun _ _ hpair => hpair.2.2)
  have hkeptMetadata : (kept.map fun item => (item.metadata, item.owner)).map Prod.fst =
      kept.map Export.PlacedItem.metadata := by
    rw [List.map_map]
    rfl
  have hstart : List.Forall₂ VendorMetadata.SameContent application.vendorMetadata [] := by
    rw [hempty]
    exact .nil
  have hresolved := Import.resolveMetadataGroups_ok hresolvable hstart
    (by
      intro item hitem
      obtain ⟨original, horiginal, rfl⟩ := List.mem_map.mp hitem
      exact hknown original (hperm.mem_iff.mp horiginal))
    (by
      rw [List.nil_append, hkeptMetadata, List.map_map]
      exact (hperm.map _).nodup_iff.mpr h.distinct)
    (by
      rw [List.nil_append, hkeptMetadata]
      exact hbudget.of_subperm (hperm.map _).subperm)
  obtain ⟨⟨reads, hsame, hresult⟩, hevents⟩ := hresolved
  rw [List.nil_append, hkeptMetadata] at hsame
  simp only [Import.importMetadata, Reports.value_bind, Reports.log_bind, hvalue, hlog,
    List.nil_append]
  refine ⟨⟨_, hperm.map _, ?_⟩, hevents⟩
  rw [hresult]
  exact hsame

end Delivered

end Records

/-! ## From export to import -/

section Transfer
variable {UnitFileName XSectionName : Type} {names : NativeNames UnitFileName}
  {codec : Export.MetadataCodec XSectionName} {m : Export.Mapping}
  {staged : List Export.StagedDocument} {items : List Export.PlacedItem}
  {source : Import.QuadletSource}

theorem exactMetadata_sublist (application : Application) (log : List Export.Event) :
    (Export.exactMetadata application log).Sublist application.vendorMetadata := by
  have hall : application.vendorMetadata.zipIdx.map Prod.fst = application.vendorMetadata :=
    List.zipIdx_map_fst _ _
  rw [Export.exactMetadata]
  conv_rhs => rw [← hall]
  exact List.filter_sublist.map _

/-- Generated documents deliver the items that were reported exact. -/
theorem delivered_of_finished (hstaged : StagedUnits names staged)
    (hfinished : Export.Finished m codec staged items) (happlication : m.application.WellFormed)
    (hbuilt : ∀ metadata ∈ m.application.vendorMetadata, metadata.payload.value.Built)
    (hsource : Reread (Export.finishStagedDocuments m codec staged).value source) :
    Delivered names codec (Export.fileNames staged) items source := by
  have hsublist := exactMetadata_sublist m.application
    (Export.finishStagedDocuments m codec staged).log
  rw [hfinished.reported] at hsublist
  obtain ⟨hdocuments, htexts, hlines⟩ := hsource
  rw [hfinished.documents] at hdocuments htexts
  rw [Export.fileNames_withRecords] at hdocuments
  rw [stagedTexts_all hstaged.bare] at htexts
  exact {
    placeable := hfinished.placeable
    built := fun item hitem => hbuilt _ (hsublist.subset (List.mem_map_of_mem hitem))
    carriers := by
      intro unit hunit
      obtain ⟨document, hdocument, rfl⟩ := List.mem_map.mp hunit
      obtain ⟨stem, unitType, hstem, hname, hnative⟩ := hstaged.named document hdocument
      rw [hname] at hnative ⊢
      exact checkCarrier_unitName hstem hnative
    distinct := by
      have hidentities := (hsublist.map VendorMetadata.identity).nodup happlication.metadata_identities
      rw [List.map_map] at hidentities
      exact hidentities
    documents := hdocuments
    texts := htexts
    lines := hlines
    bounded := hfinished.bounded }

/-- Metadata survives the transfer: the items reported exact are imported once each, up to
provenance, no lost item appears, and every decision of the importer is exact. -/
theorem metadata_transfer {application : Application} (hjson : codec.json.RoundTrips)
    (hsections : codec.sections.KeepsSpelling) (happlication : m.application.WellFormed)
    (hbuilt : ∀ metadata ∈ m.application.vendorMetadata, metadata.payload.value.Built)
    (hstaged : StagedUnits names staged)
    (hgenerated : .generationFailed ∉ (Export.finishStagedDocuments m codec staged).log)
    (hsource : Reread (Export.finishStagedDocuments m codec staged).value source)
    (hservices : m.application.serviceNames ⊆ application.serviceNames)
    (hempty : application.vendorMetadata = []) :
    let report := (Export.finishStagedDocuments m codec staged).log
    let imported := Import.importMetadata codec.json codec.sections names source application
    (∃ kept : List VendorMetadata, kept.Perm (Export.exactMetadata m.application report) ∧
      List.Forall₂ VendorMetadata.SameContent imported.value.vendorMetadata kept) ∧
    (∀ metadata index, (metadata, index) ∈ m.application.vendorMetadata.zipIdx →
      index ∈ Export.lostIndices report →
        ∀ read ∈ imported.value.vendorMetadata, read.identity ≠ metadata.identity) ∧
    (∀ event ∈ imported.log, event.isExact = true) ∧
    (source.documents.map NamedQuadletDocument.name).min? = (Export.fileNames staged).min? := by
  intro report imported
  obtain ⟨items, hfinished⟩ := Export.finishStagedDocuments_run hstaged.own hgenerated
  have hdelivered := delivered_of_finished hstaged hfinished happlication hbuilt hsource
  have hsublist : (items.map Export.PlacedItem.metadata).Sublist m.application.vendorMetadata := by
    rw [← hfinished.reported]
    exact exactMetadata_sublist _ _
  have hknown : ∀ item ∈ items, ∀ owner, item.metadata.scope = .service owner →
      owner ∈ application.serviceNames := by
    intro item hitem owner howner
    have hmem := hsublist.subset (List.mem_map_of_mem hitem)
    exact hservices (happlication.metadata_owned _ hmem owner howner)
  have hbudget := happlication.metadata_budget.of_subperm hsublist.subperm
  obtain ⟨⟨kept, hperm, hsame⟩, hevents⟩ :=
    hdelivered.importMetadata_ok hjson hsections hempty hknown hbudget
  rw [← hfinished.reported] at hperm
  refine ⟨⟨kept, hperm, hsame⟩, ?_, hevents, min?_of_perm hdelivered.documents⟩
  intro metadata index hitem hlost read hread hidentity
  obtain ⟨original, horiginal, hcontent⟩ := Related.exists_right hsame read hread
  have hexact := hperm.mem_iff.mp horiginal
  obtain ⟨⟨found, position⟩, hfound, rfl⟩ := List.mem_map.mp hexact
  rw [List.mem_filter, decide_eq_true_eq] at hfound
  -- One identity names one item, which cannot be both exact and lost.
  rw [Import.identity_of_sameContent hcontent] at hidentity
  have hposition : position = index := by
    have hfirst := List.mem_zipIdx_iff_getElem?.mp hfound.1
    have hsecond := List.mem_zipIdx_iff_getElem?.mp hitem
    have hsamePlace : (m.application.vendorMetadata.map VendorMetadata.identity)[position]? =
        (m.application.vendorMetadata.map VendorMetadata.identity)[index]? := by
      rw [List.getElem?_map, List.getElem?_map, hfirst, hsecond]
      exact congrArg some hidentity
    have hbound : position < (m.application.vendorMetadata.map VendorMetadata.identity).length := by
      rw [List.length_map]
      exact (List.getElem?_eq_some_iff.mp hfirst).1
    exact (List.getElem?_inj hbound happlication.metadata_identities).mp hsamePlace
  exact hfinished.decided index hlost (hposition ▸ hfound.2)

end Transfer

/-! ## One transferred note -/

def noteApplication : Application :=
  { Application.new ⟨"demo", Identifier.valid_demo⟩ with vendorMetadata := [Metadata.protectedNote] }

theorem noteApplication_wellFormed : noteApplication.WellFormed :=
  { Application.new_wellFormed ⟨"demo", by decide⟩ with
    metadata_owned := by
      intro metadata hmetadata owner howner
      rw [List.mem_singleton.mp hmetadata] at howner
      cases howner
    metadata_identities := List.nodup_singleton _
    metadata_budget := ⟨[44], .cons (by decide) .nil, by decide⟩ }

def noteCodec : Export.MetadataCodec String where
  json := Metadata.noteJson
  sections := Metadata.vendorSections
  acceptsValue _ := true

def noteMapping : Export.Mapping where
  exporter := ⟨.permissive, .separateContainers, none⟩
  application := noteApplication
  podmanTarget := none

def noteUnits : List Export.StagedDocument :=
  [⟨"web.container", ⟨.container, []⟩, .service "web", []⟩]

def noteSource : Import.QuadletSource where
  applicationName := ⟨"demo", Identifier.valid_demo⟩
  documents := [⟨"web.container", ⟨.container, ⟨0, 0, 0, NativeSpan.ordered_start⟩,
    [⟨"X-VENDOR", .other, [⟨"Metadata", .other, true, .other,
      ⟨Metadata.noteText, ⟨0, 0, 0, NativeSpan.ordered_start⟩⟩, []⟩]⟩], [], [], [], []⟩⟩]
  sourceId _ := ⟨"demo", SourceId.valid_demo⟩

theorem noteUnits_staged : StagedUnits Metadata.containerNames noteUnits where
  distinct := by decide
  named := by
    intro document hdocument
    rw [List.mem_singleton.mp hdocument]
    exact ⟨"web", .container, by decide, by decide, by decide⟩
  bare := by decide
  own := by
    intro document hdocument index
    rw [List.mem_singleton.mp hdocument]
    intro hsubject
    cases hsubject

theorem noteUnits_finished :
    (Export.finishStagedDocuments noteMapping noteCodec noteUnits).log =
      [.exact (.vendorMetadata 0) [], .exact (.service "web") []] := by
  decide +kernel

theorem noteSource_reread :
    Reread (Export.finishStagedDocuments noteMapping noteCodec noteUnits).value noteSource where
  names := by decide +kernel
  texts := by decide +kernel
  lines := by decide +kernel

theorem metadata_transfer_note :
    let report := (Export.finishStagedDocuments noteMapping noteCodec noteUnits).log
    let imported := Import.importMetadata noteCodec.json noteCodec.sections Metadata.containerNames
      noteSource (Application.new ⟨"demo", by decide⟩)
    (∃ kept : List VendorMetadata, kept.Perm (Export.exactMetadata noteMapping.application report) ∧
      List.Forall₂ VendorMetadata.SameContent imported.value.vendorMetadata kept) ∧
    (∀ metadata index, (metadata, index) ∈ noteMapping.application.vendorMetadata.zipIdx →
      index ∈ Export.lostIndices report →
        ∀ read ∈ imported.value.vendorMetadata, read.identity ≠ metadata.identity) ∧
    (∀ event ∈ imported.log, event.isExact = true) ∧
    (noteSource.documents.map NamedQuadletDocument.name).min? =
      (Export.fileNames noteUnits).min? :=
  metadata_transfer Metadata.noteJson_roundTrips
    (NativeNames.spelled_keepsSpelling (startsWith · "X-")) noteApplication_wellFormed
    (fun metadata hmetadata => List.mem_singleton.mp hmetadata ▸ Metadata.protectedNote_built)
    noteUnits_staged (by rw [noteUnits_finished]; simp) noteSource_reread (List.Subset.refl _) rfl

end Boxferry.Quadlet
