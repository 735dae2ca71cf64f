import Mathlib.Data.String.Basic
import Boxferry.Library.Groups
import Boxferry.Model.Application
import Boxferry.Quadlet.Import.Core
import Boxferry.Quadlet.MetadataRecords
import Boxferry.Model.ApplicationRuns
import Boxferry.Quadlet.MetadataRoundTrip

/-! # Reading metadata

Records are read from the vendor sections of every document of the set, grouped
by what they are about, and resolved to one metadata item each. -/
namespace Boxferry.Quadlet.Import
open Engine Lens Model
set_option autoImplicit false

/-- One entry of a vendor section of a named document. -/
structure VendorEntry where
  fileName : String
  sectionName : String
  entry : TypedEntry

def QuadletSource.vendorEntries (source : QuadletSource) : List VendorEntry :=
  source.documents.flatMap fun named =>
    (named.document.sections.filter fun part => startsWith part.name "X-").flatMap fun part =>
      part.entries.map fun entry => ⟨named.name, part.name, entry⟩

/-- A record with the document and the location it was read from. -/
structure PlacedRecord where
  record : Metadata.Record
  fileName : String
  origin : Provenance

/-- What a record is about: its owner and its exact namespace. -/
def PlacedRecord.identity (placed : PlacedRecord) : Metadata.Scope × String :=
  (placed.record.scope, placed.record.nameSpace.value)

abbrev RecordGroups : Type := List ((Metadata.Scope × String) × List PlacedRecord)

def metadataSubject : String := "application.vendor_metadata"

/-- `str::contains` for a text. -/
def containsText (text part : String) : Bool :=
  text.toList.tails.any (part.toList.isPrefixOf ·)

section Reading
variable {UnitFileName XSectionName : Type} (json : Metadata.RecordJson)
  (sections : NativeNames XSectionName) (names : NativeNames UnitFileName)
  (source : QuadletSource)

/-- One vendor entry: the bytes read so far and the groups, or nothing after the byte limit. -/
def readRecord (vendor : VendorEntry) (bytes : Nat) (groups : RecordGroups) :
    Imported (Option (Nat × RecordGroups)) :=
  let origin := source.entryOrigin vendor.entry
  let text := vendor.entry.primary.text
  if vendor.entry.key ≠ "Metadata" then do
    Reports.report (.unsupported metadataSubject vendor.fileName "Metadata"
      (some "ordinary X- section content has no reviewed inert metadata schema; retain the source unit separately")
      [origin])
    pure (some (bytes, groups))
  else if metadataMaxBytes < bytes + len text then do
    Reports.report (.invalid metadataSubject vendor.fileName
      "metadata records exceed the aggregate 1 MiB limit" (some origin))
    pure none
  else if vendor.entry.isContinued then do
    Reports.report (.invalid metadataSubject vendor.fileName
      "metadata records must occupy one physical line" (some origin))
    pure (some (bytes + len text, groups))
  else
    match Metadata.decode json sections names text with
    | .error reason => do
      if containsText reason "unsupported" || containsText reason "supports depth" ||
          containsText reason "exceeds 64 KiB" then
        Reports.report (.unsupported metadataSubject vendor.fileName "Metadata" (some reason)
          [origin])
      else
        Reports.report (.invalid metadataSubject vendor.fileName reason (some origin))
      pure (some (bytes + len text, groups))
    | .ok record =>
      if vendor.sectionName ≠ toAsciiUppercase record.nameSpace.value then do
        Reports.report (.invalid metadataSubject vendor.fileName
          "metadata namespace disagrees with its vendor section" (some origin))
        pure (some (bytes + len text, groups))
      else
        let placed : PlacedRecord := ⟨record, vendor.fileName, origin⟩
        pure (some (bytes + len text, Groups.insert placed.identity placed groups))

def readRecords : List VendorEntry → Nat → RecordGroups → Imported (Option RecordGroups)
  | [], _, groups => pure (some groups)
  | vendor :: rest, bytes, groups => do
    match ← readRecord json sections names source vendor bytes groups with
    | none => pure none
    | some (bytes, groups) => readRecords rest bytes groups

end Reading

/-! ## Resolving a group -/

def misplaced (first : Metadata.Record) (records : List PlacedRecord) : Bool :=
  records.any (fun placed =>
    placed.record.carrier ≠ first.carrier ||
      match placed.record.content with
      | .payload _ => placed.fileName ≠ first.carrier
      | .reference => placed.fileName = first.carrier || placed.record.scope ≠ .application) ||
  match first.scope with
  | .application => false
  | .service owner => first.carrier ≠ owner ++ ".container"

def payloads (records : List PlacedRecord) : List Metadata.Node :=
  records.filterMap fun placed =>
    match placed.record.content with
    | .payload node => some node
    | .reference => none

/-- Whether two neighbouring payloads differ. -/
def payloadsDiffer : List Metadata.Node → Bool
  | first :: second :: rest => !first.same second || payloadsDiffer (second :: rest)
  | _ => false

def isPayload (placed : PlacedRecord) : Bool :=
  match placed.record.content with
  | .payload _ => true
  | .reference => false

section Resolving
variable (source : QuadletSource)

def correctOwner (first : Metadata.Record) : Bool :=
  match first.scope with
  | .application => (source.documents.map NamedQuadletDocument.name).min? = some first.carrier
  | .service owner => first.carrier = owner ++ ".container"

/-- Resolves the records of one identity to one metadata item of the application. -/
def resolveMetadataGroup (application : Application) (records : List PlacedRecord) :
    Imported Application :=
  match records with
  | [] => pure application
  | head :: _ =>
    let first := head.record
    let origins := records.map PlacedRecord.origin
    if misplaced first records then do
      Reports.report (.invalid metadataSubject first.carrier
        "conflicting, misplaced or wrong-owner metadata records; restore the canonical carrier payload"
        origins.head?)
      pure application
    else if !source.documents.any (fun named => named.name = first.carrier) then do
      Reports.report (.unsupported metadataSubject "quadlet" "Metadata"
        (some ("metadata carrier \x60" ++ first.carrier ++
          "\x60 is missing; supply that exact unit basename with this document set")) origins)
      pure application
    else if !correctOwner source first || payloadsDiffer (payloads records) then do
      Reports.report (.invalid metadataSubject first.carrier
        "conflicting, misplaced or wrong-owner metadata records; supply one matching payload on its canonical carrier"
        origins.head?)
      pure application
    else
      match records.find? fun placed => placed.fileName = first.carrier && isPayload placed with
      | none => do
        Reports.report (.unsupported metadataSubject first.carrier "Metadata"
          (some "metadata carrier has no matching payload; restore the carrier's Metadata directive")
          origins)
        pure application
      | some placed =>
        let payloadOrigins := (records.filter isPayload).map PlacedRecord.origin
        let added := do
          let metadata ← placed.record.metadata origins payloadOrigins
          (application.addVendorMetadata metadata).mapError fun _ =>
            "metadata has an absent service owner, duplicate identity or aggregate limit violation"
        match added with
        | .ok application => do
          origins.forM fun origin => Reports.report (.exact metadataSubject [origin])
          pure application
        | .error reason => do
          Reports.report (.invalid metadataSubject first.carrier reason origins.head?)
          pure application

end Resolving

section Importing
variable {UnitFileName XSectionName : Type} (json : Metadata.RecordJson)
  (sections : NativeNames XSectionName) (names : NativeNames UnitFileName)
  (source : QuadletSource)

def importMetadata (application : Application) : Imported Application := do
  match ← readRecords json sections names source source.vendorEntries 0 [] with
  | none => pure application
  | some groups =>
    groups.foldlM (fun application group => resolveMetadataGroup source application group.2)
      application

end Importing

/-! ## Resolved metadata

Readable records are grouped without a report, and the records of one item
resolve to that item with exact decisions only. -/
open Results

/-! ## Reading -/

section Reading
variable {UnitFileName XSectionName : Type} {json : Metadata.RecordJson}
  {sections : NativeNames XSectionName} {names : NativeNames UnitFileName}
  {source : QuadletSource}

def VendorEntry.bytes (vendor : VendorEntry) : Nat := len vendor.entry.primary.text

/-- A vendor entry that holds one record of its own section on one line. -/
structure ReadAs (json : Metadata.RecordJson) (sections : NativeNames XSectionName)
    (names : NativeNames UnitFileName) (source : QuadletSource) (vendor : VendorEntry)
    (placed : PlacedRecord) : Prop where
  key : vendor.entry.key = "Metadata"
  line : vendor.entry.isContinued = false
  decoded : Metadata.decode json sections names vendor.entry.primary.text = .ok placed.record
  filed : vendor.sectionName = toAsciiUppercase placed.record.nameSpace.value
  located : placed.fileName = vendor.fileName ∧ placed.origin = source.entryOrigin vendor.entry

theorem readRecord_ok {vendor : VendorEntry} {placed : PlacedRecord} {bytes : Nat}
    {groups : RecordGroups} (h : ReadAs json sections names source vendor placed)
    (hbytes : bytes + vendor.bytes ≤ metadataMaxBytes) :
    readRecord json sections names source vendor bytes groups =
      pure (some (bytes + vendor.bytes, Groups.insert placed.identity placed groups)) := by
  have hlimit : ¬ metadataMaxBytes < bytes + len vendor.entry.primary.text := Nat.not_lt.mpr hbytes
  obtain ⟨record, fileName, origin⟩ := placed
  obtain ⟨rfl, rfl⟩ := h.located
  unfold readRecord
  simp only [h.key, ne_eq, not_true_eq_false, if_false, hlimit, h.line, h.decoded, h.filed]
  rfl

/-- Readable records are grouped by what they are about, and nothing is reported. -/
theorem readRecords_ok {vendors : List VendorEntry} {placed earlier : List PlacedRecord}
    {bytes : Nat} {groups : RecordGroups}
    (h : List.Forall₂ (ReadAs json sections names source) vendors placed)
    (hbytes : bytes + (vendors.map VendorEntry.bytes).sum ≤ metadataMaxBytes)
    (hgroups : Groups.Holds PlacedRecord.identity earlier groups) :
    ∃ grouped, (readRecords json sections names source vendors bytes groups).value = some grouped ∧
      (readRecords json sections names source vendors bytes groups).log = [] ∧
      Groups.Holds PlacedRecord.identity (earlier ++ placed) grouped := by
  induction h generalizing earlier bytes groups with
  | nil => exact ⟨groups, rfl, rfl, by simpa using hgroups⟩
  | @cons vendor first vendors placed hfirst hrest ih =>
    rw [List.map_cons, List.sum_cons, ← Nat.add_assoc] at hbytes
    have hfit : bytes + vendor.bytes ≤ metadataMaxBytes := by omega
    have hhead : readRecord json sections names source vendor bytes groups = _ :=
      readRecord_ok hfirst hfit
    obtain ⟨grouped, hread, hlog, hheld⟩ := ih hbytes (hgroups.insert first)
    rw [List.append_assoc] at hheld
    refine ⟨grouped, ?_, ?_, hheld⟩
    · rw [readRecords, Reports.value_bind, hhead]
      exact hread
    · rw [readRecords, Reports.log_bind, hhead]
      exact hlog

end Reading
/-! ## Resolving -/

/-- The unit that must carry the payload of an item. -/
def CanonicalCarrier (source : QuadletSource) (metadata : VendorMetadata) (carrier : String) : Prop :=
  match metadata.scope with
  | .application => (source.documents.map NamedQuadletDocument.name).min? = some carrier
  | .service owner => carrier = owner.asStr ++ ".container"

/-- A record of an item, the payload on the carrier and a reference on every other unit. -/
structure RecordOf (metadata : VendorMetadata) (carrier : String) (placed : PlacedRecord) : Prop where
  written : ∃ content, Metadata.Content.encode metadata (placed.fileName != carrier) = .ok content ∧
    placed.record = Metadata.recordOf metadata carrier content
  spread : placed.fileName = carrier ∨ metadata.scope = .application

namespace RecordOf
variable {metadata : VendorMetadata} {carrier : String} {placed : PlacedRecord}

theorem carrier_eq (h : RecordOf metadata carrier placed) : placed.record.carrier = carrier := by
  obtain ⟨content, -, hrecord⟩ := h.written
  rw [hrecord]
  rfl

theorem scope_eq (h : RecordOf metadata carrier placed) :
    placed.record.scope = Metadata.Scope.encode metadata.scope := by
  obtain ⟨content, -, hrecord⟩ := h.written
  rw [hrecord]
  rfl

theorem payload_of_carrier (h : RecordOf metadata carrier placed) (hcarrier : placed.fileName = carrier) :
    ∃ node, Metadata.Node.encode metadata.payload.value 1 = .ok node ∧
      placed.record = Metadata.recordOf metadata carrier (.payload node) := by
  obtain ⟨content, hcontent, hrecord⟩ := h.written
  rw [hcarrier, bne_self_eq_false] at hcontent
  obtain ⟨node, hnode, hcontent⟩ := bind_eq_ok.mp hcontent
  exact ⟨node, hnode, by rw [hrecord, ← Except.ok.inj hcontent]⟩

theorem reference_of_ne (h : RecordOf metadata carrier placed) (hcarrier : placed.fileName ≠ carrier) :
    placed.record = Metadata.recordOf metadata carrier .reference := by
  obtain ⟨content, hcontent, hrecord⟩ := h.written
  have hother : (placed.fileName != carrier) = true := bne_iff_ne.mpr hcarrier
  rw [hother] at hcontent
  rw [hrecord, ← Except.ok.inj hcontent]

end RecordOf

section Resolve
variable {metadata : VendorMetadata} {carrier : String} {records : List PlacedRecord}

theorem misplaced_eq_false {source : QuadletSource} {head : PlacedRecord}
    (hrecords : ∀ placed ∈ records, RecordOf metadata carrier placed) (hhead : head ∈ records)
    (hcarrier : CanonicalCarrier source metadata carrier) :
    misplaced head.record records = false := by
  have hfirst := (hrecords head hhead).carrier_eq
  unfold misplaced
  rw [Bool.or_eq_false_iff]
  constructor
  · rw [List.any_eq_false]
    intro placed hplaced
    have hrecord := hrecords placed hplaced
    rw [hfirst, hrecord.carrier_eq]
    by_cases hsame : placed.fileName = carrier
    · obtain ⟨node, -, hpayload⟩ := hrecord.payload_of_carrier hsame
      simp [hpayload, Metadata.recordOf, hsame]
    · have hscope : metadata.scope = .application := hrecord.spread.resolve_left hsame
      have hreference := hrecord.reference_of_ne hsame
      simp [hreference, Metadata.recordOf, hsame, hscope, Metadata.Scope.encode]
  · rw [(hrecords head hhead).scope_eq, hfirst]
    cases hscope : metadata.scope with
    | application => rfl
    | service owner =>
      unfold CanonicalCarrier at hcarrier
      rw [hscope] at hcarrier
      simp [Metadata.Scope.encode, hcarrier]

theorem correctOwner_eq_true {source : QuadletSource} {head : PlacedRecord}
    (hhead : RecordOf metadata carrier head) (hcarrier : CanonicalCarrier source metadata carrier) :
    correctOwner source head.record = true := by
  unfold correctOwner
  unfold CanonicalCarrier at hcarrier
  rw [hhead.scope_eq, hhead.carrier_eq]
  cases hscope : metadata.scope with
  | application =>
    rw [hscope] at hcarrier
    simp [Metadata.Scope.encode, hcarrier]
  | service owner =>
    rw [hscope] at hcarrier
    simp [Metadata.Scope.encode, hcarrier]

/-- Payloads of one node never differ. -/
theorem payloadsDiffer_eq_false {node : Metadata.Node} {nodes : List Metadata.Node}
    (h : ∀ other ∈ nodes, other = node) : payloadsDiffer nodes = false := by
  induction nodes with
  | nil => rfl
  | cons first rest ih =>
    cases rest with
    | nil => rfl
    | cons second rest =>
      have hfirst : first = node := h first (by simp)
      have hsecond : second = node := h second (by simp)
      rw [payloadsDiffer, ih fun other hother => h other (List.mem_cons_of_mem _ hother), hfirst,
        hsecond, Metadata.Node.same_refl]
      rfl

theorem payloads_same {node : Metadata.Node}
    (hnode : Metadata.Node.encode metadata.payload.value 1 = .ok node)
    (hrecords : ∀ placed ∈ records, RecordOf metadata carrier placed) :
    ∀ other ∈ payloads records, other = node := by
  intro other hother
  obtain ⟨placed, hplaced, hpayload⟩ := List.mem_filterMap.mp hother
  by_cases hsame : placed.fileName = carrier
  · obtain ⟨found, hfound, hrecord⟩ := (hrecords placed hplaced).payload_of_carrier hsame
    rw [hnode] at hfound
    rw [hrecord, Metadata.recordOf] at hpayload
    rw [← Option.some.inj hpayload, ← Except.ok.inj hfound]
  · rw [(hrecords placed hplaced).reference_of_ne hsame] at hpayload
    cases hpayload

/-- The records of one item resolve to it, and every decision is exact. -/
theorem resolveMetadataGroup_ok {source : QuadletSource} {application : Application}
    (hbuilt : metadata.payload.value.Built)
    (hrecords : ∀ placed ∈ records, RecordOf metadata carrier placed)
    (hpayload : ∃ placed ∈ records, placed.fileName = carrier)
    (hcarrier : CanonicalCarrier source metadata carrier)
    (hpresent : carrier ∈ source.documents.map NamedQuadletDocument.name)
    (hadd : ∀ read : VendorMetadata, read.SameContent metadata →
      application.addVendorMetadata read =
        .ok { application with vendorMetadata := application.vendorMetadata ++ [read] }) :
    ∃ read : VendorMetadata, read.SameContent metadata ∧
      (resolveMetadataGroup source application records).value =
        { application with vendorMetadata := application.vendorMetadata ++ [read] } ∧
      ∀ event ∈ (resolveMetadataGroup source application records).log, event.isExact = true := by
  obtain ⟨kept, hkept, hname⟩ := hpayload
  obtain ⟨node, hnode, -⟩ := (hrecords kept hkept).payload_of_carrier hname
  cases records with
  | nil => cases hkept
  | cons head rest =>
    have hhead : RecordOf metadata carrier head := hrecords head List.mem_cons_self
    have hmisplaced : misplaced head.record (head :: rest) = false :=
      misplaced_eq_false hrecords List.mem_cons_self hcarrier
    have hdocument : source.documents.any (fun named => named.name = head.record.carrier) = true := by
      rw [hhead.carrier_eq, List.any_eq_true]
      obtain ⟨named, hnamed, hsame⟩ := List.mem_map.mp hpresent
      exact ⟨named, hnamed, decide_eq_true hsame⟩
    have howner := correctOwner_eq_true hhead hcarrier
    have hagree := payloadsDiffer_eq_false (payloads_same hnode hrecords)
    cases hfind : (head :: rest).find? fun placed =>
      placed.fileName = head.record.carrier && isPayload placed with
    | none =>
      rw [List.find?_eq_none] at hfind
      obtain ⟨found, -, hrecord⟩ := (hrecords kept hkept).payload_of_carrier hname
      have hmissed := hfind kept hkept
      simp [hhead.carrier_eq, hname, isPayload, hrecord, Metadata.recordOf] at hmissed
    | some placed =>
      have hplaced : placed ∈ head :: rest := List.mem_of_find?_eq_some hfind
      have hfound := List.find?_some hfind
      rw [hhead.carrier_eq, Bool.and_eq_true, decide_eq_true_eq] at hfound
      obtain ⟨found, hencoded, hrecord⟩ := (hrecords placed hplaced).payload_of_carrier hfound.1
      have hcontent : Metadata.Content.encode metadata false = .ok (.payload found) :=
        bind_eq_ok.mpr ⟨found, hencoded, rfl⟩
      obtain ⟨read, hread, hsame⟩ := @Metadata.metadata_encode metadata carrier _ hbuilt hcontent
        ((head :: rest).map PlacedRecord.origin)
        (((head :: rest).filter isPayload).map PlacedRecord.origin)
      refine ⟨read, hsame, ?_⟩
      unfold resolveMetadataGroup
      simp only [hmisplaced, hdocument, howner, hagree, hfind, Bool.not_true, Bool.or_self,
        if_false, Bool.false_eq_true]
      have hmapped : (Metadata.recordOf metadata carrier (.payload found)).metadata
          ((head :: rest).map PlacedRecord.origin)
          (((head :: rest).filter isPayload).map PlacedRecord.origin) = .ok read := hread
      have hbound (next : VendorMetadata → Except String Application) :
          (Except.ok read >>= next) = next read := rfl
      simp only [hrecord, hmapped, hbound, hadd read hsame, Except.mapError]
      refine ⟨rfl, ?_⟩
      intro event hevent
      obtain hexact | hnone := Reports.mem_log_bind.mp hevent
      · rw [Reports.log_forM_report] at hexact
        obtain ⟨origin, -, rfl⟩ := List.mem_map.mp hexact
        rfl
      · cases hnone

end Resolve

/-! ## Resolving every group -/

theorem identity_of_sameContent {read metadata : VendorMetadata} (h : read.SameContent metadata) :
    read.identity = metadata.identity := by
  rw [VendorMetadata.identity, VendorMetadata.identity, h.1, h.2.1]

theorem measure_of_sameContent {read metadata : VendorMetadata} (h : read.SameContent metadata) :
    read.measure = metadata.measure := by
  rw [VendorMetadata.measure, VendorMetadata.measure, h.2.1, measure_of_erase h.2.2]

theorem withinMetadataBudget_of_sameContent {reads items : List VendorMetadata}
    (h : List.Forall₂ VendorMetadata.SameContent reads items) (hbudget : WithinMetadataBudget items) :
    WithinMetadataBudget reads := by
  obtain ⟨sizes, hsizes, hsum⟩ := hbudget
  refine ⟨sizes, ?_, hsum⟩
  clear hsum
  induction h generalizing sizes with
  | nil => exact hsizes
  | cons hsame hrest ih =>
    cases hsizes with
    | cons hsize hothers =>
      exact .cons ((measure_of_sameContent hsame).trans hsize) (ih _ hothers)

theorem identities_of_sameContent {reads items : List VendorMetadata}
    (h : List.Forall₂ VendorMetadata.SameContent reads items) :
    reads.map VendorMetadata.identity = items.map VendorMetadata.identity := by
  induction h with
  | nil => rfl
  | cons hsame _ ih => rw [List.map_cons, List.map_cons, identity_of_sameContent hsame, ih]

/-- A new item within the budget joins the metadata read so far. -/
theorem addVendorMetadata_ok {application : Application} {read : VendorMetadata}
    (hknown : ∀ owner, read.scope = .service owner → owner ∈ application.serviceNames)
    (hidentities : ((application.vendorMetadata ++ [read]).map VendorMetadata.identity).Nodup)
    (hbudget : WithinMetadataBudget (application.vendorMetadata ++ [read])) :
    application.addVendorMetadata read =
      .ok { application with vendorMetadata := application.vendorMetadata ++ [read] } := by
  obtain ⟨hall, hsum⟩ := withinMetadataBudget_iff.mp hbudget
  rw [List.map_append, List.sum_append, List.map_singleton, List.sum_singleton] at hsum
  have hread : read.measure = .ok read.bytes := hall read (by simp)
  have hlimit : metadataMaxBytes ≤ usizeMax := by decide
  have htotal : measureVendorMetadata application.vendorMetadata read.bytes =
      .ok (read.bytes + (application.vendorMetadata.map VendorMetadata.bytes).sum) :=
    measureVendorMetadata_sum (fun item hitem => hall item (List.mem_append_left _ hitem))
      (by omega)
  unfold Application.addVendorMetadata
  simp only [guard_eq_ok]
  refine ⟨?_, ?_, ?_⟩
  · cases hscope : read.scope with
    | application => simp
    | service owner => simp [hknown owner hscope]
  · rw [List.any_eq_true]
    rintro ⟨existing, hexisting, hsame⟩
    rw [List.map_append, List.nodup_append] at hidentities
    refine hidentities.2.2 existing.identity (List.mem_map_of_mem hexisting) read.identity (by simp) ?_
    rw [decide_eq_true_eq] at hsame
    rw [VendorMetadata.identity, VendorMetadata.identity, hsame.1, hsame.2]
  · refine bind_eq_ok.mpr ⟨read.bytes, hread, bind_eq_ok.mpr ⟨_, htotal, ?_⟩⟩
    rw [guard_eq_ok]
    exact ⟨by omega, rfl⟩

/-- The records of a group are those of one item, its payload among them. -/
structure Resolvable (source : QuadletSource) (records : List PlacedRecord)
    (item : VendorMetadata × String) : Prop where
  built : item.1.payload.value.Built
  owned : ∀ placed ∈ records, RecordOf item.1 item.2 placed
  payload : ∃ placed ∈ records, placed.fileName = item.2
  carrier : CanonicalCarrier source item.1 item.2
  present : item.2 ∈ source.documents.map NamedQuadletDocument.name

/-- Groups of distinct items within the budget resolve to them, one by one. -/
theorem resolveMetadataGroups_ok {source : QuadletSource} {groups : RecordGroups}
    {items : List (VendorMetadata × String)} {application : Application}
    {earlier : List VendorMetadata}
    (hgroups : List.Forall₂ (fun group item => Resolvable source group.2 item) groups items)
    (hearlier : List.Forall₂ VendorMetadata.SameContent application.vendorMetadata earlier)
    (hknown : ∀ item ∈ items, ∀ owner, item.1.scope = .service owner →
      owner ∈ application.serviceNames)
    (hidentities : ((earlier ++ items.map Prod.fst).map VendorMetadata.identity).Nodup)
    (hbudget : WithinMetadataBudget (earlier ++ items.map Prod.fst)) :
    let resolved := groups.foldlM
      (fun application group => resolveMetadataGroup source application group.2) application
    (∃ reads, List.Forall₂ VendorMetadata.SameContent reads (earlier ++ items.map Prod.fst) ∧
      resolved.value = { application with vendorMetadata := reads }) ∧
    ∀ event ∈ resolved.log, event.isExact = true := by
  induction hgroups generalizing application earlier with
  | nil =>
    refine ⟨⟨application.vendorMetadata, by simpa using hearlier, rfl⟩, ?_⟩
    intro event hevent
    cases hevent
  | @cons group item groups items hgroup _ ih =>
    obtain ⟨metadata, carrier⟩ := item
    have hsplit : earlier ++ ((metadata, carrier) :: items).map Prod.fst =
        (earlier ++ [metadata]) ++ items.map Prod.fst := by simp
    rw [hsplit] at hidentities hbudget ⊢
    have hadd : ∀ read : VendorMetadata, read.SameContent metadata →
        application.addVendorMetadata read =
          .ok { application with vendorMetadata := application.vendorMetadata ++ [read] } := by
      intro read hread
      have hreads : List.Forall₂ VendorMetadata.SameContent (application.vendorMetadata ++ [read])
          (earlier ++ [metadata]) := List.rel_append hearlier (.cons hread .nil)
      apply addVendorMetadata_ok
      · intro owner howner
        rw [hread.1] at howner
        exact hknown _ List.mem_cons_self owner howner
      · rw [identities_of_sameContent hreads]
        rw [List.map_append] at hidentities
        exact (List.nodup_append.mp hidentities).1
      · refine withinMetadataBudget_of_sameContent hreads (hbudget.of_subperm ?_)
        exact (List.sublist_append_left _ _).subperm
    obtain ⟨read, hread, hvalue, hlog⟩ := resolveMetadataGroup_ok hgroup.built hgroup.owned
      hgroup.payload hgroup.carrier hgroup.present hadd
    have hjoined : List.Forall₂ VendorMetadata.SameContent
        { application with vendorMetadata := application.vendorMetadata ++ [read] }.vendorMetadata
        (earlier ++ [metadata]) := List.rel_append hearlier (.cons hread .nil)
    have hnext := ih hjoined (fun item hitem => hknown item (List.mem_cons_of_mem _ hitem)) hidentities hbudget
    obtain ⟨⟨reads, hreads, hresult⟩, hevents⟩ := hnext
    simp only [List.foldlM_cons, Reports.value_bind, Reports.log_bind, hvalue]
    refine ⟨⟨reads, hreads, hresult⟩, ?_⟩
    intro event hevent
    rcases List.mem_append.mp hevent with hhead | hrest
    · exact hlog event hhead
    · exact hevents event hrest

end Boxferry.Quadlet.Import
