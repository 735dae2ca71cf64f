import Boxferry.Quadlet.MetadataRecords

/-! # Metadata round trip

The wire keeps one sensitivity bit where the neutral model keeps two, the flag
of a node and the protection of its text. Trees of the checked constructor lose
nothing by this: a protected node is protected throughout. -/
namespace Boxferry.Quadlet.Metadata
open Lens Model Results
set_option autoImplicit false

/-! ## Nesting of written records -/

mutual
theorem Node.nesting_encode {node : MetadataNode} {depth : Nat} {wire : Node}
    (h : Node.encode node depth = .ok wire) : depth ≤ 16 ∧ wire.nesting ≤ 68 - 4 * depth := by
  cases node with
  | mk value sensitive folded =>
    rw [Node.encode, guard_eq_ok, Nat.not_lt] at h
    obtain ⟨hdepth, h⟩ := h
    obtain ⟨written, hwritten, h⟩ := bind_eq_ok.mp h
    cases h
    have hvalue := Value.nesting_encode hwritten
    have hlimit : wireDepth = 16 := rfl
    rw [Node.nesting]
    omega

theorem Value.nesting_encode {value : MetadataValue} {depth : Nat} {wire : Value}
    (h : Value.encode value depth = .ok wire) : wire.nesting ≤ 3 + (68 - 4 * (depth + 1)) := by
  cases value with
  | null | boolean | number | string =>
    cases h
    rw [Value.nesting]
    omega
  | sequence values =>
    obtain ⟨wires, hwires, h⟩ := bind_eq_ok.mp h
    cases h
    have hsequence := sequenceNesting_encode hwires
    rw [Value.nesting]
    omega
  | mapping entries =>
    obtain ⟨wires, hwires, h⟩ := bind_eq_ok.mp h
    cases h
    have hentries := entriesNesting_encode hwires
    rw [Value.nesting]
    omega

theorem sequenceNesting_encode {values : List (Sourced MetadataNode)} {depth : Nat}
    {wires : List Node} (h : encodeSequence values depth = .ok wires) :
    sequenceNesting wires ≤ 68 - 4 * depth := by
  match values with
  | [] =>
    cases h
    exact Nat.zero_le _
  | ⟨node, _⟩ :: rest =>
    obtain ⟨wire, hwire, h⟩ := bind_eq_ok.mp h
    obtain ⟨wires, hwires, h⟩ := bind_eq_ok.mp h
    cases h
    obtain ⟨-, hnode⟩ := Node.nesting_encode hwire
    exact Nat.max_le.mpr ⟨hnode, sequenceNesting_encode hwires⟩

theorem entriesNesting_encode {entries : List MetadataEntry} {depth : Nat} {wires : List Entry}
    (h : encodeEntries entries depth = .ok wires) : entriesNesting wires ≤ 1 + (68 - 4 * depth) := by
  match entries with
  | [] =>
    cases h
    exact Nat.zero_le _
  | .mk key ⟨node, _⟩ :: rest =>
    obtain ⟨wire, hwire, h⟩ := bind_eq_ok.mp h
    obtain ⟨wires, hwires, h⟩ := bind_eq_ok.mp h
    cases h
    obtain ⟨hdepth, hnode⟩ := Node.nesting_encode hwire
    have hrest := entriesNesting_encode hwires
    rw [entriesNesting]
    omega
end

theorem nesting_encode {metadata : VendorMetadata} {reference : Bool} {content : Content}
    (h : Content.encode metadata reference = .ok content) (carrier : String) :
    (recordOf metadata carrier content).nesting < 128 := by
  unfold Content.encode at h
  split at h
  · cases h
    show 2 < 128
    decide
  · obtain ⟨node, hnode, h⟩ := bind_eq_ok.mp h
    cases h
    obtain ⟨-, hnesting⟩ := Node.nesting_encode hnode
    show 1 + (1 + node.nesting) < 128
    omega

/-! ## Trees are read back -/

theorem value_sourced {α : Type} (value : α) (origins : List Provenance) :
    (sourced value origins).value = value := by
  unfold sourced
  generalize hstart : Sourced.generated value = start
  have hvalue : start.value = value := by rw [← hstart, Sourced.value_generated]
  clear hstart
  induction origins generalizing start with
  | nil => exact hvalue
  | cons origin rest ih => exact ih _ hvalue

theorem protect_expose (text : ProtectedString) : protect text.expose text.isSensitive = text := by
  obtain ⟨expose, isSensitive⟩ := text
  cases isSensitive <;> rfl

/-- One bit restores a scalar text that is protected whenever its node is. -/
theorem protect_scalar {text : ProtectedString} {flag : Bool}
    (hflag : text.isSensitive = true → flag = true)
    (hclosed : flag = true → ProtectedString.sensitive text.expose = text) :
    protect text.expose flag = text := by
  cases flag with
  | true => exact hclosed rfl
  | false =>
    have hplain : text.isSensitive = false := by
      rw [Bool.eq_false_iff]
      intro hsensitive
      exact absurd (hflag hsensitive) (by decide)
    rw [← hplain]
    exact protect_expose text

/-- What the decoder reads for a written node: the node up to provenance. -/
def ReadsBack (node : MetadataNode) : Prop :=
  ∀ depth wire, Node.encode node depth = .ok wire → ∀ origins,
    ∃ read, wire.decode origins depth = .ok read ∧ read.erase = node.erase

theorem decodeSequence_encode {values : List (Sourced MetadataNode)}
    (hvalues : ∀ node ∈ values.map Sourced.value, ReadsBack node) {depth : Nat} {wires : List Node}
    (h : encodeSequence values depth = .ok wires) (origins : List Provenance) :
    ∃ read, decodeSequence wires origins depth = .ok read ∧
      (MetadataValue.sequence read).relabel ⟨id, id, fun _ => []⟩ =
        (MetadataValue.sequence values).relabel ⟨id, id, fun _ => []⟩ := by
  induction values generalizing wires with
  | nil =>
    cases h
    exact ⟨[], rfl, rfl⟩
  | cons value rest ih =>
    obtain ⟨node, nodeOrigins⟩ := value
    obtain ⟨wire, hwire, h⟩ := bind_eq_ok.mp h
    obtain ⟨wires, hwires, h⟩ := bind_eq_ok.mp h
    cases h
    obtain ⟨hnode, hrest⟩ := List.forall_mem_cons.mp hvalues
    obtain ⟨read, hread, herase⟩ := hnode depth wire hwire origins
    obtain ⟨reads, hreads, herases⟩ := ih hrest hwires
    refine ⟨sourced read origins :: reads, ?_, ?_⟩
    · exact bind_eq_ok.mpr ⟨read, hread, bind_eq_ok.mpr ⟨reads, hreads, rfl⟩⟩
    · have hvalue := value_sourced read origins
      generalize sourced read origins = first at hvalue
      obtain ⟨first, firstOrigins⟩ := first
      cases hvalue
      simp only [MetadataValue.relabel, relabelSequence, MetadataValue.sequence.injEq] at herases ⊢
      rw [herases]
      exact congrArg (fun node => Sourced.mk node [] :: _) herase

theorem decodeEntries_encode {entries : List MetadataEntry}
    (hentries : ∀ node ∈ entries.map fun entry => entry.value.value, ReadsBack node) {depth : Nat}
    {wires : List Entry} (h : encodeEntries entries depth = .ok wires) (origins : List Provenance) :
    ∃ read, decodeEntries wires origins depth = .ok read ∧
      (MetadataValue.mapping read).relabel ⟨id, id, fun _ => []⟩ =
        (MetadataValue.mapping entries).relabel ⟨id, id, fun _ => []⟩ := by
  induction entries generalizing wires with
  | nil =>
    cases h
    exact ⟨[], rfl, rfl⟩
  | cons entry rest ih =>
    obtain ⟨⟨key, keyOrigins⟩, ⟨node, nodeOrigins⟩⟩ := entry
    obtain ⟨wire, hwire, h⟩ := bind_eq_ok.mp h
    obtain ⟨wires, hwires, h⟩ := bind_eq_ok.mp h
    cases h
    obtain ⟨hnode, hrest⟩ := List.forall_mem_cons.mp hentries
    obtain ⟨read, hread, herase⟩ := hnode depth wire hwire origins
    obtain ⟨reads, hreads, herases⟩ := ih hrest hwires
    refine ⟨_, bind_eq_ok.mpr ⟨read, hread, bind_eq_ok.mpr ⟨reads, hreads, rfl⟩⟩, ?_⟩
    have hkey := value_sourced (protect key.expose key.isSensitive) origins
    have hvalue := value_sourced read origins
    simp only at hkey ⊢
    generalize sourced (protect key.expose key.isSensitive) origins = readKey at hkey ⊢
    generalize sourced read origins = first at hvalue ⊢
    obtain ⟨readKey, readKeyOrigins⟩ := readKey
    obtain ⟨first, firstOrigins⟩ := first
    rw [protect_expose] at hkey
    cases hvalue
    cases hkey
    simp only [MetadataValue.relabel, relabelEntries, MetadataValue.mapping.injEq] at herases ⊢
    rw [herases]
    exact congrArg (fun node => MetadataEntry.mk ⟨readKey, []⟩ ⟨node, []⟩ :: _) herase

/-- The checked constructor accepts a value read for a sound node and gives the
node back, up to provenance. -/
theorem new_of_sound {value read : MetadataValue} {sensitive folded : Bool}
    (hsound : (MetadataNode.mk value sensitive folded).Sound)
    (herase : read.relabel ⟨id, id, fun _ => []⟩ = value.relabel ⟨id, id, fun _ => []⟩)
    (hscalar : read.isSensitiveScalar = true →
      (MetadataNode.mk value sensitive folded).isSensitive = true) :
    ∃ node, MetadataNode.new read (MetadataNode.mk value sensitive folded).isSensitive folded =
      .ok node ∧ node.erase = (MetadataNode.mk value sensitive folded).erase := by
  obtain ⟨-, ⟨size, hsize⟩, hclosed⟩ := hsound
  generalize hflag : (MetadataNode.mk value sensitive folded).isSensitive = flag at hscalar hclosed ⊢
  -- A node that is not protected has its flag down; a protected one is its own protection.
  have hnode : (if flag then (MetadataNode.mk read flag folded).protectContents
      else MetadataNode.mk read flag folded).erase = (MetadataNode.mk value sensitive folded).erase := by
    cases flag with
    | true =>
      have hprotected := congrArg MetadataNode.erase (hclosed rfl)
      rw [erase_protectContents] at hprotected
      rw [if_pos rfl, erase_protectContents, ← hprotected]
      simp only [MetadataNode.erase, MetadataNode.relabel, herase, MetadataNode.protectContents]
    | false =>
      have hdown : sensitive = false := by
        simp only [MetadataNode.isSensitive, Bool.or_eq_false_iff] at hflag
        exact hflag.1
      rw [if_neg (by decide), hdown]
      simp only [MetadataNode.erase, MetadataNode.relabel, herase]
  have hsensitive : (MetadataNode.mk read flag folded).isSensitive = flag := by
    rw [MetadataNode.isSensitive]
    cases flag with
    | true => rfl
    | false =>
      rw [Bool.false_or, Bool.eq_false_iff]
      intro hread
      exact absurd (hscalar hread) (by decide)
  have hmeasured : (MetadataNode.mk read flag folded).measure 1 = .ok size := by
    have hunprotected : (MetadataNode.mk read flag folded).measure 1 =
        (if flag then (MetadataNode.mk read flag folded).protectContents
          else MetadataNode.mk read flag folded).measure 1 := by
      split
      · rw [measure_protectContents]
      · rfl
    rw [hunprotected, measure_of_erase hnode, hsize]
  refine ⟨_, MetadataNode.new_eq_ok.mpr ⟨⟨size, hmeasured⟩, rfl⟩, ?_⟩
  rw [hsensitive]
  exact hnode

theorem readsBack_of_sound {node : MetadataNode} (h : node.Sound) : ReadsBack node := by
  induction h with
  | @intro node hchildren hmeasured hclosed ih =>
    intro depth wire hwire origins
    have hsound : node.Sound := .intro hchildren hmeasured hclosed
    cases node with
    | mk value sensitive folded =>
    rw [Node.encode, guard_eq_ok] at hwire
    obtain ⟨hdepth, hwire⟩ := hwire
    obtain ⟨written, hwritten, hwire⟩ := bind_eq_ok.mp hwire
    cases hwire
    -- The value is read back up to provenance, its scalar text protected by the node's bit.
    have hvalue : ∃ read, written.decode (MetadataNode.mk value sensitive folded).isSensitive origins
          depth = .ok read ∧
        read.relabel ⟨id, id, fun _ => []⟩ = value.relabel ⟨id, id, fun _ => []⟩ ∧
        (read.isSensitiveScalar = true →
          (MetadataNode.mk value sensitive folded).isSensitive = true) := by
      cases value with
      | null =>
        cases hwritten
        exact ⟨.null, rfl, rfl, fun hread => absurd hread (by decide)⟩
      | boolean value =>
        cases hwritten
        exact ⟨.boolean value, rfl, rfl, fun hread => absurd hread (by simp [MetadataValue.isSensitiveScalar])⟩
      | number text =>
        cases hwritten
        have htext : protect text.expose
            (MetadataNode.mk (.number text) sensitive folded).isSensitive = text := by
          apply protect_scalar
          · intro hsensitive
            rw [MetadataNode.isSensitive, MetadataValue.isSensitiveScalar, hsensitive, Bool.or_true]
          · intro hsensitive
            have hprotected := congrArg MetadataNode.value (hclosed hsensitive)
            exact MetadataValue.number.inj hprotected
        refine ⟨.number text, by rw [Value.decode, htext], rfl, ?_⟩
        intro hread
        rw [MetadataNode.isSensitive, hread, Bool.or_true]
      | string text =>
        cases hwritten
        have htext : protect text.expose
            (MetadataNode.mk (.string text) sensitive folded).isSensitive = text := by
          apply protect_scalar
          · intro hsensitive
            rw [MetadataNode.isSensitive, MetadataValue.isSensitiveScalar, hsensitive, Bool.or_true]
          · intro hsensitive
            have hprotected := congrArg MetadataNode.value (hclosed hsensitive)
            exact MetadataValue.string.inj hprotected
        refine ⟨.string text, by rw [Value.decode, htext], rfl, ?_⟩
        intro hread
        rw [MetadataNode.isSensitive, hread, Bool.or_true]
      | sequence values =>
        obtain ⟨wires, hwires, hwritten⟩ := bind_eq_ok.mp hwritten
        cases hwritten
        obtain ⟨reads, hreads, herase⟩ := decodeSequence_encode ih hwires origins
        exact ⟨.sequence reads, bind_eq_ok.mpr ⟨reads, hreads, rfl⟩, herase,
          fun hread => absurd hread (by simp [MetadataValue.isSensitiveScalar])⟩
      | mapping entries =>
        obtain ⟨wires, hwires, hwritten⟩ := bind_eq_ok.mp hwritten
        cases hwritten
        obtain ⟨reads, hreads, herase⟩ := decodeEntries_encode ih hwires origins
        exact ⟨.mapping reads, bind_eq_ok.mpr ⟨reads, hreads, rfl⟩, herase,
          fun hread => absurd hread (by simp [MetadataValue.isSensitiveScalar])⟩
    obtain ⟨read, hread, herase, hscalar⟩ := hvalue
    obtain ⟨result, hresult, heq⟩ := new_of_sound hsound herase hscalar
    refine ⟨result, ?_, heq⟩
    rw [Node.decode, guard_eq_ok]
    refine ⟨hdepth, bind_eq_ok.mpr ⟨read, hread, mapError_eq_ok.mpr hresult⟩⟩

/-! ## Records are read back -/

section Records
variable {UnitFileName XSectionName : Type} {json : RecordJson}
  {sections : NativeNames XSectionName} {names : NativeNames UnitFileName}

/-- The vendor section that carries a namespace. -/
def admitsSection (sections : NativeNames XSectionName) (nameSpace : ProtectedString) : Prop :=
  (sections.new (toAsciiUppercase nameSpace.expose)).isSome = true

theorem encode_eq_ok {metadata : VendorMetadata} {carrier : String} {reference : Bool}
    {text : String} : encode json metadata carrier reference = .ok text ↔
      ∃ content, Content.encode metadata reference = .ok content ∧
        json.toString (recordOf metadata carrier content) = some text ∧ len text ≤ recordLimit := by
  unfold encode
  rw [bind_eq_ok]
  refine exists_congr fun content => and_congr_right fun _ => ?_
  cases json.toString (recordOf metadata carrier content) with
  | none => simp
  | some written =>
    simp only [guard_eq_ok, Nat.not_lt, Except.ok.injEq, Option.some.injEq]
    constructor
    · rintro ⟨hlimit, rfl⟩
      exact ⟨rfl, hlimit⟩
    · rintro ⟨rfl, hlimit⟩
      exact ⟨hlimit, rfl⟩

theorem vendorMetadataValid_eq_ok {nameSpace : ProtectedString} {payload : MetadataNode} :
    vendorMetadataValid nameSpace payload = .ok () ↔
      (!startsWith nameSpace.expose "x-" || len nameSpace.expose ≤ 2) = false ∧
        ∃ size, payload.measure 1 = .ok size := by
  unfold vendorMetadataValid
  rw [guard_eq_ok, bind_eq_ok, Bool.not_eq_true]
  simp

theorem VendorMetadata.new_eq_ok {scope : MetadataScope} {nameSpace : Sourced ProtectedString}
    {payload : Sourced MetadataNode}
    (h : vendorMetadataValid nameSpace.value payload.value = .ok ()) :
    VendorMetadata.new scope nameSpace payload = .ok ⟨scope, nameSpace, payload, h⟩ := by
  unfold VendorMetadata.new
  split
  · rfl
  · next herror =>
    rw [h] at herror
    cases herror

/-- The check of a written content succeeds. -/
theorem check_encode {metadata : VendorMetadata} {reference : Bool} {content : Content}
    (hbuilt : metadata.payload.value.Built)
    (h : Content.encode metadata reference = .ok content) : content.check = .ok () := by
  unfold Content.encode at h
  split at h
  · cases h
    rfl
  · obtain ⟨node, hnode, h⟩ := bind_eq_ok.mp h
    cases h
    obtain ⟨read, hread, -⟩ := readsBack_of_sound hbuilt.sound 1 node hnode []
    rw [Content.check, hread]
    rfl

/-- A written record is decoded to the record it was written for. -/
theorem decode_encode (hjson : json.RoundTrips) {metadata : VendorMetadata} {carrier : String}
    {reference : Bool} {text : String} (hbuilt : metadata.payload.value.Built)
    (hcarrier : checkCarrier names carrier = .ok ())
    (hplain : metadata.nameSpace.value.isSensitive = false)
    (hsection : admitsSection sections metadata.nameSpace.value)
    (h : encode json metadata carrier reference = .ok text) :
    ∃ content, Content.encode metadata reference = .ok content ∧
      decode json sections names text = .ok (recordOf metadata carrier content) := by
  obtain ⟨content, hcontent, hwritten, hlimit⟩ := encode_eq_ok.mp h
  have hread : json.fromStr text = some (recordOf metadata carrier content) :=
    hjson _ _ (nesting_encode hcontent carrier) hwritten
  obtain ⟨hnamespace, -⟩ := vendorMetadataValid_eq_ok.mp metadata.valid
  have hadmitted : ¬ (sections.new (toAsciiUppercase metadata.nameSpace.value.expose)).isNone := by
    rw [← Option.not_isSome, hsection]
    decide
  refine ⟨content, hcontent, ?_⟩
  unfold decode
  rw [guard_eq_ok, Nat.not_lt]
  refine ⟨hlimit, ?_⟩
  simp only [hread, guard_eq_ok]
  refine ⟨by simp [recordOf], by simp [recordOf, hplain], ?_, hadmitted, ?_⟩
  · rw [Bool.not_eq_true]
    exact hnamespace
  · exact bind_eq_ok.mpr ⟨(), hcarrier, bind_eq_ok.mpr ⟨(), check_encode hbuilt hcontent, rfl⟩⟩

theorem Scope.decode_encode (scope : MetadataScope) : (Scope.encode scope).decode = .ok scope := by
  cases scope with
  | application => rfl
  | service owner =>
    simp only [Scope.encode, Scope.decode, Identifier.new_ok owner.valid]

/-- The neutral metadata of a written payload record. -/
theorem metadata_encode {metadata : VendorMetadata} {carrier : String} {content : Content}
    (hbuilt : metadata.payload.value.Built) (h : Content.encode metadata false = .ok content)
    (origins payloadOrigins : List Provenance) :
    ∃ read, (recordOf metadata carrier content).metadata origins payloadOrigins = .ok read ∧
      read.SameContent metadata := by
  obtain ⟨node, hnode, h⟩ := bind_eq_ok.mp h
  cases h
  obtain ⟨payload, hpayload, herase⟩ := readsBack_of_sound hbuilt.sound 1 node hnode payloadOrigins
  obtain ⟨hnamespace, hmeasured⟩ := vendorMetadataValid_eq_ok.mp metadata.valid
  have hsame : protect metadata.nameSpace.value.expose metadata.nameSpace.value.isSensitive =
      metadata.nameSpace.value := protect_expose _
  have hvalid : vendorMetadataValid (sourced metadata.nameSpace.value origins).value
      (sourced payload origins).value = .ok () := by
    rw [vendorMetadataValid_eq_ok, value_sourced, value_sourced, measure_of_erase herase]
    exact ⟨hnamespace, hmeasured⟩
  refine ⟨⟨metadata.scope, sourced metadata.nameSpace.value origins, sourced payload origins,
    hvalid⟩, ?_, rfl, value_sourced _ _, ?_⟩
  · refine bind_eq_ok.mpr ⟨_, Scope.decode_encode metadata.scope, ?_⟩
    refine bind_eq_ok.mpr ⟨payload, hpayload, ?_⟩
    rw [mapError_eq_ok]
    simp only [recordOf, hsame]
    exact VendorMetadata.new_eq_ok hvalid
  · rw [value_sourced, herase]

/-- Metadata that is written on its carrier is read back with the same owner,
namespace and tree. -/
theorem vendorMetadata_roundTrip (hjson : json.RoundTrips) {metadata : VendorMetadata}
    {carrier text : String} (hbuilt : metadata.payload.value.Built)
    (hcarrier : checkCarrier names carrier = .ok ())
    (hplain : metadata.nameSpace.value.isSensitive = false)
    (hsection : admitsSection sections metadata.nameSpace.value)
    (hencode : encode json metadata carrier false = .ok text) :
    ∃ record, decode json sections names text = .ok record ∧
      record.nameSpace = ⟨metadata.nameSpace.value.expose, false⟩ ∧
      record.scope = Scope.encode metadata.scope ∧ record.carrier = carrier ∧
      ∀ origins payloadOrigins, ∃ read, record.metadata origins payloadOrigins = .ok read ∧
        read.SameContent metadata := by
  obtain ⟨content, hcontent, hdecode⟩ :=
    decode_encode hjson hbuilt hcarrier hplain hsection hencode
  refine ⟨_, hdecode, ?_, rfl, rfl, metadata_encode hbuilt hcontent⟩
  rw [recordOf, hplain]

end Records

/-! ## One protected note -/

/-- A protected text of the vendor `x-vendor`. -/
def protectedNote : VendorMetadata where
  scope := .application
  nameSpace := .generated (.plain "x-vendor")
  payload := .generated (.mk (.string (.sensitive "note")) true false)
  valid := by decide

theorem protectedNote_built : protectedNote.payload.value.Built := by
  have hnew : MetadataNode.new (.string (.plain "note")) true false =
      .ok protectedNote.payload.value := rfl
  exact .new (fun child hchild => absurd hchild List.not_mem_nil) hnew

def noteText : String :=
  "\x7b\"protocol\":\"boxferry.vendor-metadata\",\"version\":1,\"namespace\":\x7b\"value\":\"x-vendor\"," ++
    "\"sensitive\":false\x7d,\"scope\":\x7b\"kind\":\"application\"\x7d,\"carrier\":\"web.container\"," ++
    "\"content\":\x7b\"kind\":\"payload\",\"value\":\x7b\"sensitive\":true,\"folded\":false," ++
    "\"value\":\x7b\"type\":\"string\",\"value\":\"note\"\x7d\x7d\x7d\x7d"

def noteRecord : Record :=
  ⟨protocol, 1, ⟨"x-vendor", false⟩, .application, "web.container",
    .payload (.mk true false (.string "note"))⟩

/-- The JSON codec at the record of the note. -/
def noteJson : RecordJson where
  toString
    | ⟨"boxferry.vendor-metadata", 1, ⟨"x-vendor", false⟩, .application, "web.container",
        .payload (.mk true false (.string "note"))⟩ => some noteText
    | _ => none
  fromStr text := if text = noteText then some noteRecord else none

theorem noteJson_fromStr : noteJson.fromStr noteText = some noteRecord := by
  simp only [noteJson, if_true]

theorem noteJson_roundTrips : noteJson.RoundTrips := by
  intro record text _ h
  unfold noteJson at h
  simp only at h
  split at h
  · rw [← Option.some.inj h]
    exact noteJson_fromStr
  · cases h

def containerNames : NativeNames String :=
  .spelled fun spelling => ".container".toList.isSuffixOf spelling.toList

def vendorSections : NativeNames String := .spelled (startsWith · "X-")

theorem encode_note : encode noteJson protectedNote "web.container" false = .ok noteText := by
  have hlength : len noteText ≤ recordLimit := by decide +kernel
  exact encode_eq_ok.mpr ⟨noteRecord.content, rfl, rfl, hlength⟩

theorem vendorMetadata_roundTrip_note :
    ∃ record, decode noteJson vendorSections containerNames noteText = .ok record ∧
      record.nameSpace = ⟨"x-vendor", false⟩ ∧ record.scope = .application ∧
      record.carrier = "web.container" ∧
      ∀ origins payloadOrigins, ∃ read, record.metadata origins payloadOrigins = .ok read ∧
        read.SameContent protectedNote :=
  vendorMetadata_roundTrip noteJson_roundTrips protectedNote_built rfl rfl rfl encode_note

end Boxferry.Quadlet.Metadata
