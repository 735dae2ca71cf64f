import Boxferry.Lens.Documents
import Boxferry.Model.MetadataTrees

/-! # Metadata records

The versioned, inert transport of vendor metadata through `X-` sections of
native units: one record is a payload on its carrier unit or a reference to it.
The JSON codec and the native name types are parameters. -/
namespace Boxferry.Quadlet.Metadata
open Lens Model Results
set_option autoImplicit false

def recordLimit : Nat := 64 * 1024

def wireDepth : Nat := 16

def protocol : String := "boxferry.vendor-metadata"

/-! ## Wire types -/

structure Text where
  value : String
  sensitive : Bool
deriving DecidableEq

inductive Scope where
  | application
  | service (owner : String)
deriving DecidableEq

mutual
inductive Node where
  | mk (sensitive folded : Bool) (value : Value)

inductive Value where
  | null
  | boolean (value : Bool)
  | number (value : String)
  | string (value : String)
  | sequence (values : List Node)
  | mapping (entries : List Entry)

inductive Entry where
  | mk (key : Text) (value : Node)
end

mutual
/-- The derived equality of wire trees. -/
def Node.same : Node → Node → Bool
  | .mk sensitive folded value, .mk sensitive' folded' value' =>
    sensitive == sensitive' && folded == folded' && value.same value'

def Value.same : Value → Value → Bool
  | .null, .null => true
  | .boolean value, .boolean value' => value == value'
  | .number value, .number value' => value == value'
  | .string value, .string value' => value == value'
  | .sequence values, .sequence values' => sameNodes values values'
  | .mapping entries, .mapping entries' => sameEntries entries entries'
  | _, _ => false

def sameNodes : List Node → List Node → Bool
  | [], [] => true
  | node :: rest, node' :: rest' => node.same node' && sameNodes rest rest'
  | _, _ => false

def sameEntries : List Entry → List Entry → Bool
  | [], [] => true
  | .mk key node :: rest, .mk key' node' :: rest' =>
    key == key' && node.same node' && sameEntries rest rest'
  | _, _ => false
end

mutual
theorem Node.same_refl : ∀ node : Node, node.same node = true
  | .mk sensitive folded value => by simp [Node.same, Value.same_refl value]

theorem Value.same_refl : ∀ value : Value, value.same value = true
  | .null | .boolean _ | .number _ | .string _ => by simp [Value.same]
  | .sequence values => by simp [Value.same, sameNodes_refl values]
  | .mapping entries => by simp [Value.same, sameEntries_refl entries]

theorem sameNodes_refl : ∀ nodes : List Node, sameNodes nodes nodes = true
  | [] => by simp [sameNodes]
  | node :: rest => by simp [sameNodes, Node.same_refl node, sameNodes_refl rest]

theorem sameEntries_refl : ∀ entries : List Entry, sameEntries entries entries = true
  | [] => by simp [sameEntries]
  | .mk key node :: rest => by simp [sameEntries, Node.same_refl node, sameEntries_refl rest]
end

inductive Content where
  | payload (node : Node)
  | reference

structure Record where
  protocol : String
  version : UInt8
  nameSpace : Text
  scope : Scope
  carrier : String
  content : Content

mutual
/-- Nested JSON objects and arrays of a node. -/
def Node.nesting : Node → Nat
  | .mk _ _ value => 1 + value.nesting

def Value.nesting : Value → Nat
  | .null | .boolean _ | .number _ | .string _ => 1
  | .sequence values => 2 + sequenceNesting values
  | .mapping entries => 2 + entriesNesting entries

def sequenceNesting : List Node → Nat
  | [] => 0
  | node :: rest => max node.nesting (sequenceNesting rest)

def entriesNesting : List Entry → Nat
  | [] => 0
  | .mk _ node :: rest => max (1 + max 1 node.nesting) (entriesNesting rest)
end

def Record.nesting (record : Record) : Nat :=
  match record.content with
  | .payload node => 1 + (1 + node.nesting)
  | .reference => 2

/-- `serde_json::to_string` and `serde_json::from_str` at the record type. -/
structure RecordJson where
  toString : Record → Option String
  fromStr : String → Option Record

/-- Records within the nesting limit of the JSON reader are read back. -/
def RecordJson.RoundTrips (json : RecordJson) : Prop :=
  ∀ record text, record.nesting < 128 → json.toString record = some text →
    json.fromStr text = some record

/-! ## Encoding -/

def depthError : String := "Quadlet metadata v1 supports depth 16; simplify the extension nesting"

def sizeError : String := "metadata record exceeds 64 KiB; reduce the extension payload"

mutual
def Node.encode : MetadataNode → Nat → Except String Node
  | .mk value sensitive folded, depth =>
    if wireDepth < depth then .error depthError
    else do
      let wire ← Value.encode value depth
      .ok (.mk (MetadataNode.mk value sensitive folded).isSensitive folded wire)

def Value.encode : MetadataValue → Nat → Except String Value
  | .null, _ => .ok .null
  | .boolean value, _ => .ok (.boolean value)
  | .number value, _ => .ok (.number value.expose)
  | .string value, _ => .ok (.string value.expose)
  | .sequence values, depth => do
    let nodes ← encodeSequence values (depth + 1)
    .ok (.sequence nodes)
  | .mapping entries, depth => do
    let entries ← encodeEntries entries (depth + 1)
    .ok (.mapping entries)

def encodeSequence : List (Sourced MetadataNode) → Nat → Except String (List Node)
  | [], _ => .ok []
  | ⟨node, _⟩ :: rest, depth => do
    let wire ← Node.encode node depth
    let wires ← encodeSequence rest depth
    .ok (wire :: wires)

def encodeEntries : List MetadataEntry → Nat → Except String (List Entry)
  | [], _ => .ok []
  | .mk key ⟨node, _⟩ :: rest, depth => do
    let wire ← Node.encode node depth
    let wires ← encodeEntries rest depth
    .ok (.mk ⟨key.value.expose, key.value.isSensitive⟩ wire :: wires)
end

def Scope.encode : MetadataScope → Scope
  | .application => .application
  | .service owner => .service owner.asStr

def Content.encode (metadata : VendorMetadata) (reference : Bool) : Except String Content :=
  if reference then .ok .reference
  else do
    let node ← Node.encode metadata.payload.value 1
    .ok (.payload node)

/-- The record of a metadata item on its carrier. -/
def recordOf (metadata : VendorMetadata) (carrier : String) (content : Content) : Record :=
  ⟨protocol, 1, ⟨metadata.nameSpace.value.expose, metadata.nameSpace.value.isSensitive⟩,
    Scope.encode metadata.scope, carrier, content⟩

/-- `metadata::encode`: the record text of a metadata item on its carrier. -/
def encode (json : RecordJson) (metadata : VendorMetadata) (carrier : String) (reference : Bool) :
    Except String String := do
  let content ← Content.encode metadata reference
  match json.toString (recordOf metadata carrier content) with
  | none => .error "metadata encoding failed"
  | some text => if recordLimit < len text then .error sizeError else .ok text

/-! ## Decoding -/

def protect (value : String) (sensitive : Bool) : ProtectedString :=
  if sensitive then .sensitive value else .plain value

def sourced {α : Type} (value : α) (origins : List Provenance) : Sourced α :=
  origins.foldl Sourced.addOrigin (.generated value)

mutual
def Node.decode : Node → List Provenance → Nat → Except String MetadataNode
  | .mk sensitive folded value, origins, depth =>
    if wireDepth < depth then .error depthError
    else do
      let value ← Value.decode value sensitive origins depth
      (MetadataNode.new value sensitive folded).mapError
        fun _ => "metadata node has invalid numbers, keys, hints or size"

def Value.decode : Value → Bool → List Provenance → Nat → Except String MetadataValue
  | .null, _, _, _ => .ok .null
  | .boolean value, _, _, _ => .ok (.boolean value)
  | .number value, sensitive, _, _ => .ok (.number (protect value sensitive))
  | .string value, sensitive, _, _ => .ok (.string (protect value sensitive))
  | .sequence values, _, origins, depth => do
    let nodes ← decodeSequence values origins (depth + 1)
    .ok (.sequence nodes)
  | .mapping entries, _, origins, depth => do
    let entries ← decodeEntries entries origins (depth + 1)
    .ok (.mapping entries)

def decodeSequence : List Node → List Provenance → Nat → Except String (List (Sourced MetadataNode))
  | [], _, _ => .ok []
  | wire :: rest, origins, depth => do
    let node ← Node.decode wire origins depth
    let nodes ← decodeSequence rest origins depth
    .ok (sourced node origins :: nodes)

def decodeEntries : List Entry → List Provenance → Nat → Except String (List MetadataEntry)
  | [], _, _ => .ok []
  | .mk key wire :: rest, origins, depth => do
    let node ← Node.decode wire origins depth
    let entries ← decodeEntries rest origins depth
    .ok (.mk (sourced (protect key.value key.sensitive) origins) (sourced node origins) :: entries)
end

section Decode
variable {UnitFileName XSectionName : Type} (json : RecordJson)
  (sections : NativeNames XSectionName) (names : NativeNames UnitFileName)

/-- The carrier check of `metadata::decode`: an exact native unit basename. -/
def checkCarrier (carrier : String) : Except String Unit :=
  if carrier.isEmpty ∨ containsChar carrier '/' ∨ containsChar carrier '\\' ∨ carrier = "." ∨
      carrier = ".." then
    .error "metadata carrier must be an exact unit basename"
  else if (names.new carrier).isNone then
    .error "metadata carrier is not a valid native Quadlet unit basename"
  else .ok ()

def unreadable (text : String) : String :=
  match text.toList.dropWhile isWhitespace with
  | '{' :: _ | '[' :: _ =>
    "metadata record is malformed, has duplicate or unknown fields, or exceeds JSON nesting bounds"
  | _ =>
    "ordinary X- content has an unsupported metadata protocol; retain the original unit separately"

def Content.check : Content → Except String Unit
  | .payload node => (node.decode [] 1).map fun _ => ()
  | .reference => .ok ()

/-- `metadata::decode`: a strictly validated record. -/
def decode (text : String) : Except String Record :=
  if recordLimit < len text then .error sizeError
  else
    match json.fromStr text with
    | none => .error (unreadable text)
    | some record =>
      if record.protocol ≠ protocol ∨ record.version ≠ 1 then
        .error "metadata protocol/version is unsupported; use vendor metadata version 1"
      else if record.nameSpace.sensitive then
        .error "protected metadata namespaces cannot be transported as printable vendor sections"
      else if !startsWith record.nameSpace.value "x-" || len record.nameSpace.value ≤ 2 then
        .error "metadata namespace is invalid"
      else if (sections.new (toAsciiUppercase record.nameSpace.value)).isNone then
        .error "metadata namespace does not fit the native X- section grammar"
      else do
        checkCarrier names record.carrier
        record.content.check
        .ok record

end Decode

def Scope.decode : Scope → Except String MetadataScope
  | .application => .ok .application
  | .service owner =>
    match Identifier.new owner with
    | .ok owner => .ok (.service owner)
    | .error _ => .error "metadata service owner is invalid"

/-- `Record::metadata`: the neutral metadata of a payload record. -/
def Record.metadata (record : Record) (origins payloadOrigins : List Provenance) :
    Except String VendorMetadata := do
  let scope ← record.scope.decode
  match record.content with
  | .reference => .error "metadata carrier has no payload"
  | .payload node => do
    let node ← node.decode payloadOrigins 1
    (VendorMetadata.new scope
      (sourced (protect record.nameSpace.value record.nameSpace.sensitive) origins)
      (sourced node origins)).mapError fun _ => "metadata payload violates the neutral contract"

end Boxferry.Quadlet.Metadata
