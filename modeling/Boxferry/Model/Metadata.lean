import Mathlib.Algebra.GroupWithZero.Nat
import Boxferry.Model.Values

/-! # Inert vendor metadata

Ordered trees of vendor metadata, the sensitivity they carry at every node and
mapping key, and the finite budgets every admitted tree satisfies. -/
namespace Boxferry.Model
set_option autoImplicit false

def metadataMaxDepth : Nat := 64

def metadataMaxBytes : Nat := 1024 * 1024

/-- Value-free validation errors for inert metadata. -/
inductive MetadataError where
  | invalidValue
  | duplicate
  | unknownOwner
  | limit
deriving DecidableEq

/-- Owner of an inert vendor extension. -/
inductive MetadataScope where
  | application
  | service (name : Identifier)
deriving DecidableEq

mutual
/-- One value with its own sensitivity and folded-text presentation hint. -/
inductive MetadataNode where
  | mk (value : MetadataValue) (sensitive folded : Bool)

/-- Semantic value of vendor metadata. Map and sequence order is retained. -/
inductive MetadataValue where
  | null
  | boolean (value : Bool)
  | number (value : ProtectedString)
  | string (value : ProtectedString)
  | sequence (values : List (Sourced MetadataNode))
  | mapping (entries : List MetadataEntry)

/-- One ordered string-keyed mapping entry. -/
inductive MetadataEntry where
  | mk (key : Sourced ProtectedString) (value : Sourced MetadataNode)
end

/-! ## Decimal spellings -/

def isAsciiDigit (byte : UInt8) : Bool := 48 ≤ byte && byte ≤ 57

/-- The index after the digits that start at `i`. -/
def skipDigits (bytes : List UInt8) (i : Nat) : Nat :=
  i + ((bytes.drop i).takeWhile isAsciiDigit).length

/-- The index after the integer part at `i`: a single `0`, or digits without a leading zero. -/
def integerPart (bytes : List UInt8) (i : Nat) : Option Nat :=
  match bytes[i]? with
  | some byte =>
    if byte = 48 then some (i + 1)
    else if isAsciiDigit byte then some (skipDigits bytes (i + 1))
    else none
  | none => none

/-- The index after an optional fraction at `i`. -/
def fractionPart (bytes : List UInt8) (i : Nat) : Option Nat :=
  if bytes[i]? = some 46 then
    let last := skipDigits bytes (i + 1)
    if last = i + 1 then none else some last
  else some i

/-- The index after an optional exponent at `i`. -/
def exponentPart (bytes : List UInt8) (i : Nat) : Option Nat :=
  if bytes[i]? = some 101 ∨ bytes[i]? = some 69 then
    let start := if bytes[i + 1]? = some 43 ∨ bytes[i + 1]? = some 45 then i + 2 else i + 1
    let last := skipDigits bytes start
    if last = start then none else some last
  else some i

/-- The decimal spellings JSON allows, without floating-point conversion. -/
def validNumber (text : String) : Bool :=
  let bytes := Utf8Text.bytes text
  let start := if bytes[0]? = some 45 then 1 else 0
  match integerPart bytes start with
  | none => false
  | some afterInteger =>
    match fractionPart bytes afterInteger with
    | none => false
    | some afterFraction =>
      match exponentPart bytes afterFraction with
      | none => false
      | some last => last == bytes.length

/-! ## Sensitivity -/

def MetadataValue.isString : MetadataValue → Bool
  | .string _ => true
  | _ => false

/-- Whether the scalar text itself is protected. -/
def MetadataValue.isSensitiveScalar : MetadataValue → Bool
  | .string value | .number value => value.isSensitive
  | _ => false

namespace MetadataNode

def value : MetadataNode → MetadataValue
  | .mk value _ _ => value

def isFolded : MetadataNode → Bool
  | .mk _ _ folded => folded

/-- The sensitivity of this node, independently of its descendants. -/
def isSensitive : MetadataNode → Bool
  | .mk value sensitive _ => sensitive || value.isSensitiveScalar

@[simp] theorem value_mk (value : MetadataValue) (sensitive folded : Bool) :
    (mk value sensitive folded).value = value := rfl
@[simp] theorem isFolded_mk (value : MetadataValue) (sensitive folded : Bool) :
    (mk value sensitive folded).isFolded = folded := rfl

end MetadataNode

def MetadataEntry.key : MetadataEntry → Sourced ProtectedString
  | .mk key _ => key

def MetadataEntry.value : MetadataEntry → Sourced MetadataNode
  | .mk _ value => value

mutual
/-- Whether this node, any descendant or any mapping key is protected. -/
def MetadataNode.containsSensitive : MetadataNode → Bool
  | .mk value sensitive _ => sensitive || value.containsSensitive

def MetadataValue.containsSensitive : MetadataValue → Bool
  | .null => false
  | .boolean _ => false
  | .number value => value.isSensitive
  | .string value => value.isSensitive
  | .sequence values => containsSensitiveSequence values
  | .mapping entries => containsSensitiveEntries entries

def containsSensitiveSequence : List (Sourced MetadataNode) → Bool
  | [] => false
  | ⟨node, _⟩ :: rest => node.containsSensitive || containsSensitiveSequence rest

def containsSensitiveEntries : List MetadataEntry → Bool
  | [] => false
  | .mk key ⟨node, _⟩ :: rest =>
    key.value.isSensitive || node.containsSensitive || containsSensitiveEntries rest
end

mutual
/-- Marks the node, every descendant and every mapping key sensitive. -/
def MetadataNode.protectContents : MetadataNode → MetadataNode
  | .mk value _ folded => .mk value.protectContents true folded

def MetadataValue.protectContents : MetadataValue → MetadataValue
  | .null => .null
  | .boolean value => .boolean value
  | .number value => .number (.sensitive value.expose)
  | .string value => .string (.sensitive value.expose)
  | .sequence values => .sequence (protectSequence values)
  | .mapping entries => .mapping (protectEntries entries)

def protectSequence : List (Sourced MetadataNode) → List (Sourced MetadataNode)
  | [] => []
  | ⟨node, origins⟩ :: rest => ⟨node.protectContents, origins⟩ :: protectSequence rest

def protectEntries : List MetadataEntry → List MetadataEntry
  | [] => []
  | .mk ⟨key, keyOrigins⟩ ⟨node, origins⟩ :: rest =>
    .mk ⟨.sensitive key.expose, keyOrigins⟩ ⟨node.protectContents, origins⟩ ::
      protectEntries rest
end

/-! ## Budgets -/

mutual
/-- Accounting bytes of a node at `depth`, or the first violated bound. -/
def MetadataNode.measure : MetadataNode → Nat → Except MetadataError Nat
  | .mk value _ folded, depth =>
    if metadataMaxDepth < depth || (folded && !value.isString) then .error .invalidValue
    else do
      let bytes ← value.measure depth
      if metadataMaxBytes < bytes then .error .limit else .ok bytes

def MetadataValue.measure : MetadataValue → Nat → Except MetadataError Nat
  | .null, _ => .ok 32
  | .boolean _, _ => .ok 32
  | .number value, _ =>
    if validNumber value.expose then .ok (32 + len value.expose) else .error .invalidValue
  | .string value, _ => .ok (32 + len value.expose)
  | .sequence values, depth => measureSequence values (depth + 1) 32
  | .mapping entries, depth => measureEntries entries (depth + 1) [] 32

def measureSequence : List (Sourced MetadataNode) → Nat → Nat → Except MetadataError Nat
  | [], _, bytes => .ok bytes
  | ⟨node, _⟩ :: rest, depth, bytes => do
    let size ← node.measure depth
    match checkedAdd bytes size with
    | none => .error .limit
    | some total => measureSequence rest depth total

def measureEntries : List MetadataEntry → Nat → List String → Nat → Except MetadataError Nat
  | [], _, _, bytes => .ok bytes
  | .mk key ⟨node, _⟩ :: rest, depth, keys, bytes =>
    if key.value.expose ∈ keys then .error .duplicate
    else
      match (checkedAdd bytes (len key.value.expose)).bind (checkedAdd · 32) with
      | none => .error .limit
      | some keyed => do
        let size ← node.measure depth
        match checkedAdd keyed size with
        | none => .error .limit
        | some total => measureEntries rest depth (key.value.expose :: keys) total
end

/-- `MetadataNode::new`: a bounded node. Protecting a collection also protects
every nested value and mapping key. -/
def MetadataNode.new (value : MetadataValue) (sensitive folded : Bool) :
    Except MetadataError MetadataNode := do
  let node := MetadataNode.mk value sensitive folded
  let _ ← node.measure 1
  if node.isSensitive then .ok node.protectContents else .ok node

/-! ## Vendor metadata -/

/-- The namespace and payload checks of `VendorMetadata::new`. -/
def vendorMetadataValid (nameSpace : ProtectedString) (payload : MetadataNode) :
    Except MetadataError Unit :=
  if !startsWith nameSpace.expose "x-" || len nameSpace.expose ≤ 2 then .error .invalidValue
  else do
    let _ ← payload.measure 1
    .ok ()

/-- One exact, case-sensitive vendor namespace at a supported neutral owner. -/
structure VendorMetadata where
  scope : MetadataScope
  nameSpace : Sourced ProtectedString
  payload : Sourced MetadataNode
  valid : vendorMetadataValid nameSpace.value payload.value = .ok ()

namespace VendorMetadata

def new (scope : MetadataScope) (nameSpace : Sourced ProtectedString)
    (payload : Sourced MetadataNode) : Except MetadataError VendorMetadata :=
  match h : vendorMetadataValid nameSpace.value payload.value with
  | .ok () => .ok ⟨scope, nameSpace, payload, h⟩
  | .error error => .error error

/-- Whether any namespace, key or value is protected. -/
def containsSensitive (metadata : VendorMetadata) : Bool :=
  metadata.nameSpace.value.isSensitive || metadata.payload.value.containsSensitive

def measure (metadata : VendorMetadata) : Except MetadataError Nat := do
  let bytes ← metadata.payload.value.measure 1
  match checkedAdd bytes (len metadata.nameSpace.value.expose) with
  | none => .error .limit
  | some total => .ok total

end VendorMetadata
end Boxferry.Model
