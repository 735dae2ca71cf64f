import Boxferry.Library.Utf8Text

/-! # Neutral values

Text checks, identifiers, protected text and source provenance shared by every
resource of the neutral application graph. -/
namespace Boxferry.Model
set_option autoImplicit false

/-- Construction failures of neutral model values. -/
inductive ModelError where
  | emptyValue (kind : String)
  | containsNul (kind : String)
  | duplicateResource (kind name : String)
  | unknownNativeEvidenceOwner (kind name : String)
  | duplicateServiceGroupMember (group service : String)
  | unknownServiceGroupMember (group service : String)
  | serviceInMultipleGroups (service existing replacement : String)
  | unknownImageAcquisitionReference (service acquisition : String)
  | unknownImageBuildReference (service build : String)
  | unknownVolumeImageAcquisitionReference (volume acquisition : String)
  | unknownVolumeImageBuildReference (volume build : String)
  | unknownArtifactDependencyNode (kind name : String)
  | imageArtifactDependencyCycle (nodes : List String)
  | invalidImageReference (reason : String)
  | zeroContainerPort
  | unknownNetworkAttachmentIndex (index len : Nat)
  | rootfsImageSourceConflict (service source : String)
  | invalidHealthcheckRetries
  | invalidDeferred (reason : String)
deriving DecidableEq

/-- The text of a construction failure. -/
def ModelError.display : ModelError → String
  | .emptyValue kind => kind ++ " must not be empty"
  | .containsNul kind => kind ++ " must not contain a NUL byte"
  | .duplicateResource kind name => "duplicate " ++ kind ++ " \x60" ++ name ++ "\x60"
  | .unknownNativeEvidenceOwner kind name =>
    "retained native evidence references unknown " ++ kind ++ " \x60" ++ name ++ "\x60"
  | .duplicateServiceGroupMember group service =>
    "service group \x60" ++ group ++ "\x60 contains duplicate member \x60" ++ service ++ "\x60"
  | .unknownServiceGroupMember group service =>
    "service group \x60" ++ group ++ "\x60 references unknown service \x60" ++ service ++ "\x60"
  | .serviceInMultipleGroups service existing replacement =>
    "service \x60" ++ service ++ "\x60 belongs to both service groups \x60" ++ existing ++
      "\x60 and \x60" ++ replacement ++ "\x60"
  | .unknownImageAcquisitionReference service acquisition =>
    "service \x60" ++ service ++ "\x60 references unknown image acquisition \x60" ++
      acquisition ++ "\x60"
  | .unknownImageBuildReference service build =>
    "service \x60" ++ service ++ "\x60 references unknown image build \x60" ++ build ++ "\x60"
  | .unknownVolumeImageAcquisitionReference volume acquisition =>
    "volume \x60" ++ volume ++ "\x60 references unknown image acquisition \x60" ++ acquisition ++ "\x60"
  | .unknownVolumeImageBuildReference volume build =>
    "volume \x60" ++ volume ++ "\x60 references unknown image build \x60" ++ build ++ "\x60"
  | .unknownArtifactDependencyNode kind name =>
    "artifact dependency references unknown " ++ kind ++ " \x60" ++ name ++ "\x60"
  | .imageArtifactDependencyCycle nodes =>
    "image-artifact dependency cycle: " ++ String.intercalate " -> " nodes
  | .invalidImageReference reason => "invalid image reference: " ++ reason
  | .zeroContainerPort => "container port must not be zero"
  | .unknownNetworkAttachmentIndex index len =>
    "network attachment index " ++ toString index ++ " is outside collection length " ++
      toString len
  | .rootfsImageSourceConflict service source =>
    "service \x60" ++ service ++ "\x60 combines rootfs with image source \x60" ++ source ++ "\x60"
  | .invalidHealthcheckRetries => "health-check retries must be a non-negative decimal integer"
  | .invalidDeferred reason => reason

/-! ## Text -/

/-- `str::len`: the length in UTF-8 bytes. -/
def len (text : String) : Nat := text.utf8ByteSize

theorem length_bytes (text : String) : (Utf8Text.bytes text).length = len text := rfl

/-- `usize::MAX` of a 64-bit target. -/
def usizeMax : Nat := 2 ^ 64 - 1

/-- `usize::checked_add`. -/
def checkedAdd (left right : Nat) : Option Nat :=
  if left + right ≤ usizeMax then some (left + right) else none

theorem checkedAdd_some {left right total : Nat} (h : checkedAdd left right = some total) :
    total = left + right := by
  unfold checkedAdd at h
  split at h
  · exact (Option.some.inj h).symm
  · cases h

/-- `char::is_control`: the Unicode general category `Cc`. -/
def isControl (ch : Char) : Bool := ch.toNat < 0x20 || (0x7f ≤ ch.toNat && ch.toNat < 0xa0)

/-- `str::contains` for a single character. -/
def containsChar (text : String) (ch : Char) : Bool := text.toList.contains ch

/-- `char::is_whitespace`: the Unicode property `White_Space`. -/
def isWhitespace (ch : Char) : Bool :=
  (0x9 ≤ ch.toNat && ch.toNat ≤ 0xd) || (0x2000 ≤ ch.toNat && ch.toNat ≤ 0x200a) ||
    ch.toNat ∈ [0x20, 0x85, 0xa0, 0x1680, 0x2028, 0x2029, 0x202f, 0x205f, 0x3000]

/-- `str::to_ascii_uppercase`. -/
def toAsciiUppercase (text : String) : String := String.ofList (text.toList.map Char.toUpper)

/-- `str::trim`. -/
def trim (text : String) : String :=
  String.ofList ((text.toList.dropWhile isWhitespace).reverse.dropWhile isWhitespace).reverse

/-- `str::parse` of an unsigned integer type: an optional plus sign and decimal digits. -/
def parseUnsigned (bound : Nat) (text : String) : Option Nat :=
  let digits := match text.toList with
    | '+' :: rest => rest
    | chars => chars
  if digits.isEmpty || !digits.all Char.isDigit then none
  else
    let value := digits.foldl (fun total ch => total * 10 + (ch.toNat - 48)) 0
    if value < bound then some value else none

/-- `str::starts_with`. -/
def startsWith (text start : String) : Bool := start.toList.isPrefixOf text.toList

def validateNoNul (kind value : String) : Except ModelError Unit :=
  if containsChar value '\x00' then .error (.containsNul kind) else .ok ()

def validateText (kind value : String) : Except ModelError Unit :=
  if value.isEmpty then .error (.emptyValue kind) else validateNoNul kind value

theorem validateText_of_clean {kind text : String} (hnonempty : text ≠ "") (hclean : '\x00' ∉ text.toList) :
    validateText kind text = .ok () := by
  have hempty : text.isEmpty = false := by
    rw [Bool.eq_false_iff, ne_eq, String.isEmpty_iff]
    exact hnonempty
  have hnul : containsChar text '\x00' = false := by
    unfold containsChar
    rw [Bool.eq_false_iff, ne_eq, List.contains_iff_mem]
    exact hclean
  unfold validateText validateNoNul
  rw [hempty, hnul]
  rfl

theorem clean_of_valid {kind text : String} (h : validateText kind text = .ok ()) : '\x00' ∉ text.toList := by
  intro hnul
  have hcontains : containsChar text '\x00' = true := List.contains_iff_mem.mpr hnul
  unfold validateText validateNoNul at h
  rw [hcontains] at h
  split at h <;> cases h

/-- Opaque, non-empty application or resource identifier without NUL bytes. -/
structure Identifier where
  asStr : String
  valid : validateText "identifier" asStr = .ok ()
deriving DecidableEq

namespace Identifier

/-! The names of the worked examples. -/

theorem valid_app : validateText "identifier" "app" = .ok () := by decide

theorem valid_data : validateText "identifier" "data" = .ok () := by decide

theorem valid_db : validateText "identifier" "db" = .ok () := by decide

theorem valid_demo : validateText "identifier" "demo" = .ok () := by decide

theorem valid_web : validateText "identifier" "web" = .ok () := by decide

def new (value : String) : Except ModelError Identifier :=
  match h : validateText "identifier" value with
  | .ok () => .ok ⟨value, h⟩
  | .error error => .error error

theorem new_ok {value : String} (h : validateText "identifier" value = .ok ()) :
    Identifier.new value = .ok ⟨value, h⟩ := by
  unfold Identifier.new
  split
  · rfl
  · next hbad => rw [h] at hbad; cases hbad

theorem new_asStr {value : String} {name : Identifier} (h : Identifier.new value = .ok name) :
    name.asStr = value := by
  unfold Identifier.new at h
  split at h
  · cases h; rfl
  · cases h

theorem ext_asStr {left right : Identifier} (h : left.asStr = right.asStr) : left = right := by
  cases left; cases right; cases h; rfl

end Identifier

/-- Plain or sensitive text. -/
structure ProtectedString where
  expose : String
  isSensitive : Bool
deriving DecidableEq

namespace ProtectedString

def plain (value : String) : ProtectedString := ⟨value, false⟩

def sensitive (value : String) : ProtectedString := ⟨value, true⟩

@[simp] theorem expose_plain (value : String) : (plain value).expose = value := rfl
@[simp] theorem isSensitive_plain (value : String) : (plain value).isSensitive = false := rfl
@[simp] theorem expose_sensitive (value : String) : (sensitive value).expose = value := rfl
@[simp] theorem isSensitive_sensitive (value : String) : (sensitive value).isSensitive = true := rfl

end ProtectedString

/-! ## Provenance -/

/-- Caller-selected identity for one imported source. -/
structure SourceId where
  asStr : String
  valid : validateText "source identity" asStr = .ok ()
deriving DecidableEq

theorem SourceId.valid_demo : validateText "source identity" "demo" = .ok () := by decide

/-- Half-open byte range whose end is not before its start. -/
structure SourceSpan where
  start : Nat
  «end» : Nat
  ordered : start ≤ «end»
deriving DecidableEq

inductive ProvenanceKind where
  | sourceDocument
  | runtimeObservation
  | userOverride
  | implementationDefault
  | conversionDecision
deriving DecidableEq

/-- Location from which a neutral value was derived. -/
structure Provenance where
  kind : ProvenanceKind
  source : SourceId
  span : Option SourceSpan
deriving DecidableEq

namespace Provenance

def ofSource (source : SourceId) : Provenance := ⟨.sourceDocument, source, none⟩

def spanned (source : SourceId) (span : SourceSpan) : Provenance :=
  ⟨.sourceDocument, source, some span⟩

end Provenance

/-- A value and every source location that contributed to it. -/
structure Sourced (α : Type) where
  value : α
  origins : List Provenance
deriving DecidableEq

namespace Sourced
variable {α : Type}

def generated (value : α) : Sourced α := ⟨value, []⟩

def addOrigin (sourced : Sourced α) (origin : Provenance) : Sourced α :=
  ⟨sourced.value, sourced.origins ++ [origin]⟩

def fromSource (value : α) (origin : Provenance) : Sourced α := ⟨value, [origin]⟩

@[simp] theorem value_generated (value : α) : (generated value).value = value := rfl
@[simp] theorem origins_generated (value : α) : (generated value).origins = [] := rfl
@[simp] theorem value_fromSource (value : α) (origin : Provenance) :
    (fromSource value origin).value = value := rfl
@[simp] theorem origins_fromSource (value : α) (origin : Provenance) :
    (fromSource value origin).origins = [origin] := rfl

end Sourced
end Boxferry.Model
