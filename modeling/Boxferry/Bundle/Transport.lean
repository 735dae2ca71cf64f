import Mathlib.Algebra.GroupWithZero.Nat
import Boxferry.Library.Decimal
import Boxferry.Library.Lines
import Boxferry.Library.Results
import Boxferry.Lens.Documents

/-! # Quadlet bundle transport

The versioned single-file transport of native unit files: canonical framing on
the way out, complete validation on the way in. The JSON header codec and the
native filename type are parameters. -/
namespace Boxferry.Bundle
open Lens Model Results
set_option autoImplicit false

abbrev Bytes := List UInt8

/-! ## Limits and errors -/

def reservedMagic : Bytes := Utf8Text.bytes "BOXFERRY-QUADLET-BUNDLE"

def magic : Bytes := Utf8Text.bytes "BOXFERRY-QUADLET-BUNDLE 1\n"

def maxBundleBytes : Nat := 64 * 1024 * 1024

def maxMemberBytes : Nat := 8 * 1024 * 1024

/-- Maximum JSON header line size, including its line feed. -/
def maxHeaderBytes : Nat := 16 * 1024

def maxMembers : Nat := 4096

def lineFeed : UInt8 := 10

def separator : Bytes := Utf8Text.bytes "---\n"

/-- Value-free transport failures. -/
inductive BundleError where
  | unsupportedVersion
  | invalidFraming
  | invalidMemberName
  | memberCollision
  | limitExceeded
  | invalidUtf8
deriving DecidableEq

/-- The header object of one member. -/
structure Header where
  name : String
  bytes : UInt64
deriving DecidableEq

/-- `serde_json::to_vec` and `serde_json::from_slice` at the header type. -/
structure HeaderJson where
  toVec : Header → Option Bytes
  fromSlice : Bytes → Option Header

/-! ## Member names -/

/-- A basename without separators, drive colons or control characters. -/
def safeBasename (name : String) : Bool :=
  !name.isEmpty && !(name == "." || name == "..") &&
    !name.toList.any (fun ch => ch == '/' || ch == '\\' || ch == ':') && !name.toList.any isControl

def asciiLowercase (text : String) : List Char := text.toList.map Char.toLower

section Members
variable {UnitFileName : Type}

/-- One validated native basename and its unchanged contents. -/
structure QuadletBundleMember (names : NativeNames UnitFileName) where
  name : UnitFileName
  text : String
  admitted : ∃ spelling, safeBasename spelling = true ∧ names.new spelling = some name

/-- The key under which member names collide. -/
def QuadletBundleMember.key {names : NativeNames UnitFileName}
    (member : QuadletBundleMember names) : List Char := asciiLowercase (names.asStr member.name)

/-- Between one and `maxMembers` members whose names differ in more than letter case. -/
structure Admissible {names : NativeNames UnitFileName}
    (members : List (QuadletBundleMember names)) : Prop where
  nonempty : 1 ≤ members.length
  bounded : members.length ≤ maxMembers
  distinct : (members.map QuadletBundleMember.key).Nodup

/-- Immutable validated transport, preserving member order and every payload byte. -/
structure QuadletBundle (names : NativeNames UnitFileName) where
  members : List (QuadletBundleMember names)
  admissible : Admissible members

/-- `validate_name`: a safe native basename that collides with no earlier one. -/
def validateName (names : NativeNames UnitFileName) (name : String) (seen : List (List Char)) :
    Except BundleError
      ({unit : UnitFileName // ∃ spelling, safeBasename spelling = true ∧
        names.new spelling = some unit} × List (List Char)) :=
  if hsafe : safeBasename name = true then
    match hnew : names.new name with
    | none => .error .invalidMemberName
    | some unit =>
      let lowered := asciiLowercase (names.asStr unit)
      if lowered ∈ seen then .error .memberCollision
      else .ok (⟨unit, name, hsafe, hnew⟩, lowered :: seen)
  else .error .invalidMemberName

end Members

/-! ## Framing helpers -/

/-- `line`: the bytes up to a line feed within `maximum` bytes, and the cursor after it. -/
def line (bytes : Bytes) (cursor maximum : Nat) : Except BundleError (Bytes × Nat) :=
  if bytes.length < cursor then .error .invalidFraming
  else
    let rest := bytes.drop cursor
    match (rest.take maximum).idxOf? lineFeed with
    | some last => .ok (rest.take last, cursor + last + 1)
    | none => if maximum ≤ rest.length then .error .limitExceeded else .error .invalidFraming

/-- `slice::strip_prefix`. -/
def stripPrefix (start bytes : Bytes) : Option Bytes :=
  if start.isPrefixOf bytes then some (bytes.drop start.length) else none

/-- `decimal`: a canonical decimal number. -/
def decimal (bytes : Bytes) : Except BundleError Nat :=
  match Decimal.read (bytes.map fun byte => Char.ofNat byte.toNat) with
  | none => .error .invalidFraming
  | some count => if count ≤ usizeMax then .ok count else .error .limitExceeded

def checkCount (count : Nat) : Except BundleError Unit :=
  if 1 ≤ count ∧ count ≤ maxMembers then .ok () else .error .limitExceeded

/-- The count line of a transport with `count` members. -/
def countLine (count : Nat) : Bytes := Utf8Text.bytes ("members " ++ count.repr ++ "\n")

def preambleSize (count : Nat) : Nat := magic.length + (countLine count).length

def header (json : HeaderJson) (name : String) (length : Nat) : Except BundleError Bytes :=
  if 2 ^ 64 ≤ length then .error .limitExceeded
  else
    match json.toVec ⟨name, UInt64.ofNat length⟩ with
    | none => .error .invalidFraming
    | some text => if maxHeaderBytes ≤ text.length then .error .limitExceeded else .ok text

/-- `checked_size`: the running transport size after one more member. -/
def checkedSize (json : HeaderJson) (size : Nat) (name : String) (length : Nat) :
    Except BundleError Nat :=
  if maxMemberBytes < length then .error .limitExceeded
  else do
    let text ← header json name length
    match ((checkedAdd size text.length).bind (checkedAdd · length)).bind (checkedAdd · 6) with
    | none => .error .limitExceeded
    | some size => if maxBundleBytes < size then .error .limitExceeded else .ok size

section Codec
variable {UnitFileName : Type} (json : HeaderJson) (names : NativeNames UnitFileName)

/-! ## Building from generated output -/

/-- The running size of a member list on top of `size`. -/
def runningSize {names : NativeNames UnitFileName} :
    List (QuadletBundleMember names) → Nat → Except BundleError Nat
  | [], size => .ok size
  | member :: rest, size => do
    let size ← checkedSize json size (names.asStr member.name) (len member.text)
    runningSize rest size

/-- The members of generated files, checked one by one against the running size. -/
def collect : List (UnitFileName × String) → List (List Char) → Nat →
    Except BundleError (List (QuadletBundleMember names))
  | [], _, _ => .ok []
  | (file, text) :: rest, seen, size => do
    let (unit, seen) ← validateName names (names.asStr file) seen
    let size ← checkedSize json size (names.asStr unit.val) (len text)
    let members ← collect rest seen size
    .ok (⟨unit.val, text, unit.property⟩ :: members)

def collectOutput (files : List (UnitFileName × String)) :
    Except BundleError (List (QuadletBundleMember names)) := do
  checkCount files.length
  collect json names files [] (preambleSize files.length)

/-! ## Decoding -/

/-- One member at the cursor, the cursor after it and the names seen so far. -/
def decodeMember (bytes : Bytes) (cursor : Nat) (seen : List (List Char)) :
    Except BundleError (QuadletBundleMember names × Nat × List (List Char)) :=
  if (bytes.drop cursor).take 4 ≠ separator then .error .invalidFraming
  else do
    let (text, cursor) ← line bytes (cursor + 4) maxHeaderBytes
    if (Utf8Text.ofBytes text).isNone then .error .invalidUtf8
    else
      match json.fromSlice text with
      | none => .error .invalidFraming
      | some header => do
        let (unit, seen) ← validateName names header.name seen
        let length := header.bytes.toNat
        if maxMemberBytes < length then .error .limitExceeded
        else
          match checkedAdd cursor length with
          | none => .error .limitExceeded
          | some last =>
            if bytes.length < last then .error .invalidFraming
            else
              match Utf8Text.ofBytes ((bytes.drop cursor).take length) with
              | none => .error .invalidUtf8
              | some text =>
                if bytes[last]? ≠ some lineFeed then .error .invalidFraming
                else .ok (⟨unit.val, text, unit.property⟩, last + 1, seen)

/-- `count` members from the cursor on, and the cursor after them. -/
def decodeMembers (bytes : Bytes) : Nat → Nat → List (List Char) →
    Except BundleError (List (QuadletBundleMember names) × Nat)
  | 0, cursor, _ => .ok ([], cursor)
  | count + 1, cursor, seen => do
    let (member, cursor, seen) ← decodeMember json names bytes cursor seen
    let (members, cursor) ← decodeMembers bytes count cursor seen
    .ok (member :: members, cursor)

def decodeTransport (bytes : Bytes) : Except BundleError (List (QuadletBundleMember names)) :=
  if maxBundleBytes < bytes.length then .error .limitExceeded
  else if !magic.isPrefixOf bytes then
    if reservedMagic.isPrefixOf bytes then .error .unsupportedVersion else .error .invalidFraming
  else do
    let (countLine, cursor) ← line bytes magic.length 32
    match stripPrefix (Utf8Text.bytes "members ") countLine with
    | none => .error .invalidFraming
    | some digits => do
      let count ← decimal digits
      checkCount count
      let (members, cursor) ← decodeMembers json names bytes count cursor []
      if cursor ≠ bytes.length then .error .invalidFraming else .ok members

/-! ## Encoding -/

/-- The frame of one member around its header text. -/
def frame (text payload : Bytes) : Bytes :=
  separator ++ (text ++ (lineFeed :: (payload ++ [lineFeed])))

def encodeMembers {names : NativeNames UnitFileName} :
    List (QuadletBundleMember names) → Except BundleError Bytes
  | [] => .ok []
  | member :: rest => do
    let text ← header json (names.asStr member.name) (len member.text)
    let output ← encodeMembers rest
    .ok (frame text (Utf8Text.bytes member.text) ++ output)

/-- `QuadletBundle::encode`: canonical framing within every limit. -/
def QuadletBundle.encode {names : NativeNames UnitFileName} (bundle : QuadletBundle names) :
    Except BundleError Bytes := do
  let _ ← runningSize json bundle.members (preambleSize bundle.members.length)
  let output ← encodeMembers json bundle.members
  .ok (magic ++ (countLine bundle.members.length ++ output))

/-! ## Admission -/

variable {json names}

theorem validateName_eq_ok {name : String} {seen seen' : List (List Char)}
    {unit : {unit : UnitFileName // ∃ spelling, safeBasename spelling = true ∧
      names.new spelling = some unit}} :
    validateName names name seen = .ok (unit, seen') ↔
      safeBasename name = true ∧ names.new name = some unit.val ∧
        asciiLowercase (names.asStr unit.val) ∉ seen ∧
        seen' = asciiLowercase (names.asStr unit.val) :: seen := by
  unfold validateName
  split
  · next hsafe =>
    split
    · next hnew => simp [hnew]
    · next unit' hnew =>
      simp only [guard_eq_ok, Except.ok.injEq, Prod.mk.injEq, hsafe, hnew, Option.some.injEq,
        true_and]
      constructor
      · rintro ⟨hfresh, rfl, rfl⟩
        exact ⟨rfl, hfresh, rfl⟩
      · rintro ⟨rfl, hfresh, rfl⟩
        exact ⟨hfresh, rfl, rfl⟩
  · next hrejected => simp [hrejected]

/-- The keys of a member list are distinct and new with respect to `seen`. -/
def Fresh (members : List (QuadletBundleMember names)) (seen : List (List Char)) : Prop :=
  (members.map QuadletBundleMember.key).Nodup ∧ ∀ member ∈ members, member.key ∉ seen

theorem Fresh.cons {member : QuadletBundleMember names} {members : List (QuadletBundleMember names)}
    {seen : List (List Char)} (hmember : member.key ∉ seen)
    (hmembers : Fresh members (member.key :: seen)) : Fresh (member :: members) seen := by
  obtain ⟨hdistinct, hnew⟩ := hmembers
  have habsent : member.key ∉ members.map QuadletBundleMember.key := by
    intro hmem
    obtain ⟨other, hother, hkey⟩ := List.mem_map.mp hmem
    exact hnew other hother (hkey ▸ List.mem_cons_self)
  refine ⟨List.nodup_cons.mpr ⟨habsent, hdistinct⟩, ?_⟩
  intro other hother
  rcases List.mem_cons.mp hother with rfl | hother
  · exact hmember
  · exact fun hseen => hnew other hother (List.mem_cons_of_mem _ hseen)

theorem collect_fresh {files : List (UnitFileName × String)} {seen : List (List Char)} {size : Nat}
    {members : List (QuadletBundleMember names)}
    (h : collect json names files seen size = .ok members) :
    members.length = files.length ∧ Fresh members seen := by
  induction files generalizing seen size members with
  | nil =>
    cases h
    exact ⟨rfl, List.nodup_nil, by simp⟩
  | cons file rest ih =>
    obtain ⟨⟨unit, seen'⟩, hname, h⟩ := bind_eq_ok.mp h
    obtain ⟨size', -, h⟩ := bind_eq_ok.mp h
    obtain ⟨tail, htail, h⟩ := bind_eq_ok.mp h
    cases h
    obtain ⟨-, -, hfresh, rfl⟩ := validateName_eq_ok.mp hname
    obtain ⟨hlength, hfreshTail⟩ := ih htail
    exact ⟨by rw [List.length_cons, List.length_cons, hlength], Fresh.cons hfresh hfreshTail⟩

theorem checkCount_eq_ok {count : Nat} (h : checkCount count = .ok ()) :
    1 ≤ count ∧ count ≤ maxMembers := (accept_eq_ok.mp h).1

theorem collectOutput_admissible {files : List (UnitFileName × String)}
    {members : List (QuadletBundleMember names)}
    (h : collectOutput json names files = .ok members) : Admissible members := by
  obtain ⟨_, hcount, h⟩ := bind_eq_ok.mp h
  obtain ⟨hnonempty, hbounded⟩ := checkCount_eq_ok hcount
  obtain ⟨hlength, hdistinct, -⟩ := collect_fresh h
  exact ⟨hlength ▸ hnonempty, hlength ▸ hbounded, hdistinct⟩

end Codec
end Boxferry.Bundle
