import Boxferry.Library.Calendar
import Boxferry.Library.JsonText
import Mathlib.Data.List.AList

/-! # Dependency and operational evidence

What the age checks share: what a reader or a request can raise, documents, the
metered requests, artifact digests, the timestamps of the first-seen ledger, and
the record of one introduced identity. -/
namespace Boxferry.Automation
open Calendar
set_option autoImplicit false

/-- What interrupts a check, as far as the handlers of the two evaluators tell the kinds apart. -/
inductive Raised where
  | http (code : Nat)
  /-- `URLError`, `TimeoutError` and `ConnectionError`, by name. -/
  | transport (name : String)
  /-- `DependencyError`, `OperationalError`, other `ValueError`s, `TypeError` and `OSError`. -/
  | rejected (text : String)
  | keyError (text : String)
  | attributeError (text : String)
  | indexError (text : String)
  /-- An exception that no handler names, such as `OverflowError`. -/
  | escaped (name : String)
  deriving DecidableEq

/-! ## Documents -/

inductive Json where
  | null
  | bool (value : Bool)
  | int (value : Int)
  | float (text : String)
  | str (text : String)
  | array (items : List Json)
  | object (pairs : List (String × Json))

namespace Json

/-- The value a dictionary keeps for a key: the last one of the text. -/
def last? (pairs : List (String × Json)) (key : String) : Option Json := pairs.reverse.lookup key

/-- `type(value).__name__` -/
def typeName : Json → String
  | null => "NoneType"
  | bool _ => "bool"
  | int _ => "int"
  | float _ => "float"
  | str _ => "str"
  | array _ => "list"
  | object _ => "dict"

/-- `value[key]` -/
def item (value : Json) (key : String) : Except Raised Json :=
  match value with
  | object pairs => match last? pairs key with
    | some value => .ok value
    | none => .error (.keyError ("'" ++ key ++ "'"))
  | array _ => .error (.rejected "list indices must be integers or slices, not str")
  | str _ => .error (.rejected "string indices must be integers, not 'str'")
  | value => .error (.rejected ("'" ++ value.typeName ++ "' object is not subscriptable"))

/-- `value.get(key, missing)` -/
def getOr (value : Json) (key : String) (missing : Json) : Except Raised Json :=
  match value with
  | object pairs => .ok ((last? pairs key).getD missing)
  | value => .error (.attributeError ("'" ++ value.typeName ++ "' object has no attribute 'get'"))

def get (value : Json) (key : String) : Except Raised Json := value.getOr key null

/-- Whether a value equals a string. -/
def isText (value : Json) (text : String) : Bool :=
  match value with
  | str other => other = text
  | _ => false

/-- Looks a value up in a set, which only takes hashable values. -/
def isAmong (value : Json) (texts : List String) : Except Raised Bool :=
  match value with
  | array _ => .error (.rejected "unhashable type: 'list'")
  | object _ => .error (.rejected "unhashable type: 'dict'")
  | value => .ok (texts.any value.isText)

mutual

/-- No object of the document has two pairs of one key. -/
def distinct : Json → Bool
  | array items => distinctItems items
  | object pairs => distinctPairs pairs && (pairs.map Prod.fst).Nodup
  | _ => true

def distinctItems : List Json → Bool
  | [] => true
  | item :: rest => item.distinct && distinctItems rest

def distinctPairs : List (String × Json) → Bool
  | [] => true
  | (_, value) :: rest => value.distinct && distinctPairs rest

end

end Json

/-! ## Requests -/

abbrev Headers := List (String × String)

/-- How the answers of the registries and the functions of the standard library behave. -/
structure World where
  /-- The `n`th admitted request; a response that is not bytes is none. -/
  fetch : Nat → String → Except Raised (Option ByteArray)
  fetchRequest : Nat → String → Headers → Except Raised (Option ByteArray)
  /-- `json.loads`, with every pair of an object. -/
  loads : ByteArray → Except Raised Json
  /-- `hashlib.sha256(value).digest()` -/
  sha256 : ByteArray → Vector UInt8 32
  /-- `str(value)` of a document that is not a string. -/
  display : Json → String
  lower : String → String
  /-- `urllib.parse.quote(text, safe="")` -/
  quote : String → String
  /-- `urllib.parse.urlencode(pairs)` -/
  urlencode : List (String × String) → String

/-- The budgets the requests of one check share. -/
structure Meter where
  consumed : Nat
  requests : Nat
  deriving DecidableEq

/-- A computation that may spend requests; what is spent stays spent when it is interrupted. -/
abbrev Metered (α : Type) := ExceptT Raised (StateM Meter) α

def Metered.spend {α : Type} (action : Metered α) (meter : Meter) : Except Raised α × Meter :=
  action meter

def maxMetadataBytes : Nat := 2 * 1024 * 1024
def maxTotalMetadataBytes : Nat := 16 * 1024 * 1024
def maxIntroduced : Nat := 256
def maxMetadataRequests : Nat := maxIntroduced

/-- Charges a response to the byte budget. -/
def account (response : Option ByteArray) : Metered ByteArray := do
  match response with
  | none => throw (.rejected "metadata fetch did not return bytes")
  | some value =>
    modify fun meter => { meter with consumed := meter.consumed + value.size }
    if value.size > maxMetadataBytes then throw (.rejected "metadata exceeds its byte bound")
    if (← get).consumed > maxTotalMetadataBytes then
      throw (.rejected "shared metadata byte budget exhausted")
    return value

/-- Admits one more request, and returns how many there were before. -/
def admitRequest : Metered Nat := do
  let admitted := (← get).requests
  if admitted ≥ maxMetadataRequests then throw (.transport "URLError")
  modify fun meter => { meter with requests := meter.requests + 1 }
  return admitted

def bounded (world : World) (url : String) : Metered ByteArray := do
  let admitted ← admitRequest
  let response ← liftM (world.fetch admitted url)
  account response

def boundedRequest (world : World) (url : String) (headers : Headers) : Metered ByteArray := do
  let admitted ← admitRequest
  let response ← liftM (world.fetchRequest admitted url headers)
  account response

/-! ## Artifact digests -/

def hexDigits (byte : UInt8) : List Char :=
  [JsonText.hexDigit (byte.toNat / 16), JsonText.hexDigit (byte.toNat % 16)]

def hexdigest (digest : Vector UInt8 32) : String := String.ofList (digest.toList.flatMap hexDigits)

def isLowerHex (ch : Char) : Bool := ch.isDigit || ('a' ≤ ch && ch ≤ 'f')

/-- `re.fullmatch(r"[a-f0-9]{64}", text)` -/
def isSha256 (text : String) : Bool := text.toList.length = 64 && text.toList.all isLowerHex

theorem hexDigit_isLowerHex {n : Nat} (h : n < 16) : isLowerHex (JsonText.hexDigit n) = true := by
  have hall : ∀ n, n < 16 → isLowerHex (JsonText.hexDigit n) = true := by decide
  exact hall n h

theorem isSha256_hexdigest (digest : Vector UInt8 32) : isSha256 (hexdigest digest) = true := by
  have hlength : ∀ bytes : List UInt8, (bytes.flatMap hexDigits).length = 2 * bytes.length := by
    intro bytes
    induction bytes with
    | nil => rfl
    | cons byte rest ih =>
      rw [List.flatMap_cons, List.length_append, ih, List.length_cons]
      simp only [hexDigits, List.length_cons, List.length_nil]
      omega
  have hhex : (digest.toList.flatMap hexDigits).all isLowerHex = true := by
    rw [List.all_eq_true]
    intro ch hch
    obtain ⟨byte, -, hbyte⟩ := List.mem_flatMap.mp hch
    have hsmall := byte.toNat_lt
    simp only [hexDigits, List.mem_cons, List.not_mem_nil, or_false] at hbyte
    rcases hbyte with rfl | rfl
    · exact hexDigit_isLowerHex (by omega)
    · exact hexDigit_isLowerHex (by omega)
  unfold isSha256 hexdigest
  rw [String.toList_ofList, hlength, hhex]
  simp

/-- The key of an identity: the digest of its compact JSON text. The fields are printable ASCII. -/
def artifactKey (world : World) (fields : List (List Char)) : String :=
  hexdigest (world.sha256
    (String.ofList ('[' :: ([','].intercalate fields ++ [']']))).toUTF8)

def jsonString (text : String) : List Char := JsonText.quoted text.toList

/-! ## The ledger -/

/-- When an artifact was first seen; its entries are the newest first. -/
abbrev Ledger := AList fun _ : String => String

def maxStateEntries : Nat := 4096

def hourMicros : Nat := 3600 * microsPerSecond
def holdMicros : Nat := 72 * hourMicros

/-- `value + timedelta`; past the calendar it overflows. -/
def plus (value : Instant) (delta : Nat) : Except Raised Instant :=
  match Instant.ofMicros (value.micros + delta) with
  | some later => .ok later
  | none => .error (.escaped "OverflowError")

def format (value : Instant) : String := String.ofList value.text

/-- The instant that a text with microseconds names, no later than the present. -/
def instantUntil (now : Instant) (future : Raised) (micros : Int) : Except Raised Instant :=
  match Instant.ofMicros micros with
  | none => .error (.escaped "OverflowError")
  | some value => if now < value then .error future else .ok value

/-- The observation of a key: the entry there is, or one of the present time when there is room
and the check passes. -/
def observe (parse : Instant → String → Except Raised Instant) (limit : Nat) (full : String)
    (verify : Metered Unit) (key : String) (now : Instant) (ledger : Ledger) (meter : Meter) :
    Except Raised Instant × Ledger × Meter :=
  match ledger.lookup key with
  | some text => (parse now text, ledger, meter)
  | none =>
    if ledger.keys.length ≥ limit then (.error (.rejected full), ledger, meter)
    else
      match verify.spend meter with
      | (.error raised, meter) => (.error raised, ledger, meter)
      | (.ok (), meter) => (parse now (format now), ledger.insert key (format now), meter)

/-! ## Results -/

inductive Status where
  | pass
  | waiting
  | failure
  deriving DecidableEq

/-- The record of one introduced identity; the fields a record leaves out are none. -/
structure Outcome where
  ecosystem : String
  name : Option String := none
  version : Option String := none
  artifactKey : Option String := none
  artifactImmutable : Option Bool := none
  path : Option String := none
  line : Option Nat := none
  status : Status
  retryAt : Option String := none
  retryEligible : Bool := false
  ageEvidence : Option String := none
  metadataUrl : Option String := none
  integrity : Option (List String) := none
  evidenceAt : Option String := none
  reason : Option String := none

def Outcome.fail (outcome : Outcome) (reason : String) : Outcome :=
  { outcome with status := .failure, reason := some reason }

/-- A failure that is worth another try an hour later. -/
def Outcome.retry (outcome : Outcome) (now : Instant) : Except Raised Outcome := do
  let later ← plus now hourMicros
  return { outcome with retryAt := some (format later), retryEligible := true }

/-- An HTTP status that another try may change. -/
def retryable (code : Nat) : Bool := code = 429 || code ≥ 500

/-- The record of an interrupted identity, where a handler names the exception. -/
def Outcome.interrupt (outcome : Outcome) (now : Instant) (http transport : String)
    (text : Raised → Option String) (raised : Raised) : Except Raised Outcome :=
  match raised with
  | .http code =>
    if retryable code then (outcome.fail (http ++ toString code)).retry now
    else .ok (outcome.fail (http ++ toString code))
  | .transport name => (outcome.fail (transport ++ name)).retry now
  | raised => match text raised with
    | some reason => .ok (outcome.fail reason)
    | none => .error raised

/-- The hold of an observed identity. -/
def Outcome.hold (outcome : Outcome) (now observed : Instant) (reason : String) :
    Except Raised Outcome := do
  let eligible ← plus observed holdMicros
  if now < eligible then
    return { outcome with
      status := .waiting
      retryAt := some (format eligible)
      retryEligible := true
      reason := some reason }
  return outcome

/-- Checks identities one after the other, with one ledger and one meter. -/
def each {α : Type} (check : α → Ledger → Meter → Except Raised (Outcome × Ledger × Meter)) :
    List α → Ledger → Meter → Except Raised (List Outcome × Ledger × Meter)
  | [], ledger, meter => .ok ([], ledger, meter)
  | identity :: rest, ledger, meter => do
    let (outcome, ledger, meter) ← check identity ledger meter
    let (outcomes, ledger, meter) ← each check rest ledger meter
    return (outcome :: outcomes, ledger, meter)

structure DependencyContext where
  actorLogin : String
  actorType : String
  repository : String
  baseRevision : String
  headRevision : String
  changedPaths : List String

def repositories : List String :=
  ["boxferry", "compose-lens", "podman-lens", "quadlet-lens", "docker-lens", "kubernetes-lens",
    "boxferry-website"].map fun name => "Strukturpiloten/" ++ name

end Boxferry.Automation
