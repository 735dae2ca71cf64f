import Mathlib.Data.List.Lex
import Mathlib.Data.String.Basic
import Boxferry.Automation.Operational

/-! # Lock file age checks

The check of every package that a change introduces: the publication times its
registry gives, the hold of those times, or else of the first observation of the
artifact, and the report that also carries the operational pins. What the lock
files hold, and whether a change is first-party, is read by the given readers. -/
namespace Boxferry.Automation.Dependencies
open Calendar
set_option autoImplicit false

inductive Ecosystem where
  | cargo
  | cargoTool
  | npm
  | python
  deriving DecidableEq

def Ecosystem.text : Ecosystem → String
  | cargo => "cargo"
  | cargoTool => "cargo-tool"
  | npm => "npm"
  | python => "python"

structure Package where
  ecosystem : Ecosystem
  name : String
  version : String
  source : String
  integrity : List String
  deriving DecidableEq

namespace Package

def key (world : World) (package : Package) : String :=
  artifactKey world (([package.ecosystem.text, package.name, package.version, package.source].map
    jsonString) ++ ['[' :: ([','].intercalate (package.integrity.map jsonString) ++ [']'])])

/-- The fields in the order that packages are sorted by. -/
def fields (package : Package) : List String :=
  [package.ecosystem.text, package.name, package.version, package.source] ++ package.integrity

end Package

/-! ## Registry metadata -/

/-- A timestamp: `\d{4}-\d{2}-\d{2}T\d{2}:\d{2}:\d{2}(?:\.\d+)?(?:Z|[+-]\d{2}:\d{2})`. -/
def instant (now : Instant) (value : String) : Except Raised Instant :=
  match Calendar.read value.toList with
  | .malformed => .error (.rejected "publication/observation timestamp must be timezone-aware RFC 3339")
  | .invalid => .error (.rejected "malformed publication/observation timestamp")
  | .micros n => instantUntil now (.rejected "future publication/observation timestamp") n

/-- The same of any document, of which only a string can be a timestamp. -/
def instantOf (now : Instant) : Json → Except Raised Instant
  | .str value => instant now value
  | _ => .error (.rejected "publication/observation timestamp must be timezone-aware RFC 3339")

def sha256Of : Json → Except Raised String
  | .str value =>
    if isSha256 value then .ok value else .error (.rejected "missing or invalid SHA-256 integrity")
  | _ => .error (.rejected "missing or invalid SHA-256 integrity")

/-- `package.integrity[0]` -/
def firstIntegrity (package : Package) : Except Raised String :=
  match package.integrity with
  | digest :: _ => .ok digest
  | [] => .error (.indexError "tuple index out of range")

/-- The bytes that a strict base64 text of the given digits and padding decodes to. -/
def base64Length (digits padding : Nat) : Option Nat :=
  if (digits + padding) % 4 = 0 ∧ padding ≤ 2 then some (digits * 3 / 4) else none

def sriOf : Json → Except Raised String
  | .str value =>
    let unsupported : Except Raised String :=
      .error (.rejected "missing or unsupported npm artifact integrity")
    let rest := value.toList.drop 7
    let digits := rest.takeWhile fun ch => ch.isAlphanum || ch = '+' || ch = '/'
    let padding := rest.drop digits.length
    match [("sha256-", 32), ("sha384-", 48), ("sha512-", 64)].lookup
        (String.ofList (value.toList.take 7)) with
    | none => unsupported
    | some size =>
      if digits = [] ∨ ¬ padding.all (· = '=') then unsupported
      else match base64Length digits.length padding.length with
        | none => .error (.rejected "malformed npm artifact integrity")
        | some decoded =>
          if decoded ≠ size then .error (.rejected "incorrect npm integrity digest length") else .ok value
  | _ => .error (.rejected "missing or unsupported npm artifact integrity")

/-- `re.sub(r"[-_.]+", "-", name)` -/
def hyphened : List Char → List Char
  | [] => []
  | ch :: rest =>
    if ch = '-' ∨ ch = '_' ∨ ch = '.' then
      match hyphened rest with
      | '-' :: after => '-' :: after
      | after => '-' :: after
    else ch :: hyphened rest

def metadataUrl (world : World) (package : Package) : String :=
  let name := world.quote package.name
  let version := world.quote package.version
  match package.ecosystem with
  | .cargo | .cargoTool => "https://crates.io/api/v1/crates/" ++ name ++ "/" ++ version
  | .npm => "https://registry.npmjs.org/" ++ name ++ "/" ++ version
  | .python => "https://pypi.org/pypi/" ++ name ++ "/" ++ version ++ "/json"

def cargoTimes (package : Package) (data : Json) : Except Raised (List Json × List String) := do
  let record ← data.item "version"
  if ¬ ((← record.get "crate").isText package.name ∧ (← record.get "num").isText package.version) then
    throw (.rejected "Cargo metadata identity mismatch")
  let digest ← sha256Of (← record.get "checksum")
  if package.ecosystem = .cargo then
    if digest ≠ (← firstIntegrity package) then
      throw (.rejected "Cargo checksum differs from authoritative version metadata")
  let created ← record.get "created_at"
  if package.ecosystem = .cargoTool then
    if let .null := created then
      throw (.rejected "standalone Cargo tool requires canonical publication timestamp")
  return ([created], [digest])

def npmTimes (package : Package) (data : Json) : Except Raised (List Json × List String) := do
  if ¬ ((← data.get "name").isText package.name ∧ (← data.get "version").isText package.version) then
    throw (.rejected "npm metadata identity mismatch")
  let dist ← data.getOr "dist" (.object [])
  if (← sriOf (← dist.get "integrity")) ≠ (← firstIntegrity package) then
    throw (.rejected "npm integrity differs from authoritative version metadata")
  -- the exact-version document usually has no publication time
  let time ← data.getOr "time" (.object [])
  return ([← time.get package.version], package.integrity)

/-- The values an iteration yields: a dictionary yields its keys, a string its characters. -/
def iterated : Json → Except Raised (List Json)
  | .array items => .ok items
  | .object pairs => .ok (pairs.map fun pair => .str pair.1)
  | .str text => .ok (text.toList.map fun ch => .str (String.ofList [ch]))
  | other => .error (.rejected ("'" ++ other.typeName ++ "' object is not iterable"))

/-- The artifacts of a release by their digests; of two with one digest the last one counts. -/
def artifactsBy (urls : List Json) : Except Raised (List (String × Json)) :=
  urls.foldlM
    (fun found artifact => do
      let digests ← artifact.getOr "digests" (.object [])
      let digest ← digests.get "sha256"
      discard (digest.isAmong [])
      match digest with
      | .str text => return (text, artifact) :: found
      | _ => return found) []

def pythonTimes (world : World) (package : Package) (data : Json) :
    Except Raised (List Json × List String) := do
  let info ← data.item "info"
  let name := match ← info.getOr "name" (.str "") with
    | .str text => text
    | other => world.display other
  let normalized := world.lower (String.ofList (hyphened name.toList))
  if ¬ (normalized = package.name ∧ (← info.get "version").isText package.version) then
    throw (.rejected "PyPI metadata identity mismatch")
  let artifacts ← artifactsBy (← iterated (← data.item "urls"))
  if ¬ package.integrity.all fun digest => (artifacts.lookup digest).isSome then
    throw (.rejected "uv artifact digest differs from authoritative PyPI metadata")
  let times ← package.integrity.mapM fun digest =>
    ((artifacts.lookup digest).getD .null).get "upload_time_iso_8601"
  return (times, package.integrity)

/-- The publication times of a package's artifacts, an absent one null, and their digests. -/
def published (world : World) (package : Package) : Metered (List Json × List String) := do
  let raw ← bounded world (metadataUrl world package)
  if raw.size > maxMetadataBytes then
    throw (.rejected "version metadata exceeds byte bound or is not bytes")
  let data ← liftM (world.loads raw)
  liftM (match package.ecosystem with
    | .cargo | .cargoTool => cargoTimes package data
    | .npm => npmTimes package data
    | .python => pythonTimes world package data)

def Json.isNull : Json → Bool
  | .null => true
  | _ => false

/-- The instants of the times, none as soon as one is absent. -/
def present (now : Instant) (times : List Json) : Except Raised (List Instant) := do
  let present ← (times.filter fun value => !Json.isNull value).mapM (instantOf now)
  return if present.length = times.length then present else []

def metadata (world : World) (now : Instant) (package : Package) :
    Metered (String × List Instant × List String) := do
  let (times, integrity) ← published world package
  let timestamps ← liftM (present now times)
  return (metadataUrl world package, timestamps, integrity)

/-! ## Packages -/

/-- What a handler of one package reports of an exception. -/
def caughtText : Raised → Option String
  | .rejected text | .keyError text | .attributeError text | .indexError text => some text
  | _ => none

def outcome (world : World) (package : Package) : Outcome where
  ecosystem := package.ecosystem.text
  name := some package.name
  version := some package.version
  artifactKey := some (package.key world)
  status := .pass

def latest : Instant → List Instant → Instant
  | first, [] => first
  | first, next :: rest => latest (if first < next then next else first) rest

def checkPackage (world : World) (now : Instant) (exempt : Bool) (reason : String) (package : Package)
    (ledger : Ledger) (meter : Meter) : Except Raised (Outcome × Ledger × Meter) :=
  let result := outcome world package
  let interrupt := fun (result : Outcome) =>
    result.interrupt now "registry HTTP status " "metadata acquisition: " caughtText
  let hold := fun (result : Outcome) (observed : Instant) =>
    { result with evidenceAt := some (format observed) }.hold now observed
      "72-hour publication or artifact observation hold"
  match (metadata world now package).spend meter with
  | (.error raised, meter) => do
    let failed ← interrupt result raised
    return (failed, ledger, meter)
  | (.ok (url, timestamps, integrity), meter) =>
    let result := { result with metadataUrl := some url, integrity := some integrity }
    if exempt then
      .ok ({ result with ageEvidence := some "first-party-update-exemption", reason := some reason },
        ledger, meter)
    else
      match timestamps with
      | first :: rest => do
        let held ← hold { result with ageEvidence := some "registry-publication" } (latest first rest)
        return (held, ledger, meter)
      | [] =>
        match observe instant maxStateEntries "first-seen state capacity exhausted" (pure ())
            (package.key world) now ledger meter with
        | (.error raised, ledger, meter) => do
          let failed ← interrupt result raised
          return (failed, ledger, meter)
        | (.ok observed, ledger, meter) => do
          let held ← hold { result with ageEvidence := some "artifact-first-seen" } observed
          return (held, ledger, meter)

/-! ## The report -/

structure State where
  schemaVersion : Nat := 1
  firstSeen : Ledger

structure Readers (Root : Type) extends Operational.Readers Root where
  isDir : Root → Bool
  packages : Root → Except Raised (List Package)
  firstPartyScope : Root → Root → List Package → List Package → Option DependencyContext →
    Except Raised (Bool × String)

structure Report where
  schemaVersion : Nat := 1
  status : Status
  results : List Outcome := []
  retryAt : Option String := none
  retryEligible : Bool := false
  firstPartyExempt : Bool := false
  firstPartyReason : String := "not evaluated"
  state : State
  error : Option String := none
  operationalCoverageGaps : List Operational.Gap := []

/-- Copies the entries of a state, the oldest first, up to the first invalid one. -/
def copyEntries (now : Instant) : List (Sigma fun _ : String => String) → Ledger × Except Raised Unit
  | [] => (∅, .ok ())
  | ⟨key, value⟩ :: older =>
    match copyEntries now older with
    | (ledger, .error raised) => (ledger, .error raised)
    | (ledger, .ok ()) =>
      if ¬ isSha256 key then (ledger, .error (.rejected "missing or invalid SHA-256 integrity"))
      else match instant now value with
        | .error raised => (ledger, .error raised)
        | .ok _ => (ledger.insert key value, .ok ())

def copyState (now : Instant) : Option State → Ledger × Except Raised Unit
  | none => (∅, .ok ())
  | some state =>
    if state.schemaVersion ≠ 1 then (∅, .error (.rejected "invalid trusted first-seen state schema"))
    else if state.firstSeen.keys.length > maxStateEntries then
      (∅, .error (.rejected "first-seen state exceeds entry bound"))
    else copyEntries now state.firstSeen.entries

/-- The introduced packages, and whether they are exempt. -/
def introduced {Root : Type} (readers : Readers Root) (base head : Root)
    (context : Option DependencyContext) : Except Raised (List Package × Bool × String) := do
  let before ← readers.packages base
  let after ← readers.packages head
  let introduced := (after.filter fun package => package ∉ before).dedup.insertionSort
    fun first second => first.fields ≤ second.fields
  if introduced.length > maxIntroduced then
    throw (.rejected "introduced versions exceed request bound")
  let (exempt, reason) ← readers.firstPartyScope base head before after context
  return (introduced, exempt, reason)

/-- `str(error)` where every exception but an escaping one is caught. -/
def raisedText : Raised → Option String
  | .http code => some ("HTTP Error " ++ toString code)
  | .transport name => some name
  | raised => caughtText raised

/-- The earliest of the texts. -/
def earliest : List String → Option String
  | [] => none
  | text :: rest => match earliest rest with
    | none => some text
    | some other => some (if other < text then other else text)

def summary (results : List Outcome) : Status :=
  if results.any fun result => result.status = .failure then .failure
  else if results.any fun result => result.status = .waiting then .waiting
  else .pass

/-- The arguments of one call, with a present time that is aware. -/
structure Call (Root : Type) where
  base : Root
  head : Root
  now : Instant
  context : Option DependencyContext
  world : World
  readers : Readers Root

variable {Root : Type}

/-- Copies the state and finds the introduced packages; the entries copied so far stay. -/
def Call.prepare (call : Call Root) (state : Option State) :
    Ledger × Except Raised (List Package × Bool × String) :=
  if ¬ (call.readers.isDir call.base ∧ call.readers.isDir call.head) then
    (∅, .error (.rejected "dependency snapshot root is missing or is not a directory"))
  else
    match copyState call.now state with
    | (ledger, .error raised) => (ledger, .error raised)
    | (ledger, .ok ()) => (ledger, introduced call.readers call.base call.head call.context)

def checkDependencies (call : Call Root) (state : Option State) : Except Raised Report :=
  match call.prepare state with
  | (ledger, .error raised) => match raisedText raised with
    | some text => .ok { status := .failure, error := some text, state := { firstSeen := ledger } }
    | none => .error raised
  | (ledger, .ok (introduced, exempt, reason)) => do
    let (results, ledger, meter) ← each (checkPackage call.world call.now exempt reason) introduced
      ledger ⟨0, 0⟩
    let operational ← Operational.checkOperational call.world call.readers.toReaders call.base call.head
      call.now ledger call.context (maxIntroduced - introduced.length) maxStateEntries meter
    let results := results ++ operational.results
    let retries := (results.filter fun result => result.retryEligible).filterMap fun result => result.retryAt
    return {
      status := summary results
      results := results
      retryAt := earliest retries
      retryEligible := retries ≠ []
      firstPartyExempt := exempt
      firstPartyReason := reason
      state := { firstSeen := operational.ledger }
      operationalCoverageGaps := operational.coverageGaps }

end Boxferry.Automation.Dependencies
