import Boxferry.Automation.Evidence
import Mathlib.Data.List.Sort

/-! # Operational pins

The age check of image and runner pins: which introduced pins it observes, the
manifest an OCI pin must have, and the hold of each pin in the shared ledger. What
the snapshots hold is read by the given readers. -/
namespace Boxferry.Automation.Operational
open Calendar
set_option autoImplicit false

inductive Kind where
  | oci
  | runner
  | unsupportedRunner
  deriving DecidableEq

def Kind.text : Kind → String
  | oci => "oci"
  | runner => "runner"
  | unsupportedRunner => "unsupported-runner"

structure Pin where
  kind : Kind
  source : String
  name : String
  digest : String
  version : String
  path : String
  line : Nat
  deriving DecidableEq

namespace Pin

def key (world : World) (pin : Pin) : String :=
  artifactKey world (["boxferry-operational-v1", pin.kind.text, pin.source, pin.name, pin.digest].map
    jsonString)

def covered (pin : Pin) : Bool :=
  pin.kind = .runner || pin.source = "ghcr.io" ||
    [("quay.io", "libpod/alpine"), ("mcr.microsoft.com", "devcontainers/rust"),
      ("codeberg.org", "forgejo/forgejo")].contains (pin.source, pin.name)

def nativeDated (pin : Pin) : Bool :=
  ["docker.io", "index.docker.io", "registry-1.docker.io"].contains pin.source

end Pin

/-! ## Snapshots -/

/-- The features of one snapshot: what they are compared by, their pins, and their errors. -/
structure Features where
  signatures : AList fun _ : String => String
  valid : List Pin
  errors : AList fun _ : String => String

structure Readers (Root : Type) where
  inventory : Root → Except Raised (AList fun _ : String => Pin)
  features : Root → Except Raised Features
  contains : Root → String → Bool
  validateFeatureGraph : Root → Instant → Metered Unit

def maxFiles : Nat := 256

def feature : String := ".devcontainer/devcontainer.json"
def featureLock : String := ".devcontainer/devcontainer-lock.json"

def fixedPaths : List String :=
  ["automation/renovate-runtime.json", "scripts/renovate-tool.json"]
    ++ ["forgejo", "immich", "nextcloud", "observability", "paperless-ngx", "supabase"].map
      (fun name => "fixtures/conformance/" ++ name ++ "-application/images.tsv")
    ++ ["fixtures/conformance/podman-live/matrix.tsv", feature, featureLock, ".devcontainer/Dockerfile",
      "scripts/podman-live-conformance.sh"]

/-- `\.github/workflows/[A-Za-z0-9_.-]+\.ya?ml` -/
def workflow (path : String) : Bool :=
  match ".github/workflows/".toList.isPrefixOf path.toList, path.toList.drop 18 with
  | true, rest => [".yml", ".yaml"].any fun ending =>
      ending.toList.isSuffixOf rest && ending.length < rest.length
        && rest.all fun ch => ch.isAlphanum || ch = '_' || ch = '.' || ch = '-'
  | false, _ => false

/-- The owned paths among the given ones, with both feature files as soon as one is there. -/
def snapshotPaths (paths : List String) : Except Raised (List String) :=
  let owned := paths.filter fun path => fixedPaths.contains path || workflow path
  let result := if owned.contains feature || owned.contains featureLock then
      owned ++ [feature, featureLock] else owned
  if result.dedup.length > maxFiles then
    .error (.rejected "operational snapshot file count exceeds its bound")
  else .ok result.dedup

/-- The feature sources whose signatures differ. -/
def changedSources (before after : Features) : List String :=
  (before.signatures.keys ++ after.signatures.keys).filter fun source =>
    before.signatures.lookup source ≠ after.signatures.lookup source

def enter (world : World) (pins : AList fun _ : String => Pin) (pin : Pin) :
    AList fun _ : String => Pin :=
  pins.insert (pin.key world) pin

/-- The pins of the head that the base does not have, by their keys. -/
def introduced {Root : Type} (world : World) (readers : Readers Root) (base head : Root)
    (now : Instant) (context : Option DependencyContext) (remaining : Nat) : Metered (List Pin) := do
  if let some context := context then
    if ¬ repositories.contains context.repository then
      throw (.rejected "operational evidence repository is outside trusted ownership")
    for path in ← liftM (snapshotPaths context.changedPaths) do
      if context.changedPaths.contains path ∧ ¬ readers.contains base path
          ∧ ¬ readers.contains head path then
        throw (.rejected "changed operational input is missing from exact snapshots")
  let before ← liftM (readers.inventory base)
  let after ← liftM (readers.inventory head)
  let oldFeatures ← liftM (readers.features base)
  let newFeatures ← liftM (readers.features head)
  let changed := changedSources oldFeatures newFeatures
  for source in changed do
    if let some text := newFeatures.errors.lookup source then throw (.rejected text)
  if changed ≠ [] then readers.validateFeatureGraph head now
  -- an invalid old graph does not make its identities preexisting
  let oldValid := if changed ≠ [] ∧ oldFeatures.errors.keys ≠ [] then [] else oldFeatures.valid
  let before := oldValid.foldl (enter world) before
  let after := newFeatures.valid.foldl (enter world) after
  let keys := (after.keys.filter fun key => key ∉ before.keys).insertionSort (· ≤ ·)
  let pins := keys.filterMap fun key => after.lookup key
  if (pins.filter fun pin => pin.covered || pin.kind = .unsupportedRunner).length > remaining then
    throw (.rejected "combined introduced identities exceed their request bound")
  return pins

/-! ## Manifests -/

def mediaTypes : List String :=
  ["application/vnd.docker.distribution.manifest.list.v2+json",
    "application/vnd.docker.distribution.manifest.v2+json",
    "application/vnd.oci.image.index.v1+json", "application/vnd.oci.image.manifest.v1+json"]

def indexTypes : List String :=
  ["application/vnd.oci.image.index.v1+json",
    "application/vnd.docker.distribution.manifest.list.v2+json"]

/-- `sha256:[a-f0-9]{64}` -/
def isDigest (text : String) : Bool :=
  "sha256:".toList.isPrefixOf text.toList && isSha256 (String.ofList (text.toList.drop 7))

/-- A registry, a slash and a repository of nonempty components that are no dots. -/
def isRepository (text : List Char) : Bool :=
  let registry := text.takeWhile (· ≠ '/')
  let name := text.drop (registry.length + 1)
  let lower := fun (ch : Char) => ch.isDigit || ch.isLower || ch = '.' || ch = '-'
  registry ≠ [] && registry.all lower && name ≠ []
    && name.all (fun ch => lower ch || ch = '_' || ch = '/')
    && (name.splitOn '/').all fun part => part ≠ [] && part ≠ ['.'] && part ≠ ['.', '.']

/-- A document that has to be an object, without two pairs of one key. -/
def strictObject (world : World) (data : ByteArray) : Except Raised Json := do
  let value ← world.loads data
  if ¬ value.distinct then
    throw (.rejected "duplicate JSON object key in operational evidence")
  match value with
  | .object _ => return value
  | _ => throw (.rejected "operational JSON document must be an object")

def tokenProfiles : List (String × String × String) :=
  [("ghcr.io", "https://ghcr.io/token", "ghcr.io"),
    ("quay.io", "https://quay.io/v2/auth", "quay.io"),
    ("codeberg.org", "https://codeberg.org/v2/token", "container_registry")]

/-- The anonymous pull token of a public registry. -/
def pullToken (world : World) (pin : Pin) : Metered String := do
  match tokenProfiles.lookup pin.source with
  | none => throw (.rejected "reviewed public registry unexpectedly requires authentication")
  | some (endpoint, service) =>
    let scope := world.urlencode [("service", service), ("scope", "repository:" ++ pin.name ++ ":pull")]
    let response ← boundedRequest world (endpoint ++ "?" ++ scope) []
    let data ← liftM (strictObject world response)
    let access ← liftM (data.get "access_token")
    match ← liftM (data.getOr "token" access) with
    | .str token =>
      if token = "" ∨ token.length > 16384 ∨ token.toList.any (fun ch => ch = '\r' ∨ ch = '\n') then
        throw (.rejected "anonymous registry authentication returned invalid evidence")
      return token
    | _ => throw (.rejected "anonymous registry authentication returned invalid evidence")

/-- One descriptor of a manifest has a digest, a size and a media type. -/
def checkDescriptor (index : Bool) (descriptor : Json) : Except Raised Unit :=
  let malformed : Except Raised Unit :=
    .error (.rejected "registry manifest descriptor identity is malformed")
  match descriptor with
  | .object pairs =>
    match Json.last? pairs "digest", Json.last? pairs "size", Json.last? pairs "mediaType" with
    | some (.str digest), some (.int size), some (.str mediaType) =>
      if isDigest digest ∧ 0 ≤ size ∧ (index → mediaTypes.contains mediaType) then .ok ()
      else malformed
    | _, _, _ => malformed
  | _ => malformed

def verifyManifest (world : World) (pin : Pin) : Metered Unit := do
  if pin.kind ≠ .oci ∨ ¬ pin.covered then
    throw (.rejected "manifest identity is outside reviewed origin/repository policy")
  if ¬ (isRepository (pin.source ++ "/" ++ pin.name).toList ∧ isDigest pin.digest) then
    throw (.rejected "image needs a canonical repository and SHA-256 manifest")
  let url := "https://" ++ pin.source ++ "/v2/" ++ pin.name ++ "/manifests/" ++ pin.digest
  let accept := ("Accept", ", ".intercalate mediaTypes)
  let data ← tryCatch (boundedRequest world url [accept]) fun raised => do
    if raised ≠ .http 401 then throw raised
    let token ← pullToken world pin
    boundedRequest world url [accept, ("Authorization", "Bearer " ++ token)]
  if "sha256:" ++ hexdigest (world.sha256 data) ≠ pin.digest then
    throw (.rejected "registry manifest bytes differ from the pinned SHA-256")
  let manifest ← liftM (strictObject world data)
  let mediaType ← liftM (manifest.get "mediaType")
  let version ← liftM (manifest.get "schemaVersion")
  let unsupported := Raised.rejected "registry manifest has an unsupported schema or media type"
  match version with
  | .int 2 => if ¬ (← liftM (mediaType.isAmong mediaTypes)) then throw unsupported
  | _ => throw unsupported
  let index := indexTypes.any mediaType.isText
  match ← liftM (manifest.get (if index then "manifests" else "layers")) with
  | .array descriptors =>
    if index ∧ descriptors.isEmpty then
      throw (.rejected "registry manifest descriptors are malformed")
    let config ← liftM (manifest.get "config")
    liftM ((if index then descriptors else config :: descriptors).forM (checkDescriptor index))
  | _ => throw (.rejected "registry manifest descriptors are malformed")

/-! ## Holds -/

/-- The reader of the ledger's texts, which either evaluator wrote or the other one admitted. -/
def instant (now : Instant) (value : String) : Except Raised Instant :=
  let malformed := Raised.rejected "first-seen observation is malformed or in the future"
  match Calendar.read value.toList with
  | .micros n => if (now.micros : Int) < n then .error malformed else instantUntil now malformed n
  | _ => .error malformed

structure Gap where
  source : String
  path : String
  policy : Option String := none

/-- A pin with native dates, or one that no reviewed origin covers, is not observed. -/
def skipped (pin : Pin) : Bool := pin.nativeDated || (pin.kind = .oci && !pin.covered)

/-- The coverage gap that a pin leaves. -/
def gap (pin : Pin) : Option Gap :=
  if pin.nativeDated then none
  else if pin.kind = .oci ∧ ¬ pin.covered then
    some ⟨pin.source, pin.path, some "native-timestamp-required; no operational fallback"⟩
  else if ¬ pin.covered then some ⟨pin.source, pin.path, none⟩
  else none

def outcome (world : World) (pin : Pin) : Outcome where
  ecosystem := if pin.source = "github-hosted" then "github-runners" else "oci"
  name := some (pin.source ++ "/" ++ pin.name)
  version := some pin.version
  artifactKey := some (pin.key world)
  artifactImmutable := some (pin.kind = .oci)
  path := some pin.path
  line := some pin.line
  status := .pass
  ageEvidence := some (if pin.kind = .runner then "runner-label-first-seen" else "manifest-first-seen")

/-- The exceptions that the handler of one pin names by their texts. -/
def caughtText : Raised → Option String
  | .rejected text => some text
  | _ => none

def checkPin (world : World) (now : Instant) (stateLimit : Nat) (pin : Pin) (ledger : Ledger)
    (meter : Meter) : Except Raised (Outcome × Ledger × Meter) :=
  let result := outcome world pin
  let interrupt := result.interrupt now "registry manifest HTTP status " "manifest acquisition: " caughtText
  if ¬ pin.covered then do
    let failed ← interrupt (.rejected "operational source or runner grammar lacks reviewed fallback")
    return (failed, ledger, meter)
  else
    match observe instant stateLimit "shared first-seen state capacity exhausted"
        (if pin.kind = .oci then verifyManifest world pin else pure ()) (pin.key world) now ledger meter with
    | (.error raised, ledger, meter) => do
      let failed ← interrupt raised
      return (failed, ledger, meter)
    | (.ok observed, ledger, meter) => do
      let held ← { result with evidenceAt := some (format observed) }.hold now observed
        "72-hour operational observation hold"
      return (held, ledger, meter)

/-- The record of a failure before any pin is looked at. -/
def unread (now : Instant) (raised : Raised) : Except Raised Outcome :=
  let result : Outcome := { ecosystem := "operational", status := .failure }
  let acquisition := fun name => result.fail ("feature graph metadata acquisition: " ++ name)
  match raised with
  | .http code =>
    if retryable code then (acquisition "HTTPError").retry now else .ok (acquisition "HTTPError")
  | .transport name => (acquisition name).retry now
  | .rejected text => .ok (result.fail text)
  | .keyError text => .ok (result.fail text)
  | raised => .error raised

structure Checked where
  results : List Outcome
  coverageGaps : List Gap
  ledger : Ledger
  meter : Meter

def observed (pins : List Pin) : List Pin := pins.filter fun pin => !skipped pin

def checkOperational {Root : Type} (world : World) (readers : Readers Root) (base head : Root)
    (now : Instant) (ledger : Ledger) (context : Option DependencyContext) (remaining stateLimit : Nat)
    (meter : Meter) : Except Raised Checked :=
  match (introduced world readers base head now context remaining).spend meter with
  | (.error raised, meter) => do
    let failed ← unread now raised
    return ⟨[failed], [], ledger, meter⟩
  | (.ok pins, meter) => do
    let (results, ledger, meter) ← each (checkPin world now stateLimit) (observed pins) ledger meter
    return ⟨results, pins.filterMap gap, ledger, meter⟩

end Boxferry.Automation.Operational
