import Mathlib.Algebra.GroupWithZero.Nat
import Mathlib.Data.String.Basic
import Boxferry.Automation.Policy

/-! # Validation plans

The planner of pull-request and queue candidates: changed paths select profiles, profiles select jobs,
and everything that is not understood selects the complete validation. What Git and the example manifest
answer, and the projection of a Markdown file to its code, are parameters. -/
namespace Boxferry.Automation
open Model Contracts
set_option autoImplicit false

/-! ## Path patterns -/

inductive GlobPart where
  | star
  | any
  | set (negated : Bool) (ranges : List (Char × Char))
  | literal (ch : Char)

/-- The ranges of a bracket expression. -/
def setRanges : List Char → List (Char × Char)
  | low :: '-' :: high :: rest => (low, high) :: setRanges rest
  | ch :: rest => (ch, ch) :: setRanges rest
  | [] => []

/-- The body of a bracket expression, negation mark included, and what follows it. -/
def setBody (chars : List Char) : Option (List Char × List Char) :=
  let mark := if chars.head? = some '!' then 1 else 0
  let start := if chars[mark]? = some ']' then mark + 1 else mark
  let body := (chars.drop start).takeWhile (· ≠ ']')
  match (chars.drop start).dropWhile (· ≠ ']') with
  | [] => none
  | _ :: rest => some (chars.take start ++ body, rest)

def setPart (body : List Char) : GlobPart :=
  match body with
  | '!' :: rest => .set true (setRanges rest)
  | body => .set false (setRanges body)

/-- The parts of a pattern; the first argument bounds their number. -/
def globParts : Nat → List Char → List GlobPart
  | 0, _ => []
  | _, [] => []
  | bound + 1, '*' :: rest => .star :: globParts bound rest
  | bound + 1, '?' :: rest => .any :: globParts bound rest
  | bound + 1, '[' :: rest =>
    match setBody rest with
    | some (body, after) => setPart body :: globParts bound after
    | none => .literal '[' :: globParts bound rest
  | bound + 1, ch :: rest => .literal ch :: globParts bound rest

def GlobPart.accepts : GlobPart → Char → Bool
  | .star, _ => false
  | .any, _ => true
  | .set negated ranges, ch => negated != ranges.any fun range => range.1 ≤ ch && ch ≤ range.2
  | .literal expected, ch => ch = expected

def matchParts : List GlobPart → List Char → Bool
  | [], chars => chars.isEmpty
  | .star :: parts, chars => chars.tails.any (matchParts parts)
  | part :: parts, ch :: chars => part.accepts ch && matchParts parts chars
  | _ :: _, [] => false

/-- `fnmatch.fnmatchcase` -/
def fnmatchcase (name pattern : String) : Bool :=
  matchParts (globParts pattern.toList.length pattern.toList) name.toList

/-! ## Code of a page -/

abbrev Contents : Type := List UInt8

def isBlankByte (byte : UInt8) : Bool := byte = 32 || byte = 9

/-- `\s` of a byte pattern. -/
def isSpaceByte (byte : UInt8) : Bool := byte ∈ [32, 9, 10, 13, 12, 11]

def isWordByte (byte : UInt8) : Bool :=
  (48 ≤ byte && byte ≤ 57) || (65 ≤ byte && byte ≤ 90) || (97 ≤ byte && byte ≤ 122) || byte = 95

def lowerByte (byte : UInt8) : UInt8 := if 65 ≤ byte && byte ≤ 90 then byte + 32 else byte

def fenceAt (line : Contents) : Bool :=
  let text := line.dropWhile isBlankByte
  [96, 96, 96].isPrefixOf text || [126, 126, 126].isPrefixOf text

def indentedAt (line : Contents) : Bool :=
  let blanks := line.takeWhile isBlankByte
  let spaces := (blanks.takeWhile (· = 32)).length
  (4 ≤ spaces || spaces < blanks.length) &&
    ((line.dropWhile isBlankByte).head?.any fun byte => !isSpaceByte byte)

def inlineAt : Contents → Bool
  | 96 :: rest =>
    let body := rest.takeWhile fun byte => byte ≠ 96 && byte ≠ 13 && byte ≠ 10
    !body.isEmpty && (rest.drop body.length).head? = some 96
  | _ => false

def tagAt (rest : Contents) : Bool :=
  [[60, 99, 111, 100, 101], [60, 112, 114, 101]].any fun tag =>
    tag.isPrefixOf (rest.map lowerByte) && !(rest.drop tag.length).head?.any isWordByte

/-- Whether the code pattern of a page matches here or later. -/
def hasCodeFrom : Bool → Contents → Bool
  | lineStart, [] => lineStart && (fenceAt [] || indentedAt [])
  | lineStart, byte :: rest =>
    (lineStart && (fenceAt (byte :: rest) || indentedAt (byte :: rest))) || inlineAt (byte :: rest) ||
      tagAt (byte :: rest) || hasCodeFrom (byte = 10) rest

def hasCode (contents : Contents) : Bool := hasCodeFrom true contents

/-- The code regions of a Markdown file, or nothing when their interpretation is uncertain. -/
abbrev CodeProjection : Type := Contents → Option (List (String × Contents))

def unchangedCode (codeProjection : CodeProjection) (contents : List Contents) : Bool :=
  match contents with
  | first :: second :: rest =>
    (codeProjection first).isSome &&
      (first :: second :: rest).all fun value => codeProjection value = codeProjection first
  | _ => false

/-! ## Profiles of a path -/

/-- The profiles whose patterns match a path. -/
def configuredProfiles (policy : Policy) (path : String) : Finset String :=
  ((policy.pathProfiles.filter fun item => item.2.any (fnmatchcase path)).map Prod.fst).toFinset

def endsWith (text ending : String) : Bool := ending.toList.isSuffixOf text.toList

def pathProfiles (codeProjection : CodeProjection) (path : String) (contents : List Contents) (policy : Policy)
    (pages : List String) (completePair : Bool) : Finset String :=
  if endsWith path "validation-policy.json" || path == "uv.lock" || endsWith path "/uv.lock" then {"full"}
  else if policy.fullDocumentationRoots.any (startsWith path) then {"full"}
  else
    let configured := configuredProfiles policy path
    let extra := configured.erase "prose"
    if path ∈ policy.executableDocumentationPaths ∨ path ∈ pages then {"executable-docs"} ∪ extra
    else if endsWith path ".md" && policy.executableDocumentationRoots.any (startsWith path) then
      {"executable-docs"} ∪ extra
    else if startsWith path policy.publicDocumentationRoot && endsWith path ".md" then
      {if contents.any hasCode then "executable-docs" else "prose"} ∪ extra
    else if "prose" ∈ configured ∧ (endsWith path ".md" = false ∨
        path ∉ (policy.pathProfiles.lookup "prose").getD [] ∨ completePair = false ∨
        unchangedCode codeProjection contents = false) then {"full"}
    else if configured = ∅ then {"full"} else configured

/-! ## Changes -/

inductive ChangeKind where
  | added
  | modified
  | deleted
  | typeChanged
  | renamed
  | copied
deriving DecidableEq

def ChangeKind.arity : ChangeKind → Nat
  | .renamed | .copied => 2
  | _ => 1

/-- One change of a comparison and the paths it names. -/
structure ChangeRecord where
  kind : ChangeKind
  names : List String
  complete : names.length = kind.arity
deriving DecidableEq

def maxPaths : Nat := 5000

def pathCount (records : List ChangeRecord) : Nat := (records.map fun record => record.names.length).sum

inductive Revision where
  | base
  | tested

/-- What Git and the example manifest answer for one comparison. -/
structure CandidateView where
  examplePages : Checked (List String)
  contents : Revision → String → Checked (Option Contents)
  containsHead : Checked Bool
  policyMatches : Checked Bool
  manifestMatches : Checked Bool

section Planning
variable (text : PythonText) (codeProjection : CodeProjection) (policy : Policy) (view : CandidateView)

/-- The contents of a path that a change says is there. -/
def expectedContents (revision : Revision) (label path : String) (expected : Bool) : Checked (Option Contents) :=
  if expected then do
    match ← view.contents revision path with
    | some contents => pure (some contents)
    | none => .error ⟨"missing " ++ label ++ " path " ++ text.repr path⟩
  else pure none

/-- The profiles of one path of a change. -/
def nameProfiles (pages : List String) (record : ChangeRecord) (item : String × Nat) : Checked (Finset String) := do
  let before ← expectedContents text view .base "baseline" item.1 (record.kind ≠ .added && item.2 = 0)
  let after ← expectedContents text view .tested "candidate" item.1
    (record.kind ≠ .deleted && item.2 = record.names.length - 1)
  pure (pathProfiles codeProjection item.1 (before.toList ++ after.toList) policy pages
    (record.kind = .modified && record.names.length = 1 && before.isSome && after.isSome))

def addName (pages : List String) (record : ChangeRecord) (profiles : Finset String) (item : String × Nat) :
    Checked (Finset String) := do
  let found ← nameProfiles text codeProjection policy view pages record item
  pure (profiles ∪ found)

/-- The profiles of a change; a changed object type has none. -/
def recordProfiles (pages : List String) (record : ChangeRecord) : Checked (Option (Finset String)) :=
  if record.kind = .typeChanged then pure none
  else do
    let profiles ← record.names.zipIdx.foldlM (addName text codeProjection policy view pages record) ∅
    pure (some profiles)

def scan (pages : List String) : List ChangeRecord → Finset String → Checked (Option (Finset String))
  | [], profiles => pure (some profiles)
  | record :: records, profiles => do
    match ← recordProfiles text codeProjection policy view pages record with
    | none => pure none
    | some found => scan pages records (profiles ∪ found)

/-- Profiles that are all known and do not ask for everything; the documentation profile subsumes prose. -/
def conclude (profiles : Finset String) : List String × List String :=
  if "full" ∈ profiles ∨ ¬ ∀ profile ∈ profiles, profile ∈ policy.profileNames then
    (["full"], ["source, dependency, policy, or unknown scope requires complete validation"])
  else
    ((if "executable-docs" ∈ profiles then profiles.erase "prose" else profiles).sort,
      ["known changed paths select the union of their profiles"])

def classify (records : List ChangeRecord) : Checked (List String × List String) := do
  require (pathCount records ≤ maxPaths) "Git comparison exceeded its changed-path bound"
  if records.isEmpty then pure (["full"], ["empty or oversized comparison requires complete validation"])
  else do
    let pages ← view.examplePages
    match ← scan text codeProjection policy view pages records ∅ with
    | none => pure (["full"], ["Git object type changed"])
    | some profiles => pure (conclude policy profiles)

/-! ## Plans -/

inductive PlanEvent where
  | pullRequest
  | mergeGroup
  | push
  | workflowDispatch
  | workflowCall
deriving DecidableEq

def PlanEvent.name : PlanEvent → String
  | .pullRequest => "pull_request"
  | .mergeGroup => "merge_group"
  | .push => "push"
  | .workflowDispatch => "workflow_dispatch"
  | .workflowCall => "workflow_call"

/-- The events whose changes are classified. -/
def PlanEvent.comparesCandidate (event : PlanEvent) : Bool := event ∈ [.pullRequest, .mergeGroup]

structure Comparison where
  event : String
  baseSha : String
  headSha : String
  testedSha : String
deriving DecidableEq

structure PlanRequest where
  event : PlanEvent
  baseSha : String
  headSha : String
  testedSha : String
  policySha : String
  forceFull : Bool

structure Plan where
  repository : String
  event : String
  baseSha : String
  headSha : String
  testedSha : String
  profile : String
  profiles : List String
  jobs : List (String × Bool)
  reasons : List String
  localFingerprint : Option String
deriving DecidableEq

def verifyPolicyRevision (policySha : String) (comparison : Comparison) : Checked Unit := do
  let expected ← exactSha policySha "trusted policy SHA"
  require (expected = comparison.baseSha) "PR/queue policy must come from the exact comparison base"
  let policyMatches ← view.policyMatches
  require policyMatches "policy contents differ from the trusted base revision"
  if policy.documentationExamplesManifest.isSome then do
    let manifestMatches ← view.manifestMatches
    require manifestMatches "example manifest differs from the trusted base revision"
  else pure ()

def compare (request : PlanRequest) : Checked Comparison := do
  let tested ← exactSha request.testedSha "tested SHA"
  if request.event.comparesCandidate then do
    let base ← exactSha request.baseSha "base SHA"
    let head ← exactSha request.headSha "head SHA"
    let comparison : Comparison := ⟨request.event.name, base, head, tested⟩
    verifyPolicyRevision policy view request.policySha comparison
    pure comparison
  else pure ⟨request.event.name, tested, tested, tested⟩

/-- The profiles of a candidate that has to contain its head. -/
def candidateProfiles (records : List ChangeRecord) : Checked (List String × List String) := do
  let containsHead ← view.containsHead
  require containsHead "tested revision does not contain the exact candidate head"
  classify text codeProjection policy view records

def chooseProfiles (request : PlanRequest) (records : List ChangeRecord) : List String × List String :=
  if request.forceFull || !request.event.comparesCandidate then
    (["full"], ["this event or explicit complete mode requires full validation"])
  else
    match candidateProfiles text codeProjection policy view records with
    | .ok chosen => chosen
    | .error error => (["full"], ["classification unavailable: " ++ error.text])

def profileLabel : List String → String
  | [profile] => profile
  | _ => "mixed"

def makePlan (request : PlanRequest) (records : List ChangeRecord) : Checked Plan := do
  let comparison ← compare policy view request
  let chosen := chooseProfiles text codeProjection policy view request records
  let selected ← policy.selectedJobs text chosen.1
  pure
    { repository := policy.repository
      event := comparison.event
      baseSha := comparison.baseSha
      headSha := comparison.headSha
      testedSha := comparison.testedSha
      profile := profileLabel chosen.1
      profiles := chosen.1
      jobs := policy.jobs.map fun job => (job, decide (job ∈ selected))
      reasons := chosen.2
      localFingerprint := none }

end Planning
end Boxferry.Automation
