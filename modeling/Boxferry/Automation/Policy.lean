import Boxferry.Automation.Evidence
import Boxferry.Library.Results
import Boxferry.Model.Text
import Mathlib.Data.Finset.Sort
import Boxferry.Library.Lookup
import Boxferry.Library.Related

/-! # Validation contracts and policies

The checks of the untrusted documents at the workflow boundary. What depends on the Unicode tables or
the display of a text is a parameter. -/
namespace Boxferry.Automation
open Model
set_option autoImplicit false

/-- `ContractError`, by its text. -/
structure ContractError where
  text : String
deriving DecidableEq

/-- How Python displays a text, and which characters match `\w`. -/
structure PythonText where
  repr : String → String
  isWord : Char → Bool

abbrev Checked (α : Type) : Type := Except ContractError α

namespace Contracts

def require (condition : Bool) (text : String) : Checked Unit :=
  if condition then .ok () else .error ⟨text⟩

theorem require_eq_ok {condition : Bool} {text : String} {result : Unit} :
    require condition text = .ok result ↔ condition = true := by
  unfold require
  split
  · next h => exact ⟨fun _ => h, fun _ => rfl⟩
  · next h => exact ⟨fun herror => (nomatch herror), fun htrue => absurd htrue h⟩

/-- The items of a dictionary: each key once, with the value that it keeps. -/
def entries (pairs : List (String × Json)) : List (String × Json) :=
  (pairs.map Prod.fst).eraseDups.map fun key => (key, (Json.last? pairs key).getD .null)

def objectValue (value : Json) (label : String) : Checked (List (String × Json)) :=
  match value with
  | .object pairs => .ok (entries pairs)
  | _ => .error ⟨label ++ " must be an object with string keys"⟩

def nonemptyText : Json → Option String
  | .str text => if text = "" then none else some text
  | _ => none

def strings (value : Json) (label : String) (nonempty : Bool) : Checked (List String) :=
  match value with
  | .array items =>
    match items.mapM nonemptyText with
    | none => .error ⟨label ++ " must be an array of nonempty strings"⟩
    | some texts => do
      require (!(nonempty && texts.isEmpty)) (label ++ " may not be empty")
      require (decide texts.Nodup) (label ++ " may not contain duplicates")
      pure texts
  | _ => .error ⟨label ++ " must be an array of nonempty strings"⟩

def isSha (text : String) : Bool :=
  text.toList.length = 40 && text.toList.all fun ch => ch.isDigit || ('a' ≤ ch && ch ≤ 'f')

def exactSha (text label : String) : Checked String := do
  require (isSha text) (label ++ " must be an exact lowercase 40-character Git SHA")
  pure text

/-- `PurePosixPath(text).parts`, without the root. -/
def pathParts (text : String) : List String := (splitText '/' text).filter fun part => part ≠ "" && part ≠ "."

def relativePath (value : Json) (label : String) (pattern : Bool) : Checked String :=
  match nonemptyText value with
  | none => .error ⟨label ++ " must be a repository-relative POSIX path"⟩
  | some text => do
    require (!(containsChar text '\x00' || containsChar text '\\'))
      (label ++ " must be a repository-relative POSIX path")
    require (!(startsWith text "/" || (pathParts text).contains ".." || text == ".")) (label ++ " escapes the repository")
    require (pattern || !text.toList.any (· ∈ ['*', '?', '['])) (label ++ " is a path, not a pattern")
    pure text

end Contracts

/-! ## Validation policies

The policy of a repository: its jobs, the jobs of each profile, and the paths that select profiles.
What an accepted policy has checked is kept as one structure. -/
open Contracts

/-! ## Commands -/

structure Task where
  commands : List (List String)
  timeoutSeconds : Int
deriving DecidableEq

def shells : List String := ["sh", "bash", "dash", "zsh", "fish", "cmd", "powershell", "pwsh"]

/-- `Path(text).name` -/
def pathName (text : String) : String := (pathParts text).getLast?.getD ""

def argument : Json → Option String
  | .str text => if text = "" ∨ containsChar text '\x00' then none else some text
  | _ => none

def argumentVector : Json → Option (List String)
  | .array items => if items.isEmpty then none else items.mapM argument
  | _ => none

def checkShell (label : String) (argv : List String) : Checked Unit :=
  match argv with
  | executable :: rest =>
    if pathName executable ∈ shells then
      match rest with
      | [] => .error ⟨label ++ " permits repository scripts, not shell expressions"⟩
      | script :: _ => do
        require (!startsWith script "-") (label ++ " permits repository scripts, not shell expressions")
        let _ ← relativePath (.str script) (label ++ " script") false
        pure ()
    else pure ()
  | [] => pure ()

def command (label : String) (call : Json) : Checked (List String) :=
  match argumentVector call with
  | none => .error ⟨label ++ " must use nonempty, NUL-free argv arrays"⟩
  | some argv => do
    checkShell label argv
    pure argv

def commands (value : Json) (label : String) : Checked (List (List String)) :=
  match value with
  | .array [] => .error ⟨label ++ " must contain at least one argv array"⟩
  | .array calls => calls.mapM (command label)
  | _ => .error ⟨label ++ " must contain at least one argv array"⟩

/-! ## Policies -/

structure Policy where
  repository : String
  jobs : List String
  profileJobs : List (String × List String)
  publicDocumentationRoot : String
  fullDocumentationRoots : List String
  executableDocumentationRoots : List String
  executableDocumentationPaths : List String
  documentationExamplesManifest : Option String
  localCommands : List (String × List (List String))
  pathProfiles : List (String × List String)
  tasks : List (String × Task)
  path : String
deriving DecidableEq

namespace Policy

def profileNames (policy : Policy) : List String := policy.profileJobs.map Prod.fst

def selectProfile (policy : Policy) (text : PythonText) (selected : Finset String) (profile : String) :
    Checked (Finset String) :=
  match policy.profileJobs.lookup profile with
  | none => .error ⟨"unknown validation profile " ++ text.repr profile⟩
  | some jobs => .ok (selected ∪ jobs.toFinset)

def selectedJobs (policy : Policy) (text : PythonText) (profiles : List String) : Checked (Finset String) :=
  if profiles = ["full"] then .ok policy.jobs.toFinset
  else profiles.foldlM (policy.selectProfile text) ∅

end Policy

section Loading
variable (text : PythonText)

def requiredKeys : List String :=
  ["schema", "repository", "jobs", "profile_jobs", "public_documentation_root", "full_documentation_roots",
    "executable_documentation_roots", "executable_documentation_paths", "documentation_examples_manifest",
    "local_commands"]

def field (data : List (String × Json)) (key : String) : Json := (data.lookup key).getD .null

def checkKeys (data : List (String × Json)) : Checked Unit :=
  require (requiredKeys.all (fun key => key ∈ data.map Prod.fst) &&
      (data.map Prod.fst).all fun key => key ∈ requiredKeys ++ ["tasks", "path_profiles"])
    "validation policy has an unsupported key set"

def checkSchema : Json → Checked Unit
  | .int version => require (version = 2 || version = 3) "validation policy has an unsupported schema"
  | _ => .error ⟨"validation policy has an unsupported schema"⟩

/-- `[\w.-]+` -/
def isRepositoryPart (part : String) : Bool :=
  !part.isEmpty && part.toList.all fun ch => text.isWord ch || ch ∈ ['.', '-']

def checkRepository : Json → Checked String
  | .str name =>
    match splitText '/' name with
    | [owner, repository] =>
      if isRepositoryPart text owner && isRepositoryPart text repository then .ok name
      else .error ⟨"validation policy repository must be owner/name"⟩
    | _ => .error ⟨"validation policy repository must be owner/name"⟩
  | _ => .error ⟨"validation policy repository must be owner/name"⟩

/-- `[a-zA-Z0-9_-]+` -/
def isSafeName (name : String) : Bool :=
  !name.isEmpty && name.toList.all fun ch => ch.isAlphanum || ch ∈ ['_', '-']

def loadProfile (jobs : List String) (item : String × Json) : Checked (String × List String) := do
  require (!(item.1 ∈ ["full", "mixed"] || !isSafeName item.1)) "full/mixed profiles are reserved"
  let selected ← strings item.2 (item.1 ++ " jobs") true
  require (selected.all fun job => job ∈ jobs) (item.1 ++ " selects unknown jobs")
  pure (item.1, selected)

def loadLocalCommands (item : String × Json) : Checked (String × List (List String)) := do
  let calls ← commands item.2 (item.1 ++ " local commands")
  pure (item.1, calls)

/-- The documentation profile selects every job of the prose profile, and runs its commands. -/
def checkProse (profileJobs : List (String × List String)) (localCommands : List (String × List (List String))) :
    Checked Unit :=
  match profileJobs.lookup "prose", profileJobs.lookup "executable-docs" with
  | some prose, some executable => do
    require (prose.all fun job => job ∈ executable) "executable documentation must include prose jobs"
    let calls := (localCommands.lookup "executable-docs").getD []
    require (calls = (localCommands.lookup "full").getD [] ||
        ((localCommands.lookup "prose").getD []).all fun call => call ∈ calls)
      "executable documentation must include prose commands"
  | _, _ => .ok ()

def loadRoots (data : List (String × Json)) (key : String) : Checked (List String) := do
  let items ← strings (field data key) key false
  items.mapM fun item => relativePath (.str item) key false

def loadManifest : Json → Checked (Option String)
  | .null => .ok none
  | manifest => do
    let path ← relativePath manifest "documentation examples manifest" false
    pure (some path)

def loadPatterns (profileJobs : List (String × List String)) (item : String × Json) :
    Checked (String × List String) := do
  require (item.1 ∈ profileJobs.map Prod.fst) ("path profile " ++ text.repr item.1 ++ " has no job declaration")
  let patterns ← strings item.2 (item.1 ++ " patterns") true
  let patterns ← patterns.mapM fun pattern => relativePath (.str pattern) (item.1 ++ " path pattern") true
  pure (item.1, patterns)

def loadTimeout (name : String) : Json → Checked Int
  | .int timeout => do
    require (0 < timeout && timeout ≤ 7200) ("task " ++ text.repr name ++ " timeout must be in [1, 7200] seconds")
    pure timeout
  | _ => .error ⟨"task " ++ text.repr name ++ " timeout must be in [1, 7200] seconds"⟩

def loadTask (item : String × Json) : Checked (String × Task) := do
  let task ← objectValue item.2 ("task " ++ item.1)
  require ((task.map Prod.fst).all (fun key => key ∈ ["commands", "timeout_seconds"]) &&
      "commands" ∈ task.map Prod.fst)
    ("task " ++ text.repr item.1 ++ " has unknown or missing keys")
  let timeout ← loadTimeout text item.1 ((task.lookup "timeout_seconds").getD (.int 900))
  let calls ← commands (field task "commands") ("task " ++ item.1)
  pure (item.1, ⟨calls, timeout⟩)

/-- The policy of a file: what reading it as JSON gave, and its path. -/
def loadPolicy (path : String) (raw : Except String Json) : Checked Policy := do
  let raw ← raw.mapError fun error => ⟨"cannot load validation policy " ++ path ++ ": " ++ error⟩
  let data ← objectValue raw "validation policy"
  checkKeys data
  checkSchema (field data "schema")
  let repository ← checkRepository text (field data "repository")
  let jobs ← strings (field data "jobs") "policy jobs" true
  require (jobs.all isSafeName) "policy job names must be safe workflow identifiers"
  let profiles ← objectValue (field data "profile_jobs") "profile_jobs"
  let profileJobs ← profiles.mapM (loadProfile jobs)
  require (!profileJobs.isEmpty) "policy needs at least one selective profile"
  let localProfiles ← objectValue (field data "local_commands") "local_commands"
  let localCommands ← localProfiles.mapM loadLocalCommands
  require (((localCommands.map Prod.fst).all fun name => name ∈ "full" :: profileJobs.map Prod.fst) &&
      ("full" :: profileJobs.map Prod.fst).all fun name => name ∈ localCommands.map Prod.fst)
    "local command profiles must match profile_jobs plus full"
  checkProse profileJobs localCommands
  let fullRoots ← loadRoots data "full_documentation_roots"
  let executableRoots ← loadRoots data "executable_documentation_roots"
  let executablePaths ← loadRoots data "executable_documentation_paths"
  let publicRoot ← relativePath (field data "public_documentation_root") "public documentation root" false
  let manifest ← loadManifest (field data "documentation_examples_manifest")
  let patterns ← objectValue ((data.lookup "path_profiles").getD (.object [])) "path_profiles"
  let pathProfiles ← patterns.mapM (loadPatterns text profileJobs)
  let tasks ← objectValue ((data.lookup "tasks").getD (.object [])) "tasks"
  let tasks ← tasks.mapM (loadTask text)
  pure ⟨repository, jobs, profileJobs, publicRoot, fullRoots, executableRoots, executablePaths, manifest,
    localCommands, pathProfiles, tasks, path⟩

end Loading

/-! ## Accepted policies -/

/-- What the selection of jobs relies on. -/
structure Policy.Accepted (policy : Policy) : Prop where
  reserved : "full" ∉ policy.profileNames
  declared : ∀ profile jobs, policy.profileJobs.lookup profile = some jobs → ∀ job ∈ jobs, job ∈ policy.jobs
  prose : ∀ prose executable, policy.profileJobs.lookup "prose" = some prose →
    policy.profileJobs.lookup "executable-docs" = some executable → ∀ job ∈ prose, job ∈ executable

variable {text : PythonText} {path : String} {raw : Except String Json} {policy : Policy}
  {jobs : List String} {profiles : List (String × Json)} {profileJobs : List (String × List String)}

theorem loadProfile_ok {item : String × Json} {result : String × List String}
    (h : loadProfile jobs item = .ok result) : result.1 ≠ "full" ∧ ∀ job ∈ result.2, job ∈ jobs := by
  unfold loadProfile at h
  obtain ⟨⟨⟩, hname, h⟩ := Results.bind_eq_ok.mp h
  obtain ⟨selected, -, h⟩ := Results.bind_eq_ok.mp h
  obtain ⟨⟨⟩, hknown, h⟩ := Results.bind_eq_ok.mp h
  rw [require_eq_ok] at hname hknown
  rw [← Except.ok.inj h]
  refine ⟨?_, fun job hjob => ?_⟩
  · intro hfull
    dsimp only at hfull
    rw [hfull] at hname
    exact absurd hname (by decide)
  · exact of_decide_eq_true (List.all_eq_true.mp hknown job hjob)

theorem loadProfiles_ok (h : profiles.mapM (loadProfile jobs) = .ok profileJobs) :
    ∀ item ∈ profileJobs, item.1 ≠ "full" ∧ ∀ job ∈ item.2, job ∈ jobs := by
  rw [Results.mapM_eq_ok] at h
  intro item hitem
  obtain ⟨source, -, hsource⟩ := Related.exists_left h item hitem
  exact loadProfile_ok hsource

theorem checkProse_ok {localCommands : List (String × List (List String))} {prose executable : List String}
    (h : checkProse profileJobs localCommands = .ok ()) (hprose : profileJobs.lookup "prose" = some prose)
    (hexecutable : profileJobs.lookup "executable-docs" = some executable) : ∀ job ∈ prose, job ∈ executable := by
  unfold checkProse at h
  rw [hprose, hexecutable] at h
  obtain ⟨⟨⟩, hjobs, -⟩ := Results.bind_eq_ok.mp h
  rw [require_eq_ok] at hjobs
  exact fun job hjob => of_decide_eq_true (List.all_eq_true.mp hjobs job hjob)

theorem loadPolicy_accepted (h : loadPolicy text path raw = .ok policy) : policy.Accepted := by
  unfold loadPolicy at h
  obtain ⟨document, -, h⟩ := Results.bind_eq_ok.mp h
  obtain ⟨data, -, h⟩ := Results.bind_eq_ok.mp h
  obtain ⟨⟨⟩, -, h⟩ := Results.bind_eq_ok.mp h
  obtain ⟨⟨⟩, -, h⟩ := Results.bind_eq_ok.mp h
  obtain ⟨repository, -, h⟩ := Results.bind_eq_ok.mp h
  obtain ⟨jobs, -, h⟩ := Results.bind_eq_ok.mp h
  obtain ⟨⟨⟩, -, h⟩ := Results.bind_eq_ok.mp h
  obtain ⟨profiles, -, h⟩ := Results.bind_eq_ok.mp h
  obtain ⟨profileJobs, hprofiles, h⟩ := Results.bind_eq_ok.mp h
  obtain ⟨⟨⟩, -, h⟩ := Results.bind_eq_ok.mp h
  obtain ⟨localProfiles, -, h⟩ := Results.bind_eq_ok.mp h
  obtain ⟨localCommands, -, h⟩ := Results.bind_eq_ok.mp h
  obtain ⟨⟨⟩, -, h⟩ := Results.bind_eq_ok.mp h
  obtain ⟨⟨⟩, hprose, h⟩ := Results.bind_eq_ok.mp h
  obtain ⟨fullRoots, -, h⟩ := Results.bind_eq_ok.mp h
  obtain ⟨executableRoots, -, h⟩ := Results.bind_eq_ok.mp h
  obtain ⟨executablePaths, -, h⟩ := Results.bind_eq_ok.mp h
  obtain ⟨publicRoot, -, h⟩ := Results.bind_eq_ok.mp h
  obtain ⟨manifest, -, h⟩ := Results.bind_eq_ok.mp h
  obtain ⟨patterns, -, h⟩ := Results.bind_eq_ok.mp h
  obtain ⟨pathProfiles, -, h⟩ := Results.bind_eq_ok.mp h
  obtain ⟨taskItems, -, h⟩ := Results.bind_eq_ok.mp h
  obtain ⟨tasks, -, h⟩ := Results.bind_eq_ok.mp h
  have hall := loadProfiles_ok hprofiles
  rw [← Except.ok.inj h]
  refine ⟨fun hfull => ?_, fun profile jobs hlookup => ?_, fun prose executable => checkProse_ok hprose⟩
  · obtain ⟨item, hitem, hname⟩ := List.mem_map.mp hfull
    exact (hall item hitem).1 hname
  · exact (hall (profile, jobs) (Lookup.mem_of_lookup hlookup)).2

end Boxferry.Automation
