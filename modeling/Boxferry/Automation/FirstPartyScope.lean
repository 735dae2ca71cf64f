import Boxferry.Automation.CargoLock
import Boxferry.Automation.Dependencies

/-! # First-party scope

Whether the packages that a change introduces are exempt from the age hold: the change
must be one of the versions of first-party dependencies in the Cargo manifests, and of
lock records in the closures of these dependencies. -/
namespace Boxferry.Automation.FirstParty
open Results Worklist Dependencies
set_option autoImplicit false

/-! ## Snapshots -/

/-- The regular files of a source tree by their paths. -/
structure Snapshot (Content : Type) where
  files : List (String × Content)

/-- The reading of the files, and the order in which a set is iterated. The other lock
files and the tool declarations are read by any functions of what they read. -/
structure World (α Content : Type) extends Runtime α where
  toml : Content → Except Failure (Table α)
  npm : Content → Except Failure (List Package)
  uv : Content → Except Failure (List Package)
  /-- The declared tools and their versions, when the file of their declarations is there. -/
  declarations : Snapshot Content → Except Failure (List (String × String))
  strings : List String → List String
  strings_perm : ∀ list, (strings list).Perm list
  identities : List (Option Nat × Option Nat) → List (Option Nat × Option Nat)
  identities_perm : ∀ list, (identities list).Perm list

section
variable {α Content : Type}

def Snapshot.file (snapshot : Snapshot Content) (path : String) : Option Content := snapshot.files.lookup path

/-- `_toml` of a path whose last component is given. -/
def Snapshot.toml (world : World α Content) (snapshot : Snapshot Content) (path name : String) :
    Except Failure (Table α) :=
  match snapshot.file path with
  | some content => world.toml content
  | none => .error (dependencyError ("expected a regular file: " ++ name))

/-! ## Inventory -/

def cratesSource : String := "registry+https://github.com/rust-lang/crates.io-index"

def isNameChar (ch : Char) : Bool := ch.isAlphanum || ch ∈ ['@', '_', '.', '+', '/', '-']

/-- `_name`: a text of letters, digits and the marks of registry names, not empty. -/
def nameOf : Value α → Except Failure String
  | .text value =>
    if value.toList ≠ [] ∧ value.toList.all isNameChar then .ok value
    else .error (dependencyError "invalid registry package name or version")
  | _ => .error (dependencyError "invalid registry package name or version")

def isHexChar (ch : Char) : Bool := ch.isDigit || ('a' ≤ ch && ch ≤ 'f')

/-- A text of as many lowercase hexadecimal digits. -/
def isHexOf (length : Nat) (value : String) : Bool :=
  value.toList.length == length && value.toList.all isHexChar

def checksumOf : Option (Value α) → Except Failure String
  | some (.text value) =>
    if isHexOf 64 value then .ok value else .error (dependencyError "missing or invalid SHA-256 integrity")
  | _ => .error (dependencyError "missing or invalid SHA-256 integrity")

/-- The registry package of one item of the lock file; other items are none. -/
def cargoPackage (runtime : Runtime α) : Value α → Except Failure (Option Package)
  | .table entries =>
    match Table.get entries "source" with
    | none => .ok none
    | some source =>
      if isText source cratesSource then do
        let name ← runtime.item entries "name"
        let name ← nameOf name
        let version ← runtime.item entries "version"
        let version ← nameOf version
        let checksum ← checksumOf (Table.get entries "checksum")
        return some ⟨.cargo, name, version, cratesSource, [checksum]⟩
      else .error (dependencyError "only the canonical crates.io Cargo registry is supported")
  | value => .error (runtime.misuse (.attribute value "get"))

def cargoPackages (world : World α Content) (content : Content) : Except Failure (List Package) := do
  let lock ← world.toml content
  let items ← world.iterate ((lock.get "package").getD (.array []))
  let packages ← items.mapM (cargoPackage world.toRuntime)
  return packages.reduceOption

/-- The packages of a lock file when it is there. -/
def parsed (snapshot : Snapshot Content) (path : String) (parser : Content → Except Failure (List Package)) :
    Except Failure (List Package) :=
  match snapshot.file path with
  | some content => parser content
  | none => .ok []

def toolPackage (tool : String × String) : Package := ⟨.cargoTool, tool.1, tool.2, cratesSource, []⟩

def maxPackages : Nat := 4096

/-- The set of all packages that the files of a snapshot name. -/
def packages (world : World α Content) (snapshot : Snapshot Content) : Except Failure (List Package) := do
  let cargo ← parsed snapshot "Cargo.lock" (cargoPackages world)
  let npm ← parsed snapshot "package-lock.json" world.npm
  let devcontainer ← parsed snapshot "automation/devcontainer/package-lock.json" world.npm
  let uv ← parsed snapshot "uv.lock" world.uv
  let automation ← parsed snapshot "automation/uv.lock" world.uv
  let tools ← world.declarations snapshot
  let found := (cargo ++ npm ++ devcontainer ++ uv ++ automation ++ tools.map toolPackage).dedup
  if maxPackages < found.length then
    .error (dependencyError "lock graph and standalone Cargo tools exceed package bound")
  else .ok found

/-! ## Manifests -/

/-- A path that `crates/**/Cargo.toml` matches. -/
def isCrateManifest (path : String) : Bool :=
  "crates/".toList.isPrefixOf path.toList && "/Cargo.toml".toList.isSuffixOf path.toList

def maxManifests : Nat := 128

def manifestPaths (snapshot : Snapshot Content) : List String :=
  (if (snapshot.file "Cargo.toml").isSome then ["Cargo.toml"] else []) ++
    ((snapshot.files.map Prod.fst).filter isCrateManifest)

def manifests (world : World α Content) (snapshot : Snapshot Content) :
    Except Failure (List (String × Table α)) :=
  if maxManifests < (manifestPaths snapshot).length then
    .error (dependencyError "Cargo manifest count exceeds bound")
  else (manifestPaths snapshot).mapM fun path => do
    let table ← snapshot.toml world path "Cargo.toml"
    return (path, table)

/-! ## The scope -/

def sameSet {β : Type} [DecidableEq β] (left right : List β) : Bool :=
  left.all (fun item => item ∈ right) && right.all fun item => item ∈ left

def tools (packages : List Package) : List Package :=
  packages.filter fun package => package.ecosystem = .cargoTool

/-- The versions that the packages of a crate have. -/
def versionsOf (packages : List Package) (name : String) : List String :=
  (packages.filter fun package => package.ecosystem = .cargo ∧ package.name = name).map Package.version

def isTransition (before after : List Package) (name : String) : Bool :=
  (versionsOf before name).length == 1 && (versionsOf after name).length == 1 &&
    versionsOf before name != versionsOf after name

variable [BEq α]

/-- The manifests that differ. -/
def changedManifests (old new : List (String × Table α)) : List (String × Table α × Table α) :=
  old.filterMap fun entry =>
    match new.lookup entry.1 with
    | some other => if (Value.table entry.2).same (.table other) then none else some (entry.1, entry.2, other)
    | none => none

def updatedNames (world : World α Content) (changed : List (String × Table α × Table α)) :
    Except Failure (List String) := do
  let names ← (world.strings (changed.map Prod.fst)).mapM fun path =>
    match changed.lookup path with
    | some (before, after) => manifestUpdates (.table before) (.table after) []
    | none => .ok []
  return names.flatten

/-- The identities of both locks, each with the records that have it. -/
def identityPairs (old new : List (Record α)) : List (Option Nat × Option Nat) :=
  (List.range old.length).map (fun index =>
    (some index, (List.range new.length).find? fun other =>
      match old[index]?, new[other]? with
      | some record, some found => sameIdentity record found
      | _, _ => false)) ++
  ((List.range new.length).filter fun other =>
    old.all fun record =>
      match new[other]? with
      | some found => !sameIdentity record found
      | none => false).map fun other => (none, some other)

def sameRecord (old new : List (Record α)) (pair : Option Nat × Option Nat) : Bool :=
  match pair.1.bind (old[·]?), pair.2.bind (new[·]?) with
  | some record, some other => (Value.table record.item).same (.table other.item)
  | _, _ => false

/-- Why a changed record is outside of the closures. -/
def outside (old new : List (Record α)) (oldClosure newClosure : List Nat) (pair : Option Nat × Option Nat) :
    Option String :=
  if sameRecord old new pair then none
  else if pair.1.any fun index => index ∉ oldClosure then
    some "lock maintenance is outside the old first-party closure"
  else if pair.2.any fun index => index ∉ newClosure then
    some "lock maintenance is outside the new first-party closure"
  else none

def isolation (world : World α Content) (fuel : Nat) (base head : Snapshot Content) (before after : List Package)
    (changed : List (String × Table α × Table α)) : Option (Except Failure (Bool × String)) :=
  match updatedNames world changed with
  | .error failure => some (.error failure)
  | .ok names =>
    if names.any fun name => !isTransition before after name then
      some (.ok (false, "first-party crates.io version transition is absent or ambiguous"))
    else
      match cargoClosure world.toRuntime fuel (base.toml world "Cargo.lock" "Cargo.lock") names with
      | none => none
      | some (.error failure) => some (.error failure)
      | some (.ok (oldClosure, old)) =>
        match cargoClosure world.toRuntime fuel (head.toml world "Cargo.lock" "Cargo.lock") names with
        | none => none
        | some (.error failure) => some (.error failure)
        | some (.ok (newClosure, new)) =>
          match (world.identities (identityPairs old new)).findSome? (outside old new oldClosure newClosure) with
          | some reason => some (.ok (false, reason))
          | none => some (.ok (true, "isolated first-party crates.io update and its dependency closure"))

/-- Turns a failure that the check catches into a reason. -/
def unavailable : Except Failure (Bool × String) → Except Failure (Bool × String)
  | .ok verdict => .ok verdict
  | .error failure =>
    if failure.caught then
      .ok (false, "first-party isolation proof unavailable: " ++ failure.typeName ++ ": " ++ failure.text)
    else .error failure

def firstPartyScope (world : World α Content) (fuel : Nat) (base head : Snapshot Content)
    (before after : List Package) (context : Option DependencyContext) :
    Option (Except Failure (Bool × String)) :=
  if !sameSet (tools before) (tools after) then
    some (.ok (false, "standalone Cargo tool changes retain their own third-party age hold"))
  else
    match context with
    | none => some (.ok (false, "no trusted isolated pull-request context"))
    | some context =>
      if context.actorLogin ≠ "renovate[bot]" ∨ context.actorType ≠ "Bot" then
        some (.ok (false, "actor is not the trusted Renovate application"))
      else if context.repository ∉ repositories ∨
          ¬ (isHexOf 40 context.baseRevision ∧ isHexOf 40 context.headRevision) then
        some (.ok (false, "context lacks an allowed repository and immutable revisions"))
      else
        match manifests world base, manifests world head with
        | .error failure, _ => some (.error failure)
        | _, .error failure => some (.error failure)
        | .ok old, .ok new =>
          if !sameSet (old.map Prod.fst) (new.map Prod.fst) then some (.ok (false, "manifest set changed"))
          else
            let changed := changedManifests old new
            if changed = [] ∨ !sameSet context.changedPaths (changed.map Prod.fst ++ ["Cargo.lock"]) then
              some (.ok (false, "update is not isolated to first-party Cargo manifests and lockfile"))
            else (isolation world fuel base head before after changed).map unavailable

end
end Boxferry.Automation.FirstParty
