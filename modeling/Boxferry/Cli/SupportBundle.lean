import Boxferry.Library.Folders

/-! # Publishing a support bundle

A bundle is written to a temporary file of its folder and then linked under its name. The
generated name is the first candidate that is free, unless no temporary name of that
candidate is: the error of this is not told from that of a taken candidate. -/
namespace Boxferry.Cli
open Directories (Bytes ErrorKind FileType IoError)
open Folders
set_option autoImplicit false

/-! ## Temporary files -/

/-- The folder, and the counter that temporary names are numbered by. -/
structure Host where
  disk : Disk
  counter : Nat

def nextCounter (counter : Nat) : Nat := (counter + 1) % 2 ^ 64

/-- The file that is removed unless it was. -/
structure SupportBundleTemporary where
  path : Option String

namespace SupportBundleTemporary

def temporaryName (process : Nat) (name : String) (counter : Nat) : String :=
  "." ++ (name ++ (".boxferry-" ++ toString process ++ "-" ++ toString counter ++ ".tmp"))

def noUniqueName : IoError :=
  ⟨.alreadyExists, some "could not reserve a unique support-bundle temporary path"⟩

/-- `create`, with the number of names it may still try. -/
def create (faults : Faults) (process : Nat) (name : String) : Nat → Host → Except IoError String × Host
  | 0, host => (.error noUniqueName, host)
  | tries + 1, host =>
    let temporary := temporaryName process name host.counter
    match createNew faults temporary host.disk with
    | (.ok (), disk) => (.ok temporary, ⟨disk, nextCounter host.counter⟩)
    | (.error error, disk) =>
      if error.kind = .alreadyExists then create faults process name tries ⟨disk, nextCounter host.counter⟩
      else (.error error, ⟨disk, nextCounter host.counter⟩)

def removePath (temporary : SupportBundleTemporary) (disk : Disk) : Disk :=
  match temporary.path with
  | some path => removeFile path disk
  | none => disk

/-- The guard has no path left after it removed its file. -/
def remove (temporary : SupportBundleTemporary) (disk : Disk) : SupportBundleTemporary × Disk :=
  (⟨none⟩, temporary.removePath disk)

def drop (temporary : SupportBundleTemporary) (disk : Disk) : Disk := temporary.removePath disk

end SupportBundleTemporary

open SupportBundleTemporary

/-! ## Publication -/

section Publication
variable (faults : Faults) (process : Nat)

def parentNotDirectory : IoError :=
  ⟨.invalidInput, some "support-bundle parent must be an existing non-symlink directory"⟩

def noFileName : IoError := ⟨.invalidInput, some "support-bundle path must name a file"⟩

/-- What is done once the temporary file is open. -/
def fillAndLink (temporary name : String) (bytes : Bytes) (disk : Disk) : Answer Unit :=
  let guarded : SupportBundleTemporary := ⟨some temporary⟩
  match writeAll faults temporary bytes disk with
  | (.error error, disk) => (.error error, guarded.drop disk)
  | (.ok (), disk) =>
    match syncAll faults disk with
    | (.error error, disk) => (.error error, guarded.drop disk)
    | (.ok (), disk) =>
      match hardLink faults temporary name disk with
      | (.error error, disk) => (.error error, guarded.drop disk)
      | (.ok (), disk) =>
        let (removed, disk) := guarded.remove disk
        (.ok (), removed.drop disk)

def publishNewFile (fileName : Option String) (bytes : Bytes) (host : Host) : Except IoError Unit × Host :=
  match symlinkMetadata faults host.disk with
  | (.error error, disk) => (.error error, ⟨disk, host.counter⟩)
  | (.ok fileType, disk) =>
    if fileType ≠ .directory then (.error parentNotDirectory, ⟨disk, host.counter⟩)
    else match fileName with
    | none => (.error noFileName, ⟨disk, host.counter⟩)
    | some name =>
      match create faults process name 128 ⟨disk, host.counter⟩ with
      | (.error error, host) => (.error error, host)
      | (.ok temporary, host) =>
        let (result, disk) := fillAndLink faults temporary name bytes host.disk
        (result, ⟨disk, host.counter⟩)

/-- The archive is what building it from the report and the evidence gives. -/
def writeSupportBundle (name : String) (archive : Except IoError Bytes) (host : Host) :
    Except IoError Unit × Host :=
  match archive with
  | .error error => (.error error, host)
  | .ok bytes => publishNewFile faults process (some name) bytes host

/-! ## Generated names -/

structure ReportTime where
  year : Int
  month : Nat
  day : Nat
  hour : Nat
  minute : Nat
  second : Nat

def paddedText (width n : Nat) : String :=
  String.ofList (List.replicate (width - (toString n).length) '0') ++ toString n

def yearText : Int → String
  | .ofNat year => paddedText 4 year
  | .negSucc year => "-" ++ paddedText 3 (year + 1)

def collisionSuffix (collision : Nat) : String := if collision = 0 then "" else "-" ++ paddedText 2 collision

def errorReportFilename (time : ReportTime) (collision : Nat) : String :=
  "boxferry-error-report-" ++ yearText time.year ++ "-" ++ paddedText 2 time.month ++ "-" ++
    paddedText 2 time.day ++ "_" ++ paddedText 2 time.hour ++ "-" ++ paddedText 2 time.minute ++ "-" ++
    paddedText 2 time.second ++ (collisionSuffix collision ++ ".zip")

def maxErrorReportCollisions : Nat := 99

def candidates (time : ReportTime) : List String :=
  (List.range (maxErrorReportCollisions + 1)).map (errorReportFilename time)

def exhausted : IoError :=
  ⟨.alreadyExists,
    some "could not publish a unique error report after exhausting all 100 same-second candidates"⟩

/-- The loop over the candidate names. -/
def writeFirst (archive : Except IoError Bytes) : List String → Host → Except IoError String × Host
  | [], host => (.error exhausted, host)
  | name :: names, host =>
    match writeSupportBundle faults process name archive host with
    | (.ok (), host) => (.ok name, host)
    | (.error error, host) =>
      if error.kind = .alreadyExists then writeFirst archive names host else (.error error, host)

/-! ## The folder of reports -/

def outerNotDirectory : IoError :=
  ⟨.invalidInput, some "error-report directory parent must be an existing non-symlink directory"⟩

def reportsNotDirectory : IoError :=
  ⟨.invalidInput, some "error-report directory must be an existing non-symlink directory"⟩

/-- The configured folder is created when it is missing and `outer` says that its parent is a folder. -/
def ensureConfigured (outer : Except IoError FileType) (disk : Disk) : Answer Unit :=
  match symlinkMetadata faults disk with
  | (.ok _, disk) => (.ok (), disk)
  | (.error error, disk) =>
    if error.kind = .notFound then
      match outer with
      | .error error => (.error error, disk)
      | .ok fileType => if fileType ≠ .directory then (.error outerNotDirectory, disk) else createDir faults disk
    else (.error error, disk)

/-- A folder is configured by a path, which is absolute or not. -/
def selectDirectory (configured : Option Bool) (outer : Except IoError FileType)
    (currentDirectory : Except IoError Unit) (disk : Disk) : Answer Unit :=
  match configured, currentDirectory with
  | some true, _ => ensureConfigured faults outer disk
  | some false, .ok () => ensureConfigured faults outer disk
  | some false, .error error => (.error error, disk)
  | none, result => (result, disk)

def resolveErrorReportDirectory (configured : Option Bool) (outer : Except IoError FileType)
    (currentDirectory : Except IoError Unit) (disk : Disk) : Answer Unit :=
  match selectDirectory faults configured outer currentDirectory disk with
  | (.error error, disk) => (.error error, disk)
  | (.ok (), disk) =>
    match symlinkMetadata faults disk with
    | (.error error, disk) => (.error error, disk)
    | (.ok fileType, disk) =>
      if fileType ≠ .directory then (.error reportsNotDirectory, disk) else canonicalize faults disk

/-- What the call is given: the configuration, its surroundings and the archive. -/
structure ReportRequest where
  configured : Option Bool
  outer : Except IoError FileType
  currentDirectory : Except IoError Unit
  clock : Except IoError ReportTime
  archive : Except IoError Bytes

def writeGeneratedErrorReport (request : ReportRequest) (host : Host) : Except IoError String × Host :=
  match resolveErrorReportDirectory faults request.configured request.outer request.currentDirectory
      host.disk with
  | (.error error, disk) => (.error error, ⟨disk, host.counter⟩)
  | (.ok (), disk) =>
    match request.clock with
    | .error error => (.error error, ⟨disk, host.counter⟩)
    | .ok time => writeFirst faults process request.archive (candidates time) ⟨disk, host.counter⟩

end Publication

/-! ## Reservation -/

/-- Whether one of the next temporary names of a name is free, and the counter after it. -/
def reserve (entries : Entries) (process : Nat) (name : String) : Nat → Nat → Bool × Nat
  | 0, counter => (false, counter)
  | tries + 1, counter =>
    if (entries (temporaryName process name counter)).isNone then (true, nextCounter counter)
    else reserve entries process name tries (nextCounter counter)

theorem temporaryName_ne {process counter : Nat} {name : String} : temporaryName process name counter ≠ name := by
  intro hsame
  have hlength := congrArg (fun text => text.toList.length) hsame
  simp only [temporaryName, String.toList_append, List.length_append] at hlength
  have hdot : (".".toList).length = 1 := by decide
  omega

variable (faults : Faults) (process : Nat) (name : String) (bytes : Bytes) {entries : Entries}

/-- A temporary file is created under a free name that is not the target's, or nothing changes. -/
theorem create_cases (tries : Nat) {host : Host} (hplace : host.disk.place = .directory entries) :
    (∃ temporary after, create faults process name tries host = (.ok temporary, after) ∧
      entries temporary = none ∧ temporary ≠ name ∧
      after.disk.place = .directory (Function.update entries temporary (some (.file [] true))) ∧
      reserve entries process name tries host.counter = (true, after.counter)) ∨
    ∃ error after, create faults process name tries host = (.error error, after) ∧
      after.disk.place = .directory entries ∧
      Refusal faults error (reserve entries process name tries host.counter = (false, after.counter)) := by
  induction tries generalizing host with
  | zero => exact Or.inr ⟨noUniqueName, host, rfl, hplace, Or.inr ⟨rfl, rfl⟩⟩
  | succ tries ih =>
    rcases createNew_cases faults (temporaryName process name host.counter) hplace with
      ⟨after, hcreate, hfree, hafter⟩ | ⟨error, after, hcreate, hafter, htaken⟩
    · left
      refine ⟨temporaryName process name host.counter, ⟨after, nextCounter host.counter⟩, ?_, hfree,
        temporaryName_ne, hafter, ?_⟩
      · rw [create, hcreate]
      · rw [reserve, hfree]
        rfl
    · by_cases hkind : error.kind = .alreadyExists
      · have hnode : (entries (temporaryName process name host.counter)).isNone = false := by
          rw [Option.isNone_eq_false_iff, Option.isSome_iff_ne_none]
          exact htaken.reason hkind
        have hcreated : create faults process name (tries + 1) host
            = create faults process name tries ⟨after, nextCounter host.counter⟩ := by
          rw [create, hcreate]
          exact if_pos hkind
        have hreserved : reserve entries process name (tries + 1) host.counter
            = reserve entries process name tries (nextCounter host.counter) := by
          rw [reserve, hnode]
          rfl
        rw [hcreated, hreserved]
        exact ih (hafter.trans hplace)
      · right
        refine ⟨error, ⟨after, nextCounter host.counter⟩, ?_, hafter.trans hplace, ?_⟩
        · rw [create, hcreate]
          exact if_neg hkind
        · exact htaken.imp_right fun hrefused => absurd hrefused.1 hkind

/-! ## Publication of a name -/

theorem place_drop {entries : Entries} {path : String} {disk : Disk} {node : Option Node} (hfree : entries path = none)
    (hplace : disk.place = .directory (Function.update entries path node)) :
    ((⟨some path⟩ : SupportBundleTemporary).drop disk).place = .directory entries := by
  show (removeFile path disk).place = _
  rw [place_removeFile hplace, update_free hfree]

/-- The link keeps the written bytes when the temporary name goes. -/
theorem fillAndLink_cases {temporary : String} {disk : Disk} (hfree : entries temporary = none)
    (hne : temporary ≠ name)
    (hplace : disk.place = .directory (Function.update entries temporary (some (.file [] true)))) :
    (∃ after, fillAndLink faults temporary name bytes disk = (.ok (), after) ∧ entries name = none ∧
      after.place = .directory (Function.update entries name (some (.file bytes true)))) ∨
    ∃ error after, fillAndLink faults temporary name bytes disk = (.error error, after) ∧
      after.place = .directory entries ∧ Refusal faults error (entries name ≠ none) := by
  unfold fillAndLink
  rcases writeAll_cases faults temporary bytes hplace with
    ⟨written, hwrite, hwritten⟩ | ⟨error, written, part, hwrite, hwritten, hgenuine⟩
  · rw [Function.update_idem] at hwritten
    rcases syncAll_cases faults written with
      ⟨synced, hsync, hsynced⟩ | ⟨error, synced, hsync, hsynced, hgenuine⟩
    · rw [hwritten] at hsynced
      have hother : Function.update entries temporary (some (.file bytes true)) name = entries name :=
        Function.update_of_ne hne.symm _ _
      rcases hardLink_cases faults name temporary hsynced with
        ⟨linked, hlink, hnone, hlinked⟩ | ⟨error, linked, hlink, hlinked, htaken⟩
      · left
        refine ⟨removeFile temporary linked, by simp only [hwrite, hsync, hlink]; rfl, hother ▸ hnone, ?_⟩
        rw [Function.update_self, Function.update_comm hne] at hlinked
        have hkept : Function.update entries name (some (.file bytes true)) temporary = none := by
          rw [Function.update_of_ne hne, hfree]
        rw [place_removeFile hlinked, update_free hkept]
      · right
        refine ⟨error, (⟨some temporary⟩ : SupportBundleTemporary).drop linked,
          by simp only [hwrite, hsync, hlink], ?_, hother ▸ htaken⟩
        exact place_drop hfree (hlinked.trans hsynced)
    · right
      refine ⟨error, (⟨some temporary⟩ : SupportBundleTemporary).drop synced,
        by simp only [hwrite, hsync], ?_, hgenuine.imp False.elim⟩
      exact place_drop hfree (hsynced.trans hwritten)
  · right
    rw [Function.update_idem] at hwritten
    exact ⟨error, (⟨some temporary⟩ : SupportBundleTemporary).drop written, by simp only [hwrite],
      place_drop hfree hwritten, hgenuine.imp False.elim⟩

/-- What publishing a name can come to in a folder. -/
theorem publishNewFile_cases {host : Host} (hplace : host.disk.place = .directory entries) :
    (∃ after, publishNewFile faults process (some name) bytes host = (.ok (), after) ∧ entries name = none ∧
      after.disk.place = .directory (Function.update entries name (some (.file bytes true))) ∧
      reserve entries process name 128 host.counter = (true, after.counter)) ∨
    ∃ error after, publishNewFile faults process (some name) bytes host = (.error error, after) ∧
      after.disk.place = .directory entries ∧ Refusal faults error
        ((entries name ≠ none ∨ (reserve entries process name 128 host.counter).1 = false) ∧
          (reserve entries process name 128 host.counter).2 = after.counter) := by
  obtain ⟨hlooked, -⟩ := symlinkMetadata_spec faults host.disk
  have hlookable := symlinkMetadata_cases faults hplace
  unfold publishNewFile
  cases hlook : symlinkMetadata faults host.disk with
  | mk result disk =>
    rw [hlook] at hlooked hlookable
    rcases hlookable with hdirectory | ⟨error, herror, hgenuine⟩
    · have hresult : result = .ok .directory := hdirectory
      have hstart : (⟨disk, host.counter⟩ : Host).disk.place = .directory entries := hlooked.trans hplace
      rw [hresult]
      dsimp only
      rw [if_neg (not_not.mpr rfl)]
      rcases create_cases faults process name 128 hstart with
        ⟨temporary, opened, hcreate, hfree, hne, hopened, hreserve⟩ | ⟨error, after, hcreate, hafter, htaken⟩
      · rcases fillAndLink_cases faults name bytes hfree hne hopened with
          ⟨after, hfill, hnone, hafter⟩ | ⟨error, after, hfill, hafter, htaken⟩
        · exact Or.inl ⟨⟨after, opened.counter⟩, by simp only [hcreate, hfill], hnone, hafter, hreserve⟩
        · right
          refine ⟨error, ⟨after, opened.counter⟩, by simp only [hcreate, hfill], hafter, ?_⟩
          exact htaken.imp fun hne => ⟨Or.inl hne, congrArg Prod.snd hreserve⟩
      · right
        refine ⟨error, after, by simp only [hcreate], hafter, ?_⟩
        exact htaken.imp fun hreserve => ⟨Or.inr (congrArg Prod.fst hreserve), congrArg Prod.snd hreserve⟩
    · have hresult : result = .error error := herror
      rw [hresult]
      exact Or.inr ⟨error, ⟨disk, host.counter⟩, rfl, hlooked.trans hplace, hgenuine.imp False.elim⟩

/-- A published file is new and complete, and a failure leaves the folder as it was. -/
def PublishesAtomically (before : Place) (fileName : Option String) (bytes : Bytes) (after : Place) :
    Except IoError Unit → Prop
  | .ok () => ∃ entries name, before = .directory entries ∧ fileName = some name ∧ entries name = none ∧
      after = .directory (Function.update entries name (some (.file bytes true)))
  | .error _ => after = before

theorem publishNewFile_atomic (fileName : Option String) (host : Host) :
    PublishesAtomically host.disk.place fileName bytes
      (publishNewFile faults process fileName bytes host).2.disk.place
      (publishNewFile faults process fileName bytes host).1 := by
  obtain ⟨hlooked, hdirectory⟩ := symlinkMetadata_spec faults host.disk
  cases hlook : symlinkMetadata faults host.disk with
  | mk result disk =>
    rw [hlook] at hlooked hdirectory
    have hunchanged : ∀ error, publishNewFile faults process fileName bytes host
        = (.error error, ⟨disk, host.counter⟩) → PublishesAtomically host.disk.place fileName bytes
          (publishNewFile faults process fileName bytes host).2.disk.place
          (publishNewFile faults process fileName bytes host).1 := by
      intro error hresult
      rw [hresult]
      exact hlooked
    cases result with
    | error error =>
      apply hunchanged error
      unfold publishNewFile
      rw [hlook]
    | ok fileType =>
      by_cases htype : fileType ≠ .directory
      · apply hunchanged parentNotDirectory
        unfold publishNewFile
        rw [hlook]
        exact if_pos htype
      · rw [not_not] at htype
        cases fileName with
        | none =>
          apply hunchanged noFileName
          unfold publishNewFile
          rw [hlook, htype]
          rfl
        | some name =>
          obtain ⟨entries, hplace⟩ := hdirectory (congrArg Except.ok htype)
          rcases publishNewFile_cases faults process name bytes
            hplace with ⟨after, hresult, hnone, hafter, -⟩ | ⟨error, after, hresult, hafter, -⟩
          · rw [hresult]
            exact ⟨entries, name, hplace, rfl, hnone, hafter⟩
          · rw [hresult]
            exact hafter.trans hplace.symm

/-! ## The first free candidate -/

def firstFree (entries : Entries) (names : List String) : Option String :=
  names.find? fun name => (entries name).isNone

theorem firstFree_cons_free {entries : Entries} {name : String} {names : List String}
    (h : (entries name).isNone = true) : firstFree entries (name :: names) = some name :=
  List.find?_cons_of_pos (p := fun name => (entries name).isNone) h

theorem firstFree_cons_taken {entries : Entries} {name : String} {names : List String}
    (h : ¬ (entries name).isNone = true) : firstFree entries (name :: names) = firstFree entries names :=
  List.find?_cons_of_neg (p := fun name => (entries name).isNone) h

/-- The first free name has a free temporary name when its turn comes. -/
def Reserves (entries : Entries) (process : Nat) : List String → Nat → Prop
  | [], _ => True
  | name :: names, counter =>
    if (entries name).isNone then (reserve entries process name 128 counter).1 = true
    else Reserves entries process names (reserve entries process name 128 counter).2

/-- The folder is as before, or was missing and is new. -/
def SameOrNew (before after : Place) : Prop :=
  after = before ∨ before = .absent ∧ after = .directory fun _ => none

/-- What is left in the folder by a call that answered with a name or failed. -/
def LeavesReport (before : Place) (archive : Except IoError Bytes) (after : Place) :
    Except IoError String → Prop
  | .ok name => before.entries name = none ∧ ∃ bytes, archive = .ok bytes ∧
      after = .directory (Function.update before.entries name (some (.file bytes true)))
  | .error _ => SameOrNew before after

variable (archive : Except IoError Bytes) (names : List String)

theorem writeFirst_of_error (error : IoError) (host : Host) :
    (writeFirst faults process (.error error) names host).2 = host ∧
      ∀ name, (writeFirst faults process (.error error) names host).1 ≠ .ok name := by
  induction names with
  | nil => exact ⟨rfl, fun name h => (nomatch h)⟩
  | cons first rest ih =>
    unfold writeFirst
    dsimp only [writeSupportBundle]
    split
    · exact ih
    · exact ⟨rfl, fun name h => (nomatch h)⟩

theorem writeFirst_spec {names : List String} {host : Host} (hplace : host.disk.place = .directory entries)
    (hnodup : names.Nodup) :
    LeavesReport host.disk.place archive (writeFirst faults process archive names host).2.disk.place
        (writeFirst faults process archive names host).1 ∧
      ∀ name, (writeFirst faults process archive names host).1 = .ok name →
        name ∈ names ∧ (firstFree entries names = some name ↔ Reserves entries process names host.counter) := by
  cases archive with
  | error error =>
    obtain ⟨hhost, hfailed⟩ := writeFirst_of_error faults process names error host
    refine ⟨?_, fun name h => absurd h (hfailed name)⟩
    rw [hhost]
    cases hresult : (writeFirst faults process (.error error) names host).1 with
    | error other => exact Or.inl rfl
    | ok name => exact absurd hresult (hfailed name)
  | ok bytes =>
    induction names generalizing host with
    | nil => exact ⟨Or.inl rfl, fun name h => (nomatch h)⟩
    | cons first rest ih =>
      obtain ⟨hfirst, hrest⟩ := List.nodup_cons.mp hnodup
      rcases publishNewFile_cases faults process first bytes hplace
        with ⟨after, hpublish, hnone, hafter, hreserve⟩ | ⟨error, after, hpublish, hafter, htaken⟩
      · have hresult : writeFirst faults process (.ok bytes) (first :: rest) host = (.ok first, after) := by
          rw [writeFirst, writeSupportBundle, hpublish]
        rw [hresult, hplace]
        refine ⟨⟨hnone, bytes, rfl, hafter⟩, fun name hname => ?_⟩
        rw [← Except.ok.inj hname]
        have hfree : (entries first).isNone = true := by rw [hnone]; rfl
        refine ⟨List.mem_cons_self, iff_of_true ?_ ?_⟩
        · exact firstFree_cons_free hfree
        · rw [Reserves, if_pos hfree, hreserve]
      · by_cases hkind : error.kind = .alreadyExists
        · have hresult : writeFirst faults process (.ok bytes) (first :: rest) host
              = writeFirst faults process (.ok bytes) rest after := by
            rw [writeFirst, writeSupportBundle, hpublish]
            exact if_pos hkind
          obtain ⟨hreason, hcounter⟩ := htaken.reason hkind
          obtain ⟨hleaves, hnext⟩ := ih hafter hrest
          rw [hresult, hplace, ← hafter]
          refine ⟨hleaves, fun name hname => ?_⟩
          obtain ⟨hmem, hiff⟩ := hnext name hname
          refine ⟨List.mem_cons_of_mem first hmem, ?_⟩
          rw [Reserves, hcounter]
          by_cases hfree : (entries first).isNone = true
          · have hexhausted : (reserve entries process first 128 host.counter).1 = false := by
              rw [Option.isNone_iff_eq_none] at hfree
              exact hreason.resolve_left fun hne => hne hfree
            rw [if_pos hfree, hexhausted]
            refine iff_of_false ?_ Bool.false_ne_true
            rw [firstFree_cons_free hfree]
            intro hsame
            rw [Option.some.inj hsame] at hfirst
            exact hfirst hmem
          · rw [if_neg hfree, ← hiff, firstFree_cons_taken hfree]
        · have hresult : writeFirst faults process (.ok bytes) (first :: rest) host = (.error error, after) := by
            rw [writeFirst, writeSupportBundle, hpublish]
            exact if_neg hkind
          rw [hresult, hplace]
          exact ⟨Or.inl hafter, fun name h => (nomatch h)⟩

/-- The first name that is free and has a free temporary name in its turn. -/
def publishable (entries : Entries) (process : Nat) : List String → Nat → Option String
  | [], _ => none
  | name :: names, counter =>
    if (entries name).isNone && (reserve entries process name 128 counter).1 then some name
    else publishable entries process names (reserve entries process name 128 counter).2

/-- Without faults the loop answers with the first name that can be published. -/
theorem writeFirst_without_faults {host : Host} (hplace : host.disk.place = .directory entries) :
    (writeFirst (fun _ => none) process (.ok bytes) names host).1
      = (publishable entries process names host.counter).elim (.error exhausted) .ok := by
  induction names generalizing host with
  | nil => rfl
  | cons first rest ih =>
    rcases publishNewFile_cases (fun _ => none) process first bytes
      hplace with ⟨after, hpublish, hnone, -, hreserve⟩ | ⟨error, after, hpublish, hafter, htaken⟩
    · have hboth : ((entries first).isNone && (reserve entries process first 128 host.counter).1) = true := by
        rw [hnone, hreserve]
        rfl
      rw [writeFirst, writeSupportBundle, hpublish, publishable, if_pos hboth]
      rfl
    · rcases htaken with ⟨operation, fault, hfault, -⟩ | ⟨hkind, hreason, hcounter⟩
      · exact nomatch hfault
      · have hnot : ¬ ((entries first).isNone && (reserve entries process first 128 host.counter).1) = true := by
          rw [Bool.and_eq_true, Option.isNone_iff_eq_none]
          rintro ⟨hnone, hreserve⟩
          rcases hreason with hne | hfalse
          · exact hne hnone
          · rw [hfalse] at hreserve
            exact nomatch hreserve
        have hrest : writeFirst (fun _ => none) process (.ok bytes) (first :: rest) host
            = writeFirst (fun _ => none) process (.ok bytes) rest after := by
          rw [writeFirst, writeSupportBundle, hpublish]
          exact if_pos hkind
        rw [hrest, publishable, if_neg hnot, hcounter]
        exact ih hafter

/-! ## Generated reports -/

/-- The number that a suffix spells. -/
def suffixNumber (suffix : String) : Nat :=
  (suffix.toList.drop 1).foldl (fun number ch => number * 10 + (ch.toNat - 48)) 0

theorem suffixNumber_collisionSuffix :
    ∀ collision < maxErrorReportCollisions + 1, suffixNumber (collisionSuffix collision) = collision := by
  decide +kernel

theorem candidates_nodup (time : ReportTime) : (candidates time).Nodup := by
  refine List.Nodup.map_on (fun collision hcollision other hother hsame => ?_) List.nodup_range
  have htexts := congrArg String.toList hsame
  unfold errorReportFilename at htexts
  simp only [String.toList_append] at htexts
  have hsuffix := String.toList_inj.mp (List.append_cancel_right (List.append_cancel_left htexts))
  rw [← suffixNumber_collisionSuffix collision (List.mem_range.mp hcollision), hsuffix,
    suffixNumber_collisionSuffix other (List.mem_range.mp hother)]

variable (configured : Option Bool) (outer : Except IoError FileType) (currentDirectory : Except IoError Unit)
  (disk : Disk)

theorem ensureConfigured_place :
    SameOrNew disk.place (ensureConfigured faults outer disk).2.place := by
  obtain ⟨hlooked, -⟩ := symlinkMetadata_spec faults disk
  unfold ensureConfigured
  cases hlook : symlinkMetadata faults disk with
  | mk result looked =>
    rw [hlook] at hlooked
    cases result with
    | ok fileType => exact Or.inl hlooked
    | error error =>
      dsimp only
      split
      · cases outer with
        | error other => exact Or.inl hlooked
        | ok fileType =>
          dsimp only
          split
          · exact Or.inl hlooked
          · rcases createDir_spec faults looked with hsame | ⟨habsent, hnew⟩
            · exact Or.inl (hsame.trans hlooked)
            · exact Or.inr ⟨hlooked.symm.trans habsent, hnew⟩
      · exact Or.inl hlooked

theorem selectDirectory_place :
    SameOrNew disk.place (selectDirectory faults configured outer currentDirectory disk).2.place := by
  unfold selectDirectory
  split
  · exact ensureConfigured_place faults outer disk
  · exact ensureConfigured_place faults outer disk
  · exact Or.inl rfl
  · exact Or.inl rfl

/-- A resolved folder is one. -/
theorem resolve_spec :
    SameOrNew disk.place (resolveErrorReportDirectory faults configured outer currentDirectory disk).2.place ∧
      ((resolveErrorReportDirectory faults configured outer currentDirectory disk).1 = .ok () →
        ∃ entries, (resolveErrorReportDirectory faults configured outer currentDirectory disk).2.place
          = .directory entries) := by
  have hselect := selectDirectory_place faults configured outer currentDirectory disk
  unfold resolveErrorReportDirectory
  cases hselected : selectDirectory faults configured outer currentDirectory disk with
  | mk result selected =>
    rw [hselected] at hselect
    cases result with
    | error error => exact ⟨hselect, fun h => (nomatch h)⟩
    | ok =>
      obtain ⟨hlooked, hdirectory⟩ := symlinkMetadata_spec faults selected
      dsimp only
      cases hlook : symlinkMetadata faults selected with
      | mk answer looked =>
        rw [hlook] at hlooked hdirectory
        cases answer with
        | error error =>
          refine ⟨?_, fun h => (nomatch h)⟩
          rw [← hlooked] at hselect
          exact hselect
        | ok fileType =>
          rw [← hlooked] at hselect hdirectory
          dsimp only
          split
          · exact ⟨hselect, fun h => (nomatch h)⟩
          · next htype =>
            rw [not_not] at htype
            rw [place_canonicalize]
            exact ⟨hselect, fun _ => hdirectory (congrArg Except.ok htype)⟩

theorem entries_of_sameOrNew {before after : Place} (h : SameOrNew before after) : after.entries = before.entries := by
  rcases h with rfl | ⟨rfl, rfl⟩
  · rfl
  · rfl

variable (request : ReportRequest) (host : Host)

def noonTime : ReportTime := ⟨2026, 8, 11, 12, 0, 0⟩

/-- A folder with the 128 temporary files that a process of the same number left behind. -/
def leftovers : Entries := fun name =>
  if name ∈ (List.range 128).map (temporaryName 1 (errorReportFilename noonTime 0)) then some (.file [] true)
  else none

theorem leftovers_eq_none {name : String}
    (h : (".boxferry-error-report-2026-08-11_12-00-00.zip".toList).isPrefixOf name.toList = false) :
    leftovers name = none := by
  refine if_neg fun hmem => ?_
  obtain ⟨counter, -, rfl⟩ := List.mem_map.mp hmem
  rw [← Bool.not_eq_true] at h
  apply h
  rw [List.isPrefixOf_iff_prefix]
  have hname : temporaryName 1 (errorReportFilename noonTime 0) counter
      = ".boxferry-error-report-2026-08-11_12-00-00.zip" ++
        (".boxferry-" ++ toString 1 ++ "-" ++ toString counter ++ ".tmp") := by
    have hfirst : errorReportFilename noonTime 0 = "boxferry-error-report-2026-08-11_12-00-00.zip" := by
      decide +kernel
    rw [temporaryName, hfirst, ← String.append_assoc]
    rfl
  rw [hname, String.toList_append]
  exact List.prefix_append _ _

theorem leftovers_reserve {tries counter : Nat} (h : counter + tries ≤ 128) :
    reserve leftovers 1 (errorReportFilename noonTime 0) tries counter = (false, counter + tries) := by
  induction tries generalizing counter with
  | zero => rfl
  | succ tries ih =>
    have hmem : temporaryName 1 (errorReportFilename noonTime 0) counter
        ∈ (List.range 128).map (temporaryName 1 (errorReportFilename noonTime 0)) :=
      List.mem_map_of_mem (List.mem_range.mpr (by omega))
    have htaken : leftovers (temporaryName 1 (errorReportFilename noonTime 0) counter) = some (.file [] true) :=
      if_pos hmem
    have hnext : nextCounter counter = counter + 1 := Nat.mod_eq_of_lt (by omega)
    rw [reserve, htaken, hnext]
    show reserve leftovers 1 _ tries (counter + 1) = _
    rw [ih (by omega), Nat.add_right_comm, Nat.add_assoc]

def noonRequest : ReportRequest := ⟨some true, .ok .directory, .ok (), .ok noonTime, .ok [1, 2]⟩

end Boxferry.Cli
