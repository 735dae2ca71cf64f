import Boxferry.Library.Directories
import Boxferry.Model.Values

/-! # Writing artifacts

The create-new writer of a set of artifacts. A failed call removes what it
created, so that its directory is as it was; a completed one has written every
artifact and nothing else. -/
namespace Boxferry.Output
open Directories Model
set_option autoImplicit false

/-- One named artifact. -/
structure OutputFile where
  name : String
  bytes : Bytes

def safeBasename (name : String) : Bool :=
  !name.isEmpty && !(name == "." || name == "..") &&
    !name.toList.any (fun ch => ch == '/' || ch == '\\' || ch == ':') && !name.toList.any isControl

/-- Every name is safe and none was seen before. -/
def namesValid : List OutputFile → List String → Bool
  | [], _ => true
  | file :: files, seen =>
    safeBasename file.name && !seen.contains file.name && namesValid files (seen ++ [file.name])

def invalidNames : IoError :=
  ⟨.invalidInput, some "output artifact names must be unique safe basenames"⟩

def notADirectory : IoError := ⟨.invalidInput, some "output path is not a non-symlink directory"⟩

def notEmpty : IoError := ⟨.alreadyExists, some "output directory is not empty"⟩

section Writer
variable (faults : Faults) (restricted : Bool)

/-- An existing path is accepted when it is an empty directory and no link. -/
def inspect (disk : Disk) : Answer Bool :=
  match symlinkMetadata faults disk with
  | (.error error, disk) => (.error error, disk)
  | (.ok fileType, disk) =>
    if fileType ≠ .directory then (.error notADirectory, disk)
    else match readDirAny faults disk with
      | (.error error, disk) => (.error error, disk)
      | (.ok true, disk) => (.error notEmpty, disk)
      | (.ok false, disk) => (.ok false, disk)

/-- `prepare`: whether the directory was created. -/
def prepare (disk : Disk) : Answer Bool :=
  match createDir faults restricted disk with
  | (.ok (), disk) => (.ok true, disk)
  | (.error error, disk) =>
    if error.kind = .alreadyExists then inspect faults disk else (.error error, disk)

/-- Removes what the call created, in the order it was created. -/
def cleanup (created : List String) (createdDirectory : Bool) (disk : Disk) : Disk :=
  let disk := created.foldl (fun disk name => removeFile name disk) disk
  if createdDirectory then removeDir disk else disk

def writeFiles (createdDirectory : Bool) : List OutputFile → List String → Disk → Answer Unit
  | [], _, disk => (.ok (), disk)
  | file :: files, created, disk =>
    match openNew faults restricted file.name disk with
    | (.error error, disk) => (.error error, cleanup created createdDirectory disk)
    | (.ok (), disk) =>
      match writeAll faults restricted file.name file.bytes disk with
      | (.error error, disk) =>
        (.error error, cleanup (created ++ [file.name]) createdDirectory disk)
      | (.ok (), disk) => writeFiles createdDirectory files (created ++ [file.name]) disk

def writeNewFiles (files : List OutputFile) (disk : Disk) : Answer Unit :=
  if namesValid files [] then
    match prepare faults restricted disk with
    | (.error error, disk) => (.error error, disk)
    | (.ok createdDirectory, disk) => writeFiles faults restricted createdDirectory files [] disk
  else (.error invalidNames, disk)

end Writer

/-! ## Names -/

theorem namesValid_iff {files : List OutputFile} {seen : List String} :
    namesValid files seen = true ↔ (∀ file ∈ files, safeBasename file.name = true ∧
      file.name ∉ seen) ∧ (files.map OutputFile.name).Nodup := by
  induction files generalizing seen with
  | nil => simp [namesValid]
  | cons file files ih =>
    simp only [namesValid, Bool.and_eq_true, ih, List.forall_mem_cons, List.map_cons,
      List.nodup_cons, List.mem_map, List.mem_append, List.mem_singleton, Bool.not_eq_true',
      List.contains_eq_mem, decide_eq_false_iff_not]
    constructor
    · rintro ⟨⟨hsafe, hnew⟩, hrest, hnodup⟩
      refine ⟨⟨⟨hsafe, hnew⟩, fun other hother => ?_⟩, ?_, hnodup⟩
      · exact ⟨(hrest other hother).1, fun hseen => (hrest other hother).2 (Or.inl hseen)⟩
      · rintro ⟨other, hother, hsame⟩
        exact (hrest other hother).2 (Or.inr hsame)
    · rintro ⟨⟨⟨hsafe, hnew⟩, hrest⟩, hdistinct, hnodup⟩
      refine ⟨⟨hsafe, hnew⟩, fun other hother => ⟨(hrest other hother).1, ?_⟩, hnodup⟩
      rintro (hseen | hsame)
      · exact (hrest other hother).2 hseen
      · exact hdistinct ⟨other, hother, hsame⟩

/-! ## The state of a call -/

/-- The listed file of a name, as it is stored. -/
def listed (restricted : Bool) (files : List OutputFile) (name : String) : Option StoredFile :=
  (files.find? fun file => file.name = name).map fun file => ⟨file.bytes, restricted⟩

/-- The directory holds files of this call only, and was as the call found it before. -/
structure Written (start : Place) (createdDirectory : Bool) (names : List String) (disk : Disk) :
    Prop where
  place : ∃ mode entries, disk.place = .directory mode entries ∧ (∀ name, name ∈ entries ↔ name ∈ names) ∧
    start = if createdDirectory then .absent else .directory mode ∅
  kept : ∀ place ∈ disk.visited, start.Keeps place

theorem Written.start_empty {start : Place} {createdDirectory : Bool} {names : List String} {disk : Disk}
    (h : Written start createdDirectory names disk) {after : Place} : start.Keeps after := by
  obtain ⟨mode, entries, -, -, rfl⟩ := h.place
  refine Place.keeps_of_none fun at? => ?_
  cases createdDirectory <;> cases at? <;> simp [Place.stored]

theorem Written.become {start : Place} {createdDirectory : Bool} {names more : List String} {disk : Disk}
    {mode : Bool} {entries : Entries} (h : Written start createdDirectory names disk)
    (hplace : start = if createdDirectory then .absent else .directory mode ∅)
    (hnames : ∀ name, name ∈ entries ↔ name ∈ more) :
    Written start createdDirectory more (disk.become (.directory mode entries)) := by
  refine ⟨⟨mode, entries, rfl, hnames, hplace⟩, fun place hvisited => ?_⟩
  rw [visited_become, List.mem_append, List.mem_singleton] at hvisited
  rcases hvisited with hvisited | rfl
  · exact h.kept place hvisited
  · exact h.start_empty

theorem Written.observe {start : Place} {createdDirectory : Bool} {names : List String} {disk : Disk}
    (h : Written start createdDirectory names disk) :
    Written start createdDirectory names disk.observe := ⟨h.place, h.kept⟩

/-- Removing a file of the call leaves the others. -/
theorem Written.removeFile {start : Place} {createdDirectory : Bool} {first : String}
    {rest : List String} {disk : Disk} (h : Written start createdDirectory (first :: rest) disk)
    (hdistinct : first ∉ rest) : Written start createdDirectory rest (removeFile first disk) := by
  obtain ⟨mode, entries, hplace, hnames, hstart⟩ := h.place
  unfold Directories.removeFile
  rw [hplace]
  refine h.become hstart fun name => ?_
  rw [Finmap.mem_erase, hnames, List.mem_cons]
  constructor
  · rintro ⟨hother, hsame | hmem⟩
    · exact absurd hsame hother
    · exact hmem
  · intro hmem
    refine ⟨?_, Or.inr hmem⟩
    rintro rfl
    exact hdistinct hmem

theorem Written.removeFiles {start : Place} {createdDirectory : Bool} {names : List String} {disk : Disk}
    (h : Written start createdDirectory names disk) (hdistinct : names.Nodup) :
    Written start createdDirectory []
      (names.foldl (fun disk name => Directories.removeFile name disk) disk) := by
  induction names generalizing disk with
  | nil => exact h
  | cons first rest ih =>
    rw [List.nodup_cons] at hdistinct
    exact ih (h.removeFile hdistinct.1) hdistinct.2

/-- The cleanup of a call leaves its path as the call found it. -/
theorem Written.cleanup {start : Place} {createdDirectory : Bool} {names : List String} {disk : Disk}
    (h : Written start createdDirectory names disk) (hdistinct : names.Nodup) :
    (cleanup names createdDirectory disk).place = start ∧
      ∀ place ∈ (cleanup names createdDirectory disk).visited, start.Keeps place := by
  have hremoved := h.removeFiles hdistinct
  obtain ⟨mode, entries, hplace, hnames, hstart⟩ := hremoved.place
  have hempty : entries = ∅ := by
    refine Finmap.ext_lookup fun name => ?_
    rw [Finmap.lookup_empty, Finmap.lookup_eq_none, hnames]
    exact List.not_mem_nil
  unfold Output.cleanup
  cases createdDirectory with
  | false =>
    rw [if_neg Bool.false_ne_true] at hstart ⊢
    exact ⟨by rw [hplace, hempty, hstart], hremoved.kept⟩
  | true =>
    rw [if_pos rfl] at hstart ⊢
    unfold removeDir
    simp only [hplace, hempty, if_true, place_become, visited_become, List.mem_append,
      List.mem_singleton]
    refine ⟨hstart.symm, fun place hvisited => ?_⟩
    rcases hvisited with hvisited | rfl
    · exact hremoved.kept place hvisited
    · exact hremoved.start_empty

/-! ## One call -/

section Call
variable {faults : Faults} {restricted : Bool} {disk after : Disk}

/-- A prepared directory is new or was empty, and nothing else has changed. -/
theorem prepare_ok {createdDirectory : Bool}
    (h : prepare faults restricted disk = (.ok createdDirectory, after)) (hfresh : disk.visited = []) :
    Written disk.place createdDirectory [] after := by
  unfold prepare at h
  rcases hcreated : createDir faults restricted disk with ⟨error | ⟨⟩, created⟩
  · have hobserved := createDir_error hcreated
    subst hobserved
    simp only [hcreated] at h
    split at h
    · unfold inspect at h
      have hmetadata := symlinkMetadata_observe faults disk.observe
      have htype := @symlinkMetadata_directory faults disk.observe
      rcases hresult : symlinkMetadata faults disk.observe with ⟨error | fileType, inspected⟩
      · simp [hresult] at h
      · rw [hresult] at hmetadata htype
        simp only at hmetadata htype
        subst hmetadata
        simp only [hresult] at h
        split at h
        · simp at h
        · next hdirectory =>
          rw [ne_eq, not_not] at hdirectory
          subst hdirectory
          obtain ⟨mode, entries, hplace⟩ := htype rfl
          have hread := readDirAny_observe faults disk.observe.observe
          have hempty := @readDirAny_false faults disk.observe.observe _ _ hplace
          rcases hany : readDirAny faults disk.observe.observe with ⟨error | ⟨⟨⟩ | ⟨⟩⟩, last⟩
          · simp [hany] at h
          · rw [hany] at hread hempty
            simp only at hread
            subst hread
            simp only [hany, Prod.mk.injEq, Except.ok.injEq] at h
            obtain ⟨rfl, rfl⟩ := h
            refine ⟨⟨mode, entries, hplace, ?_, ?_⟩, ?_⟩
            · intro name
              rw [hempty rfl]
              exact iff_of_false Finmap.notMem_empty List.not_mem_nil
            · rw [if_neg Bool.false_ne_true, ← hempty rfl]
              exact hplace
            · intro place hvisited
              rw [visited_observe, visited_observe, visited_observe, hfresh] at hvisited
              cases hvisited
          · simp [hany] at h
    · simp at h
  · obtain ⟨habsent, hmade⟩ := createDir_ok hcreated
    simp only [hcreated, Prod.mk.injEq, Except.ok.injEq] at h
    obtain ⟨rfl, rfl⟩ := h
    subst hmade
    have hnone (name : String) : name ∈ (∅ : Entries) ↔ name ∈ [] :=
      iff_of_false Finmap.notMem_empty List.not_mem_nil
    refine ⟨⟨restricted, ∅, rfl, hnone, by rw [if_pos rfl, habsent]⟩, fun place hvisited => ?_⟩
    rw [visited_become, hfresh, List.nil_append, List.mem_singleton] at hvisited
    rw [hvisited, habsent]
    exact Place.keeps_of_none fun at? => by cases at? <;> rfl

/-- A directory that is not prepared is as it was. -/
theorem prepare_error {error : IoError} (h : prepare faults restricted disk = (.error error, after)) :
    after.place = disk.place ∧ after.visited = disk.visited := by
  unfold prepare at h
  rcases hcreated : createDir faults restricted disk with ⟨failure | ⟨⟩, created⟩
  · have hobserved := createDir_error hcreated
    subst hobserved
    simp only [hcreated] at h
    split at h
    · unfold inspect at h
      have hmetadata := symlinkMetadata_observe faults disk.observe
      rcases hresult : symlinkMetadata faults disk.observe with ⟨failed | fileType, inspected⟩
      · rw [hresult] at hmetadata
        simp only at hmetadata
        simp only [hresult, Prod.mk.injEq] at h
        rw [← h.2, hmetadata]
        exact ⟨rfl, rfl⟩
      · rw [hresult] at hmetadata
        simp only at hmetadata
        subst hmetadata
        simp only [hresult] at h
        split at h
        · rw [← (Prod.mk.inj h).2]
          exact ⟨rfl, rfl⟩
        · have hread := readDirAny_observe faults disk.observe.observe
          rcases hany : readDirAny faults disk.observe.observe with ⟨failed | ⟨⟨⟩ | ⟨⟩⟩, last⟩
          · rw [hany] at hread
            simp only [hany, Prod.mk.injEq] at h
            rw [← h.2, show last = _ from hread]
            exact ⟨rfl, rfl⟩
          · simp [hany] at h
          · rw [hany] at hread
            simp only [hany, Prod.mk.injEq] at h
            rw [← h.2, show last = _ from hread]
            exact ⟨rfl, rfl⟩
    · rw [← (Prod.mk.inj h).2]
      exact ⟨rfl, rfl⟩
  · simp [hcreated] at h

end Call

/-- The outcome of a call: on a failure the path is as it was, otherwise it is a directory with exactly
the listed files. Every file of before is there throughout. -/
structure AllOrNothing (restricted : Bool) (files : List OutputFile) (start : Place)
    (answer : Answer Unit) : Prop where
  restored : ∀ error, answer.1 = .error error → answer.2.place = start
  written : answer.1 = .ok () → ∃ mode entries, answer.2.place = .directory mode entries ∧
    ∀ name, entries.lookup name = listed restricted files name
  kept : ∀ place ∈ answer.2.visited, start.Keeps place

theorem Written.failed {restricted createdDirectory : Bool} {files : List OutputFile} {start : Place}
    {names : List String} {disk : Disk} (h : Written start createdDirectory names disk)
    (hdistinct : names.Nodup) (error : IoError) :
    AllOrNothing restricted files start (.error error, Output.cleanup names createdDirectory disk) := by
  obtain ⟨hplace, hkept⟩ := h.cleanup hdistinct
  exact ⟨fun _ _ => hplace, fun hok => (nomatch hok), hkept⟩

theorem listed_append {restricted : Bool} {done : List OutputFile} {file : OutputFile} {name : String}
    (hnew : file.name ∉ done.map OutputFile.name) : listed restricted (done ++ [file]) name =
      if name = file.name then some ⟨file.bytes, restricted⟩ else listed restricted done name := by
  unfold listed
  rw [List.find?_append]
  by_cases hsame : name = file.name
  · have hnone : (done.find? fun other => other.name = name) = none := by
      rw [List.find?_eq_none]
      intro other hother hname
      rw [decide_eq_true_eq, hsame] at hname
      exact hnew (hname ▸ List.mem_map_of_mem hother)
    rw [if_pos hsame, hnone]
    simp [hsame]
  · have hother : ([file].find? fun other => other.name = name) = none := by
      simp [Ne.symm hsame]
    rw [if_neg hsame, hother, Option.or_none]

/-- The loop keeps what it has written, and undoes all of it when an operation fails. -/
theorem writeFiles_outcome {faults : Faults} {restricted createdDirectory : Bool} {start : Place}
    {done files : List OutputFile} {disk : Disk}
    (hdistinct : ((done ++ files).map OutputFile.name).Nodup)
    (h : Written start createdDirectory (done.map OutputFile.name) disk)
    (hlisted : ∀ mode entries, disk.place = .directory mode entries → ∀ name,
      entries.lookup name = listed restricted done name) :
    AllOrNothing restricted (done ++ files) start
      (writeFiles faults restricted createdDirectory files (done.map OutputFile.name) disk) := by
  induction files generalizing done disk with
  | nil =>
    obtain ⟨mode, entries, hplace, -⟩ := h.place
    refine ⟨fun error herror => (nomatch herror), fun _ => ⟨mode, entries, hplace, ?_⟩, h.kept⟩
    rw [List.append_nil]
    exact hlisted mode entries hplace
  | cons file files ih =>
    obtain ⟨mode, entries, hplace, hnames, hstart⟩ := h.place
    have hparts := hdistinct
    rw [List.map_append, List.nodup_append] at hparts
    obtain ⟨hdone, -, hapart⟩ := hparts
    have hnew : file.name ∉ done.map OutputFile.name :=
      fun hmem => hapart file.name hmem file.name List.mem_cons_self rfl
    have hfree : file.name ∉ entries := fun hmem => hnew ((hnames file.name).mp hmem)
    have hmore (bytes : Bytes) (name : String) :
        name ∈ entries.insert file.name ⟨bytes, restricted⟩ ↔
          name ∈ (done ++ [file]).map OutputFile.name := by
      rw [Finmap.mem_insert, hnames, List.map_append, List.mem_append, or_comm]
      simp
    have hnext : ((done ++ [file]).map OutputFile.name).Nodup := by
      rw [List.append_cons, List.map_append, List.nodup_append] at hdistinct
      exact hdistinct.1
    have hdoneNext : done.map OutputFile.name ++ [file.name] = (done ++ [file]).map OutputFile.name := by
      rw [List.map_append]
      rfl
    unfold writeFiles
    rw [hdoneNext]
    rcases openNew_cases faults restricted hplace hfree with hopened | ⟨error, hopened⟩
    · have hcreated := h.become hstart (hmore [])
      have hopen := place_become disk (.directory mode (entries.insert file.name ⟨[], restricted⟩))
      have hsame (bytes : Bytes) : (entries.insert file.name ⟨[], restricted⟩).insert file.name
          ⟨bytes, restricted⟩ = entries.insert file.name ⟨bytes, restricted⟩ := Finmap.insert_insert _
      rcases writeAll_cases faults restricted file.name file.bytes hopen with
        hwritten | ⟨error, written, hwritten⟩
      · simp only [hopened, hwritten, hsame]
        rw [List.append_cons]
        refine ih (by rw [← List.append_cons]; exact hdistinct)
          (hcreated.become hstart (hmore file.bytes)) fun mode' entries' hplace' name => ?_
        cases hplace'
        rw [listed_append hnew]
        by_cases hname : name = file.name
        · rw [if_pos hname, hname, Finmap.lookup_insert]
        · rw [if_neg hname, Finmap.lookup_insert_of_ne _ hname, hlisted mode entries hplace]
      · simp only [hopened, hwritten, hsame]
        exact (hcreated.become hstart (hmore (file.bytes.take written))).failed hnext error
    · simp only [hopened]
      exact h.observe.failed hdone error

/-- Writing is all-or-nothing whatever operations fail, and refused names have no effect at all. -/
theorem writeNewFiles_allOrNothing (faults : Faults) (restricted : Bool) (files : List OutputFile)
    (start : Place) :
    AllOrNothing restricted files start (writeNewFiles faults restricted files (Disk.new start)) ∧
      (namesValid files [] = false →
        writeNewFiles faults restricted files (Disk.new start) = (.error invalidNames, Disk.new start)) := by
  unfold writeNewFiles
  cases hvalid : namesValid files [] with
  | false =>
    refine ⟨⟨fun _ _ => rfl, fun hok => (nomatch hok), fun place hvisited => ?_⟩, fun _ => rfl⟩
    cases hvisited
  | true =>
    refine ⟨?_, fun hrefused => nomatch hrefused⟩
    rw [if_pos rfl]
    rcases hprepared : prepare faults restricted (Disk.new start) with ⟨error | createdDirectory, disk⟩
    · obtain ⟨hplace, hvisited⟩ := prepare_error hprepared
      refine ⟨fun _ _ => hplace, fun hok => (nomatch hok), fun place hmem => ?_⟩
      rw [hvisited] at hmem
      cases hmem
    · have hwritten := prepare_ok hprepared rfl
      refine @writeFiles_outcome faults restricted createdDirectory start [] files disk
        (namesValid_iff.mp hvalid).2 hwritten fun mode entries hplace name => ?_
      obtain ⟨other, found, hfound, hnames, -⟩ := hwritten.place
      rw [hfound] at hplace
      cases hplace
      rw [Finmap.lookup_eq_none.mpr fun hmem => List.not_mem_nil ((hnames name).mp hmem)]
      rfl

end Boxferry.Output
