import Mathlib.Data.Finmap

/-! # A directory and its faults

One path of a file system and the operations that create, read and remove what
is there. Each operation may be hit by a fault, which stops it; a write that is
hit has already written some of its bytes. -/
set_option autoImplicit false

namespace Directories

inductive ErrorKind where
  | alreadyExists
  | invalidInput
  | notFound
  | notADirectory
  | directoryNotEmpty
  | other
deriving DecidableEq

structure IoError where
  kind : ErrorKind
  message : Option String := none
deriving DecidableEq

abbrev Bytes : Type := List UInt8

/-- A file, and whether its mode keeps everyone but the owner out. -/
structure StoredFile where
  bytes : Bytes
  restricted : Bool
deriving DecidableEq

abbrev Entries : Type := Finmap fun _ : String => StoredFile

/-- What is at the path. -/
inductive Place where
  | absent
  | directory (restricted : Bool) (entries : Entries)
  | file (stored : StoredFile)
  | symlink

/-- The file at the path, or the one of a name in the directory at the path. -/
def Place.stored : Place → Option String → Option StoredFile
  | .file stored, none => some stored
  | .directory _ entries, some name => entries.lookup name
  | _, _ => none

/-- Every file of the first place is in the second, as it was. -/
def Place.Keeps (before after : Place) : Prop :=
  ∀ at? stored, before.stored at? = some stored → after.stored at? = some stored

/-- A place without files keeps them whatever happens. -/
theorem Place.keeps_of_none {before after : Place} (h : ∀ at?, before.stored at? = none) :
    before.Keeps after := by
  intro at? stored hstored
  rw [h at?] at hstored
  cases hstored

/-- The fault of one operation: its error, and how much of a write was done before it. -/
structure Fault where
  error : IoError
  written : Nat

/-- Which operations are hit, by the number of operations before them. -/
abbrev Faults : Type := Nat → Option Fault

/-- The place now, the places it was after each effect, and the number of operations so far. -/
structure Disk where
  place : Place
  visited : List Place
  operations : Nat

def Disk.new (place : Place) : Disk := ⟨place, [], 0⟩

/-- The disk after an operation with an effect. -/
def Disk.become (disk : Disk) (place : Place) : Disk :=
  ⟨place, disk.visited ++ [place], disk.operations + 1⟩

/-- The disk after an operation without one. -/
def Disk.observe (disk : Disk) : Disk := { disk with operations := disk.operations + 1 }

@[simp] theorem place_become (disk : Disk) (place : Place) : (disk.become place).place = place := rfl
@[simp] theorem visited_become (disk : Disk) (place : Place) :
    (disk.become place).visited = disk.visited ++ [place] := rfl
@[simp] theorem place_observe (disk : Disk) : disk.observe.place = disk.place := rfl
@[simp] theorem visited_observe (disk : Disk) : disk.observe.visited = disk.visited := rfl

abbrev Answer (α : Type) : Type := Except IoError α × Disk

variable (faults : Faults)

/-! ## Operations -/

/-- Creates the directory at the path. -/
def createDir (restricted : Bool) (disk : Disk) : Answer Unit :=
  match faults disk.operations, disk.place with
  | some fault, _ => (.error fault.error, disk.observe)
  | none, .absent => (.ok (), disk.become (.directory restricted ∅))
  | none, _ => (.error ⟨.alreadyExists, none⟩, disk.observe)

inductive FileType where
  | directory
  | file
  | symlink
deriving DecidableEq

/-- The type of what is at the path, which a link at the path is not followed for. -/
def symlinkMetadata (disk : Disk) : Answer FileType :=
  match faults disk.operations, disk.place with
  | some fault, _ => (.error fault.error, disk.observe)
  | none, .absent => (.error ⟨.notFound, none⟩, disk.observe)
  | none, .directory _ _ => (.ok .directory, disk.observe)
  | none, .file _ => (.ok .file, disk.observe)
  | none, .symlink => (.ok .symlink, disk.observe)

/-- Whether reading the directory gives a first entry. -/
def readDirAny (disk : Disk) : Answer Bool :=
  match faults disk.operations, disk.place with
  | some fault, _ => (.error fault.error, disk.observe)
  | none, .directory _ entries => (.ok (entries ≠ ∅), disk.observe)
  | none, .absent => (.error ⟨.notFound, none⟩, disk.observe)
  | none, _ => (.error ⟨.notADirectory, none⟩, disk.observe)

/-- Creates an empty file that was not there. -/
def openNew (restricted : Bool) (name : String) (disk : Disk) : Answer Unit :=
  match faults disk.operations, disk.place with
  | some fault, _ => (.error fault.error, disk.observe)
  | none, .directory mode entries =>
    if name ∈ entries then (.error ⟨.alreadyExists, none⟩, disk.observe)
    else (.ok (), disk.become (.directory mode (entries.insert name ⟨[], restricted⟩)))
  | none, .absent => (.error ⟨.notFound, none⟩, disk.observe)
  | none, _ => (.error ⟨.notADirectory, none⟩, disk.observe)

/-- The place with these bytes in the file that is open under a name. -/
def Place.write (restricted : Bool) (name : String) (bytes : Bytes) : Place → Place
  | .directory mode entries => .directory mode (entries.insert name ⟨bytes, restricted⟩)
  | place => place

/-- Writes all bytes to the empty file that is open under a name. -/
def writeAll (restricted : Bool) (name : String) (bytes : Bytes) (disk : Disk) : Answer Unit :=
  match faults disk.operations with
  | some fault => (.error fault.error,
      disk.become (disk.place.write restricted name (bytes.take fault.written)))
  | none => (.ok (), disk.become (disk.place.write restricted name bytes))

/-- Removes a file of the directory. Removals are not hit by faults. -/
def removeFile (name : String) (disk : Disk) : Disk :=
  match disk.place with
  | .directory mode entries => disk.become (.directory mode (entries.erase name))
  | _ => disk.observe

/-- Removes the directory when it is empty. -/
def removeDir (disk : Disk) : Disk :=
  match disk.place with
  | .directory _ entries => if entries = ∅ then disk.become .absent else disk.observe
  | _ => disk.observe

/-! ## What an operation can do -/

section Created
variable {faults} {disk after : Disk} {restricted : Bool}

theorem createDir_ok (h : createDir faults restricted disk = (.ok (), after)) :
    disk.place = .absent ∧ after = disk.become (.directory restricted ∅) := by
  unfold createDir at h
  cases hfault : faults disk.operations with
  | some fault => simp [hfault] at h
  | none =>
    cases hplace : disk.place with
    | absent =>
      simp only [hfault, hplace, Prod.mk.injEq, true_and] at h
      exact ⟨rfl, h.symm⟩
    | _ => simp [hfault, hplace] at h

theorem createDir_error {error : IoError} (h : createDir faults restricted disk = (.error error, after)) :
    after = disk.observe := by
  unfold createDir at h
  cases hfault : faults disk.operations with
  | some fault => exact (Prod.mk.inj (by simpa [hfault] using h)).2.symm
  | none =>
    cases hplace : disk.place with
    | absent => simp [hfault, hplace] at h
    | _ => exact (Prod.mk.inj (by simpa [hfault, hplace] using h)).2.symm

end Created

variable (disk : Disk) (restricted : Bool)

/-- Asking for the type changes nothing. -/
theorem symlinkMetadata_observe : (symlinkMetadata faults disk).2 = disk.observe := by
  unfold symlinkMetadata
  cases faults disk.operations <;> cases disk.place <;> rfl

variable {faults disk} in
theorem symlinkMetadata_directory (h : (symlinkMetadata faults disk).1 = .ok .directory) :
    ∃ mode entries, disk.place = .directory mode entries := by
  unfold symlinkMetadata at h
  cases hfault : faults disk.operations <;> cases hplace : disk.place <;> simp_all

theorem readDirAny_observe : (readDirAny faults disk).2 = disk.observe := by
  unfold readDirAny
  cases faults disk.operations <;> cases disk.place <;> rfl

variable {faults disk} in
theorem readDirAny_false {mode : Bool} {entries : Entries} (hplace : disk.place = .directory mode entries)
    (h : (readDirAny faults disk).1 = .ok false) : entries = ∅ := by
  unfold readDirAny at h
  cases hfault : faults disk.operations <;> simp_all

variable {disk} in
/-- A file is created empty, under a name that was free, or nothing changes. -/
theorem openNew_cases {mode : Bool} {entries : Entries} {name : String}
    (hplace : disk.place = .directory mode entries) (hfree : name ∉ entries) :
    openNew faults restricted name disk =
        (.ok (), disk.become (.directory mode (entries.insert name ⟨[], restricted⟩))) ∨
      ∃ error, openNew faults restricted name disk = (.error error, disk.observe) := by
  unfold openNew
  cases hfault : faults disk.operations with
  | some fault => exact Or.inr ⟨fault.error, by simp⟩
  | none =>
    left
    simp [hplace, hfree]

variable {disk} in
/-- All bytes are written, or the write stops after some of them. -/
theorem writeAll_cases {mode : Bool} {entries : Entries} (name : String) (bytes : Bytes)
    (hplace : disk.place = .directory mode entries) :
    writeAll faults restricted name bytes disk =
        (.ok (), disk.become (.directory mode (entries.insert name ⟨bytes, restricted⟩))) ∨
      ∃ error written, writeAll faults restricted name bytes disk = (.error error,
        disk.become (.directory mode (entries.insert name ⟨bytes.take written, restricted⟩))) := by
  unfold writeAll
  rw [hplace]
  cases hfault : faults disk.operations with
  | some fault => exact Or.inr ⟨fault.error, fault.written, rfl⟩
  | none => exact Or.inl rfl

end Directories
