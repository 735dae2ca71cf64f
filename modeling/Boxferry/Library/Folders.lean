import Mathlib.Logic.Function.Basic
import Boxferry.Library.Directories

/-! # A folder and its links

The entries of one folder, and the operations that look at, create, write, link and remove
them. Each may be hit by a fault, which stops it; a fault never says that something exists
already, which is what a taken name answers. -/
namespace Folders
open Directories (Bytes ErrorKind FileType IoError)
set_option autoImplicit false

inductive Node where
  | file (bytes : Bytes) (restricted : Bool)
  | directory
  | symlink
deriving DecidableEq

abbrev Entries : Type := String → Option Node

/-- What is at the path of the folder. -/
inductive Place where
  | absent
  | directory (entries : Entries)
  | file
  | symlink

def Place.entries : Place → Entries
  | .directory entries => entries
  | _ => fun _ => none

structure Fault where
  error : IoError
  written : Nat
  genuine : error.kind ≠ .alreadyExists

abbrev Faults : Type := Nat → Option Fault

structure Disk where
  place : Place
  operations : Nat

abbrev Answer (α : Type) : Type := Except IoError α × Disk

/-- The disk after an operation. -/
def Disk.become (disk : Disk) (place : Place) : Disk := ⟨place, disk.operations + 1⟩

@[simp] theorem place_become (disk : Disk) (place : Place) : (disk.become place).place = place := rfl

section Operations
variable (faults : Faults)

def symlinkMetadata (disk : Disk) : Answer FileType :=
  match faults disk.operations, disk.place with
  | some fault, place => (.error fault.error, disk.become place)
  | none, .absent => (.error ⟨.notFound, none⟩, disk.become .absent)
  | none, .directory entries => (.ok .directory, disk.become (.directory entries))
  | none, .file => (.ok .file, disk.become .file)
  | none, .symlink => (.ok .symlink, disk.become .symlink)

def canonicalize (disk : Disk) : Answer Unit :=
  match faults disk.operations, disk.place with
  | some fault, place => (.error fault.error, disk.become place)
  | none, .absent => (.error ⟨.notFound, none⟩, disk.become .absent)
  | none, place => (.ok (), disk.become place)

/-- Creates the folder. -/
def createDir (disk : Disk) : Answer Unit :=
  match faults disk.operations, disk.place with
  | some fault, place => (.error fault.error, disk.become place)
  | none, .absent => (.ok (), disk.become (.directory fun _ => none))
  | none, place => (.error ⟨.alreadyExists, none⟩, disk.become place)

/-- Creates an empty file that only its owner can read. -/
def createNew (name : String) (disk : Disk) : Answer Unit :=
  match faults disk.operations, disk.place with
  | some fault, place => (.error fault.error, disk.become place)
  | none, .directory entries =>
    if (entries name).isNone then
      (.ok (), disk.become (.directory (Function.update entries name (some (.file [] true)))))
    else (.error ⟨.alreadyExists, none⟩, disk.become (.directory entries))
  | none, place => (.error ⟨.notADirectory, none⟩, disk.become place)

/-- The place with these bytes in the file of a name. -/
def Place.write (name : String) (bytes : Bytes) : Place → Place
  | .directory entries => .directory (Function.update entries name (some (.file bytes true)))
  | place => place

/-- Writes all bytes to the file that was created under a name. -/
def writeAll (name : String) (bytes : Bytes) (disk : Disk) : Answer Unit :=
  match faults disk.operations with
  | some fault => (.error fault.error, disk.become (disk.place.write name (bytes.take fault.written)))
  | none => (.ok (), disk.become (disk.place.write name bytes))

def syncAll (disk : Disk) : Answer Unit :=
  match faults disk.operations with
  | some fault => (.error fault.error, disk.become disk.place)
  | none => (.ok (), disk.become disk.place)

/-- Gives the file of a name a second name. -/
def hardLink (source target : String) (disk : Disk) : Answer Unit :=
  match faults disk.operations, disk.place with
  | some fault, place => (.error fault.error, disk.become place)
  | none, .directory entries =>
    if (entries target).isNone then
      (.ok (), disk.become (.directory (Function.update entries target (entries source))))
    else (.error ⟨.alreadyExists, none⟩, disk.become (.directory entries))
  | none, place => (.error ⟨.notADirectory, none⟩, disk.become place)

end Operations

/-- Removes a file. Removals are not hit by faults. -/
def removeFile (name : String) (disk : Disk) : Disk :=
  match disk.place with
  | .directory entries => disk.become (.directory (Function.update entries name none))
  | place => disk.become place

/-! ## What an operation can do -/

/-- An error is that of a fault, or says that something exists, for the given reason. -/
def Refusal (faults : Faults) (error : IoError) (taken : Prop) : Prop :=
  (∃ operation fault, faults operation = some fault ∧ error = fault.error) ∨
    error.kind = .alreadyExists ∧ taken

theorem Refusal.reason {faults : Faults} {error : IoError} {taken : Prop} (h : Refusal faults error taken)
    (hkind : error.kind = .alreadyExists) : taken := by
  rcases h with ⟨operation, fault, -, rfl⟩ | ⟨-, htaken⟩
  · exact absurd hkind fault.genuine
  · exact htaken

theorem Refusal.imp {faults : Faults} {error : IoError} {taken other : Prop} (h : Refusal faults error taken)
    (himp : taken → other) : Refusal faults error other :=
  h.imp_right fun hrefused => ⟨hrefused.1, himp hrefused.2⟩

variable (faults : Faults) (name : String) (bytes : Bytes) {disk : Disk} {entries : Entries}

/-- A look changes nothing, and finds a folder only where one is. -/
theorem symlinkMetadata_spec (disk : Disk) :
    (symlinkMetadata faults disk).2.place = disk.place ∧
      ((symlinkMetadata faults disk).1 = .ok .directory → ∃ entries, disk.place = .directory entries) := by
  unfold symlinkMetadata
  cases hfault : faults disk.operations with
  | some fault => exact ⟨rfl, fun h => (nomatch h)⟩
  | none =>
    cases hplace : disk.place with
    | absent => exact ⟨rfl, fun h => (nomatch h)⟩
    | directory entries => exact ⟨rfl, fun _ => ⟨entries, rfl⟩⟩
    | file => exact ⟨rfl, fun h => (nomatch h)⟩
    | symlink => exact ⟨rfl, fun h => (nomatch h)⟩

/-- Looking at a folder fails by a fault only. -/
theorem symlinkMetadata_cases (hplace : disk.place = .directory entries) :
    (symlinkMetadata faults disk).1 = .ok .directory ∨
      ∃ error, (symlinkMetadata faults disk).1 = .error error ∧ Refusal faults error False := by
  unfold symlinkMetadata
  rw [hplace]
  cases hfault : faults disk.operations with
  | some fault => exact Or.inr ⟨_, rfl, Or.inl ⟨_, fault, hfault, rfl⟩⟩
  | none => exact Or.inl rfl

theorem place_canonicalize : (canonicalize faults disk).2.place = disk.place := by
  unfold canonicalize
  cases faults disk.operations with
  | some fault => rfl
  | none => cases disk.place <;> rfl

theorem createDir_spec (disk : Disk) :
    (createDir faults disk).2.place = disk.place ∨
      disk.place = .absent ∧ (createDir faults disk).2.place = .directory fun _ => none := by
  unfold createDir
  cases faults disk.operations with
  | some fault => exact Or.inl rfl
  | none =>
    cases disk.place with
    | absent => exact Or.inr ⟨rfl, rfl⟩
    | directory entries => exact Or.inl rfl
    | file => exact Or.inl rfl
    | symlink => exact Or.inl rfl

/-- A file is created under a free name. Only a taken name answers that it exists. -/
theorem createNew_cases (hplace : disk.place = .directory entries) :
    (∃ after, createNew faults name disk = (.ok (), after) ∧ entries name = none ∧
      after.place = .directory (Function.update entries name (some (.file [] true)))) ∨
    ∃ error after, createNew faults name disk = (.error error, after) ∧ after.place = disk.place ∧
      Refusal faults error (entries name ≠ none) := by
  unfold createNew
  rw [hplace]
  cases hfault : faults disk.operations with
  | some fault => exact Or.inr ⟨_, _, rfl, rfl, Or.inl ⟨_, fault, hfault, rfl⟩⟩
  | none =>
    cases hnode : entries name with
    | none =>
      exact Or.inl ⟨disk.become (.directory (Function.update entries name (some (.file [] true)))),
        by simp [hnode], rfl, rfl⟩
    | some node =>
      exact Or.inr ⟨⟨.alreadyExists, none⟩, disk.become (.directory entries), by simp [hnode], rfl,
        Or.inr ⟨rfl, hnode ▸ Option.some_ne_none node⟩⟩

theorem writeAll_cases (hplace : disk.place = .directory entries) :
    (∃ after, writeAll faults name bytes disk = (.ok (), after) ∧
      after.place = .directory (Function.update entries name (some (.file bytes true)))) ∨
    ∃ error after written, writeAll faults name bytes disk = (.error error, after) ∧
      after.place = .directory (Function.update entries name (some (.file written true))) ∧
      Refusal faults error False := by
  unfold writeAll
  rw [hplace]
  cases hfault : faults disk.operations with
  | some fault => exact Or.inr ⟨_, _, _, rfl, rfl, Or.inl ⟨_, fault, hfault, rfl⟩⟩
  | none => exact Or.inl ⟨_, rfl, rfl⟩

theorem syncAll_cases (disk : Disk) :
    (∃ after, syncAll faults disk = (.ok (), after) ∧ after.place = disk.place) ∨
    ∃ error after, syncAll faults disk = (.error error, after) ∧ after.place = disk.place ∧
      Refusal faults error False := by
  unfold syncAll
  cases hfault : faults disk.operations with
  | some fault => exact Or.inr ⟨_, _, rfl, rfl, Or.inl ⟨_, fault, hfault, rfl⟩⟩
  | none => exact Or.inl ⟨_, rfl, rfl⟩

theorem hardLink_cases (source : String) (hplace : disk.place = .directory entries) :
    (∃ after, hardLink faults source name disk = (.ok (), after) ∧ entries name = none ∧
      after.place = .directory (Function.update entries name (entries source))) ∨
    ∃ error after, hardLink faults source name disk = (.error error, after) ∧ after.place = disk.place ∧
      Refusal faults error (entries name ≠ none) := by
  unfold hardLink
  rw [hplace]
  cases hfault : faults disk.operations with
  | some fault => exact Or.inr ⟨_, _, rfl, rfl, Or.inl ⟨_, fault, hfault, rfl⟩⟩
  | none =>
    cases hnode : entries name with
    | none =>
      exact Or.inl ⟨disk.become (.directory (Function.update entries name (entries source))),
        by simp [hnode], rfl, rfl⟩
    | some node =>
      exact Or.inr ⟨⟨.alreadyExists, none⟩, disk.become (.directory entries), by simp [hnode], rfl,
        Or.inr ⟨rfl, hnode ▸ Option.some_ne_none node⟩⟩

variable {name}

theorem place_removeFile (hplace : disk.place = .directory entries) :
    (removeFile name disk).place = .directory (Function.update entries name none) := by
  unfold removeFile
  rw [hplace]
  rfl

/-- Removing a name that was free before it was written brings the entries back. -/
theorem update_free {node : Option Node} (hfree : entries name = none) :
    Function.update (Function.update entries name node) name none = entries := by
  rw [Function.update_idem, ← hfree, Function.update_eq_self]

end Folders
