import Boxferry.Bundle.RoundTrip
import Boxferry.Cli.ConversionReport
import Boxferry.Output

/-! # Bundles as an output layout

Generated units are written as files or as one bundle, and a bundle is extracted later. Extracting it
does to the directory what writing the files there privately would have done. -/
namespace Boxferry.Cli
open Bundle Lens Model
open Directories hiding Bytes
set_option autoImplicit false

inductive OutputLayout where
  | files
  | quadletBundle
deriving DecidableEq

structure RenderedFile where
  name : String
  text : String
deriving DecidableEq

/-- What is rendered of a conversion, without its outcomes and diagnostics. -/
structure RenderedConversion where
  output : Option (List RenderedFile)
  bundleMembers : List Cli.BundleMember
  privateOutput : Bool
  transportError : Option BundleError
deriving DecidableEq

def unitTypeName : QuadletUnitType → String
  | .container => "container"
  | .network => "network"
  | .volume => "volume"
  | .pod => "pod"
  | .image => "image"
  | .build => "build"
  | .kube => "kube"
  | .artifact => "artifact"
  | .other => "unknown"

section Transport
variable {UnitFileName : Type} (json : HeaderJson) (names : NativeNames UnitFileName)
  (unitType : UnitFileName → QuadletUnitType)

def memberReports {names : NativeNames UnitFileName} (bundle : QuadletBundle names) (transport : String) :
    List Cli.BundleMember :=
  bundle.members.map fun member =>
    ⟨transport, names.asStr member.name, unitTypeName (unitType member.name), len member.text⟩

/-- The text of a bundle and its members. -/
def encodedBundle (files : List (UnitFileName × String)) : Except BundleError (String × List Cli.BundleMember) := do
  let bundle ← fromOutput json names files
  let bytes ← bundle.encode json
  match Utf8Text.ofBytes bytes with
  | none => .error .invalidUtf8
  | some text => .ok (text, memberReports unitType bundle "quadlet.bundle")

/-- The rendering of a generated output; without one there is nothing to render. -/
def renderQuadlet (output : Option (List (UnitFileName × String))) (layout : OutputLayout) (protectedConfig : Bool) :
    RenderedConversion :=
  let conversion : RenderedConversion :=
    ⟨none, [], protectedConfig || decide (layout = .quadletBundle), none⟩
  match output, layout with
  | none, _ => conversion
  | some files, .files =>
    { conversion with output := some (files.map fun file => ⟨names.asStr file.1, file.2⟩) }
  | some files, .quadletBundle =>
    match encodedBundle json names unitType files with
    | .ok (text, members) =>
      { conversion with bundleMembers := members, output := some [⟨"quadlet.bundle", text⟩] }
    | .error error => { conversion with transportError := some error }

def writeRenderedOutput (faults : Faults) (restricted : Bool) (files : List RenderedFile) (disk : Disk) :
    Answer Unit :=
  Output.writeNewFiles faults restricted (files.map fun file => ⟨file.name, Utf8Text.bytes file.text⟩) disk

/-! ## Extraction -/

/-- At most one byte more than a bundle may have. -/
def readBounded (content : Bytes) : Bytes := content.take (maxBundleBytes + 1)

def extractTo (faults : Faults) {names : NativeNames UnitFileName} (bundle : QuadletBundle names) (disk : Disk) :
    Answer Unit :=
  Output.writeNewFiles faults true
    (bundle.members.map fun member => ⟨names.asStr member.name, Utf8Text.bytes member.text⟩) disk

inductive ExtractFailure where
  | read (error : IoError)
  | transport (error : BundleError)
  | write (error : IoError)
deriving DecidableEq

/-- The extraction of an input with what reading it gives. -/
def extract (faults : Faults) (input : Except IoError Bytes) (report : InvocationReport) (disk : Disk) :
    Except ExtractFailure Unit × InvocationReport × Disk :=
  match input with
  | .error error => (.error (.read error), report, disk)
  | .ok content =>
    match decode json names (readBounded content) with
    | .error error => (.error (.transport error), report, disk)
    | .ok bundle =>
      let report := { report with
        bundleMembers := memberReports unitType bundle "<input-1>"
        conversion := { report.conversion with
          outputArtifacts := bundle.members.map fun member => ⟨names.asStr member.name, len member.text⟩ } }
      let (answer, disk) := extractTo faults bundle disk
      (answer.mapError .write, report, disk)

variable {json names}

/-! ## A bundle is text -/

theorem bytes_of_isSome {data : Bytes} (h : (Utf8Text.ofBytes data).isSome) : ∃ text, Utf8Text.bytes text = data := by
  obtain ⟨text, htext⟩ := Option.isSome_iff_exists.mp h
  exact ⟨text, Utf8Text.bytes_of_ofBytes htext⟩

theorem bytes_frames (hjson : json.RoundTrips) {texts : List Bytes} {members : List (QuadletBundleMember names)}
    (h : List.Forall₂ (Written json) texts members) : ∃ text, Utf8Text.bytes text = frames texts members := by
  induction h with
  | nil => exact ⟨"", rfl⟩
  | @cons data member texts members hwritten _ ih =>
    obtain ⟨-, hheader, -⟩ := header_eq_ok.mp hwritten.header_eq
    obtain ⟨header, rfl⟩ := bytes_of_isSome (hjson.unicode _ _ hheader)
    obtain ⟨rest, hrest⟩ := ih
    refine ⟨"---\n" ++ header ++ "\n" ++ member.text ++ "\n" ++ rest, ?_⟩
    have hfeed : Utf8Text.bytes "\n" = [lineFeed] := rfl
    simp only [Utf8Text.bytes_append, hrest, hfeed, frames, frame, separator]
    simp

/-- What is encoded is UTF-8. -/
theorem encoded_text (hjson : json.RoundTrips) {bundle : QuadletBundle names} {output : Bytes}
    (h : bundle.encode json = .ok output) : ∃ text, Utf8Text.bytes text = output := by
  obtain ⟨texts, hwritten, rfl, -⟩ := encode_eq_ok.mp h
  obtain ⟨rest, hrest⟩ := bytes_frames hjson hwritten
  refine ⟨"BOXFERRY-QUADLET-BUNDLE 1\n" ++ ("members " ++ bundle.members.length.repr ++ "\n") ++ rest, ?_⟩
  rw [Utf8Text.bytes_append, Utf8Text.bytes_append, hrest, List.append_assoc]
  rfl

/-! ## Members of a bundle of generated output -/

/-- A collected member has the spelling and the text of its file. -/
theorem collect_files {α : Type} (shown : String → String → α) (hnames : names.KeepsSpelling)
    {files : List (UnitFileName × String)} {seen : List (List Char)} {size : Nat}
    {members : List (QuadletBundleMember names)} (h : collect json names files seen size = .ok members) :
    members.map (fun member => shown (names.asStr member.name) member.text) =
      files.map fun file => shown (names.asStr file.1) file.2 := by
  induction files generalizing seen size members with
  | nil =>
    cases h
    rfl
  | cons file rest ih =>
    obtain ⟨⟨unit, seen'⟩, hname, h⟩ := Results.bind_eq_ok.mp h
    obtain ⟨size', -, h⟩ := Results.bind_eq_ok.mp h
    obtain ⟨tail, htail, h⟩ := Results.bind_eq_ok.mp h
    cases h
    obtain ⟨-, hnew, -⟩ := validateName_eq_ok.mp hname
    have hspelling := hnames _ _ hnew
    rw [List.map_cons, List.map_cons, ih htail, hspelling]

theorem fromOutput_files {α : Type} (shown : String → String → α) (hnames : names.KeepsSpelling)
    {files : List (UnitFileName × String)} {bundle : QuadletBundle names} (h : fromOutput json names files = .ok bundle) :
    bundle.members.map (fun member => shown (names.asStr member.name) member.text) =
      files.map fun file => shown (names.asStr file.1) file.2 := by
  obtain ⟨_, -, hcollect⟩ := Results.bind_eq_ok.mp (fromOutput_eq_ok.mp h)
  exact collect_files shown hnames hcollect

/-- A bundle of generated output is one artifact without a transport error, and extracting its bytes is
writing the generated files privately: the same files or the same failure, whatever operations fail. -/
theorem extracted_bundle_agrees (hjson : json.RoundTrips) (hnames : names.KeepsSpelling)
    {files : List (UnitFileName × String)} {bundle : QuadletBundle names}
    (h : fromOutput json names files = .ok bundle) (protectedConfig : Bool) :
    ∃ text plain,
      renderQuadlet json names unitType (some files) .quadletBundle protectedConfig =
        ⟨some [⟨"quadlet.bundle", text⟩], memberReports unitType bundle "quadlet.bundle", true, none⟩ ∧
      (renderQuadlet json names unitType (some files) .files protectedConfig).output = some plain ∧
      ∀ faults report disk,
        extract json names unitType faults (.ok (Utf8Text.bytes text)) report disk =
          ((writeRenderedOutput faults true plain disk).1.mapError .write,
            { report with
              bundleMembers := memberReports unitType bundle "<input-1>"
              conversion := { report.conversion with
                outputArtifacts := plain.map fun file => ⟨file.name, len file.text⟩ } },
            (writeRenderedOutput faults true plain disk).2) := by
  obtain ⟨output, hencode⟩ := fromOutput_encodes h
  obtain ⟨text, rfl⟩ := encoded_text hjson hencode
  obtain ⟨hdecode, -, hlimit⟩ := encode_decode hjson hnames hencode
  refine ⟨text, _, ?_, rfl, fun faults report disk => ?_⟩
  · have hencoded : encodedBundle json names unitType files =
        .ok (text, memberReports unitType bundle "quadlet.bundle") := by
      rw [encodedBundle, h]
      show (bundle.encode json >>= _) = _
      rw [hencode]
      show (match Utf8Text.ofBytes (Utf8Text.bytes text) with | none => _ | some text => _) = _
      rw [Utf8Text.ofBytes_bytes]
    unfold renderQuadlet
    simp only [hencoded, decide_true, Bool.or_true]
  · have hread : readBounded (Utf8Text.bytes text) = Utf8Text.bytes text :=
      List.take_of_length_le (Nat.le_succ_of_le hlimit)
    have hwritten := fromOutput_files (fun name text => Output.OutputFile.mk name (Utf8Text.bytes text)) hnames h
    have hartifacts := fromOutput_files (fun name text => OutputArtifact.mk name (len text)) hnames h
    unfold extract
    simp only [hread, hdecode, extractTo, writeRenderedOutput, hwritten, hartifacts, List.map_map, Function.comp_def]

end Transport

/-- The report of an extraction before its input is read. -/
def extractionReport : InvocationReport where
  conversion :=
    { boxferryVersion := "version"
      sourceType := "quadlet"
      targetType := "quadlet"
      requestedVersions := ⟨"not-applicable", "not-applicable"⟩ }
  operation := "extract"

theorem extracted_bundle_agrees_pod :
    ∃ text plain,
      renderQuadlet derivedJson podNames (fun _ => .pod) (some [("a.pod", "")]) .quadletBundle false =
        ⟨some [⟨"quadlet.bundle", text⟩], [⟨"quadlet.bundle", "a.pod", "pod", 0⟩], true, none⟩ ∧
      (renderQuadlet derivedJson podNames (fun _ => .pod) (some [("a.pod", "")]) .files false).output = some plain ∧
      extract derivedJson podNames (fun _ => .pod) (fun _ => none) (.ok (Utf8Text.bytes text)) extractionReport
          (Disk.new .absent) =
        ((writeRenderedOutput (fun _ => none) true plain (Disk.new .absent)).1.mapError .write,
          { extractionReport with
            bundleMembers := [⟨"<input-1>", "a.pod", "pod", 0⟩]
            conversion := { extractionReport.conversion with
              outputArtifacts := plain.map fun file => ⟨file.name, len file.text⟩ } },
          (writeRenderedOutput (fun _ => none) true plain (Disk.new .absent)).2) := by
  have hpod : fromOutput derivedJson podNames [("a.pod", "")] = .ok ⟨[emptyPod], emptyPod_admissible⟩ :=
    fromOutput_eq_ok.mpr rfl
  obtain ⟨text, plain, hbundle, hfiles, hextract⟩ := extracted_bundle_agrees (fun _ => .pod)
    derivedJson_roundTrips podNames_keepsSpelling hpod false
  exact ⟨text, plain, hbundle, hfiles, hextract (fun _ => none) extractionReport (Disk.new .absent)⟩

end Boxferry.Cli
