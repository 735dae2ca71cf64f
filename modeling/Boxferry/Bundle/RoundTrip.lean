import Boxferry.Bundle.Accepted
import Boxferry.Bundle.HeaderText

/-! # Transport round trip

A bundle that is encoded is decoded to itself, and the encoder writes exactly
the bytes it accounted for. -/
namespace Boxferry.Bundle
open Lens Model Results
set_option autoImplicit false

/-- Written headers are one line of UTF-8 and are read back. -/
structure HeaderJson.RoundTrips (json : HeaderJson) : Prop where
  one_line : ∀ header text, json.toVec header = some text → lineFeed ∉ text
  unicode : ∀ header text, json.toVec header = some text → (Utf8Text.ofBytes text).isSome
  read_back : ∀ header text, json.toVec header = some text → json.fromSlice text = some header

section RoundTrip
variable {UnitFileName : Type} {json : HeaderJson} {names : NativeNames UnitFileName}

theorem header_eq_ok {name : String} {length : Nat} {text : Bytes} :
    header json name length = .ok text ↔ length < 2 ^ 64 ∧
      json.toVec ⟨name, UInt64.ofNat length⟩ = some text ∧ text.length < maxHeaderBytes := by
  unfold header
  rw [guard_eq_ok, Nat.not_le]
  refine and_congr_right fun _ => ?_
  cases htext : json.toVec ⟨name, UInt64.ofNat length⟩ with
  | none => simp
  | some written =>
    simp only [guard_eq_ok, Nat.not_le, Except.ok.injEq, Option.some.injEq]
    constructor
    · rintro ⟨hshort, rfl⟩
      exact ⟨rfl, hshort⟩
    · rintro ⟨rfl, hshort⟩
      exact ⟨hshort, rfl⟩

theorem QuadletBundleMember.spelling (hnames : names.KeepsSpelling)
    (member : QuadletBundleMember names) : safeBasename (names.asStr member.name) = true ∧
      names.new (names.asStr member.name) = some member.name := by
  obtain ⟨spelling, hsafe, hnew⟩ := member.admitted
  rw [hnames spelling member.name hnew]
  exact ⟨hsafe, hnew⟩

/-- The decoder reads what the encoder writes for a member. -/
theorem Written.readable (hjson : json.RoundTrips) (hnames : names.KeepsSpelling) {text : Bytes}
    {member : QuadletBundleMember names} (h : Written json text member) :
    Readable json text member := by
  obtain ⟨hlength, hwritten, hshort⟩ := header_eq_ok.mp h.header_eq
  obtain ⟨hsafe, hnew⟩ := member.spelling hnames
  exact {
    presents := ⟨_, hjson.read_back _ _ hwritten, hsafe, hnew, UInt64.toNat_ofNat_of_lt' hlength⟩
    unicode := hjson.unicode _ _ hwritten
    one_line := hjson.one_line _ _ hwritten
    header_short := hshort
    payload_short := h.payload_short }

/-- Collected members fit the running size they were checked against. -/
theorem collect_runningSize {files : List (UnitFileName × String)} {seen : List (List Char)}
    {size : Nat} {members : List (QuadletBundleMember names)}
    (h : collect json names files seen size = .ok members) :
    ∃ total, runningSize json members size = .ok total := by
  induction files generalizing seen size members with
  | nil =>
    cases h
    exact ⟨size, rfl⟩
  | cons file rest ih =>
    obtain ⟨⟨unit, seen'⟩, -, h⟩ := bind_eq_ok.mp h
    obtain ⟨size', hsize, h⟩ := bind_eq_ok.mp h
    obtain ⟨tail, htail, h⟩ := bind_eq_ok.mp h
    cases h
    obtain ⟨total, htotal⟩ := ih htail
    exact ⟨total, bind_eq_ok.mpr ⟨size', hsize, htotal⟩⟩

theorem encode_decode (hjson : json.RoundTrips) (hnames : names.KeepsSpelling)
    {bundle : QuadletBundle names} {output : Bytes} (h : bundle.encode json = .ok output) :
    decode json names output = .ok bundle ∧
      runningSize json bundle.members (preambleSize bundle.members.length) = .ok output.length ∧
      output.length ≤ maxBundleBytes := by
  obtain ⟨texts, htexts, rfl, hlimit⟩ := encode_eq_ok.mp h
  have hreadable : List.Forall₂ (Readable json) texts bundle.members :=
    htexts.imp fun _ _ hwritten => hwritten.readable hjson hnames
  refine ⟨?_, ?_, hlimit⟩
  · rw [decode_eq_ok, decodeTransport_eq_ok]
    exact ⟨bundle.admissible, hlimit, texts, hreadable, rfl⟩
  · rw [runningSize_eq_ok (preambleSize_le bundle.admissible.bounded)]
    refine ⟨texts, htexts, ?_, hlimit⟩
    rw [List.length_append, List.length_append, ← Nat.add_assoc, preambleSize]

theorem fromOutput_encodes {files : List (UnitFileName × String)} {bundle : QuadletBundle names}
    (h : fromOutput json names files = .ok bundle) : ∃ output, bundle.encode json = .ok output := by
  have hcollect := fromOutput_eq_ok.mp h
  obtain ⟨_, hcount, hcollect⟩ := bind_eq_ok.mp hcollect
  obtain ⟨total, htotal⟩ := collect_runningSize hcollect
  obtain ⟨hlength, -⟩ := collect_fresh hcollect
  have hpreamble := preambleSize_le bundle.admissible.bounded
  rw [← hlength] at htotal
  obtain ⟨texts, htexts, rfl, hlimit⟩ := (runningSize_eq_ok hpreamble).mp htotal
  refine ⟨_, encode_eq_ok.mpr ⟨texts, htexts, rfl, ?_⟩⟩
  rw [preambleSize] at hlimit
  rw [List.length_append, List.length_append, ← Nat.add_assoc]
  exact hlimit

/-- A bundle comes from generated output or from a decoded transport. -/
def Obtained (json : HeaderJson) (bundle : QuadletBundle names) : Prop :=
  (∃ files, fromOutput json names files = .ok bundle) ∨
    ∃ bytes, decode json names bytes = .ok bundle

/-- Encoding an obtained bundle and decoding the output gives the bundle back, within the
accounted size; bundles of generated output always encode. -/
theorem transport_roundTrip (hjson : json.RoundTrips) (hnames : names.KeepsSpelling) :
    (∀ bundle : QuadletBundle names, Obtained json bundle →
      ∀ output, bundle.encode json = .ok output →
        decode json names output = .ok bundle ∧
          runningSize json bundle.members (preambleSize bundle.members.length) =
            .ok output.length ∧
          output.length ≤ maxBundleBytes) ∧
      ∀ files (bundle : QuadletBundle names), fromOutput json names files = .ok bundle →
        ∃ output, bundle.encode json = .ok output :=
  ⟨fun _ _ _ houtput => encode_decode hjson hnames houtput, fun _ _ hbundle => fromOutput_encodes hbundle⟩

end RoundTrip

/-! ## A concrete codec -/

/-- The compact writer and the derived reader of headers. -/
def derivedJson : HeaderJson where
  toVec header := some (HeaderText.compact header)
  fromSlice := HeaderText.read

theorem derivedJson_fromSlice : derivedJson.fromSlice = HeaderText.read := rfl

theorem derivedJson_toVec {header : Header} {text : Bytes}
    (h : derivedJson.toVec header = some text) : text = HeaderText.compact header := by
  have hwritten : some (HeaderText.compact header) = some text := h
  exact (Option.some.inj hwritten).symm

theorem derivedJson_roundTrips : derivedJson.RoundTrips where
  one_line := by
    intro header text h
    rw [derivedJson_toVec h]
    exact HeaderText.lineFeed_not_mem_compact header
  unicode := by
    intro header text h
    rw [derivedJson_toVec h, HeaderText.ofBytes_compact, Option.isSome_some]
  read_back := by
    intro header text h
    rw [derivedJson_toVec h, derivedJson_fromSlice, HeaderText.read_compact]

/-- Filenames of pods, accepted by their extension. -/
def podNames : NativeNames String :=
  .spelled fun spelling => ".pod".toList.isSuffixOf spelling.toList

theorem podNames_keepsSpelling : podNames.KeepsSpelling := NativeNames.spelled_keepsSpelling _

theorem transport_roundTrip_pods :
    (∀ bundle : QuadletBundle podNames, Obtained derivedJson bundle →
      ∀ output, bundle.encode derivedJson = .ok output →
        decode derivedJson podNames output = .ok bundle ∧
          runningSize derivedJson bundle.members (preambleSize bundle.members.length) =
            .ok output.length ∧
          output.length ≤ maxBundleBytes) ∧
      ∀ files (bundle : QuadletBundle podNames), fromOutput derivedJson podNames files = .ok bundle →
        ∃ output, bundle.encode derivedJson = .ok output :=
  transport_roundTrip derivedJson_roundTrips podNames_keepsSpelling

/-! ## Writing an accepted transport back

The decoder accepts every JSON spelling of a member header, the encoder writes
the compact object. An array of the two field values is fifteen bytes shorter
than that object, so an accepted transport is written back within its own size
only when blanks and long string escapes elsewhere make up for its arrays. -/
open HeaderText

/-- The derived serializer writes the compact object; the derived deserializer
reads an object or an array. -/
structure HeaderJson.Derived (json : HeaderJson) : Prop where
  toVec_eq : ∀ header, json.toVec header = some (compact header)
  fromSlice_eq : ∀ text, json.fromSlice text = read text

/-- The header lines from a member cursor on, as the decoder finds them. -/
def memberLines (json : HeaderJson) (bytes : Bytes) : Nat → Nat → List Bytes
  | 0, _ => []
  | fuel + 1, cursor =>
    match line bytes (cursor + 4) maxHeaderBytes with
    | .error _ => []
    | .ok (text, next) =>
      match json.fromSlice text with
      | none => []
      | some header => text :: memberLines json bytes fuel (next + header.bytes.toNat + 1)

def headerLines (json : HeaderJson) (bytes : Bytes) : List Bytes :=
  match line bytes magic.length 32 with
  | .error _ => []
  | .ok (_, cursor) => memberLines json bytes bytes.length cursor

/-- The bytes an array is shorter than the compact object. -/
def shortfall (text : Bytes) : Nat := if isArray text then 15 else 0

/-- The surplus of the header lines makes up for the arrays among them, and no
array outgrows the header limit. -/
structure Covered (lines : List Bytes) : Prop where
  total : (lines.map shortfall).sum ≤ (lines.map surplus).sum
  bounded : ∀ text ∈ lines, isArray text → text.length + 15 < maxHeaderBytes + surplus text

section Reencode
variable {UnitFileName : Type} {json : HeaderJson} {names : NativeNames UnitFileName}

/-! ## The header lines of an accepted transport -/

theorem memberLines_frames {bytes : Bytes} {texts : List Bytes}
    {members : List (QuadletBundleMember names)} {fuel cursor : Nat}
    (hreadable : List.Forall₂ (Readable json) texts members) (hfuel : texts.length < fuel)
    (hdrop : bytes.drop cursor = frames texts members) :
    memberLines json bytes fuel cursor = texts := by
  induction hreadable generalizing fuel cursor with
  | nil =>
    obtain ⟨fuel, rfl⟩ := Nat.exists_eq_succ_of_ne_zero (Nat.ne_of_gt hfuel)
    -- Nothing follows the last member, so the line reader finds no line feed.
    have hend : bytes.drop (cursor + 4) = [] := by
      rw [← List.drop_drop, hdrop]
      rfl
    have hline : ∀ result, line bytes (cursor + 4) maxHeaderBytes ≠ .ok result := by
      intro result hresult
      obtain ⟨-, hfound, -⟩ := line_eq_ok.mp hresult
      rw [hend] at hfound
      exact absurd hfound.symm (by simp)
    rw [memberLines]
    split
    · rfl
    · next hresult => exact absurd hresult (hline _)
  | @cons text member texts members hmember hmembers ih =>
    obtain ⟨fuel, rfl⟩ := Nat.exists_eq_add_of_le' (Nat.succ_le_of_lt hfuel)
    have hrest : bytes.drop (cursor + (frame text (Utf8Text.bytes member.text)).length) =
        frames texts members := by
      rw [← List.drop_drop, hdrop, frames, List.drop_left]
    have hframed : FramedAt bytes cursor
        (cursor + (frame text (Utf8Text.bytes member.text)).length) text member := by
      refine ⟨?_, rfl⟩
      rw [hrest, hdrop, frames]
    obtain ⟨header, hheader, -, -, hlength⟩ := hmember.presents
    have hnext : cursor + 4 + text.length + 1 + header.bytes.toNat + 1 =
        cursor + (frame text (Utf8Text.bytes member.text)).length := by
      rw [length_frame, length_bytes, hlength]
      omega
    have htail : memberLines json bytes (texts.length + 1 + fuel)
        (cursor + (frame text (Utf8Text.bytes member.text)).length) = texts :=
      ih (by omega) hrest
    rw [List.length_cons, show fuel + (texts.length + 1 + 1) = texts.length + 1 + fuel + 1 by omega,
      memberLines, hframed.line_eq hmember]
    simp only [hheader, hnext, htail]

/-- Frames take more bytes than there are members. -/
theorem length_le_frames {texts : List Bytes} {members : List (QuadletBundleMember names)}
    (h : List.Forall₂ (Readable json) texts members) :
    texts.length ≤ (frames texts members).length := by
  induction h with
  | nil => exact Nat.le_refl _
  | cons hmember _ ih =>
    rw [frames, List.length_append, length_frame, List.length_cons]
    omega

theorem headerLines_eq {bytes : Bytes} {texts : List Bytes}
    {members : List (QuadletBundleMember names)} (hmembers : Admissible members)
    (hreadable : List.Forall₂ (Readable json) texts members)
    (hbytes : bytes = magic ++ (countLine members.length ++ frames texts members)) :
    headerLines json bytes = texts := by
  have hafter : bytes.drop (magic.length + (countText members.length).length + 1) =
      frames texts members := by
    have hlength : (countText members.length).length + 1 = (countLine members.length).length := by
      rw [countLine_eq, List.length_append, List.length_singleton]
    rw [hbytes, Nat.add_assoc, ← List.drop_drop, List.drop_left, hlength, List.drop_left]
  have hline : line bytes magic.length 32 =
      .ok (countText members.length, magic.length + (countText members.length).length + 1) := by
    rw [line_eq_ok, hafter, hbytes, List.drop_left, countLine_eq]
    exact ⟨by simp, by simp, lineFeed_not_mem_countText _, length_countText hmembers.bounded, rfl⟩
  have hfuel : texts.length < bytes.length := by
    have hcount := length_le_frames hreadable
    have hmagic : 0 < magic.length := by decide
    rw [hbytes, List.length_append, List.length_append]
    omega
  unfold headerLines
  rw [hline]
  exact memberLines_frames hreadable hfuel hafter

/-! ## The texts written in their place -/

/-- The header text the encoder writes for a member. -/
def compactFor (member : QuadletBundleMember names) : Bytes :=
  compact ⟨names.asStr member.name, UInt64.ofNat (len member.text)⟩

theorem payload_lt {text : Bytes} {member : QuadletBundleMember names}
    (h : Readable json text member) : len member.text < 2 ^ 64 := by
  have hlimit : maxMemberBytes < 2 ^ 64 := by decide
  exact Nat.lt_of_le_of_lt h.payload_short hlimit

theorem written_iff (hjson : json.Derived) {text written : Bytes}
    {member : QuadletBundleMember names} (h : Readable json text member) :
    Written json written member ↔
      written = compactFor member ∧ (compactFor member).length < maxHeaderBytes := by
  have hlength := payload_lt h
  constructor
  · intro hwritten
    obtain ⟨-, htext, hshort⟩ := header_eq_ok.mp hwritten.header_eq
    rw [hjson.toVec_eq] at htext
    have heq : written = compactFor member := (Option.some.inj htext).symm
    exact ⟨heq, heq ▸ hshort⟩
  · rintro ⟨rfl, hshort⟩
    exact ⟨header_eq_ok.mpr ⟨hlength, hjson.toVec_eq _, hshort⟩, h.payload_short⟩

/-- An accepted header text against the compact object written in its place. -/
theorem Readable.length_eq (hjson : json.Derived) (hnames : names.KeepsSpelling) {text : Bytes}
    {member : QuadletBundleMember names} (h : Readable json text member) :
    text.length + shortfall text = (compactFor member).length + surplus text := by
  obtain ⟨header, hread, -, hnew, hbytes⟩ := h.presents
  rw [hjson.fromSlice_eq] at hread
  have hheader : header = ⟨names.asStr member.name, UInt64.ofNat (len member.text)⟩ := by
    rw [hnames _ _ hnew, ← hbytes, UInt64.ofNat_toNat]
  rw [compactFor, ← hheader]
  exact length_of_read hread

theorem frames_length_eq (hjson : json.Derived) (hnames : names.KeepsSpelling)
    {texts : List Bytes} {members : List (QuadletBundleMember names)}
    (h : List.Forall₂ (Readable json) texts members) :
    (frames texts members).length + (texts.map shortfall).sum =
      (frames (members.map compactFor) members).length + (texts.map surplus).sum := by
  induction h with
  | nil => rfl
  | cons hmember _ ih =>
    have hlength := hmember.length_eq hjson hnames
    simp only [frames, List.map_cons, List.sum_cons, List.length_append, length_frame]
    omega

theorem written_all_iff (hjson : json.Derived) {texts written : List Bytes}
    {members : List (QuadletBundleMember names)}
    (h : List.Forall₂ (Readable json) texts members) :
    List.Forall₂ (Written json) written members ↔
      written = members.map compactFor ∧
        ∀ member ∈ members, (compactFor member).length < maxHeaderBytes := by
  induction h generalizing written with
  | nil =>
    rw [List.forall₂_nil_right_iff]
    simp
  | @cons text member texts members hmember _ ih =>
    rw [List.forall₂_cons_right_iff, List.forall_mem_cons, List.map_cons]
    constructor
    · rintro ⟨head, tail, hhead, htail, rfl⟩
      obtain ⟨rfl, hshort⟩ := (written_iff hjson hmember).mp hhead
      obtain ⟨rfl, hrest⟩ := ih.mp htail
      exact ⟨rfl, hshort, hrest⟩
    · rintro ⟨rfl, hshort, hrest⟩
      exact ⟨_, _, (written_iff hjson hmember).mpr ⟨rfl, hshort⟩, ih.mpr ⟨rfl, hrest⟩, rfl⟩

/-- Only an array can be written back beyond the header limit. -/
theorem bounded_iff (hjson : json.Derived) (hnames : names.KeepsSpelling) {texts : List Bytes}
    {members : List (QuadletBundleMember names)}
    (h : List.Forall₂ (Readable json) texts members) :
    (∀ member ∈ members, (compactFor member).length < maxHeaderBytes) ↔
      ∀ text ∈ texts, isArray text → text.length + 15 < maxHeaderBytes + surplus text := by
  induction h with
  | nil => simp
  | @cons text member texts members hmember _ ih =>
    have hlength := hmember.length_eq hjson hnames
    have hshort := hmember.header_short
    have hhead : (compactFor member).length < maxHeaderBytes ↔
        (isArray text → text.length + 15 < maxHeaderBytes + surplus text) := by
      cases harray : isArray text with
      | true =>
        simp only [shortfall, harray, if_true] at hlength
        simp only [forall_const]
        omega
      | false =>
        simp only [shortfall, harray, Bool.false_eq_true, if_false] at hlength
        simp only [Bool.false_eq_true, false_implies, iff_true]
        omega
    rw [List.forall_mem_cons, List.forall_mem_cons, hhead, ih]

/-! ## Re-encoding -/

/-- What the encoder writes for a decoded transport. -/
theorem encode_decoded_iff (hjson : json.Derived) (hnames : names.KeepsSpelling)
    {input output : Bytes} {bundle : QuadletBundle names}
    (h : decode json names input = .ok bundle) :
    bundle.encode json = .ok output ↔
      output = magic ++ (countLine bundle.members.length ++
        frames (bundle.members.map compactFor) bundle.members) ∧
      output.length ≤ maxBundleBytes ∧ ∀ text ∈ headerLines json input,
        isArray text → text.length + 15 < maxHeaderBytes + surplus text := by
  obtain ⟨hmembers, -, texts, hreadable, hinput⟩ := decodeTransport_eq_ok.mp (decode_eq_ok.mp h)
  rw [headerLines_eq hmembers hreadable hinput, encode_eq_ok, ← bounded_iff hjson hnames hreadable]
  constructor
  · rintro ⟨written, hwritten, houtput, hlimit⟩
    obtain ⟨rfl, hshort⟩ := (written_all_iff hjson hreadable).mp hwritten
    exact ⟨houtput, hlimit, hshort⟩
  · rintro ⟨houtput, hlimit, hshort⟩
    exact ⟨_, (written_all_iff hjson hreadable).mpr ⟨rfl, hshort⟩, houtput, hlimit⟩

theorem length_decoded (hjson : json.Derived) (hnames : names.KeepsSpelling) {input : Bytes}
    {bundle : QuadletBundle names} (h : decode json names input = .ok bundle) :
    input.length ≤ maxBundleBytes ∧
      input.length + ((headerLines json input).map shortfall).sum =
        (magic ++ (countLine bundle.members.length ++
          frames (bundle.members.map compactFor) bundle.members)).length +
            ((headerLines json input).map surplus).sum := by
  obtain ⟨hmembers, hlimit, texts, hreadable, hinput⟩ :=
    decodeTransport_eq_ok.mp (decode_eq_ok.mp h)
  have hframes := frames_length_eq hjson hnames hreadable
  refine ⟨hlimit, ?_⟩
  rw [headerLines_eq hmembers hreadable hinput, hinput]
  simp only [List.length_append]
  omega

/-- An accepted transport is written back within its own size exactly when its header
lines make up for their arrays. -/
theorem decoded_reencodes_iff (hjson : json.Derived) (hnames : names.KeepsSpelling)
    {input : Bytes} {bundle : QuadletBundle names} (h : decode json names input = .ok bundle) :
    (∃ output, bundle.encode json = .ok output ∧ output.length ≤ input.length) ↔
      Covered (headerLines json input) := by
  obtain ⟨hlimit, hlength⟩ := length_decoded hjson hnames h
  constructor
  · rintro ⟨output, houtput, hshort⟩
    obtain ⟨rfl, -, hbounded⟩ := (encode_decoded_iff hjson hnames h).mp houtput
    exact ⟨by omega, hbounded⟩
  · rintro ⟨htotal, hbounded⟩
    have hshort : (magic ++ (countLine bundle.members.length ++
        frames (bundle.members.map compactFor) bundle.members)).length ≤ input.length := by
      omega
    refine ⟨_, (encode_decoded_iff hjson hnames h).mpr ⟨rfl, ?_, hbounded⟩, hshort⟩
    exact Nat.le_trans hshort hlimit

end Reencode

/-! ## Two transports of one empty pod -/

theorem derivedJson_derived : derivedJson.Derived where
  toVec_eq _ := rfl
  fromSlice_eq text := congrFun derivedJson_fromSlice text

/-- A transport of one empty member under a header line. -/
def emptyMember (text : String) : Bytes :=
  magic ++ (countLine 1 ++ frame (Utf8Text.bytes text) [])

/-- The member `a.pod` without text. -/
def emptyPod : QuadletBundleMember podNames := ⟨"a.pod", "", "a.pod", by decide, by decide⟩

theorem emptyPod_admissible : Admissible [emptyPod] := ⟨by decide, by decide, by simp⟩

theorem decode_emptyMember (text : String)
    (hread : read (Utf8Text.bytes text) = some ⟨"a.pod", 0⟩)
    (hline : lineFeed ∉ Utf8Text.bytes text) (hshort : (Utf8Text.bytes text).length < 100) :
    decode derivedJson podNames (emptyMember text) = .ok ⟨[emptyPod], emptyPod_admissible⟩ := by
  have hreadable : Readable derivedJson (Utf8Text.bytes text) emptyPod := {
    presents := ⟨_, hread, by decide, by decide, by decide⟩
    unicode := by rw [Utf8Text.ofBytes_bytes, Option.isSome_some]
    one_line := hline
    header_short := Nat.lt_trans hshort (by decide)
    payload_short := by decide }
  have hsize : (emptyMember text).length ≤ maxBundleBytes := by
    have hpreamble : magic.length + (countLine 1).length + 106 ≤ maxBundleBytes := by decide
    rw [emptyMember, List.length_append, List.length_append, length_frame, List.length_nil]
    omega
  rw [decode_eq_ok, decodeTransport_eq_ok]
  refine ⟨emptyPod_admissible, hsize, [Utf8Text.bytes text], .cons hreadable .nil, ?_⟩
  have hframes : frames [Utf8Text.bytes text] [emptyPod] = frame (Utf8Text.bytes text) [] :=
    List.append_nil _
  rw [hframes]
  rfl

theorem decoded_reencodes_iff_object :
    (∃ output, (⟨[emptyPod], emptyPod_admissible⟩ : QuadletBundle podNames).encode derivedJson =
        .ok output ∧ output.length ≤ (emptyMember "\x7b\"name\":\"a.pod\",\"bytes\":0\x7d").length) ↔
      Covered (headerLines derivedJson (emptyMember "\x7b\"name\":\"a.pod\",\"bytes\":0\x7d")) :=
  decoded_reencodes_iff derivedJson_derived podNames_keepsSpelling
    (decode_emptyMember _ (by decide) (by decide) (by decide))

/-- The array `["a.pod",0]` is accepted and written back fifteen bytes longer. -/
theorem decoded_not_reencoded :
    ¬ ∀ (UnitFileName : Type) (json : HeaderJson) (names : NativeNames UnitFileName),
      json.Derived → names.KeepsSpelling →
        ∀ (input : Bytes) (bundle : QuadletBundle names), decode json names input = .ok bundle →
          ∃ output, bundle.encode json = .ok output ∧ output.length ≤ input.length := by
  intro hclaim
  have hdecoded := decode_emptyMember "[\"a.pod\",0]" (by decide) (by decide) (by decide)
  obtain ⟨output, houtput, hshort⟩ :=
    hclaim _ _ _ derivedJson_derived podNames_keepsSpelling _ _ hdecoded
  obtain ⟨rfl, -, -⟩ :=
    (encode_decoded_iff derivedJson_derived podNames_keepsSpelling hdecoded).mp houtput
  obtain ⟨-, hlength⟩ := length_decoded derivedJson_derived podNames_keepsSpelling hdecoded
  have hlines : headerLines derivedJson (emptyMember "[\"a.pod\",0]") =
      [Utf8Text.bytes "[\"a.pod\",0]"] := by decide
  have hsurplus : ([Utf8Text.bytes "[\"a.pod\",0]"].map surplus).sum = 0 := by decide
  have hshortfall : ([Utf8Text.bytes "[\"a.pod\",0]"].map shortfall).sum = 15 := by decide
  rw [hlines, hsurplus, hshortfall] at hlength
  omega

end Boxferry.Bundle
