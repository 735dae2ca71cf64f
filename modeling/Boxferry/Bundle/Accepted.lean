import Boxferry.Bundle.Transport

/-! # The accepted transports

The decoder accepts exactly the framings of admissible members by readable
header lines, and the encoder writes the framing of its own header texts. Both
directions of the transport are read off these two characterizations. -/
namespace Boxferry.Bundle
open Lens Model Results
set_option autoImplicit false

/-- A line is the text before the first line feed, read within the search window. -/
theorem line_eq_ok {bytes text : Bytes} {cursor maximum next : Nat} :
    line bytes cursor maximum = .ok (text, next) ↔
      cursor ≤ bytes.length ∧ bytes.drop cursor = text ++ lineFeed :: bytes.drop next ∧
        lineFeed ∉ text ∧ text.length < maximum ∧ next = cursor + text.length + 1 := by
  unfold line
  rw [guard_eq_ok, Nat.not_lt]
  refine and_congr_right fun hcursor => ?_
  constructor
  · intro h
    simp only at h
    split at h
    · next last hlast =>
      cases h
      obtain ⟨hshort, hfree, hdrop⟩ := Lines.idxOf_take_eq_some.mp hlast
      have hlength : ((bytes.drop cursor).take last).length = last := by
        rw [List.length_take, Nat.min_eq_left]
        have := congrArg List.length hdrop
        rw [List.length_drop, List.length_cons] at this
        omega
      refine ⟨?_, hfree, by omega, by omega⟩
      conv_lhs => rw [← List.take_append_drop last (bytes.drop cursor), hdrop]
      rw [List.drop_drop, Nat.add_assoc]
    · split at h
      · cases h
      · cases h
  · rintro ⟨hdrop, hfree, hshort, rfl⟩
    have hfound : ((bytes.drop cursor).take maximum).idxOf? lineFeed = some text.length := by
      rw [Lines.idxOf_take_eq_some, hdrop, List.take_left, List.drop_left]
      refine ⟨hshort, hfree, ?_⟩
      rw [List.drop_append, List.drop_eq_nil_of_le (Nat.le_succ _)]
      simp
    simp only [hfound]
    rw [hdrop, List.take_left]

section Accepted
variable {UnitFileName : Type} {json : HeaderJson} {names : NativeNames UnitFileName}

/-- A header line that presents a member within the limits of the transport. -/
structure Readable (json : HeaderJson) (text : Bytes) (member : QuadletBundleMember names) :
    Prop where
  presents : ∃ header, json.fromSlice text = some header ∧ safeBasename header.name = true ∧
    names.new header.name = some member.name ∧ header.bytes.toNat = len member.text
  unicode : (Utf8Text.ofBytes text).isSome
  one_line : lineFeed ∉ text
  header_short : text.length < maxHeaderBytes
  payload_short : len member.text ≤ maxMemberBytes

/-- The framing of a member by `text` stands between two cursors. -/
structure FramedAt (bytes : Bytes) (cursor next : Nat) (text : Bytes)
    (member : QuadletBundleMember names) : Prop where
  framed : bytes.drop cursor = frame text (Utf8Text.bytes member.text) ++ bytes.drop next
  advanced : next = cursor + (frame text (Utf8Text.bytes member.text)).length

theorem length_frame (text payload : Bytes) :
    (frame text payload).length = text.length + payload.length + 6 := by
  have hseparator : separator.length = 4 := by decide
  simp only [frame, List.length_append, List.length_cons, List.length_nil, hseparator]
  omega

theorem decodeMember_eq_ok {bytes : Bytes} {cursor next : Nat} {seen seen' : List (List Char)}
    {member : QuadletBundleMember names}
    (h : decodeMember json names bytes cursor seen = .ok (member, next, seen')) :
    member.key ∉ seen ∧ seen' = member.key :: seen ∧
      ∃ text, Readable json text member ∧ FramedAt bytes cursor next text member := by
  unfold decodeMember at h
  rw [guard_eq_ok, not_not] at h
  obtain ⟨hseparator, h⟩ := h
  obtain ⟨⟨text, after⟩, hline, h⟩ := bind_eq_ok.mp h
  simp only [guard_eq_ok, Option.isNone_iff_eq_none, ← ne_eq, Option.ne_none_iff_isSome] at h
  obtain ⟨hunicode, h⟩ := h
  split at h
  · cases h
  next header hheader =>
  obtain ⟨⟨unit, seen''⟩, hname, h⟩ := bind_eq_ok.mp h
  obtain ⟨hsafe, hnew, hfresh, rfl⟩ := validateName_eq_ok.mp hname
  simp only [guard_eq_ok] at h
  obtain ⟨hlimit, h⟩ := h
  split at h
  · cases h
  next last hlast =>
  rw [guard_eq_ok] at h
  obtain ⟨hinside, h⟩ := h
  split at h
  · cases h
  next payload hpayload =>
  rw [guard_eq_ok, not_not] at h
  obtain ⟨hend, h⟩ := h
  cases h
  obtain ⟨-, hdrop, hfree, hshort, rfl⟩ := line_eq_ok.mp hline
  cases checkedAdd_some hlast
  have hpayload := Utf8Text.bytes_of_ofBytes hpayload
  have hlength : len payload = header.bytes.toNat := by
    rw [← length_bytes, hpayload, List.length_take, List.length_drop]
    omega
  refine ⟨hfresh, rfl, text, ⟨⟨header, hheader, hsafe, hnew, hlength.symm⟩, hunicode, hfree, hshort, ?_⟩,
    ?_, ?_⟩
  · rw [hlength]
    omega
  · -- The separator, the header line and the payload are consecutive at the cursor.
    have hfeed : bytes.drop (cursor + 4 + text.length + 1 + header.bytes.toNat) =
        lineFeed :: bytes.drop (cursor + 4 + text.length + 1 + header.bytes.toNat + 1) := by
      obtain ⟨hbound, hbyte⟩ := List.getElem?_eq_some_iff.mp hend
      rw [List.drop_eq_getElem_cons hbound, hbyte]
    have hsplit := List.take_append_drop header.bytes.toNat
      (bytes.drop (cursor + 4 + text.length + 1))
    rw [List.drop_drop] at hsplit
    calc bytes.drop cursor
        = separator ++ bytes.drop (cursor + 4) := by
          rw [← List.take_append_drop 4 (bytes.drop cursor), hseparator, List.drop_drop]
      _ = separator ++ (text ++ lineFeed :: bytes.drop (cursor + 4 + text.length + 1)) := by
          rw [hdrop]
      _ = separator ++ (text ++ lineFeed :: (Utf8Text.bytes payload ++
            bytes.drop (cursor + 4 + text.length + 1 + header.bytes.toNat))) := by
          rw [hpayload, hsplit]
      _ = _ := by
          rw [hfeed]
          simp only [frame, List.append_assoc, List.cons_append, List.nil_append]
  · rw [length_frame, length_bytes, hlength]
    omega

theorem FramedAt.after_separator {bytes text : Bytes} {cursor next : Nat}
    {member : QuadletBundleMember names} (h : FramedAt bytes cursor next text member) :
    (bytes.drop cursor).take 4 = separator ∧
      bytes.drop (cursor + 4) = text ++ lineFeed :: (Utf8Text.bytes member.text ++
        lineFeed :: bytes.drop next) := by
  have hseparator : separator.length = 4 := by decide
  constructor
  · rw [h.framed, frame, List.append_assoc, ← hseparator, List.take_left]
  · rw [← List.drop_drop, h.framed, frame, List.append_assoc, ← hseparator, List.drop_left]
    simp

theorem FramedAt.payload_at {bytes text : Bytes} {cursor next : Nat}
    {member : QuadletBundleMember names} (h : FramedAt bytes cursor next text member) :
    bytes.drop (cursor + 4 + text.length + 1) = Utf8Text.bytes member.text ++
      lineFeed :: bytes.drop next := by
  rw [Nat.add_assoc _ text.length, ← List.drop_drop, h.after_separator.2, List.drop_append,
    List.drop_eq_nil_of_le (Nat.le_succ _)]
  simp

theorem FramedAt.inside {bytes text : Bytes} {cursor next : Nat}
    {member : QuadletBundleMember names} (h : FramedAt bytes cursor next text member) :
    cursor + 4 + text.length + 1 + (Utf8Text.bytes member.text).length < bytes.length := by
  have hlength := congrArg List.length h.payload_at
  rw [List.length_drop, List.length_append, List.length_cons] at hlength
  omega

/-- The decoder's line reader finds the header line of a framed member. -/
theorem FramedAt.line_eq {bytes text : Bytes} {cursor next : Nat}
    {member : QuadletBundleMember names} (h : FramedAt bytes cursor next text member)
    (hreadable : Readable json text member) :
    line bytes (cursor + 4) maxHeaderBytes = .ok (text, cursor + 4 + text.length + 1) := by
  have hinside := h.inside
  rw [line_eq_ok, h.payload_at, ← h.after_separator.2]
  exact ⟨by omega, rfl, hreadable.one_line, hreadable.header_short, rfl⟩

/-- Framed members are accepted. -/
theorem decodeMember_of_framed {bytes text : Bytes} {cursor next : Nat} {seen : List (List Char)}
    {member : QuadletBundleMember names} (hbytes : bytes.length ≤ maxBundleBytes)
    (hfresh : member.key ∉ seen) (hreadable : Readable json text member)
    (hframed : FramedAt bytes cursor next text member) :
    decodeMember json names bytes cursor seen = .ok (member, next, member.key :: seen) := by
  obtain ⟨header, hheader, hsafe, hnew, hlength⟩ := hreadable.presents
  have htake := hframed.after_separator.1
  have hpayloadAt := hframed.payload_at
  have hinside := hframed.inside
  have hline := hframed.line_eq hreadable
  have hnext := hframed.advanced
  have hpayload := hreadable.payload_short
  rw [length_frame] at hnext
  have hname : validateName names header.name seen =
      .ok (⟨member.name, member.admitted⟩, member.key :: seen) := by
    rw [validateName_eq_ok]
    exact ⟨hsafe, hnew, hfresh, rfl⟩
  have hadd : checkedAdd (cursor + 4 + text.length + 1) header.bytes.toNat =
      some (cursor + 4 + text.length + 1 + header.bytes.toNat) := by
    unfold checkedAdd
    rw [if_pos]
    have : maxBundleBytes ≤ usizeMax := by decide
    rw [hlength, ← length_bytes]
    omega
  have htext : Utf8Text.ofBytes ((bytes.drop (cursor + 4 + text.length + 1)).take header.bytes.toNat) =
      some member.text := by
    rw [hlength, ← length_bytes, hpayloadAt, List.take_left, Utf8Text.ofBytes_bytes]
  have hfeed : bytes[cursor + 4 + text.length + 1 + header.bytes.toNat]? = some lineFeed := by
    rw [← List.getElem?_drop, hpayloadAt, hlength, ← length_bytes, List.getElem?_append_right (Nat.le_refl _)]
    simp
  have hlimit : ¬ maxMemberBytes < header.bytes.toNat := by omega
  have hbound : ¬ bytes.length < cursor + 4 + text.length + 1 + header.bytes.toNat := by
    rw [hlength, ← length_bytes]
    omega
  unfold decodeMember
  rw [guard_eq_ok, not_not]
  refine ⟨htake, bind_eq_ok.mpr ⟨_, hline, ?_⟩⟩
  simp only [hheader, guard_eq_ok]
  refine ⟨by simp [Option.ne_none_iff_isSome, hreadable.unicode], bind_eq_ok.mpr ⟨_, hname, ?_⟩⟩
  simp only [hadd, htext, guard_eq_ok, hfeed]
  refine ⟨hlimit, hbound, by simp, ?_⟩
  rw [hlength, ← length_bytes, hnext]
  congr 3
  omega

/-! ## Member lists -/

/-- The concatenated framings of members by their header texts. -/
def frames : List Bytes → List (QuadletBundleMember names) → Bytes
  | text :: texts, member :: members =>
    frame text (Utf8Text.bytes member.text) ++ frames texts members
  | _, _ => []

theorem decodeMembers_eq_ok {bytes : Bytes} {count cursor next : Nat} {seen : List (List Char)}
    {members : List (QuadletBundleMember names)}
    (h : decodeMembers json names bytes count cursor seen = .ok (members, next)) :
    members.length = count ∧ Fresh members seen ∧
      ∃ texts, List.Forall₂ (Readable json) texts members ∧
        bytes.drop cursor = frames texts members ++ bytes.drop next ∧
        next = cursor + (frames texts members).length := by
  induction count generalizing cursor seen members with
  | zero =>
    cases h
    exact ⟨rfl, ⟨List.nodup_nil, by simp⟩, [], .nil, rfl, rfl⟩
  | succ count ih =>
    obtain ⟨⟨member, middle, seen'⟩, hmember, h⟩ := bind_eq_ok.mp h
    obtain ⟨⟨tail, last⟩, htail, h⟩ := bind_eq_ok.mp h
    cases h
    obtain ⟨hfresh, rfl, text, hreadable, hframed⟩ := decodeMember_eq_ok hmember
    obtain ⟨hlength, hfreshTail, texts, hreadableTail, hdrop, hnext⟩ := ih htail
    refine ⟨by rw [List.length_cons, hlength], Fresh.cons hfresh hfreshTail, text :: texts,
      .cons hreadable hreadableTail, ?_, ?_⟩
    · rw [hframed.framed, hdrop, frames, List.append_assoc]
    · rw [hnext, hframed.advanced, frames, List.length_append, Nat.add_assoc]

theorem decodeMembers_of_framed {bytes : Bytes} (hbytes : bytes.length ≤ maxBundleBytes)
    {texts : List Bytes} {members : List (QuadletBundleMember names)} {cursor : Nat}
    {seen : List (List Char)} {after : Bytes} (hfresh : Fresh members seen)
    (hreadable : List.Forall₂ (Readable json) texts members)
    (hdrop : bytes.drop cursor = frames texts members ++ after) :
    decodeMembers json names bytes members.length cursor seen =
      .ok (members, cursor + (frames texts members).length) := by
  induction hreadable generalizing cursor seen with
  | nil => rfl
  | @cons text member texts members hmember hmembers ih =>
    have hrest : bytes.drop (cursor + (frame text (Utf8Text.bytes member.text)).length) =
        frames texts members ++ after := by
      rw [← List.drop_drop, hdrop, frames, List.append_assoc, List.drop_left]
    have hframed : FramedAt bytes cursor
        (cursor + (frame text (Utf8Text.bytes member.text)).length) text member := by
      refine ⟨?_, rfl⟩
      rw [hrest, hdrop, frames, List.append_assoc]
    have hnew : member.key ∉ seen := hfresh.2 member List.mem_cons_self
    obtain ⟨hmap, hother⟩ := hfresh
    rw [List.map_cons, List.nodup_cons] at hmap
    have hfreshTail : Fresh members (member.key :: seen) := by
      refine ⟨hmap.2, fun other hmem hseen => ?_⟩
      rcases List.mem_cons.mp hseen with hkey | hseen
      · exact hmap.1 (List.mem_map.mpr ⟨other, hmem, hkey⟩)
      · exact hother other (List.mem_cons_of_mem _ hmem) hseen
    rw [List.length_cons, decodeMembers]
    refine bind_eq_ok.mpr ⟨_, decodeMember_of_framed hbytes hnew hmember hframed, ?_⟩
    refine bind_eq_ok.mpr ⟨_, ih hfreshTail hrest, ?_⟩
    rw [frames, List.length_append, Nat.add_assoc]

/-! ## Whole transports -/

theorem char_of_digit {ch : Char} (h : ch.isDigit = true) :
    ch.toNat < 128 ∧ Char.ofNat (UInt8.ofNat ch.toNat).toNat = ch := by
  have hbounds : 48 ≤ ch.toNat ∧ ch.toNat ≤ 57 := by
    simp only [Char.isDigit, Bool.and_eq_true, decide_eq_true_eq] at h
    exact h
  refine ⟨by omega, ?_⟩
  rw [UInt8.toNat_ofNat_of_lt' (Nat.lt_of_le_of_lt hbounds.2 (by decide)), Char.ofNat_toNat]

theorem bytes_repr (count : Nat) :
    Utf8Text.bytes count.repr = (Nat.toDigits 10 count).map fun ch => UInt8.ofNat ch.toNat := by
  rw [Nat.repr_eq_ofList_toDigits]
  exact Utf8Text.bytes_ascii fun ch hch => (char_of_digit (Decimal.digits_isDigit count ch hch)).1

theorem decimal_eq_ok {digits : Bytes} {count : Nat} :
    decimal digits = .ok count ↔ digits = Utf8Text.bytes count.repr ∧ count ≤ usizeMax := by
  rw [bytes_repr]
  unfold decimal
  constructor
  · intro h
    split at h
    · cases h
    · next value hvalue =>
      obtain ⟨hbound, hcount⟩ := accept_eq_ok.mp h
      subst hcount
      refine ⟨?_, hbound⟩
      rw [Decimal.toDigits_of_read hvalue, List.map_map]
      conv_lhs => rw [← List.map_id digits]
      exact List.map_congr_left fun byte _ => (Utf8Text.byte_of_char byte).symm
  · rintro ⟨rfl, hbound⟩
    have hchars : ((Nat.toDigits 10 count).map fun ch => UInt8.ofNat ch.toNat).map
        (fun byte => Char.ofNat byte.toNat) = Nat.toDigits 10 count := by
      rw [List.map_map]
      conv_rhs => rw [← List.map_id (Nat.toDigits 10 count)]
      exact List.map_congr_left fun ch hch =>
        (char_of_digit (Decimal.digits_isDigit count ch hch)).2
    simp only [hchars, Decimal.read_toDigits]
    rw [if_pos hbound]

theorem stripPrefix_eq_some {start bytes rest : Bytes} :
    stripPrefix start bytes = some rest ↔ bytes = start ++ rest := by
  unfold stripPrefix
  rw [Option.ite_none_right_eq_some, List.isPrefixOf_iff_prefix]
  constructor
  · rintro ⟨hstart, h⟩
    rw [← Option.some.inj h, List.prefix_iff_eq_append.mp hstart]
  · rintro rfl
    exact ⟨List.prefix_append _ _, by rw [List.drop_left]⟩

def countText (count : Nat) : Bytes := Utf8Text.bytes "members " ++ Utf8Text.bytes count.repr

theorem countLine_eq (count : Nat) : countLine count = countText count ++ [lineFeed] := by
  unfold countLine countText
  rw [Utf8Text.bytes_append, Utf8Text.bytes_append]
  rfl

theorem lineFeed_not_mem_countText (count : Nat) : lineFeed ∉ countText count := by
  rw [countText, List.mem_append, bytes_repr, not_or]
  refine ⟨by decide, ?_⟩
  intro hmem
  obtain ⟨ch, hch, hbyte⟩ := List.mem_map.mp hmem
  have hdigit := Decimal.digits_isDigit count ch hch
  have hchar := (char_of_digit hdigit).2
  rw [hbyte] at hchar
  rw [← hchar] at hdigit
  exact absurd hdigit (by decide)

theorem length_countText {count : Nat} (h : count ≤ maxMembers) : (countText count).length < 32 := by
  have hdigits : (Nat.toDigits 10 count).length ≤ 4 := by
    rw [Nat.length_toDigits_le_iff (by decide) (by decide)]
    exact Nat.lt_of_le_of_lt h (by decide)
  have hstart : (Utf8Text.bytes "members ").length = 8 := by decide
  rw [countText, List.length_append, bytes_repr, List.length_map, hstart]
  omega

/-- The decoder accepts exactly the framings of admissible members by readable headers. -/
theorem decodeTransport_eq_ok {bytes : Bytes} {members : List (QuadletBundleMember names)} :
    decodeTransport json names bytes = .ok members ↔
      Admissible members ∧ bytes.length ≤ maxBundleBytes ∧
        ∃ texts, List.Forall₂ (Readable json) texts members ∧
          bytes = magic ++ (countLine members.length ++ frames texts members) := by
  constructor
  · intro h
    unfold decodeTransport at h
    rw [guard_eq_ok, Nat.not_lt] at h
    obtain ⟨hbytes, h⟩ := h
    split at h
    · split at h <;> cases h
    next hmagic =>
    simp only [Bool.not_eq_true', Bool.not_eq_false, List.isPrefixOf_iff_prefix] at hmagic
    obtain ⟨⟨text, cursor⟩, hline, h⟩ := bind_eq_ok.mp h
    simp only at h
    split at h
    · cases h
    next digits hdigits =>
    obtain ⟨count, hcount, h⟩ := bind_eq_ok.mp h
    obtain ⟨_, hbounds, h⟩ := bind_eq_ok.mp h
    obtain ⟨⟨members', last⟩, hmembers, h⟩ := bind_eq_ok.mp h
    simp only [guard_eq_ok, ne_eq, not_not] at h
    obtain ⟨hlast, h⟩ := h
    cases h
    obtain ⟨hlength, ⟨hdistinct, -⟩, texts, hreadable, hdrop, -⟩ := decodeMembers_eq_ok hmembers
    obtain ⟨hnonempty, hbounded⟩ := checkCount_eq_ok hbounds
    obtain ⟨-, hlineDrop, -, -, -⟩ := line_eq_ok.mp hline
    obtain ⟨rfl, -⟩ := decimal_eq_ok.mp hcount
    have htext : text = countText count := stripPrefix_eq_some.mp hdigits
    refine ⟨⟨hlength ▸ hnonempty, hlength ▸ hbounded, hdistinct⟩, hbytes, texts, hreadable, ?_⟩
    rw [← List.prefix_iff_eq_append.mp hmagic, hlineDrop, hdrop, hlast, List.drop_length, htext,
      countLine_eq, hlength]
    simp
  · rintro ⟨⟨hnonempty, hbounded, hdistinct⟩, hbytes, texts, hreadable, rfl⟩
    have hmagic : magic.isPrefixOf (magic ++ (countLine members.length ++ frames texts members)) := by
      rw [List.isPrefixOf_iff_prefix]
      exact List.prefix_append _ _
    have hafter : (magic ++ (countLine members.length ++ frames texts members)).drop
        (magic.length + (countText members.length).length + 1) = frames texts members := by
      rw [Nat.add_assoc, ← List.drop_drop, List.drop_left, countLine_eq]
      have hlength : (countText members.length).length + 1 =
          (countText members.length ++ [lineFeed]).length := by simp
      rw [hlength, List.drop_left]
    have hline : line (magic ++ (countLine members.length ++ frames texts members)) magic.length 32 =
        .ok (countText members.length, magic.length + (countText members.length).length + 1) := by
      rw [line_eq_ok, hafter, List.drop_left, countLine_eq]
      refine ⟨by simp, by simp, lineFeed_not_mem_countText _, length_countText hbounded, rfl⟩
    have hfresh : Fresh members [] := ⟨hdistinct, fun _ _ => List.not_mem_nil⟩
    have hmembers := decodeMembers_of_framed hbytes hfresh hreadable
      (hafter.trans (List.append_nil _).symm)
    unfold decodeTransport
    rw [guard_eq_ok, Nat.not_lt]
    refine ⟨hbytes, ?_⟩
    rw [if_neg (by simp [hmagic])]
    refine bind_eq_ok.mpr ⟨_, hline, ?_⟩
    have hstrip : stripPrefix (Utf8Text.bytes "members ") (countText members.length) =
        some (Utf8Text.bytes members.length.repr) := stripPrefix_eq_some.mpr rfl
    simp only [hstrip]
    have husize : members.length ≤ usizeMax := Nat.le_trans hbounded (by decide)
    refine bind_eq_ok.mpr ⟨_, decimal_eq_ok.mpr ⟨rfl, husize⟩, ?_⟩
    refine bind_eq_ok.mpr ⟨(), accept_eq_ok.mpr ⟨⟨hnonempty, hbounded⟩, rfl⟩, ?_⟩
    refine bind_eq_ok.mpr ⟨_, hmembers, ?_⟩
    rw [guard_eq_ok, not_not]
    refine ⟨?_, rfl⟩
    simp only [countLine_eq, List.length_append, List.length_singleton]
    omega

/-! ## The two constructors -/

variable (json names)

/-- `QuadletBundle::from_output`: a bounded transport of generated files. -/
def fromOutput (files : List (UnitFileName × String)) : Except BundleError (QuadletBundle names) :=
  (attach (collectOutput json names files)).map fun members =>
    ⟨members.val, collectOutput_admissible members.property⟩

/-- `QuadletBundle::decode`: the whole transport is validated before any member is exposed. -/
def decode (bytes : Bytes) : Except BundleError (QuadletBundle names) :=
  (attach (decodeTransport json names bytes)).map fun members =>
    ⟨members.val, (decodeTransport_eq_ok.mp members.property).1⟩

variable {json names}

theorem fromOutput_eq_ok {files : List (UnitFileName × String)} {bundle : QuadletBundle names} :
    fromOutput json names files = .ok bundle ↔
      collectOutput json names files = .ok bundle.members := by
  unfold fromOutput
  rw [map_attach_eq_ok]
  constructor
  · rintro ⟨members, hmembers, rfl⟩
    exact hmembers
  · intro h
    exact ⟨bundle.members, h, rfl⟩

theorem decode_eq_ok {bytes : Bytes} {bundle : QuadletBundle names} :
    decode json names bytes = .ok bundle ↔
      decodeTransport json names bytes = .ok bundle.members := by
  unfold decode
  rw [map_attach_eq_ok]
  constructor
  · rintro ⟨members, hmembers, rfl⟩
    exact hmembers
  · intro h
    exact ⟨bundle.members, h, rfl⟩

/-! ## What the encoder writes -/

/-- A header text the encoder writes for a member. -/
structure Written (json : HeaderJson) (text : Bytes) (member : QuadletBundleMember names) :
    Prop where
  header_eq : header json (names.asStr member.name) (len member.text) = .ok text
  payload_short : len member.text ≤ maxMemberBytes

theorem checkedSize_eq_ok {size total length : Nat} {name : String} :
    checkedSize json size name length = .ok total ↔
      length ≤ maxMemberBytes ∧ ∃ text, header json name length = .ok text ∧
        total = size + (text.length + length + 6) ∧ total ≤ maxBundleBytes := by
  unfold checkedSize
  rw [guard_eq_ok, Nat.not_lt, bind_eq_ok]
  refine and_congr_right fun _ => exists_congr fun text => and_congr_right fun _ => ?_
  constructor
  · intro h
    split at h
    · cases h
    · next sum hsum =>
      obtain ⟨second, hsecond, hthird⟩ := Option.bind_eq_some_iff.mp hsum
      obtain ⟨first, hfirst, hsecond⟩ := Option.bind_eq_some_iff.mp hsecond
      rw [guard_eq_ok, Except.ok.injEq] at h
      obtain ⟨hlimit, rfl⟩ := h
      rw [checkedAdd_some hthird, checkedAdd_some hsecond, checkedAdd_some hfirst] at hlimit ⊢
      omega
  · rintro ⟨rfl, hlimit⟩
    have husize : maxBundleBytes ≤ usizeMax := by decide
    have hadd : ((checkedAdd size text.length).bind (checkedAdd · length)).bind (checkedAdd · 6) =
        some (size + text.length + length + 6) := by
      simp only [checkedAdd]
      rw [if_pos (by omega), Option.bind_some, if_pos (by omega), Option.bind_some,
        if_pos (by omega)]
    simp only [hadd]
    rw [if_neg (by omega)]
    congr 1
    omega

theorem runningSize_eq_ok {members : List (QuadletBundleMember names)} {size total : Nat}
    (hsize : size ≤ maxBundleBytes) :
    runningSize json members size = .ok total ↔
      ∃ texts, List.Forall₂ (Written json) texts members ∧
        total = size + (frames texts members).length ∧ total ≤ maxBundleBytes := by
  induction members generalizing size total with
  | nil =>
    constructor
    · intro h
      cases h
      exact ⟨[], .nil, rfl, hsize⟩
    · rintro ⟨texts, htexts, rfl, -⟩
      cases htexts
      rfl
  | cons member members ih =>
    rw [runningSize, bind_eq_ok]
    constructor
    · rintro ⟨next, hnext, h⟩
      obtain ⟨hpayload, text, htext, rfl, hlimit⟩ := checkedSize_eq_ok.mp hnext
      obtain ⟨texts, htexts, rfl, htotal⟩ := (ih hlimit).mp h
      refine ⟨text :: texts, .cons ⟨htext, hpayload⟩ htexts, ?_, htotal⟩
      rw [frames, List.length_append, length_frame, length_bytes]
      omega
    · rintro ⟨texts, htexts, rfl, htotal⟩
      cases htexts with
      | cons hmember htexts =>
      obtain ⟨htext, hpayload⟩ := hmember
      rw [frames, List.length_append, length_frame, length_bytes] at htotal ⊢
      refine ⟨_, checkedSize_eq_ok.mpr ⟨hpayload, _, htext, rfl, by omega⟩, ?_⟩
      rw [ih (by omega)]
      exact ⟨_, htexts, by omega, by omega⟩

theorem encodeMembers_eq_ok {members : List (QuadletBundleMember names)} {texts : List Bytes}
    (h : List.Forall₂ (Written json) texts members) :
    encodeMembers json members = .ok (frames texts members) := by
  induction h with
  | nil => rfl
  | cons hmember _ ih =>
    rw [encodeMembers]
    exact bind_eq_ok.mpr ⟨_, hmember.header_eq, bind_eq_ok.mpr ⟨_, ih, rfl⟩⟩

theorem preambleSize_le {count : Nat} (h : count ≤ maxMembers) :
    preambleSize count ≤ maxBundleBytes := by
  have hcount := length_countText h
  have hmagic : magic.length + 33 ≤ maxBundleBytes := by decide
  rw [preambleSize, countLine_eq, List.length_append, List.length_singleton]
  omega

/-- The encoder writes the framing of its own header texts, of the size it accounted for. -/
theorem encode_eq_ok {bundle : QuadletBundle names} {output : Bytes} :
    bundle.encode json = .ok output ↔
      ∃ texts, List.Forall₂ (Written json) texts bundle.members ∧
        output = magic ++ (countLine bundle.members.length ++ frames texts bundle.members) ∧
        output.length ≤ maxBundleBytes := by
  have hpreamble := preambleSize_le bundle.admissible.bounded
  unfold QuadletBundle.encode
  rw [bind_eq_ok]
  constructor
  · rintro ⟨total, htotal, h⟩
    obtain ⟨texts, htexts, rfl, hlimit⟩ := (runningSize_eq_ok hpreamble).mp htotal
    rw [bind_eq_ok] at h
    obtain ⟨written, hwritten, h⟩ := h
    rw [encodeMembers_eq_ok htexts] at hwritten
    cases hwritten
    cases h
    refine ⟨texts, htexts, rfl, ?_⟩
    rw [List.length_append, List.length_append, ← Nat.add_assoc]
    exact hlimit
  · rintro ⟨texts, htexts, rfl, hlimit⟩
    rw [List.length_append, List.length_append, ← Nat.add_assoc] at hlimit
    refine ⟨_, (runningSize_eq_ok hpreamble).mpr ⟨texts, htexts, rfl, hlimit⟩, ?_⟩
    exact bind_eq_ok.mpr ⟨_, encodeMembers_eq_ok htexts, rfl⟩

end Accepted
end Boxferry.Bundle
