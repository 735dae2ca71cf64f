import Boxferry.Library.Rewriting
import Boxferry.Library.Utf8Text

/-! # Decoding with replacement

UTF-8 is decoded byte after byte. A sequence that cannot be completed, and a byte that cannot
begin one, are replaced by one replacement character each; the byte after such a sequence begins
anew. -/
namespace Utf8Replace
set_option autoImplicit false

/-- A sequence that has begun: its bits, the bytes it still needs, and the range of the next one. -/
structure Pending where
  value : Nat
  more : Nat
  low : Nat
  high : Nat

def replacement : Char := '\uFFFD'

def begin (byte : Nat) : List Char × Option Pending :=
  if byte < 0x80 then ([Char.ofNat byte], none)
  else if 0xC2 ≤ byte ∧ byte ≤ 0xDF then ([], some ⟨byte - 0xC0, 1, 0x80, 0xBF⟩)
  else if 0xE0 ≤ byte ∧ byte ≤ 0xEF then
    ([], some ⟨byte - 0xE0, 2, if byte = 0xE0 then 0xA0 else 0x80, if byte = 0xED then 0x9F else 0xBF⟩)
  else if 0xF0 ≤ byte ∧ byte ≤ 0xF4 then
    ([], some ⟨byte - 0xF0, 3, if byte = 0xF0 then 0x90 else 0x80, if byte = 0xF4 then 0x8F else 0xBF⟩)
  else ([replacement], none)

def step : Option Pending → Nat → List Char × Option Pending
  | none, byte => begin byte
  | some pending, byte =>
    if pending.low ≤ byte ∧ byte ≤ pending.high then
      if pending.more = 1 then ([Char.ofNat (pending.value * 64 + (byte - 0x80))], none)
      else ([], some ⟨pending.value * 64 + (byte - 0x80), pending.more - 1, 0x80, 0xBF⟩)
    else (replacement :: (begin byte).1, (begin byte).2)

/-- Decodes a part of a stream, and gives back the sequence that it ends in. -/
def decodeFrom : Option Pending → List UInt8 → List Char × Option Pending
  | pending, [] => ([], pending)
  | pending, byte :: rest =>
    ((step pending byte.toNat).1 ++ (decodeFrom (step pending byte.toNat).2 rest).1,
      (decodeFrom (step pending byte.toNat).2 rest).2)

def flush : Option Pending → List Char
  | none => []
  | some _ => [replacement]

/-- `bytes.decode("utf-8", "replace")` -/
def decode (bytes : List UInt8) : List Char := (decodeFrom none bytes).1 ++ flush (decodeFrom none bytes).2

def encode (chars : List Char) : List UInt8 := chars.flatMap String.utf8EncodeChar

variable {pending : Option Pending} {bytes rest left right : List UInt8} {ch : Char} {chars : List Char} {byte : UInt8}

theorem decodeFrom_append : decodeFrom pending (left ++ right) =
    ((decodeFrom pending left).1 ++ (decodeFrom (decodeFrom pending left).2 right).1,
      (decodeFrom (decodeFrom pending left).2 right).2) := by
  induction left generalizing pending with
  | nil => rfl
  | cons byte rest ih =>
    rw [List.cons_append, decodeFrom, decodeFrom, ih, List.append_assoc]

/-! ## The encoding of a character -/

theorem toNat_valid (ch : Char) : ch.toNat < 0xD800 ∨ 0xDFFF < ch.toNat ∧ ch.toNat < 0x110000 := ch.valid

/-- The numbers of the bytes of a character. -/
theorem encode_cases (ch : Char) :
    (ch.toNat < 0x80 ∧ String.utf8EncodeChar ch = [UInt8.ofNat ch.toNat]) ∨
    (0x80 ≤ ch.toNat ∧ ch.toNat < 0x800 ∧ String.utf8EncodeChar ch =
      [UInt8.ofNat (ch.toNat / 64 + 0xC0), UInt8.ofNat (ch.toNat % 64 + 0x80)]) ∨
    (0x800 ≤ ch.toNat ∧ ch.toNat < 0x10000 ∧ String.utf8EncodeChar ch =
      [UInt8.ofNat (ch.toNat / 4096 + 0xE0), UInt8.ofNat (ch.toNat / 64 % 64 + 0x80),
        UInt8.ofNat (ch.toNat % 64 + 0x80)]) ∨
    (0x10000 ≤ ch.toNat ∧ String.utf8EncodeChar ch =
      [UInt8.ofNat (ch.toNat / 262144 + 0xF0), UInt8.ofNat (ch.toNat / 4096 % 64 + 0x80),
        UInt8.ofNat (ch.toNat / 64 % 64 + 0x80), UInt8.ofNat (ch.toNat % 64 + 0x80)]) := by
  have hvalid := toNat_valid ch
  have hsame : ch.val.toNat = ch.toNat := rfl
  unfold String.utf8EncodeChar
  simp only [hsame]
  by_cases hone : ch.toNat ≤ 0x7F
  · exact Or.inl ⟨by omega, if_pos hone⟩
  · rw [if_neg hone]
    by_cases htwo : ch.toNat ≤ 0x7FF
    · rw [if_pos htwo]
      refine Or.inr (Or.inl ⟨by omega, by omega, ?_⟩)
      rw [Nat.mod_eq_of_lt (show ch.toNat / 64 < 32 by omega)]
    · rw [if_neg htwo]
      by_cases hthree : ch.toNat ≤ 0xFFFF
      · rw [if_pos hthree]
        refine Or.inr (Or.inr (Or.inl ⟨by omega, by omega, ?_⟩))
        rw [Nat.mod_eq_of_lt (show ch.toNat / 4096 < 16 by omega)]
      · rw [if_neg hthree]
        refine Or.inr (Or.inr (Or.inr ⟨by omega, ?_⟩))
        rw [Nat.mod_eq_of_lt (show ch.toNat / 262144 < 8 by omega)]

theorem begin_ascii {n : Nat} (h : n < 0x80) : begin n = ([Char.ofNat n], none) := if_pos h

theorem begin_two {n : Nat} (hlow : 0xC2 ≤ n) (hhigh : n ≤ 0xDF) :
    begin n = ([], some ⟨n - 0xC0, 1, 0x80, 0xBF⟩) := by
  unfold begin
  rw [if_neg (by omega), if_pos ⟨hlow, hhigh⟩]

theorem begin_three {n : Nat} (hlow : 0xE0 ≤ n) (hhigh : n ≤ 0xEF) : begin n =
    ([], some ⟨n - 0xE0, 2, if n = 0xE0 then 0xA0 else 0x80, if n = 0xED then 0x9F else 0xBF⟩) := by
  unfold begin
  rw [if_neg (by omega), if_neg (by omega), if_pos ⟨hlow, hhigh⟩]

theorem begin_four {n : Nat} (hlow : 0xF0 ≤ n) (hhigh : n ≤ 0xF4) : begin n =
    ([], some ⟨n - 0xF0, 3, if n = 0xF0 then 0x90 else 0x80, if n = 0xF4 then 0x8F else 0xBF⟩) := by
  unfold begin
  rw [if_neg (by omega), if_neg (by omega), if_neg (by omega), if_pos ⟨hlow, hhigh⟩]

theorem begin_continuation {n : Nat} (hlow : 0x80 ≤ n) (hhigh : n ≤ 0xBF) : begin n = ([replacement], none) := by
  unfold begin
  rw [if_neg (by omega), if_neg (by omega), if_neg (by omega), if_neg (by omega)]

theorem step_last (value : Nat) {low high n : Nat} (hlow : low ≤ n) (hhigh : n ≤ high) :
    step (some ⟨value, 1, low, high⟩) n = ([Char.ofNat (value * 64 + (n - 0x80))], none) := by
  unfold step
  simp only
  rw [if_pos ⟨hlow, hhigh⟩]
  rfl

theorem step_inner (value : Nat) {more low high n : Nat} (hlow : low ≤ n) (hhigh : n ≤ high) (hmore : more ≠ 1) :
    step (some ⟨value, more, low, high⟩) n = ([], some ⟨value * 64 + (n - 0x80), more - 1, 0x80, 0xBF⟩) := by
  unfold step
  simp only
  rw [if_pos ⟨hlow, hhigh⟩, if_neg hmore]

/-- The bytes of a character: a first one that begins it, and continuation bytes that complete it. -/
structure Spelled (ch : Char) (first : UInt8) (others : List UInt8) : Prop where
  encoded : String.utf8EncodeChar ch = first :: others
  continued : ∀ byte ∈ others, 0x80 ≤ byte.toNat ∧ byte.toNat ≤ 0xBF
  started : ¬ (0x80 ≤ first.toNat ∧ first.toNat ≤ 0xBF)
  short : others.length ≤ 3
  begun : ∀ count, count < others.length →
    ∃ state, decodeFrom none (first :: others.take count) = ([], some state)
  decoded : decodeFrom none (first :: others) = ([ch], none)

theorem toNat_byte {n : Nat} (h : n < 256) : (UInt8.ofNat n).toNat = n := by
  rw [UInt8.toNat_ofNat', Nat.mod_eq_of_lt h]

theorem spelled_one (h : ch.toNat < 0x80) (hencoded : String.utf8EncodeChar ch = [UInt8.ofNat ch.toNat]) :
    Spelled ch (UInt8.ofNat ch.toNat) [] := by
  have hbyte := toNat_byte (show ch.toNat < 256 by omega)
  refine ⟨hencoded, fun _ hmem => absurd hmem List.not_mem_nil, ?_, Nat.zero_le _, fun _ hcount => absurd hcount (Nat.not_lt_zero _), ?_⟩
  · rw [hbyte]
    omega
  · rw [decodeFrom, step, hbyte, begin_ascii h, Char.ofNat_toNat]
    rfl

theorem spelled_two (hlow : 0x80 ≤ ch.toNat) (hhigh : ch.toNat < 0x800) (hencoded : String.utf8EncodeChar ch =
    [UInt8.ofNat (ch.toNat / 64 + 0xC0), UInt8.ofNat (ch.toNat % 64 + 0x80)]) :
    Spelled ch (UInt8.ofNat (ch.toNat / 64 + 0xC0)) [UInt8.ofNat (ch.toNat % 64 + 0x80)] := by
  have hfirst := toNat_byte (show ch.toNat / 64 + 0xC0 < 256 by omega)
  have hsecond := toNat_byte (show ch.toNat % 64 + 0x80 < 256 by omega)
  have hbegin := begin_two (n := ch.toNat / 64 + 0xC0) (by omega) (by omega)
  refine ⟨hencoded, ?_, ?_, Nat.le_add_left 1 2, ?_, ?_⟩
  · intro byte hbyte
    rw [List.mem_singleton.mp hbyte, hsecond]
    omega
  · rw [hfirst]
    omega
  · intro count hcount
    obtain rfl : count = 0 := Nat.lt_one_iff.mp hcount
    exact ⟨_, by rw [List.take_zero, decodeFrom, step, hfirst, hbegin]; rfl⟩
  · have hlast := step_last (ch.toNat / 64 + 0xC0 - 0xC0) (show 0x80 ≤ ch.toNat % 64 + 0x80 by omega)
      (show ch.toNat % 64 + 0x80 ≤ 0xBF by omega)
    have hvalue : (ch.toNat / 64 + 0xC0 - 0xC0) * 64 + (ch.toNat % 64 + 0x80 - 0x80) = ch.toNat := by omega
    rw [hvalue, Char.ofNat_toNat] at hlast
    rw [decodeFrom, decodeFrom, step, hfirst, hbegin, hsecond, hlast]
    rfl

theorem spelled_three (hlow : 0x800 ≤ ch.toNat) (hhigh : ch.toNat < 0x10000) (hencoded : String.utf8EncodeChar ch =
    [UInt8.ofNat (ch.toNat / 4096 + 0xE0), UInt8.ofNat (ch.toNat / 64 % 64 + 0x80),
      UInt8.ofNat (ch.toNat % 64 + 0x80)]) :
    Spelled ch (UInt8.ofNat (ch.toNat / 4096 + 0xE0))
      [UInt8.ofNat (ch.toNat / 64 % 64 + 0x80), UInt8.ofNat (ch.toNat % 64 + 0x80)] := by
  have hvalid := toNat_valid ch
  have hfirst := toNat_byte (show ch.toNat / 4096 + 0xE0 < 256 by omega)
  have hsecond := toNat_byte (show ch.toNat / 64 % 64 + 0x80 < 256 by omega)
  have hthird := toNat_byte (show ch.toNat % 64 + 0x80 < 256 by omega)
  have hbegin := begin_three (n := ch.toNat / 4096 + 0xE0) (by omega) (by omega)
  -- the ranges of the second byte leave out shorter spellings and surrogates
  have hsecondlow : (if ch.toNat / 4096 + 0xE0 = 0xE0 then 0xA0 else 0x80) ≤ ch.toNat / 64 % 64 + 0x80 := by
    split <;> omega
  have hsecondhigh : ch.toNat / 64 % 64 + 0x80 ≤ (if ch.toNat / 4096 + 0xE0 = 0xED then 0x9F else 0xBF) := by
    split <;> omega
  have hinner := step_inner (ch.toNat / 4096 + 0xE0 - 0xE0) hsecondlow hsecondhigh (show 2 ≠ 1 by decide)
  refine ⟨hencoded, ?_, ?_, Nat.le_add_left 2 1, ?_, ?_⟩
  · intro byte hbyte
    rcases List.mem_cons.mp hbyte with rfl | hbyte
    · rw [hsecond]
      omega
    · rw [List.mem_singleton.mp hbyte, hthird]
      omega
  · rw [hfirst]
    omega
  · intro count hcount
    rcases Nat.le_one_iff_eq_zero_or_eq_one.mp (Nat.le_of_lt_succ hcount) with rfl | rfl
    · exact ⟨_, by rw [List.take_zero, decodeFrom, step, hfirst, hbegin]; rfl⟩
    · exact ⟨_, by
        rw [List.take_succ_cons, List.take_zero, decodeFrom, decodeFrom, step, hfirst, hbegin, hsecond, hinner]
        rfl⟩
  · have hlast := step_last ((ch.toNat / 4096 + 0xE0 - 0xE0) * 64 + (ch.toNat / 64 % 64 + 0x80 - 0x80))
      (show 0x80 ≤ ch.toNat % 64 + 0x80 by omega) (show ch.toNat % 64 + 0x80 ≤ 0xBF by omega)
    have hvalue : ((ch.toNat / 4096 + 0xE0 - 0xE0) * 64 + (ch.toNat / 64 % 64 + 0x80 - 0x80)) * 64 +
        (ch.toNat % 64 + 0x80 - 0x80) = ch.toNat := by omega
    rw [hvalue, Char.ofNat_toNat] at hlast
    rw [decodeFrom, decodeFrom, decodeFrom, step, hfirst, hbegin, hsecond, hinner, hthird, hlast]
    rfl

theorem spelled_four (hlow : 0x10000 ≤ ch.toNat) (hencoded : String.utf8EncodeChar ch =
    [UInt8.ofNat (ch.toNat / 262144 + 0xF0), UInt8.ofNat (ch.toNat / 4096 % 64 + 0x80),
      UInt8.ofNat (ch.toNat / 64 % 64 + 0x80), UInt8.ofNat (ch.toNat % 64 + 0x80)]) :
    Spelled ch (UInt8.ofNat (ch.toNat / 262144 + 0xF0)) [UInt8.ofNat (ch.toNat / 4096 % 64 + 0x80),
      UInt8.ofNat (ch.toNat / 64 % 64 + 0x80), UInt8.ofNat (ch.toNat % 64 + 0x80)] := by
  have hvalid := toNat_valid ch
  have hfirst := toNat_byte (show ch.toNat / 262144 + 0xF0 < 256 by omega)
  have hsecond := toNat_byte (show ch.toNat / 4096 % 64 + 0x80 < 256 by omega)
  have hthird := toNat_byte (show ch.toNat / 64 % 64 + 0x80 < 256 by omega)
  have hfourth := toNat_byte (show ch.toNat % 64 + 0x80 < 256 by omega)
  have hbegin := begin_four (n := ch.toNat / 262144 + 0xF0) (by omega) (by omega)
  have hsecondlow : (if ch.toNat / 262144 + 0xF0 = 0xF0 then 0x90 else 0x80) ≤ ch.toNat / 4096 % 64 + 0x80 := by
    split <;> omega
  have hsecondhigh : ch.toNat / 4096 % 64 + 0x80 ≤ (if ch.toNat / 262144 + 0xF0 = 0xF4 then 0x8F else 0xBF) := by
    split <;> omega
  have hinner := step_inner (ch.toNat / 262144 + 0xF0 - 0xF0) hsecondlow hsecondhigh (show 3 ≠ 1 by decide)
  have hmiddle := step_inner ((ch.toNat / 262144 + 0xF0 - 0xF0) * 64 + (ch.toNat / 4096 % 64 + 0x80 - 0x80))
    (show 0x80 ≤ ch.toNat / 64 % 64 + 0x80 by omega) (show ch.toNat / 64 % 64 + 0x80 ≤ 0xBF by omega)
    (show 3 - 1 ≠ 1 by decide)
  refine ⟨hencoded, ?_, ?_, Nat.le_refl 3, ?_, ?_⟩
  · intro byte hbyte
    rcases List.mem_cons.mp hbyte with rfl | hbyte
    · rw [hsecond]
      omega
    · rcases List.mem_cons.mp hbyte with rfl | hbyte
      · rw [hthird]
        omega
      · rw [List.mem_singleton.mp hbyte, hfourth]
        omega
  · rw [hfirst]
    omega
  · intro count hcount
    have hcases : count = 0 ∨ count = 1 ∨ count = 2 := by
      simp only [List.length_cons, List.length_nil] at hcount
      omega
    rcases hcases with rfl | rfl | rfl
    · exact ⟨_, by rw [List.take_zero, decodeFrom, step, hfirst, hbegin]; rfl⟩
    · exact ⟨_, by
        rw [List.take_succ_cons, List.take_zero, decodeFrom, decodeFrom, step, hfirst, hbegin, hsecond, hinner]
        rfl⟩
    · exact ⟨_, by
        rw [List.take_succ_cons, List.take_succ_cons, List.take_zero, decodeFrom, decodeFrom, decodeFrom, step, hfirst,
          hbegin, hsecond, hinner, hthird, hmiddle]
        rfl⟩
  · have hlast := step_last (((ch.toNat / 262144 + 0xF0 - 0xF0) * 64 + (ch.toNat / 4096 % 64 + 0x80 - 0x80)) * 64 +
      (ch.toNat / 64 % 64 + 0x80 - 0x80)) (show 0x80 ≤ ch.toNat % 64 + 0x80 by omega)
      (show ch.toNat % 64 + 0x80 ≤ 0xBF by omega)
    have hvalue : (((ch.toNat / 262144 + 0xF0 - 0xF0) * 64 + (ch.toNat / 4096 % 64 + 0x80 - 0x80)) * 64 +
        (ch.toNat / 64 % 64 + 0x80 - 0x80)) * 64 + (ch.toNat % 64 + 0x80 - 0x80) = ch.toNat := by omega
    rw [hvalue, Char.ofNat_toNat] at hlast
    rw [decodeFrom, decodeFrom, decodeFrom, decodeFrom, step, hfirst, hbegin, hsecond, hinner, hthird, hmiddle,
      hfourth, hlast]
    rfl

theorem exists_spelled (ch : Char) : ∃ first others, Spelled ch first others := by
  rcases encode_cases ch with ⟨h, hencoded⟩ | ⟨hlow, hhigh, hencoded⟩ | ⟨hlow, hhigh, hencoded⟩ | ⟨hlow, hencoded⟩
  · exact ⟨_, _, spelled_one h hencoded⟩
  · exact ⟨_, _, spelled_two hlow hhigh hencoded⟩
  · exact ⟨_, _, spelled_three hlow hhigh hencoded⟩
  · exact ⟨_, _, spelled_four hlow hencoded⟩

/-! ## Encoded texts -/

theorem decodeFrom_char (ch : Char) (rest : List UInt8) : decodeFrom none (String.utf8EncodeChar ch ++ rest) =
    (ch :: (decodeFrom none rest).1, (decodeFrom none rest).2) := by
  obtain ⟨first, others, hspelled⟩ := exists_spelled ch
  rw [decodeFrom_append, hspelled.encoded, hspelled.decoded]
  rfl

theorem encode_cons (ch : Char) (chars : List Char) : encode (ch :: chars) = String.utf8EncodeChar ch ++ encode chars :=
  List.flatMap_cons

theorem encode_append (chars others : List Char) : encode (chars ++ others) = encode chars ++ encode others :=
  List.flatMap_append

theorem length_encode (chars : List Char) : (encode chars).length = Utf8Text.size chars := by
  rw [← Utf8Text.length_bytes_ofList, Utf8Text.bytes_ofList]
  rfl

theorem decodeFrom_encode (chars : List Char) (rest : List UInt8) : decodeFrom none (encode chars ++ rest) =
    (chars ++ (decodeFrom none rest).1, (decodeFrom none rest).2) := by
  induction chars with
  | nil => rfl
  | cons ch chars ih =>
    rw [encode_cons, List.append_assoc, decodeFrom_char, ih]
    rfl

theorem decode_encode (chars : List Char) : decode (encode chars) = chars := by
  unfold decode
  rw [← List.append_nil (encode chars), decodeFrom_encode]
  simp [decodeFrom, flush]

/-- An encoded text that begins as another one is that one and an encoded text. -/
theorem encode_prefix {others : List Char} (h : encode chars ++ rest = encode others) :
    ∃ last, others = chars ++ last ∧ rest = encode last := by
  induction chars generalizing others with
  | nil => exact ⟨others, rfl, h⟩
  | cons ch chars ih =>
    obtain ⟨first, bytes, hspelled⟩ := exists_spelled ch
    rw [encode_cons, List.append_assoc] at h
    cases others with
    | nil =>
      rw [hspelled.encoded] at h
      cases h
    | cons other others =>
      rw [encode_cons] at h
      have hdecoded := congrArg (fun bytes => (decodeFrom none bytes).1) h
      simp only [decodeFrom_char, List.cons.injEq] at hdecoded
      obtain ⟨rfl, -⟩ := hdecoded
      obtain ⟨last, rfl, hrest⟩ := ih (List.append_cancel_left h)
      exact ⟨last, rfl, hrest⟩

/-! ## Cut texts -/

/-- The beginning of an encoded text: whole characters, and perhaps a sequence that one more byte
would still go on with. -/
theorem decodeFrom_take (count : Nat) (chars : List Char) :
    ∃ kept state, kept <+: chars ∧ decodeFrom none ((encode chars).take count) = (kept, state) ∧
      Utf8Text.size kept + (flush state).length ≤ ((encode chars).take count).length := by
  induction chars generalizing count with
  | nil => exact ⟨[], none, List.prefix_rfl, by rw [encode, List.flatMap_nil, List.take_nil]; rfl, Nat.zero_le _⟩
  | cons ch chars ih =>
    obtain ⟨first, others, hspelled⟩ := exists_spelled ch
    have hsize : (first :: others).length = ch.utf8Size := by
      rw [← hspelled.encoded, String.length_utf8EncodeChar]
    by_cases hwhole : ch.utf8Size ≤ count
    · obtain ⟨kept, state, hkept, hdecoded, hlength⟩ := ih (count - ch.utf8Size)
      have htake : (encode (ch :: chars)).take count =
          String.utf8EncodeChar ch ++ (encode chars).take (count - ch.utf8Size) := by
        rw [encode_cons, List.take_append, String.length_utf8EncodeChar,
          List.take_of_length_le (by rw [String.length_utf8EncodeChar]; exact hwhole)]
      refine ⟨ch :: kept, state, List.cons_prefix_cons.mpr ⟨rfl, hkept⟩, ?_, ?_⟩
      · rw [htake, decodeFrom_char, hdecoded]
      · rw [htake, List.length_append, String.length_utf8EncodeChar, Utf8Text.size_cons]
        omega
    · have htake : (encode (ch :: chars)).take count = (first :: others).take count := by
        rw [encode_cons, hspelled.encoded, List.take_append_of_le_length (by omega)]
      rw [htake]
      cases count with
      | zero => exact ⟨[], none, List.nil_prefix, rfl, Nat.zero_le _⟩
      | succ count =>
        rw [List.length_cons] at hsize
        obtain ⟨state, hstate⟩ := hspelled.begun count (by omega)
        refine ⟨[], some state, List.nil_prefix, hstate, ?_⟩
        rw [List.take_succ_cons, List.length_cons]
        exact Nat.le_add_left 1 _

/-- The end of an encoded text: at most three bytes of a cut character, and whole characters. -/
theorem drop_encode (count : Nat) (chars : List Char) :
    ∃ stray others, (encode chars).drop count = stray ++ encode others ∧ stray.length ≤ 3 ∧
      ∀ byte ∈ stray, 0x80 ≤ byte.toNat ∧ byte.toNat ≤ 0xBF := by
  induction chars generalizing count with
  | nil => exact ⟨[], [], List.drop_nil, Nat.zero_le _, fun _ hmem => absurd hmem List.not_mem_nil⟩
  | cons ch chars ih =>
    by_cases hwhole : ch.utf8Size ≤ count
    · obtain ⟨stray, others, hdrop, hstray⟩ := ih (count - ch.utf8Size)
      refine ⟨stray, others, ?_, hstray⟩
      rw [encode_cons, List.drop_append, String.length_utf8EncodeChar, hdrop,
        List.drop_of_length_le (by rw [String.length_utf8EncodeChar]; exact hwhole), List.nil_append]
    · cases count with
      | zero => exact ⟨[], ch :: chars, rfl, Nat.zero_le _, fun _ hmem => absurd hmem List.not_mem_nil⟩
      | succ count =>
        obtain ⟨first, others, hspelled⟩ := exists_spelled ch
        have hsize : (first :: others).length = ch.utf8Size := by
          rw [← hspelled.encoded, String.length_utf8EncodeChar]
        rw [List.length_cons] at hsize
        refine ⟨others.drop count, chars, ?_, ?_, fun byte hbyte => hspelled.continued byte (List.mem_of_mem_drop hbyte)⟩
        · rw [encode_cons, hspelled.encoded, List.cons_append, List.drop_succ_cons,
            List.drop_append_of_le_length (by omega)]
        · have hshort := hspelled.short
          rw [List.length_drop]
          omega

/-- Bytes that begin nothing are replaced one by one. -/
theorem decodeFrom_stray (h : ∀ byte ∈ left, 0x80 ≤ byte.toNat ∧ byte.toNat ≤ 0xBF) (rest : List UInt8) :
    decodeFrom none (left ++ rest) =
      (List.replicate left.length replacement ++ (decodeFrom none rest).1, (decodeFrom none rest).2) := by
  induction left with
  | nil => rfl
  | cons byte left ih =>
    have hbyte := h byte List.mem_cons_self
    rw [List.cons_append, decodeFrom, step, begin_continuation hbyte.1 hbyte.2,
      ih fun other hother => h other (List.mem_cons_of_mem _ hother)]
    rfl

/-! ## ASCII bytes -/

/-- A sequence that only continuation bytes go on with, and that spells no ASCII character. -/
structure Pending.Proper (pending : Pending) : Prop where
  low : 0x80 ≤ pending.low
  large : if pending.more = 1 then 2 ≤ pending.value else 2 ≤ pending.value * 64 + (pending.low - 0x80)

def Proper (pending : Option Pending) : Prop := ∀ state, pending = some state → state.Proper

theorem proper_none : Proper none := by
  intro state h
  cases h

theorem proper_some {state : Pending} (h : state.Proper) : Proper (some state) := fun _ hsame => Option.some.inj hsame ▸ h

theorem proper_begin (n : Nat) : Proper (begin n).2 := by
  unfold begin
  split
  · exact proper_none
  · split
    · exact proper_some ⟨Nat.le_refl _, by rw [if_pos rfl]; show 2 ≤ n - 0xC0; omega⟩
    · split
      · refine proper_some ⟨?_, ?_⟩
        · show 0x80 ≤ if n = 0xE0 then 0xA0 else 0x80
          split <;> omega
        · show 2 ≤ (n - 0xE0) * 64 + ((if n = 0xE0 then 0xA0 else 0x80) - 0x80)
          split <;> omega
      · split
        · refine proper_some ⟨?_, ?_⟩
          · show 0x80 ≤ if n = 0xF0 then 0x90 else 0x80
            split <;> omega
          · show 2 ≤ (n - 0xF0) * 64 + ((if n = 0xF0 then 0x90 else 0x80) - 0x80)
            split <;> omega
        · exact proper_none

theorem proper_step (h : Proper pending) (n : Nat) : Proper (step pending n).2 := by
  cases pending with
  | none => exact proper_begin n
  | some state =>
    obtain ⟨hlow, hlarge⟩ := h state rfl
    rw [step]
    split
    · next hrange =>
      split
      · exact proper_none
      · next hmore =>
        rw [if_neg hmore] at hlarge
        refine proper_some ⟨Nat.le_refl _, ?_⟩
        show if state.more - 1 = 1 then 2 ≤ state.value * 64 + (n - 0x80)
          else 2 ≤ (state.value * 64 + (n - 0x80)) * 64 + (0x80 - 0x80)
        split <;> omega
    · exact proper_begin n

theorem proper_decodeFrom (h : Proper pending) (bytes : List UInt8) : Proper (decodeFrom pending bytes).2 := by
  induction bytes generalizing pending with
  | nil => exact h
  | cons byte rest ih => exact ih (proper_step h byte.toNat)

/-- An ASCII byte ends every sequence that has begun, and stands for its character. -/
theorem step_ascii (h : Proper pending) {n : Nat} (hn : n < 0x80) :
    step pending n = (flush pending ++ [Char.ofNat n], none) := by
  cases pending with
  | none => exact begin_ascii hn
  | some state =>
    have hlow := (h state rfl).low
    rw [step, if_neg (by omega), begin_ascii hn]
    rfl

/-- A character that is not an ASCII one, the null character apart. -/
def Foreign (ch : Char) : Prop := ch.toNat = 0 ∨ 0x80 ≤ ch.toNat

theorem foreign_replacement : Foreign replacement := Or.inr (by decide)

theorem foreign_ofNat {n : Nat} (h : 0x80 ≤ n) : Foreign (Char.ofNat n) := by
  unfold Foreign
  by_cases hvalid : n.isValidChar
  · rw [Char.ofNat, dif_pos hvalid]
    exact Or.inr h
  · rw [Char.ofNat, dif_neg hvalid]
    exact Or.inl rfl

theorem foreign_begin {n : Nat} (h : 0x80 ≤ n) : ∀ ch ∈ (begin n).1, Foreign ch := by
  unfold begin
  rw [if_neg (by omega)]
  split
  · exact fun _ hmem => absurd hmem List.not_mem_nil
  · split
    · exact fun _ hmem => absurd hmem List.not_mem_nil
    · split
      · exact fun _ hmem => absurd hmem List.not_mem_nil
      · intro ch hch
        rw [List.mem_singleton.mp hch]
        exact foreign_replacement

theorem foreign_step (h : Proper pending) {n : Nat} (hn : 0x80 ≤ n) : ∀ ch ∈ (step pending n).1, Foreign ch := by
  cases pending with
  | none => exact foreign_begin hn
  | some state =>
    obtain ⟨hlow, hlarge⟩ := h state rfl
    rw [step]
    split
    · next hrange =>
      split
      · next hmore =>
        rw [if_pos hmore] at hlarge
        intro ch hch
        rw [List.mem_singleton.mp hch]
        exact foreign_ofNat (by omega)
      · exact fun _ hmem => absurd hmem List.not_mem_nil
    · intro ch hch
      rcases List.mem_cons.mp hch with rfl | hch
      · exact foreign_replacement
      · exact foreign_begin hn ch hch

/-- The text of a stream that goes on from a sequence and ends. -/
def textFrom (pending : Option Pending) (bytes : List UInt8) : List Char :=
  (decodeFrom pending bytes).1 ++ flush (decodeFrom pending bytes).2

theorem textFrom_cons : textFrom pending (byte :: rest) =
    (step pending byte.toNat).1 ++ textFrom (step pending byte.toNat).2 rest := by
  unfold textFrom
  rw [decodeFrom, List.append_assoc]

theorem textFrom_append : textFrom pending (left ++ right) =
    (decodeFrom pending left).1 ++ textFrom (decodeFrom pending left).2 right := by
  unfold textFrom
  rw [decodeFrom_append, List.append_assoc]

/-- The text of a sequence that has begun does not begin with an ASCII character. -/
theorem foreign_head {state : Pending} (h : state.Proper) (bytes : List UInt8) :
    ∃ ch rest, textFrom (some state) bytes = ch :: rest ∧ Foreign ch := by
  induction bytes generalizing state with
  | nil => exact ⟨replacement, [], rfl, foreign_replacement⟩
  | cons byte rest ih =>
    obtain ⟨hlow, hlarge⟩ := id h
    have hproper := proper_step (proper_some h) byte.toNat
    rw [textFrom_cons]
    by_cases hrange : state.low ≤ byte.toNat ∧ byte.toNat ≤ state.high
    · by_cases hmore : state.more = 1
      · rw [if_pos hmore] at hlarge
        rw [step, if_pos hrange, if_pos hmore]
        exact ⟨_, _, rfl, foreign_ofNat (by omega)⟩
      · rw [step, if_pos hrange, if_neg hmore] at hproper ⊢
        exact ih (hproper _ rfl)
    · rw [step, if_neg hrange]
      exact ⟨replacement, _, rfl, foreign_replacement⟩

/-! ## ASCII words -/

/-- The bytes of a word of ASCII characters other than the null character. -/
def Word (word : List UInt8) : Prop := ∀ byte ∈ word, 0 < byte.toNat ∧ byte.toNat < 0x80

def charOf (byte : UInt8) : Char := Char.ofNat byte.toNat

theorem toNat_charOf (h : byte.toNat < 0x80) : (charOf byte).toNat = byte.toNat := by
  have hvalid : byte.toNat.isValidChar := Or.inl (by omega)
  rw [charOf, Char.ofNat, dif_pos hvalid]
  rfl

theorem not_foreign_charOf (hpos : 0 < byte.toNat) (h : byte.toNat < 0x80) : ¬ Foreign (charOf byte) := by
  unfold Foreign
  rw [toNat_charOf h]
  omega

theorem charOf_injective {other : UInt8} (h : byte.toNat < 0x80) (hother : other.toNat < 0x80)
    (hsame : charOf byte = charOf other) : byte = other := by
  have hnat := congrArg Char.toNat hsame
  rw [toNat_charOf h, toNat_charOf hother] at hnat
  exact UInt8.toNat_inj.mp hnat

variable {word : List UInt8}

/-- No word stands at a character that is not an ASCII one. -/
theorem not_prefix_foreign (hword : Word (byte :: word)) (hch : Foreign ch) :
    ¬ (byte :: word).map charOf <+: ch :: chars := by
  intro h
  rw [List.map_cons, List.cons_prefix_cons] at h
  obtain ⟨hpos, hlow⟩ := hword byte List.mem_cons_self
  exact not_foreign_charOf hpos hlow (h.1 ▸ hch)

theorem prefix_textFrom (hword : Word word) (bytes : List UInt8) :
    word.map charOf <+: textFrom none bytes ↔ word <+: bytes := by
  induction word generalizing bytes with
  | nil => exact ⟨fun _ => List.nil_prefix, fun _ => List.nil_prefix⟩
  | cons first word ih =>
    obtain ⟨hpos, hlow⟩ := hword first List.mem_cons_self
    cases bytes with
    | nil =>
      constructor
      · intro h
        exact absurd h.length_le (by simp [textFrom, decodeFrom, flush])
      · intro h
        exact absurd h.length_le (by simp)
    | cons byte rest =>
      by_cases hbyte : byte.toNat < 0x80
      · rw [textFrom_cons, step_ascii proper_none hbyte]
        show (first :: word).map charOf <+: charOf byte :: textFrom none rest ↔ _
        rw [List.map_cons, List.cons_prefix_cons, List.cons_prefix_cons,
          ih (fun other hother => hword other (List.mem_cons_of_mem _ hother)) rest]
        constructor
        · exact fun h => ⟨charOf_injective hlow hbyte h.1, h.2⟩
        · exact fun h => ⟨by rw [h.1], h.2⟩
      · constructor
        · intro h
          have hproper := proper_begin byte.toNat
          rw [textFrom_cons] at h
          cases hemitted : (step none byte.toNat).1 with
          | cons ch chars =>
            rw [hemitted, List.cons_append] at h
            have hforeign := foreign_step proper_none (show 0x80 ≤ byte.toNat by omega) ch
              (by rw [hemitted]; exact List.mem_cons_self)
            exact absurd h (not_prefix_foreign hword hforeign)
          | nil =>
            cases hstate : (step none byte.toNat).2 with
            | none =>
              -- a byte that emits nothing begins a sequence
              exfalso
              revert hemitted hstate
              show (begin byte.toNat).1 = [] → (begin byte.toNat).2 = none → False
              unfold begin
              rw [if_neg hbyte]
              split
              · intro _ hnone; cases hnone
              · split
                · intro _ hnone; cases hnone
                · split
                  · intro _ hnone; cases hnone
                  · intro hnil; cases hnil
            | some state =>
              obtain ⟨ch, chars, htext, hforeign⟩ := foreign_head (hproper state hstate) rest
              rw [hemitted, hstate, htext] at h
              exact absurd h (not_prefix_foreign hword hforeign)
        · intro h
          rw [(List.cons_prefix_cons.mp h).1] at hlow
          exact absurd hlow hbyte

/-- Characters that are no ASCII ones hold no part of a word. -/
theorem infix_foreign (hword : Word (byte :: word)) {emitted : List Char} (h : ∀ ch ∈ emitted, Foreign ch) :
    (byte :: word).map charOf <:+: emitted ++ chars ↔ (byte :: word).map charOf <:+: chars := by
  induction emitted with
  | nil => exact Iff.rfl
  | cons ch emitted ih =>
    rw [List.cons_append, List.infix_cons_iff, ih fun other hother => h other (List.mem_cons_of_mem _ hother)]
    constructor
    · rintro (hbegins | hwithin)
      · exact absurd hbegins (not_prefix_foreign hword (h ch List.mem_cons_self))
      · exact hwithin
    · exact Or.inr

theorem foreign_flush (pending : Option Pending) : ∀ ch ∈ flush pending, Foreign ch := by
  cases pending with
  | none => exact fun _ hmem => absurd hmem List.not_mem_nil
  | some state =>
    intro ch hch
    rw [List.mem_singleton.mp hch]
    exact foreign_replacement

/-- A word of ASCII characters stands in the decoded text exactly where its bytes stand. -/
theorem infix_textFrom (hword : Word (byte :: word)) (hpending : Proper pending) (bytes : List UInt8) :
    (byte :: word).map charOf <:+: textFrom pending bytes ↔ byte :: word <:+: bytes := by
  induction bytes generalizing pending with
  | nil =>
    constructor
    · intro h
      have hflush := (infix_foreign hword (foreign_flush pending)).mp
        (show (byte :: word).map charOf <:+: flush pending ++ [] by rw [List.append_nil]; exact h)
      exact absurd hflush.length_le (by simp)
    · intro h
      exact absurd h.length_le (by simp)
  | cons first rest ih =>
    rw [textFrom_cons, List.infix_cons_iff]
    by_cases hfirst : first.toNat < 0x80
    · have hbegins := prefix_textFrom hword (first :: rest)
      rw [textFrom_cons, step_ascii proper_none hfirst] at hbegins
      rw [step_ascii hpending hfirst, List.append_assoc, infix_foreign hword (foreign_flush pending)]
      show (byte :: word).map charOf <:+: charOf first :: textFrom none rest ↔ _
      rw [List.infix_cons_iff, ih proper_none]
      exact or_congr hbegins Iff.rfl
    · rw [infix_foreign hword (foreign_step hpending (by omega)), ih (proper_step hpending first.toNat)]
      constructor
      · exact Or.inr
      · rintro (hbegins | hwithin)
        · have hlow := (hword byte List.mem_cons_self).2
          rw [(List.cons_prefix_cons.mp hbegins).1] at hlow
          exact absurd hlow hfirst
        · exact hwithin

theorem infix_decode (hword : Word (byte :: word)) (bytes : List UInt8) :
    (byte :: word).map charOf <:+: decode bytes ↔ byte :: word <:+: bytes :=
  infix_textFrom hword proper_none bytes

/-! ## A window on an encoded text -/

theorem size_replacements (count : Nat) : Utf8Text.size (List.replicate count replacement) = 3 * count := by
  induction count with
  | zero => rfl
  | succ count ih =>
    have hone : replacement.utf8Size = 3 := by decide
    rw [List.replicate_succ, Utf8Text.size_cons, ih, hone]
    omega

/-- Two parts of encoded texts around a separator take at most eight bytes more once decoded. -/
theorem size_decode_cut (chars others : List Char) (count offset : Nat) (mark : Char) (separator : List Char)
    (hmark : mark.toNat < 0x80) :
    Utf8Text.size (decode ((encode chars).take count ++ encode (mark :: separator) ++ (encode others).drop offset)) ≤
      ((encode chars).take count).length + (encode (mark :: separator)).length +
        ((encode others).drop offset).length + 8 := by
  obtain ⟨kept, state, -, hkept, hsize⟩ := decodeFrom_take count chars
  obtain ⟨stray, last, hdrop, hshort, hstray⟩ := drop_encode offset others
  have hproper := proper_decodeFrom proper_none ((encode chars).take count)
  rw [hkept] at hproper
  have hmarked : encode (mark :: separator) = UInt8.ofNat mark.toNat :: encode separator := by
    rw [encode_cons, Utf8Text.utf8EncodeChar_ascii hmark]
    rfl
  have hbyte : (UInt8.ofNat mark.toNat).toNat < 0x80 := by
    rw [toNat_byte (by omega)]
    exact hmark
  have hdecoded : decode ((encode chars).take count ++ encode (mark :: separator) ++ (encode others).drop offset) =
      kept ++ (flush state ++ (mark :: separator ++ (List.replicate stray.length replacement ++ last))) := by
    show textFrom none _ = _
    rw [List.append_assoc, textFrom_append, hkept, hmarked, List.cons_append, textFrom_cons, step_ascii hproper hbyte,
      hdrop]
    show kept ++ ((flush state ++ [charOf (UInt8.ofNat mark.toNat)]) ++ textFrom none _) = _
    have hsame : charOf (UInt8.ofNat mark.toNat) = mark := by
      rw [charOf, toNat_byte (by omega), Char.ofNat_toNat]
    unfold textFrom
    rw [decodeFrom_encode, hsame, decodeFrom_stray hstray, ← List.append_nil (encode last), decodeFrom_encode]
    simp [decodeFrom, flush]
  have hflush : Utf8Text.size (flush state) ≤ (flush state).length + 2 := by
    cases state with
    | none => exact Nat.zero_le _
    | some state =>
      show Utf8Text.size [replacement] ≤ 3
      decide
  have hreplaced := size_replacements stray.length
  have hmarkedsize : (encode (mark :: separator)).length = Utf8Text.size (mark :: separator) := length_encode _
  rw [hdecoded, hdrop, List.length_append, length_encode last, hmarkedsize]
  simp only [Utf8Text.size_append]
  rw [hreplaced]
  omega

/-! ## Rewriting encoded texts -/

/-- Rules between encoded texts keep a text encoded. -/
theorem rewrite_encoded {rules : List (List UInt8 × List UInt8)} (hne : ∀ rule ∈ rules, rule.1 ≠ [])
    (hleft : ∀ rule ∈ rules, ∃ chars, rule.1 = encode chars) (hright : ∀ rule ∈ rules, ∃ chars, rule.2 = encode chars)
    (chars : List Char) : ∃ others, Rewriting.rewrite rules 0 (encode chars) = encode others := by
  -- a rule does not begin inside a character, so what is left of one is copied
  have hall : ∀ stray chars, (∀ byte ∈ stray, 0x80 ≤ byte.toNat ∧ byte.toNat ≤ 0xBF) →
      ∀ text, text = stray ++ encode chars →
        ∃ others, Rewriting.rewrite rules 0 text = stray ++ encode others := by
    intro stray chars hstray text
    refine Rewriting.rewrite_induction (motive := fun text out => ∀ stray chars,
      (∀ byte ∈ stray, 0x80 ≤ byte.toNat ∧ byte.toNat ≤ 0xBF) → text = stray ++ encode chars →
        ∃ others, out = stray ++ encode others) hne ?_ ?_ ?_ text stray chars hstray
    · intro stray chars _ h
      obtain ⟨rfl, -⟩ := List.append_eq_nil_iff.mp h.symm
      exact ⟨[], rfl⟩
    · intro rule hrule rest _ ih stray chars hstray h
      obtain ⟨spelled, hspelled⟩ := hleft rule hrule
      obtain ⟨replaced, hreplaced⟩ := hright rule hrule
      cases spelled with
      | nil => exact absurd hspelled (hne rule hrule)
      | cons ch spelled =>
        obtain ⟨first, others, hfirst⟩ := exists_spelled ch
        cases stray with
        | cons byte stray =>
          rw [hspelled, encode_cons, hfirst.encoded, List.cons_append, List.cons_append, List.cons_append,
            List.cons.injEq] at h
          exact absurd (h.1 ▸ hstray byte List.mem_cons_self) hfirst.started
        | nil =>
          rw [hspelled] at h
          obtain ⟨last, -, hlast⟩ := encode_prefix h
          obtain ⟨found, hfound⟩ := ih [] last (fun _ hmem => absurd hmem List.not_mem_nil) hlast
          refine ⟨replaced ++ found, ?_⟩
          rw [hreplaced, hfound, encode_append]
          rfl
    · intro first rest _ ih stray chars hstray h
      cases stray with
      | cons byte stray =>
        rw [List.cons_append, List.cons.injEq] at h
        obtain ⟨rfl, hrest⟩ := h
        obtain ⟨found, hfound⟩ := ih stray chars (fun other hother => hstray other (List.mem_cons_of_mem _ hother)) hrest
        exact ⟨found, by rw [hfound, List.cons_append]⟩
      | nil =>
        cases chars with
        | nil => cases h
        | cons ch chars =>
          obtain ⟨byte, others, hspelled⟩ := exists_spelled ch
          rw [List.nil_append, encode_cons, hspelled.encoded, List.cons_append, List.cons.injEq] at h
          obtain ⟨rfl, hrest⟩ := h
          obtain ⟨found, hfound⟩ := ih others chars hspelled.continued hrest
          refine ⟨ch :: found, ?_⟩
          rw [hfound, encode_cons, hspelled.encoded]
          rfl
  exact hall [] chars (fun _ hmem => absurd hmem List.not_mem_nil) _ rfl

end Utf8Replace
