import Mathlib.Algebra.BigOperators.Group.List.Basic
import Mathlib.Algebra.GroupWithZero.Nat

/-! # Text as UTF-8 bytes

The byte list of a text, its partial inverse, and the byte size of a list of
characters. -/
namespace Utf8Text
set_option autoImplicit false

def bytes (text : String) : List UInt8 := text.toByteArray.data.toList

def ofBytes (bytes : List UInt8) : Option String := String.fromUTF8? ⟨bytes.toArray⟩

theorem ofBytes_bytes (text : String) : ofBytes (bytes text) = some text := by
  unfold ofBytes bytes String.fromUTF8?
  rw [Array.toArray_toList, dif_pos text.isValidUTF8]
  rfl

theorem bytes_of_ofBytes {data : List UInt8} {text : String} (h : ofBytes data = some text) :
    bytes text = data := by
  unfold ofBytes String.fromUTF8? at h
  split at h
  · cases h
    rfl
  · cases h

theorem bytes_injective {left right : String} (h : bytes left = bytes right) : left = right := by
  have hsome : some left = some right := by rw [← ofBytes_bytes left, h, ofBytes_bytes]
  exact Option.some.inj hsome

theorem bytes_append (left right : String) : bytes (left ++ right) = bytes left ++ bytes right := by
  unfold bytes
  rw [String.toByteArray_append, ByteArray.data_append, Array.toList_append]

/-- The bytes a list of characters takes. -/
def size (chars : List Char) : Nat := (chars.map Char.utf8Size).sum

@[simp] theorem size_nil : size [] = 0 := rfl

@[simp] theorem size_cons (ch : Char) (rest : List Char) :
    size (ch :: rest) = ch.utf8Size + size rest := by
  simp [size]

@[simp] theorem size_append (left right : List Char) :
    size (left ++ right) = size left + size right := by
  simp [size]

theorem bytes_ofList (chars : List Char) :
    bytes (String.ofList chars) = chars.flatMap String.utf8EncodeChar := by
  unfold bytes
  rw [String.toByteArray_ofList]
  simp [List.utf8Encode]

theorem length_bytes_ofList (chars : List Char) :
    (bytes (String.ofList chars)).length = size chars := by
  rw [bytes_ofList]
  simp [size, List.length_flatMap]

theorem length_bytes_toList (text : String) : (bytes text).length = size text.toList := by
  rw [← length_bytes_ofList, String.ofList_toList]

theorem byte_of_char (byte : UInt8) : UInt8.ofNat (Char.ofNat byte.toNat).toNat = byte := by
  have hvalid : byte.toNat.isValidChar := Or.inl (Nat.lt_trans byte.toNat_lt (by decide))
  have hchar : (Char.ofNat byte.toNat).toNat = byte.toNat := by
    rw [Char.ofNat, dif_pos hvalid]
    rfl
  rw [hchar, UInt8.ofNat_toNat]

/-- A byte below 128 only occurs as the encoding of the character of that number. -/
theorem ascii_of_mem_utf8EncodeChar {ch : Char} {byte : UInt8} (hbyte : byte < 128)
    (h : byte ∈ String.utf8EncodeChar ch) : ch.toNat = byte.toNat := by
  have hlarge : ∀ n, 128 ≤ n → n < 256 → byte ≠ UInt8.ofNat n := by
    rintro n hlow hhigh rfl
    rw [UInt8.lt_iff_toNat_lt, UInt8.toNat_ofNat_of_lt' hhigh] at hbyte
    exact absurd hbyte (by simpa using hlow)
  unfold String.utf8EncodeChar at h
  simp only at h
  split at h
  · next hone =>
    rw [List.mem_singleton] at h
    rw [h, UInt8.toNat_ofNat_of_lt' (Nat.lt_of_le_of_lt hone (by decide))]
    rfl
  · exfalso
    split at h
    · simp only [List.mem_cons, List.not_mem_nil, or_false] at h
      rcases h with h | h <;> exact hlarge _ (by omega) (by omega) h
    · split at h
      · simp only [List.mem_cons, List.not_mem_nil, or_false] at h
        rcases h with h | h | h <;> exact hlarge _ (by omega) (by omega) h
      · simp only [List.mem_cons, List.not_mem_nil, or_false] at h
        rcases h with h | h | h | h <;> exact hlarge _ (by omega) (by omega) h

/-- A text without a given ASCII character has no such byte. -/
theorem not_mem_bytes {chars : List Char} {byte : UInt8} (hbyte : byte < 128)
    (h : ∀ ch ∈ chars, ch.toNat ≠ byte.toNat) : byte ∉ bytes (String.ofList chars) := by
  rw [bytes_ofList]
  intro hmem
  obtain ⟨ch, hch, hin⟩ := List.mem_flatMap.mp hmem
  exact h ch hch (ascii_of_mem_utf8EncodeChar hbyte hin)

theorem zero_not_mem_bytes {chars : List Char} (h : '\x00' ∉ chars) : 0 ∉ bytes (String.ofList chars) := by
  refine not_mem_bytes (by decide) fun ch hch hzero => h ?_
  have hnul : ch = '\x00' := by
    rw [← Char.ofNat_toNat ch, hzero]
    rfl
  rwa [hnul] at hch

theorem utf8EncodeChar_ascii {ch : Char} (h : ch.toNat < 128) :
    String.utf8EncodeChar ch = [UInt8.ofNat ch.toNat] := by
  unfold String.utf8EncodeChar
  exact if_pos (Nat.le_of_lt_succ h)

/-- ASCII characters take one byte each. -/
theorem bytes_ascii {chars : List Char} (h : ∀ ch ∈ chars, ch.toNat < 128) :
    bytes (String.ofList chars) = chars.map fun ch => UInt8.ofNat ch.toNat := by
  rw [bytes_ofList]
  induction chars with
  | nil => rfl
  | cons ch rest ih =>
    rw [List.flatMap_cons, utf8EncodeChar_ascii (h ch List.mem_cons_self), List.map_cons,
      ih fun other hother => h other (List.mem_cons_of_mem _ hother)]
    rfl

/-! ## Cutting at a character boundary -/

/-- The longest beginning within a number of bytes. -/
def upTo : Nat → List Char → List Char
  | _, [] => []
  | offset, ch :: rest => if ch.utf8Size ≤ offset then ch :: upTo (offset - ch.utf8Size) rest else []

/-- `str::is_char_boundary`, for an offset within the text. -/
def isCharBoundary (chars : List Char) (offset : Nat) : Bool := size (upTo offset chars) = offset

variable {chars : List Char} {offset : Nat}

theorem upTo_prefix : upTo offset chars <+: chars := by
  induction chars generalizing offset with
  | nil => exact List.prefix_rfl
  | cons ch rest ih =>
    unfold upTo
    split
    · exact (List.prefix_cons_inj ch).mpr ih
    · exact List.nil_prefix

theorem size_upTo_le : size (upTo offset chars) ≤ offset := by
  induction chars generalizing offset with
  | nil => exact Nat.zero_le offset
  | cons ch rest ih =>
    unfold upTo
    split
    · have hrest : size (upTo (offset - ch.utf8Size) rest) ≤ offset - ch.utf8Size := ih
      rw [size_cons]
      omega
    · exact Nat.zero_le offset

theorem upTo_eq_self (h : size chars ≤ offset) : upTo offset chars = chars := by
  induction chars generalizing offset with
  | nil => rfl
  | cons ch rest ih =>
    rw [size_cons] at h
    rw [upTo, if_pos (by omega), ih (by omega)]

/-- Less than a character is missing to the offset. -/
theorem lt_size_upTo (h : offset < size chars) : offset < size (upTo offset chars) + 4 := by
  induction chars generalizing offset with
  | nil => exact absurd h (Nat.not_lt_zero offset)
  | cons ch rest ih =>
    rw [size_cons] at h
    have hsize := ch.utf8Size_le_four
    unfold upTo
    split
    · have hrest : offset - ch.utf8Size < size (upTo (offset - ch.utf8Size) rest) + 4 := ih (by omega)
      rw [size_cons]
      omega
    · rw [size_nil]
      omega

/-- What fits without reaching the offset fits below it. -/
theorem upTo_succ (h : size (upTo (offset + 1) chars) ≠ offset + 1) : upTo (offset + 1) chars = upTo offset chars := by
  induction chars generalizing offset with
  | nil => rfl
  | cons ch rest ih =>
    unfold upTo at h ⊢
    by_cases hfits : ch.utf8Size ≤ offset
    · rw [if_pos (by omega), size_cons] at h
      have hsub : offset + 1 - ch.utf8Size = offset - ch.utf8Size + 1 := by omega
      rw [hsub] at h
      rw [if_pos (by omega), if_pos hfits, hsub, ih (by omega)]
    · rw [if_neg hfits]
      by_cases hreaches : ch.utf8Size ≤ offset + 1
      · rw [if_pos hreaches, size_cons] at h
        have hsame : offset + 1 - ch.utf8Size = 0 := by omega
        have hle : size (upTo (offset + 1 - ch.utf8Size) rest) ≤ offset + 1 - ch.utf8Size := size_upTo_le
        omega
      · rw [if_neg hreaches]

theorem upTo_size_upTo : upTo (size (upTo offset chars)) chars = upTo offset chars := by
  induction chars generalizing offset with
  | nil => rfl
  | cons ch rest ih =>
    by_cases hfits : ch.utf8Size ≤ offset
    · have hcons : upTo offset (ch :: rest) = ch :: upTo (offset - ch.utf8Size) rest := if_pos hfits
      rw [hcons, size_cons, upTo, if_pos (by omega), Nat.add_sub_cancel_left, ih]
    · have hnil : upTo offset (ch :: rest) = [] := if_neg hfits
      have hpositive := ch.utf8Size_pos
      rw [hnil, size_nil, upTo, if_neg (by omega)]

end Utf8Text
