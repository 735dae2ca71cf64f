import Boxferry.Library.Utf8Text

/-! # JSON numbers

The number grammar of RFC 8259 over characters. Its words are ASCII, so they are their own bytes. -/
namespace JsonNumber
open Utf8Text
set_option autoImplicit false

def IsDigit (ch : Char) : Prop := '0' ≤ ch ∧ ch ≤ '9'

/-- At least one digit. -/
def Digits (chars : List Char) : Prop := chars ≠ [] ∧ ∀ ch ∈ chars, IsDigit ch

/-- The integer part has no leading zero. -/
inductive Whole : List Char → Prop
  | zero : Whole ['0']
  | digits {first : Char} {rest : List Char} (hfirst : IsDigit first) (hzero : first ≠ '0')
      (hrest : ∀ ch ∈ rest, IsDigit ch) : Whole (first :: rest)

inductive Fraction : List Char → Prop
  | absent : Fraction []
  | present {digits : List Char} (hdigits : Digits digits) : Fraction ('.' :: digits)

inductive Exponent : List Char → Prop
  | absent : Exponent []
  | present {mark : Char} {sign digits : List Char} (hmark : mark = 'e' ∨ mark = 'E')
      (hsign : sign = [] ∨ sign = ['+'] ∨ sign = ['-']) (hdigits : Digits digits) :
      Exponent (mark :: (sign ++ digits))

inductive Number : List Char → Prop
  | mk {minus whole fraction exponent : List Char} (hminus : minus = [] ∨ minus = ['-']) (hwhole : Whole whole)
      (hfraction : Fraction fraction) (hexponent : Exponent exponent) :
      Number (minus ++ (whole ++ (fraction ++ exponent)))

/-! ## Bytes -/

def byteOf (ch : Char) : UInt8 := UInt8.ofNat ch.toNat

def charOf (byte : UInt8) : Char := Char.ofNat byte.toNat

theorem byteOf_charOf (byte : UInt8) : byteOf (charOf byte) = byte := byte_of_char byte

theorem map_byteOf_charOf (bytes : List UInt8) : (bytes.map charOf).map byteOf = bytes := by
  rw [List.map_map]
  exact List.map_id'' byteOf_charOf bytes

theorem isDigit_iff {ch : Char} : IsDigit ch ↔ 48 ≤ ch.toNat ∧ ch.toNat ≤ 57 := by
  unfold IsDigit
  rw [Char.le_def, Char.le_def, UInt32.le_iff_toNat_le, UInt32.le_iff_toNat_le]
  exact Iff.rfl

theorem Number.ascii {chars : List Char} (h : Number chars) : ∀ ch ∈ chars, ch.toNat < 128 := by
  have hdigit : ∀ ch, IsDigit ch → ch.toNat < 128 := by
    intro ch hch
    have hrange := isDigit_iff.mp hch
    omega
  have hdigits : ∀ digits, Digits digits → ∀ ch ∈ digits, ch.toNat < 128 :=
    fun digits h ch hch => hdigit ch (h.2 ch hch)
  obtain ⟨hminus, hwhole, hfraction, hexponent⟩ := h
  intro ch hch
  simp only [List.mem_append] at hch
  rcases hch with hch | hch | hch | hch
  · rcases hminus with rfl | rfl
    · cases hch
    · rw [List.mem_singleton.mp hch]
      decide
  · cases hwhole with
    | zero =>
      rw [List.mem_singleton.mp hch]
      decide
    | digits hfirst _ hrest =>
      rcases List.mem_cons.mp hch with rfl | hch
      · exact hdigit _ hfirst
      · exact hdigit _ (hrest ch hch)
  · cases hfraction with
    | absent => cases hch
    | present h =>
      rcases List.mem_cons.mp hch with rfl | hch
      · decide
      · exact hdigits _ h ch hch
  · cases hexponent with
    | absent => cases hch
    | present hmark hsign h =>
      rcases List.mem_cons.mp hch with rfl | hch
      · rcases hmark with rfl | rfl <;> decide
      · rcases List.mem_append.mp hch with hch | hch
        · rcases hsign with rfl | rfl | rfl
          · cases hch
          · rw [List.mem_singleton.mp hch]
            decide
          · rw [List.mem_singleton.mp hch]
            decide
        · exact hdigits _ h ch hch

/-- A text is a number exactly when its bytes are those of one. -/
theorem number_toList_iff (text : String) :
    Number text.toList ↔ ∃ chars, Number chars ∧ bytes text = chars.map byteOf := by
  constructor
  · intro h
    refine ⟨text.toList, h, ?_⟩
    have hascii := bytes_ascii h.ascii
    rwa [String.ofList_toList] at hascii
  · rintro ⟨chars, h, hbytes⟩
    have hascii : bytes (String.ofList chars) = chars.map byteOf := bytes_ascii h.ascii
    rw [bytes_injective (hbytes.trans hascii.symm), String.toList_ofList]
    exact h

end JsonNumber
