import Boxferry.Model.Metadata
import Boxferry.Library.JsonNumber
import Mathlib.Data.List.TakeWhile

/-! # Decimal spellings

The recognizer of decimal spellings accepts the number grammar of JSON and nothing else, and
reads no byte beyond the end of the text. -/
namespace Boxferry.Model
open JsonNumber Utf8Text
set_option autoImplicit false

/-! ## Bytes of the grammar -/

/-- The bytes of a word. -/
def Spells (word : List Char → Prop) (bytes : List UInt8) : Prop := ∃ chars, word chars ∧ bytes = chars.map byteOf

theorem isAsciiDigit_iff {byte : UInt8} : isAsciiDigit byte = true ↔ 48 ≤ byte.toNat ∧ byte.toNat ≤ 57 := by
  unfold isAsciiDigit
  rw [Bool.and_eq_true, decide_eq_true_iff, decide_eq_true_iff, UInt8.le_iff_toNat_le, UInt8.le_iff_toNat_le]
  exact Iff.rfl

theorem byteOf_toNat {ch : Char} (h : IsDigit ch) : (byteOf ch).toNat = ch.toNat := by
  have hrange := isDigit_iff.mp h
  exact UInt8.toNat_ofNat_of_lt' (Nat.lt_of_le_of_lt hrange.2 (by decide))

theorem isAsciiDigit_byteOf {ch : Char} (h : IsDigit ch) : isAsciiDigit (byteOf ch) = true := by
  rw [isAsciiDigit_iff, byteOf_toNat h]
  exact isDigit_iff.mp h

theorem charOf_toNat (byte : UInt8) : (charOf byte).toNat = byte.toNat := by
  have hvalid : byte.toNat.isValidChar := Or.inl (Nat.lt_trans byte.toNat_lt (by decide))
  unfold charOf
  rw [Char.ofNat, dif_pos hvalid]
  rfl

theorem isDigit_charOf {byte : UInt8} (h : isAsciiDigit byte = true) : IsDigit (charOf byte) := by
  rw [isDigit_iff, charOf_toNat]
  exact isAsciiDigit_iff.mp h

theorem spells_digits_iff {bytes : List UInt8} :
    Spells Digits bytes ↔ bytes ≠ [] ∧ ∀ byte ∈ bytes, isAsciiDigit byte = true := by
  constructor
  · rintro ⟨chars, ⟨hne, hdigits⟩, rfl⟩
    refine ⟨fun h => hne (List.map_eq_nil_iff.mp h), fun byte hbyte => ?_⟩
    obtain ⟨ch, hch, rfl⟩ := List.mem_map.mp hbyte
    exact isAsciiDigit_byteOf (hdigits ch hch)
  · rintro ⟨hne, hdigits⟩
    refine ⟨bytes.map charOf, ⟨fun h => hne (List.map_eq_nil_iff.mp h), fun ch hch => ?_⟩,
      (map_byteOf_charOf bytes).symm⟩
    obtain ⟨byte, hbyte, rfl⟩ := List.mem_map.mp hch
    exact isDigit_charOf (hdigits byte hbyte)

/-! ## Digits -/

variable {bytes piece rest : List UInt8} {i j : Nat}

theorem drop_takeWhile (list : List UInt8) :
    list.drop (list.takeWhile isAsciiDigit).length = list.dropWhile isAsciiDigit := by
  have hsplit : list.takeWhile isAsciiDigit ++ list.dropWhile isAsciiDigit = list := List.takeWhile_append_dropWhile
  calc list.drop (list.takeWhile isAsciiDigit).length
      = (list.takeWhile isAsciiDigit ++ list.dropWhile isAsciiDigit).drop (list.takeWhile isAsciiDigit).length := by
        rw [hsplit]
    _ = list.dropWhile isAsciiDigit := List.drop_left

theorem drop_skipDigits (bytes : List UInt8) (i : Nat) :
    (bytes.drop i).takeWhile isAsciiDigit ++ bytes.drop (skipDigits bytes i) = bytes.drop i := by
  unfold skipDigits
  rw [← List.drop_drop, drop_takeWhile]
  exact List.takeWhile_append_dropWhile

/-- What follows does not go on with a digit. -/
def Ends (rest : List UInt8) : Prop := ∀ byte ∈ rest.head?, isAsciiDigit byte = false

theorem skipDigits_append (hpiece : ∀ byte ∈ piece, isAsciiDigit byte = true) (hrest : Ends rest)
    (h : bytes.drop i = piece ++ rest) : skipDigits bytes i = i + piece.length := by
  have hstop : rest.takeWhile isAsciiDigit = [] := by
    cases rest with
    | nil => rfl
    | cons byte others => exact List.takeWhile_cons_of_neg (by simpa using hrest byte rfl)
  unfold skipDigits
  rw [h, List.takeWhile_append_of_pos hpiece, hstop, List.append_nil]

theorem getElem?_of_drop {byte : UInt8} (h : bytes.drop i = byte :: rest) : bytes[i]? = some byte := by
  rw [← List.head?_drop, h]
  rfl

theorem drop_of_getElem? {byte : UInt8} (h : bytes[i]? = some byte) : bytes.drop i = byte :: bytes.drop (i + 1) := by
  obtain ⟨hlt, rfl⟩ := List.getElem?_eq_some_iff.mp h
  exact List.drop_eq_getElem_cons hlt

theorem drop_of_append (h : bytes.drop i = piece ++ rest) : bytes.drop (i + piece.length) = rest := by
  rw [← List.drop_drop, h]
  exact List.drop_left

theorem takeWhile_ne_nil (h : skipDigits bytes i ≠ i) : (bytes.drop i).takeWhile isAsciiDigit ≠ [] := by
  intro hnil
  refine h ?_
  unfold skipDigits
  rw [hnil]
  rfl

/-! ## Parts -/

/-- A part that ends at an index has read a word of its grammar. -/
theorem integerPart_word (h : integerPart bytes i = some j) :
    ∃ piece, Spells Whole piece ∧ bytes.drop i = piece ++ bytes.drop j := by
  unfold integerPart at h
  cases hbyte : bytes[i]? with
  | none =>
    rw [hbyte] at h
    cases h
  | some byte =>
    simp only [hbyte] at h
    have hdrop := drop_of_getElem? hbyte
    by_cases hzero : byte = 48
    · rw [if_pos hzero] at h
      obtain rfl := Option.some.inj h
      exact ⟨[48], ⟨['0'], .zero, rfl⟩, hzero ▸ hdrop⟩
    · rw [if_neg hzero] at h
      by_cases hdigit : isAsciiDigit byte = true
      · rw [if_pos hdigit] at h
        obtain rfl := Option.some.inj h
        refine ⟨byte :: (bytes.drop (i + 1)).takeWhile isAsciiDigit,
          ⟨charOf byte :: ((bytes.drop (i + 1)).takeWhile isAsciiDigit).map charOf, ?_, ?_⟩, ?_⟩
        · refine .digits (isDigit_charOf hdigit) (fun heq => hzero ?_) fun ch hch => ?_
          · have hbytes := congrArg byteOf heq
            rwa [byteOf_charOf] at hbytes
          · obtain ⟨other, hother, rfl⟩ := List.mem_map.mp hch
            exact isDigit_charOf (List.mem_takeWhile_imp hother)
        · rw [List.map_cons, byteOf_charOf, map_byteOf_charOf]
        · rw [hdrop, List.cons_append, drop_skipDigits]
      · rw [if_neg hdigit] at h
        cases h

theorem integerPart_of_word (hpiece : Spells Whole piece) (hrest : Ends rest) (h : bytes.drop i = piece ++ rest) :
    integerPart bytes i = some (i + piece.length) := by
  obtain ⟨chars, hwhole, rfl⟩ := hpiece
  unfold integerPart
  cases hwhole with
  | zero =>
    rw [getElem?_of_drop h]
    rfl
  | @digits first others hfirst hzero hothers =>
    have hbyte : bytes[i]? = some (byteOf first) := getElem?_of_drop h
    have hne : byteOf first ≠ 48 := by
      intro heq
      have hnat := byteOf_toNat hfirst
      rw [heq] at hnat
      exact hzero (Char.toNat_inj.mp hnat.symm)
    have hdigits : ∀ byte ∈ others.map byteOf, isAsciiDigit byte = true := by
      intro byte hbyte
      obtain ⟨ch, hch, rfl⟩ := List.mem_map.mp hbyte
      exact isAsciiDigit_byteOf (hothers ch hch)
    have htail : bytes.drop (i + 1) = others.map byteOf ++ rest := by
      rw [← List.drop_drop, h]
      rfl
    rw [hbyte]
    simp only [if_neg hne, isAsciiDigit_byteOf hfirst, if_true]
    rw [skipDigits_append hdigits hrest htail, List.length_map, List.length_map, List.length_cons]
    exact congrArg some (by omega)

theorem fractionPart_word (h : fractionPart bytes i = some j) :
    ∃ piece, Spells Fraction piece ∧ bytes.drop i = piece ++ bytes.drop j := by
  unfold fractionPart at h
  by_cases hpoint : bytes[i]? = some 46
  · rw [if_pos hpoint] at h
    simp only at h
    by_cases hnone : skipDigits bytes (i + 1) = i + 1
    · rw [if_pos hnone] at h
      cases h
    · rw [if_neg hnone] at h
      obtain rfl := Option.some.inj h
      obtain ⟨chars, hchars, hspelled⟩ := spells_digits_iff.mpr ⟨takeWhile_ne_nil hnone, fun _ => List.mem_takeWhile_imp⟩
      refine ⟨46 :: (bytes.drop (i + 1)).takeWhile isAsciiDigit, ⟨'.' :: chars, .present hchars, ?_⟩, ?_⟩
      · rw [hspelled]
        rfl
      · rw [drop_of_getElem? hpoint, List.cons_append, drop_skipDigits]
  · rw [if_neg hpoint] at h
    obtain rfl := Option.some.inj h
    exact ⟨[], ⟨[], .absent, rfl⟩, rfl⟩

theorem fractionPart_of_word (hpiece : Spells Fraction piece) (hrest : Ends rest)
    (hpoint : rest.head? ≠ some 46) (h : bytes.drop i = piece ++ rest) :
    fractionPart bytes i = some (i + piece.length) := by
  obtain ⟨chars, hfraction, rfl⟩ := hpiece
  unfold fractionPart
  cases hfraction with
  | absent =>
    have hother : bytes[i]? ≠ some 46 := by
      rw [← List.head?_drop, h]
      exact hpoint
    rw [if_neg hother]
    rfl
  | @present digits hdigits =>
    obtain ⟨hne, hall⟩ := spells_digits_iff.mp ⟨digits, hdigits, rfl⟩
    have htail : bytes.drop (i + 1) = digits.map byteOf ++ rest := by
      rw [← List.drop_drop, h]
      rfl
    have hsome : bytes[i]? = some 46 := getElem?_of_drop h
    have hlength : 0 < (digits.map byteOf).length := List.length_pos_of_ne_nil hne
    rw [if_pos hsome]
    simp only [skipDigits_append hall hrest htail]
    rw [if_neg (by omega), List.map_cons, List.length_cons]
    exact congrArg some (by omega)

/-- The index after a mark and an optional sign. -/
def exponentStart (bytes : List UInt8) (i : Nat) : Nat :=
  if bytes[i + 1]? = some 43 ∨ bytes[i + 1]? = some 45 then i + 2 else i + 1

theorem exponentPart_word (h : exponentPart bytes i = some j) :
    ∃ piece, Spells Exponent piece ∧ bytes.drop i = piece ++ bytes.drop j := by
  unfold exponentPart at h
  by_cases hmark : bytes[i]? = some 101 ∨ bytes[i]? = some 69
  · rw [if_pos hmark] at h
    simp only at h
    have hsign : ∃ sign : List Char, (sign = [] ∨ sign = ['+'] ∨ sign = ['-']) ∧
        bytes.drop (i + 1) = sign.map byteOf ++ bytes.drop (exponentStart bytes i) := by
      unfold exponentStart
      by_cases hplus : bytes[i + 1]? = some 43
      · rw [if_pos (Or.inl hplus)]
        exact ⟨['+'], Or.inr (Or.inl rfl), drop_of_getElem? hplus⟩
      · by_cases hminus : bytes[i + 1]? = some 45
        · rw [if_pos (Or.inr hminus)]
          exact ⟨['-'], Or.inr (Or.inr rfl), drop_of_getElem? hminus⟩
        · rw [if_neg (not_or.mpr ⟨hplus, hminus⟩)]
          exact ⟨[], Or.inl rfl, rfl⟩
    obtain ⟨sign, hsign, htail⟩ := hsign
    change (if skipDigits bytes (exponentStart bytes i) = exponentStart bytes i then none
      else some (skipDigits bytes (exponentStart bytes i))) = some j at h
    by_cases hnone : skipDigits bytes (exponentStart bytes i) = exponentStart bytes i
    · rw [if_pos hnone] at h
      cases h
    · rw [if_neg hnone] at h
      obtain rfl := Option.some.inj h
      obtain ⟨digits, hdigits, hspelled⟩ :=
        spells_digits_iff.mpr ⟨takeWhile_ne_nil hnone, fun _ => List.mem_takeWhile_imp⟩
      have hword : ∃ mark : Char, (mark = 'e' ∨ mark = 'E') ∧ bytes.drop i = byteOf mark :: bytes.drop (i + 1) := by
        rcases hmark with hmark | hmark
        · exact ⟨'e', Or.inl rfl, drop_of_getElem? hmark⟩
        · exact ⟨'E', Or.inr rfl, drop_of_getElem? hmark⟩
      obtain ⟨mark, hmark, hdrop⟩ := hword
      refine ⟨(mark :: (sign ++ digits)).map byteOf, ⟨_, .present hmark hsign hdigits, rfl⟩, ?_⟩
      rw [hdrop, htail, List.map_cons, List.map_append, List.cons_append, List.append_assoc, ← hspelled, drop_skipDigits]
  · rw [if_neg hmark] at h
    obtain rfl := Option.some.inj h
    exact ⟨[], ⟨[], .absent, rfl⟩, rfl⟩

theorem exponentStart_of_word {sign : List Char} (hsign : sign = [] ∨ sign = ['+'] ∨ sign = ['-'])
    (hne : piece ≠ []) (hpiece : ∀ byte ∈ piece, isAsciiDigit byte = true)
    (h : bytes.drop (i + 1) = sign.map byteOf ++ piece) : exponentStart bytes i = i + 1 + sign.length := by
  unfold exponentStart
  rcases hsign with rfl | rfl | rfl
  · obtain ⟨byte, others, rfl⟩ := List.exists_cons_of_ne_nil hne
    have hdigit := hpiece byte List.mem_cons_self
    rw [getElem?_of_drop h]
    refine if_neg (not_or.mpr ⟨fun heq => ?_, fun heq => ?_⟩)
    · rw [Option.some.inj heq] at hdigit
      cases hdigit
    · rw [Option.some.inj heq] at hdigit
      cases hdigit
  · exact if_pos (Or.inl (getElem?_of_drop h))
  · exact if_pos (Or.inr (getElem?_of_drop h))

theorem exponentPart_of_word (hpiece : Spells Exponent piece) (h : bytes.drop i = piece) :
    exponentPart bytes i = some (i + piece.length) := by
  obtain ⟨chars, hexponent, rfl⟩ := hpiece
  unfold exponentPart
  cases hexponent with
  | absent =>
    have hnone : bytes[i]? = none := by
      rw [← List.head?_drop, h]
      rfl
    rw [hnone]
    rfl
  | @present mark sign digits hmark hsign hdigits =>
    obtain ⟨hne, hall⟩ := spells_digits_iff.mp ⟨digits, hdigits, rfl⟩
    have hsome : bytes[i]? = some (byteOf mark) := getElem?_of_drop h
    have hletter : bytes[i]? = some 101 ∨ bytes[i]? = some 69 := by
      rw [hsome]
      rcases hmark with rfl | rfl
      · exact Or.inl rfl
      · exact Or.inr rfl
    have htail : bytes.drop (i + 1) = sign.map byteOf ++ digits.map byteOf := by
      rw [← List.drop_drop, h, ← List.map_append]
      rfl
    have hstart : exponentStart bytes i = i + 1 + sign.length := exponentStart_of_word hsign hne hall htail
    have hmapped : (sign.map byteOf).length = sign.length := List.length_map byteOf
    have hdrop : bytes.drop (exponentStart bytes i) = digits.map byteOf ++ [] := by
      rw [hstart, ← hmapped, List.append_nil]
      exact drop_of_append htail
    have hend : Ends ([] : List UInt8) := fun _ h => by cases h
    have hlength : 0 < (digits.map byteOf).length := List.length_pos_of_ne_nil hne
    rw [if_pos hletter]
    change (if skipDigits bytes (exponentStart bytes i) = exponentStart bytes i then none
      else some (skipDigits bytes (exponentStart bytes i))) = _
    rw [skipDigits_append hall hend hdrop, if_neg (by omega), hstart, List.length_map, List.length_map, List.length_cons,
      List.length_append]
    exact congrArg some (by omega)

/-! ## Numbers -/

theorem ends_of_head (h : ∀ byte ∈ rest.head?, byte = 46 ∨ byte = 101 ∨ byte = 69) : Ends rest := by
  intro byte hbyte
  rcases h byte hbyte with rfl | rfl | rfl <;> rfl

theorem exponent_head (h : Spells Exponent piece) : ∀ byte ∈ piece.head?, byte = 101 ∨ byte = 69 := by
  obtain ⟨chars, hexponent, rfl⟩ := h
  intro byte hbyte
  cases hexponent with
  | absent => cases hbyte
  | present hmark _ _ =>
    obtain rfl := Option.some.inj hbyte
    exact hmark.imp (fun heq => congrArg byteOf heq) fun heq => congrArg byteOf heq

theorem fraction_head (h : Spells Fraction piece) (hexponent : Spells Exponent rest) :
    ∀ byte ∈ (piece ++ rest).head?, byte = 46 ∨ byte = 101 ∨ byte = 69 := by
  obtain ⟨chars, hfraction, rfl⟩ := h
  intro byte hbyte
  cases hfraction with
  | absent => exact Or.inr (exponent_head hexponent byte hbyte)
  | present _ => exact Or.inl (Option.some.inj hbyte).symm

theorem whole_head (h : Spells Whole piece) : (piece ++ rest)[0]? ≠ some 45 := by
  obtain ⟨chars, hwhole, rfl⟩ := h
  intro heq
  cases hwhole with
  | zero => cases heq
  | digits hfirst _ _ =>
    have hdigit := isAsciiDigit_byteOf hfirst
    rw [Option.some.inj heq] at hdigit
    cases hdigit

/-- The end of the number at an index of the bytes. -/
def numberEnd (data : List UInt8) (start : Nat) : Option Nat :=
  (integerPart data start).bind fun whole => (fractionPart data whole).bind (exponentPart data)

def numberStart (data : List UInt8) : Nat := if data[0]? = some 45 then 1 else 0

theorem validNumber_eq (text : String) : validNumber text =
    (numberEnd (Utf8Text.bytes text) (numberStart (Utf8Text.bytes text)) == some (Utf8Text.bytes text).length) := by
  unfold validNumber numberEnd numberStart
  simp only
  cases integerPart (Utf8Text.bytes text) (if (Utf8Text.bytes text)[0]? = some 45 then 1 else 0) with
  | none => rfl
  | some whole =>
    simp only [Option.bind_some]
    cases fractionPart (Utf8Text.bytes text) whole with
    | none => rfl
    | some fraction =>
      simp only [Option.bind_some]
      cases exponentPart (Utf8Text.bytes text) fraction with
      | none => rfl
      | some last => exact (Option.some_beq_some ..).symm

theorem numberEnd_of_words (minus : List UInt8) {whole fraction exponent : List UInt8} (hwhole : Spells Whole whole)
    (hfraction : Spells Fraction fraction) (hexponent : Spells Exponent exponent) :
    numberEnd (minus ++ (whole ++ (fraction ++ exponent))) minus.length =
      some (minus ++ (whole ++ (fraction ++ exponent))).length := by
  have hhead := exponent_head hexponent
  have hpoint : exponent.head? ≠ some 46 := by
    intro heq
    rcases hhead 46 heq with h | h <;> cases h
  have hfirst : (minus ++ (whole ++ (fraction ++ exponent))).drop minus.length = whole ++ (fraction ++ exponent) :=
    List.drop_left
  have hsecond := drop_of_append hfirst
  have hthird := drop_of_append hsecond
  unfold numberEnd
  rw [integerPart_of_word hwhole (ends_of_head (fraction_head hfraction hexponent)) hfirst, Option.bind_some,
    fractionPart_of_word hfraction (ends_of_head fun byte hbyte => Or.inr (hhead byte hbyte)) hpoint hsecond,
    Option.bind_some, exponentPart_of_word hexponent hthird]
  simp only [List.length_append, Nat.add_assoc]

theorem numberEnd_iff : numberEnd bytes (numberStart bytes) = some bytes.length ↔ Spells Number bytes := by
  constructor
  · intro h
    obtain ⟨whole, hwhole, h⟩ := Option.bind_eq_some_iff.mp h
    obtain ⟨fraction, hfraction, hexponent⟩ := Option.bind_eq_some_iff.mp h
    obtain ⟨first, ⟨wholeChars, hwholeChars, rfl⟩, hfirst⟩ := integerPart_word hwhole
    obtain ⟨second, ⟨fractionChars, hfractionChars, rfl⟩, hsecond⟩ := fractionPart_word hfraction
    obtain ⟨third, ⟨exponentChars, hexponentChars, rfl⟩, hthird⟩ := exponentPart_word hexponent
    have hminus : ∃ minus : List Char, (minus = [] ∨ minus = ['-']) ∧
        bytes = minus.map byteOf ++ bytes.drop (numberStart bytes) := by
      unfold numberStart
      by_cases hsign : bytes[0]? = some 45
      · rw [if_pos hsign]
        exact ⟨['-'], Or.inr rfl, drop_of_getElem? hsign⟩
      · rw [if_neg hsign]
        exact ⟨[], Or.inl rfl, rfl⟩
    obtain ⟨minus, hminus, hbytes⟩ := hminus
    refine ⟨_, .mk hminus hwholeChars hfractionChars hexponentChars, ?_⟩
    rw [List.drop_length, List.append_nil] at hthird
    rw [List.map_append, List.map_append, List.map_append, ← hthird, ← hsecond, ← hfirst]
    exact hbytes
  · rintro ⟨chars, hnumber, rfl⟩
    obtain ⟨hminus, hwhole, hfraction, hexponent⟩ := hnumber
    rename_i minus whole fraction exponent
    have hwholeSpells : Spells Whole (whole.map byteOf) := ⟨whole, hwhole, rfl⟩
    have hfractionSpells : Spells Fraction (fraction.map byteOf) := ⟨fraction, hfraction, rfl⟩
    have hexponentSpells : Spells Exponent (exponent.map byteOf) := ⟨exponent, hexponent, rfl⟩
    simp only [List.map_append]
    have hstart : numberStart (minus.map byteOf ++ (whole.map byteOf ++ (fraction.map byteOf ++ exponent.map byteOf))) =
        (minus.map byteOf).length := by
      unfold numberStart
      rcases hminus with rfl | rfl
      · exact if_neg (whole_head hwholeSpells)
      · exact if_pos rfl
    rw [hstart]
    exact numberEnd_of_words _ hwholeSpells hfractionSpells hexponentSpells

/-! ## Reads -/

theorem skipDigits_le (h : i ≤ bytes.length) : skipDigits bytes i ≤ bytes.length := by
  have hlength : ((bytes.drop i).takeWhile isAsciiDigit).length ≤ (bytes.drop i).length :=
    (List.takeWhile_prefix isAsciiDigit).length_le
  rw [List.length_drop] at hlength
  unfold skipDigits
  omega

theorem lt_of_getElem? {byte : UInt8} (h : bytes[i]? = some byte) : i < bytes.length :=
  (List.getElem?_eq_some_iff.mp h).1

theorem integerPart_le (h : integerPart bytes i = some j) : j ≤ bytes.length := by
  unfold integerPart at h
  split at h
  · next byte hbyte =>
    have hlt := lt_of_getElem? hbyte
    split at h
    · obtain rfl := Option.some.inj h
      exact hlt
    · split at h
      · obtain rfl := Option.some.inj h
        exact skipDigits_le hlt
      · cases h
  · cases h

theorem fractionPart_le (hi : i ≤ bytes.length) (h : fractionPart bytes i = some j) : j ≤ bytes.length := by
  unfold fractionPart at h
  split at h
  · next hpoint =>
    simp only at h
    split at h
    · cases h
    · obtain rfl := Option.some.inj h
      exact skipDigits_le (lt_of_getElem? hpoint)
  · obtain rfl := Option.some.inj h
    exact hi

/-- A step that writes down the indices that it reads. -/
abbrev Reading (α : Type) := StateM (List Nat) α

/-- `bytes.get(i)`. -/
def readByte (data : List UInt8) (i : Nat) : Reading (Option UInt8) := fun reads => (data[i]?, reads ++ [i])

/-- The loop over digits, for at most as many rounds as the fuel says. -/
def readDigits (data : List UInt8) : Nat → Nat → Reading Nat
  | 0, i => return i
  | fuel + 1, i => do
    if (← readByte data i).any isAsciiDigit then readDigits data fuel (i + 1) else return i

def readInteger (data : List UInt8) (i : Nat) : Reading (Option Nat) := do
  match ← readByte data i with
  | some byte =>
    if byte = 48 then return some (i + 1)
    else if isAsciiDigit byte then return some (← readDigits data (data.length + 1) (i + 1))
    else return none
  | none => return none

def readFraction (data : List UInt8) (i : Nat) : Reading (Option Nat) := do
  if (← readByte data i) = some 46 then
    let last ← readDigits data (data.length + 1) (i + 1)
    if last = i + 1 then return none else return some last
  else return some i

def readExponent (data : List UInt8) (i : Nat) : Reading (Option Nat) := do
  let mark ← readByte data i
  if mark = some 101 ∨ mark = some 69 then
    let sign ← readByte data (i + 1)
    let start := if sign = some 43 ∨ sign = some 45 then i + 2 else i + 1
    let last ← readDigits data (data.length + 1) start
    if last = start then return none else return some last
  else return some i

/-- The recognizer with the indices that it reads. -/
def readNumber (text : String) : Reading Bool := do
  let data := Utf8Text.bytes text
  let start := if (← readByte data 0) = some 45 then 1 else 0
  match ← readInteger data start with
  | none => return false
  | some afterInteger =>
    match ← readFraction data afterInteger with
    | none => return false
    | some afterFraction =>
      match ← readExponent data afterFraction with
      | none => return false
      | some last => return last == data.length

/-- The step yields the value, and reads up to the end of the text only. -/
def Reads {α : Type} (data : List UInt8) (step : Reading α) (value : α) : Prop :=
  ∀ reads, (step reads).1 = value ∧ ∀ i ∈ (step reads).2, i ∈ reads ∨ i ≤ data.length

variable {α β : Type} {step : Reading α} {next : α → Reading β} {value : α} {result : β} {fuel : Nat}

theorem reads_pure (value : α) : Reads bytes (pure value) value := fun _ => ⟨rfl, fun _ h => Or.inl h⟩

theorem reads_ite (condition : Prop) [Decidable condition] {left right : α} :
    Reads bytes (if condition then pure left else pure right) (if condition then left else right) := by
  split
  · exact reads_pure _
  · exact reads_pure _

theorem Reads.bind (h : Reads bytes step value) (hnext : Reads bytes (next value) result) :
    Reads bytes (step >>= next) result := by
  intro reads
  obtain ⟨hvalue, hreads⟩ := h reads
  show (next (step reads).1 (step reads).2).1 = result ∧
    ∀ i ∈ (next (step reads).1 (step reads).2).2, i ∈ reads ∨ i ≤ bytes.length
  rw [hvalue]
  obtain ⟨hresult, hlater⟩ := hnext (step reads).2
  exact ⟨hresult, fun i hi => (hlater i hi).elim (hreads i) Or.inr⟩

theorem reads_readByte (hi : i ≤ bytes.length) : Reads bytes (readByte bytes i) bytes[i]? := by
  refine fun reads => ⟨rfl, fun j hj => ?_⟩
  rcases List.mem_append.mp hj with hj | hj
  · exact Or.inl hj
  · rw [List.mem_singleton.mp hj]
    exact Or.inr hi

theorem skipDigits_stop (h : ¬ (bytes[i]?.any isAsciiDigit) = true) : skipDigits bytes i = i := by
  have hnil : (bytes.drop i).takeWhile isAsciiDigit = [] := by
    cases hdrop : bytes.drop i with
    | nil => rfl
    | cons byte rest =>
      rw [getElem?_of_drop hdrop] at h
      exact List.takeWhile_cons_of_neg h
  unfold skipDigits
  rw [hnil]
  rfl

theorem skipDigits_step (h : (bytes[i]?.any isAsciiDigit) = true) : skipDigits bytes i = skipDigits bytes (i + 1) := by
  obtain ⟨byte, hbyte, hdigit⟩ := (Option.any_eq_true ..).mp h
  unfold skipDigits
  rw [drop_of_getElem? hbyte, List.takeWhile_cons_of_pos hdigit, List.length_cons]
  omega

/-- The loop ends by itself, at the first byte that is no digit or at the end of the text. -/
theorem reads_readDigits (hi : i ≤ bytes.length) (hfuel : bytes.length < i + fuel) :
    Reads bytes (readDigits bytes fuel i) (skipDigits bytes i) := by
  induction fuel generalizing i with
  | zero => omega
  | succ fuel ih =>
    refine (reads_readByte hi).bind ?_
    by_cases hdigit : (bytes[i]?.any isAsciiDigit) = true
    · obtain ⟨byte, hbyte, -⟩ := (Option.any_eq_true ..).mp hdigit
      rw [if_pos hdigit, skipDigits_step hdigit]
      exact ih (lt_of_getElem? hbyte) (by omega)
    · rw [if_neg hdigit, skipDigits_stop hdigit]
      exact reads_pure i

theorem reads_readInteger (hi : i ≤ bytes.length) : Reads bytes (readInteger bytes i) (integerPart bytes i) := by
  refine (reads_readByte hi).bind ?_
  unfold integerPart
  cases hbyte : bytes[i]? with
  | none => exact reads_pure none
  | some byte =>
    have hlt := lt_of_getElem? hbyte
    simp only
    split
    · exact reads_pure _
    · split
      · exact (reads_readDigits hlt (by omega)).bind (reads_pure _)
      · exact reads_pure _

theorem reads_readFraction (hi : i ≤ bytes.length) : Reads bytes (readFraction bytes i) (fractionPart bytes i) := by
  refine (reads_readByte hi).bind ?_
  unfold fractionPart
  by_cases hpoint : bytes[i]? = some 46
  · have hlt := lt_of_getElem? hpoint
    rw [if_pos hpoint, if_pos hpoint]
    exact (reads_readDigits hlt (by omega)).bind (reads_ite _)
  · rw [if_neg hpoint, if_neg hpoint]
    exact reads_pure _

theorem exponentStart_le (hi : i < bytes.length) : exponentStart bytes i ≤ bytes.length := by
  unfold exponentStart
  split
  · next hsign =>
    rcases hsign with h | h
    · exact lt_of_getElem? h
    · exact lt_of_getElem? h
  · exact hi

theorem reads_readExponent (hi : i ≤ bytes.length) : Reads bytes (readExponent bytes i) (exponentPart bytes i) := by
  refine (reads_readByte hi).bind ?_
  unfold exponentPart
  by_cases hmark : bytes[i]? = some 101 ∨ bytes[i]? = some 69
  · have hlt : i < bytes.length := by
      rcases hmark with h | h
      · exact lt_of_getElem? h
      · exact lt_of_getElem? h
    rw [if_pos hmark, if_pos hmark]
    refine (reads_readByte hlt).bind ?_
    have hstart : exponentStart bytes i ≤ bytes.length := exponentStart_le hlt
    exact (reads_readDigits hstart (by omega)).bind (reads_ite _)
  · rw [if_neg hmark, if_neg hmark]
    exact reads_pure _

theorem reads_readNumber (text : String) : Reads (Utf8Text.bytes text) (readNumber text) (validNumber text) := by
  refine (reads_readByte (Nat.zero_le _)).bind ?_
  have hstart : (if (Utf8Text.bytes text)[0]? = some 45 then 1 else 0) ≤ (Utf8Text.bytes text).length := by
    split
    · next hsign => exact lt_of_getElem? hsign
    · exact Nat.zero_le _
  rw [validNumber_eq]
  unfold numberEnd numberStart
  refine (reads_readInteger hstart).bind ?_
  cases hwhole : integerPart (Utf8Text.bytes text) (if (Utf8Text.bytes text)[0]? = some 45 then 1 else 0) with
  | none => exact reads_pure false
  | some whole =>
    have hle := integerPart_le hwhole
    refine (reads_readFraction hle).bind ?_
    rw [Option.bind_some]
    cases hfraction : fractionPart (Utf8Text.bytes text) whole with
    | none => exact reads_pure false
    | some fraction =>
      refine (reads_readExponent (fractionPart_le hle hfraction)).bind ?_
      rw [Option.bind_some]
      cases exponentPart (Utf8Text.bytes text) fraction with
      | none => exact reads_pure false
      | some last =>
        rw [Option.some_beq_some]
        exact reads_pure _

theorem validNumber_iff (text : String) : validNumber text = true ↔ Number text.toList := by
  rw [validNumber_eq, beq_iff_eq, numberEnd_iff, number_toList_iff]
  exact Iff.rfl

/-- The recognizer accepts exactly the numbers of the grammar, and no index that it reads lies
beyond the end of the text. -/
theorem valid_number_exact (text : String) :
    (validNumber text = true ↔ Number text.toList) ∧ (readNumber text []).1 = validNumber text ∧
      ∀ i ∈ (readNumber text []).2, i ≤ (Utf8Text.bytes text).length := by
  obtain ⟨hvalue, hreads⟩ := reads_readNumber text []
  exact ⟨validNumber_iff text, hvalue, fun i hi => (hreads i hi).resolve_left List.not_mem_nil⟩

end Boxferry.Model
