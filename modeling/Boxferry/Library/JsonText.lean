import Boxferry.Library.Utf8Text
import Mathlib.Data.List.TakeWhile

/-! # JSON strings and tokens

The compact spelling of JSON strings, the reader that accepts every spelling,
and the tokens of a JSON text together with the bytes each token takes. The
compact spelling is read back, and no accepted spelling is shorter. -/
namespace JsonText
open Utf8Text
set_option autoImplicit false

/-! ## Escapes -/

def hexDigit (n : Nat) : Char :=
  if n < 10 then Char.ofNat (48 + n) else Char.ofNat (87 + n)

def hexValue (ch : Char) : Option Nat :=
  if '0' ≤ ch ∧ ch ≤ '9' then some (ch.toNat - 48)
  else if 'a' ≤ ch ∧ ch ≤ 'f' then some (ch.toNat - 87)
  else if 'A' ≤ ch ∧ ch ≤ 'F' then some (ch.toNat - 55)
  else none

/-- The 16-bit unit four hexadecimal digits spell. -/
def unit (a b c d : Char) : Option Nat := do
  let a ← hexValue a
  let b ← hexValue b
  let c ← hexValue c
  let d ← hexValue d
  some (((a * 16 + b) * 16 + c) * 16 + d)

/-- The characters with a compact two-character escape, and the letter of each. -/
def compactEscapes : List (Char × Char) :=
  [('"', '"'), ('\\', '\\'), ('\n', 'n'), ('\r', 'r'), ('\t', 't'), ('\x08', 'b'), ('\x0c', 'f')]

/-- The compact spelling of one character inside a string. -/
def escapeChar (ch : Char) : List Char :=
  match compactEscapes.lookup ch with
  | some letter => ['\\', letter]
  | none =>
    if ch.toNat < 32 then ['\\', 'u', '0', '0', hexDigit (ch.toNat / 16), hexDigit (ch.toNat % 16)]
    else [ch]

def escape (text : List Char) : List Char := text.flatMap escapeChar

/-- The compact spelling of a string with its quotes. -/
def quoted (text : List Char) : List Char := '"' :: (escape text ++ ['"'])

/-- The character of a two-character escape; a slash may be escaped too. -/
def shortEscape (letter : Char) : Option Char :=
  ((('/', '/') :: compactEscapes).find? fun pair => pair.2 = letter).map Prod.fst

/-- The character a non-surrogate unit, or a surrogate pair with the text after it, spells. -/
def readUnit (high : Nat) (rest : List Char) : Option (Char × List Char) :=
  if 0xD800 ≤ high ∧ high < 0xDC00 then
    match rest with
    | '\\' :: 'u' :: e :: f :: g :: h :: after =>
      match unit e f g h with
      | some low =>
        if 0xDC00 ≤ low ∧ low < 0xE000 then
          some (Char.ofNat (0x10000 + (high - 0xD800) * 0x400 + (low - 0xDC00)), after)
        else none
      | none => none
    | _ => none
  else if 0xDC00 ≤ high ∧ high < 0xE000 then none
  else some (Char.ofNat high, rest)

def readUnicode : List Char → Option (Char × List Char)
  | a :: b :: c :: d :: rest =>
    match unit a b c d with
    | some high => readUnit high rest
    | none => none
  | _ => none

/-- The character of an escape after its backslash. -/
def readEscape : List Char → Option (Char × List Char)
  | [] => none
  | letter :: rest =>
    if letter = 'u' then readUnicode rest else (shortEscape letter).map fun ch => (ch, rest)

/-- One character of a string body, in any accepted spelling. -/
def readChar : List Char → Option (Char × List Char)
  | [] => none
  | ch :: rest =>
    if ch = '\\' then readEscape rest
    else if ch.toNat < 32 ∨ ch = '"' then none
    else some (ch, rest)

/-- A string body up to and including its closing quote. -/
def readBody : Nat → List Char → Option (List Char × List Char)
  | 0, _ => none
  | _ + 1, [] => none
  | fuel + 1, first :: tail =>
    if first = '"' then some ([], tail)
    else do
      let (ch, rest) ← readChar (first :: tail)
      let (body, after) ← readBody fuel rest
      some (ch :: body, after)

/-! ## Reading the compact spelling back -/

theorem hexValue_hexDigit : ∀ n, n < 16 → hexValue (hexDigit n) = some n := by decide

theorem shortEscape_letter :
    ∀ pair ∈ compactEscapes, shortEscape pair.2 = some pair.1 ∧ pair.2 ≠ 'u' := by decide

theorem lookup_mem {ch letter : Char} (h : compactEscapes.lookup ch = some letter) :
    (ch, letter) ∈ compactEscapes := by
  obtain ⟨before, after, hsplit, -⟩ := List.lookup_eq_some_iff.mp h
  rw [hsplit]
  exact List.mem_append_right _ List.mem_cons_self

theorem plain_of_lookup_none {ch : Char} (h : compactEscapes.lookup ch = none) :
    ch ≠ '"' ∧ ch ≠ '\\' := by
  constructor <;> (rintro rfl; exact absurd h (by decide))

theorem readChar_escapeChar (ch : Char) (rest : List Char) :
    readChar (escapeChar ch ++ rest) = some (ch, rest) := by
  unfold escapeChar
  split
  · next letter hletter =>
    obtain ⟨hread, hletter⟩ := shortEscape_letter _ (lookup_mem hletter)
    simp only [List.cons_append, List.nil_append, readChar, readEscape, hread, if_neg hletter,
      Option.map_some, reduceIte]
  · next hnone =>
    obtain ⟨hquote, hslash⟩ := plain_of_lookup_none hnone
    split
    · next hcontrol =>
      have hunit : unit '0' '0' (hexDigit (ch.toNat / 16)) (hexDigit (ch.toNat % 16)) =
          some ch.toNat := by
        have hhigh := hexValue_hexDigit (ch.toNat / 16) (by omega)
        have hlow := hexValue_hexDigit (ch.toNat % 16) (by omega)
        have hzero : hexValue '0' = some 0 := by decide
        simp only [unit, hhigh, hlow, hzero, Option.bind_eq_bind, Option.bind_some]
        congr 1
        omega
      simp only [List.cons_append, List.nil_append, readChar, readEscape, readUnicode, hunit,
        readUnit, reduceIte]
      rw [if_neg (by omega), if_neg (by omega), Char.ofNat_toNat]
    · next hcontrol =>
      simp only [List.cons_append, List.nil_append, readChar, if_neg hslash]
      rw [if_neg (by simp [hcontrol, hquote])]

/-- A compact character never starts with the closing quote. -/
theorem escapeChar_cons (ch : Char) : ∃ first rest, escapeChar ch = first :: rest ∧ first ≠ '"' := by
  unfold escapeChar
  split
  · exact ⟨_, _, rfl, by decide⟩
  · next hnone =>
    split
    · exact ⟨_, _, rfl, by decide⟩
    · exact ⟨_, _, rfl, (plain_of_lookup_none hnone).1⟩

theorem readBody_quote (fuel : Nat) (rest : List Char) :
    readBody (fuel + 1) ('"' :: rest) = some ([], rest) := rfl

theorem readBody_char {fuel : Nat} {first ch : Char} {tail rest : List Char} (hfirst : first ≠ '"')
    (hread : readChar (first :: tail) = some (ch, rest)) :
    readBody (fuel + 1) (first :: tail) =
      (readBody fuel rest).bind fun body => some (ch :: body.1, body.2) := by
  rw [readBody, if_neg hfirst, hread]
  rfl

/-- Compact spellings hold no control characters. -/
theorem escapeChar_visible {ch out : Char} (h : out ∈ escapeChar ch) : 32 ≤ out.toNat := by
  unfold escapeChar at h
  split at h
  · next letter hletter =>
    have hall : ∀ pair ∈ compactEscapes, 32 ≤ pair.2.toNat := by decide
    rcases List.mem_pair.mp h with rfl | rfl
    · decide
    · exact hall _ (lookup_mem hletter)
  · split at h
    · have hdigit : ∀ n, n < 16 → 32 ≤ (hexDigit n).toNat := by decide
      simp only [List.mem_cons, List.not_mem_nil, or_false] at h
      rcases h with rfl | rfl | rfl | rfl | rfl | rfl
      · decide
      · decide
      · decide
      · decide
      · exact hdigit _ (by omega)
      · exact hdigit _ (by omega)
    · rw [List.mem_singleton] at h
      subst h
      omega

theorem quoted_visible {text : List Char} {out : Char} (h : out ∈ quoted text) :
    32 ≤ out.toNat := by
  simp only [quoted, escape, List.mem_cons, List.mem_append, List.mem_flatMap, List.not_mem_nil,
    or_false] at h
  rcases h with rfl | ⟨ch, -, hout⟩ | rfl
  · decide
  · exact escapeChar_visible hout
  · decide

/-- The compact spelling of a string is read back. -/
theorem readBody_escape {text rest : List Char} {fuel : Nat} (hfuel : text.length < fuel) :
    readBody fuel (escape text ++ '"' :: rest) = some (text, rest) := by
  induction text generalizing fuel with
  | nil =>
    obtain ⟨fuel, rfl⟩ := Nat.exists_eq_succ_of_ne_zero (Nat.ne_of_gt hfuel)
    exact readBody_quote fuel rest
  | cons ch text ih =>
    obtain ⟨fuel, rfl⟩ := Nat.exists_eq_succ_of_ne_zero (Nat.ne_of_gt (Nat.lt_trans (Nat.succ_pos _) hfuel))
    have hchar := readChar_escapeChar ch (escape text ++ '"' :: rest)
    obtain ⟨first, tail, hescape, hfirst⟩ := escapeChar_cons ch
    have hbody := ih (Nat.lt_of_succ_lt_succ hfuel)
    simp only [escape, List.flatMap_cons, List.append_assoc] at hchar hbody ⊢
    rw [hescape] at hchar ⊢
    rw [List.cons_append] at hchar ⊢
    rw [readBody_char hfirst hchar, hbody]
    rfl

/-! ## Sizes -/

theorem utf8Size_pos (ch : Char) : 1 ≤ ch.utf8Size := Char.utf8Size_pos ch

theorem size_escapeChar_le (ch : Char) : size (escapeChar ch) ≤ 6 := by
  unfold escapeChar
  split
  · next letter hletter =>
    have hsmall : ∀ pair ∈ compactEscapes, pair.2.utf8Size = 1 := by decide
    have hsize := hsmall _ (lookup_mem hletter)
    have hslash : '\\'.utf8Size = 1 := rfl
    simp only [size_cons, size_nil, hslash, hsize]
    omega
  · split
    · next hcontrol =>
      have hdigit : ∀ n, n < 16 → (hexDigit n).utf8Size = 1 := by decide
      have hhigh := hdigit (ch.toNat / 16) (by omega)
      have hlow := hdigit (ch.toNat % 16) (by omega)
      simp only [size_cons, size_nil, hhigh, hlow]
      decide
    · have hmax := Char.utf8Size_le_four ch
      simp only [size_cons, size_nil]
      omega

/-- A character with a two-character escape has a compact spelling of at most two bytes. -/
theorem size_escapeChar_of_shortEscape {letter ch : Char} (h : shortEscape letter = some ch) :
    size (escapeChar ch) ≤ 2 := by
  have hall : ∀ pair ∈ ('/', '/') :: compactEscapes, size (escapeChar pair.1) ≤ 2 := by decide
  obtain ⟨pair, hpair, rfl⟩ := Option.map_eq_some_iff.mp h
  exact hall pair (List.mem_of_find?_eq_some hpair)

/-- A character above the controls that is neither quote nor backslash stands for itself. -/
theorem escapeChar_plain {ch : Char} (hcontrol : ¬ ch.toNat < 32) (hquote : ch ≠ '"')
    (hslash : ch ≠ '\\') : escapeChar ch = [ch] := by
  unfold escapeChar
  split
  · next letter hletter =>
    have hall : ∀ pair ∈ compactEscapes, pair.1.toNat < 32 ∨ pair.1 = '"' ∨ pair.1 = '\\' := by decide
    rcases hall _ (lookup_mem hletter) with h | h | h
    · exact absurd h hcontrol
    · exact absurd h hquote
    · exact absurd h hslash
  · rw [if_neg hcontrol]

theorem readUnicode_size {text rest : List Char} {ch : Char}
    (h : readUnicode text = some (ch, rest)) : 4 + size rest ≤ size text := by
  match text, h with
  | a :: b :: c :: d :: tail, h =>
    have ha := utf8Size_pos a
    have hb := utf8Size_pos b
    have hc := utf8Size_pos c
    have hd := utf8Size_pos d
    have htail : size rest ≤ size tail := by
      simp only [readUnicode] at h
      split at h
      · next high _ =>
        unfold readUnit at h
        split at h
        · split at h
          · split at h
            · split at h
              · simp only [Option.some.injEq, Prod.mk.injEq] at h
                obtain ⟨-, rfl⟩ := h
                simp only [size_cons]
                omega
              · cases h
            · cases h
          · cases h
        · split at h
          · cases h
          · cases h
            exact Nat.le_refl _
      · cases h
    simp only [size_cons]
    omega

/-- No accepted spelling of a character is shorter than the compact one. -/
theorem readChar_size {text rest : List Char} {ch : Char} (h : readChar text = some (ch, rest)) :
    size (escapeChar ch) + size rest ≤ size text := by
  match text, h with
  | first :: tail, h =>
    simp only [readChar] at h
    split at h
    · next hslash =>
      subst hslash
      match tail, h with
      | letter :: tail, h =>
        have hslash : '\\'.utf8Size = 1 := rfl
        have hletter := utf8Size_pos letter
        simp only [readEscape] at h
        split at h
        · have hunicode := readUnicode_size h
          have hcompact := size_escapeChar_le ch
          simp only [size_cons, hslash]
          omega
        · obtain ⟨value, hvalue, hpair⟩ := Option.map_eq_some_iff.mp h
          cases hpair
          have hcompact := size_escapeChar_of_shortEscape hvalue
          simp only [size_cons, hslash]
          omega
    · next hslash =>
      split at h
      · cases h
      · next hplain =>
        cases h
        obtain ⟨hcontrol, hquote⟩ := not_or.mp hplain
        rw [escapeChar_plain hcontrol hquote hslash]
        simp

/-- No accepted spelling of a string body is shorter than the compact one. -/
theorem readBody_size {fuel : Nat} {text body after : List Char}
    (h : readBody fuel text = some (body, after)) :
    size (escape body) + 1 + size after ≤ size text := by
  induction fuel generalizing text body with
  | zero => cases h
  | succ fuel ih =>
    match text, h with
    | first :: tail, h =>
      simp only [readBody] at h
      split at h
      · cases h
        have hfirst := utf8Size_pos first
        have hempty : size (escape []) = 0 := rfl
        rw [hempty, size_cons]
        omega
      · obtain ⟨⟨ch, rest⟩, hchar, h⟩ := Option.bind_eq_some_iff.mp h
        obtain ⟨⟨chars, after'⟩, hbody, h⟩ := Option.bind_eq_some_iff.mp h
        cases h
        have hchar := readChar_size hchar
        have hbody := ih hbody
        simp only [escape, List.flatMap_cons, size_append] at hbody ⊢
        omega

/-! ## Tokens -/

/-- A token of a JSON text. A string keeps the bytes of its spelling, quotes included. -/
inductive Token where
  | blank
  | mark (ch : Char)
  | string (bytes : Nat) (value : List Char)
  | number (digits : List Char)
deriving DecidableEq

def Token.size : Token → Nat
  | .blank => 1
  | .mark _ => 1
  | .string bytes _ => bytes
  | .number digits => digits.length

def blanks : List Char := [' ', '\t', '\n', '\r']

def marks : List Char := ['{', '}', '[', ']', ':', ',']

/-- The tokens of a text of brackets, separators, strings and unsigned digit runs. -/
def lex : Nat → List Char → Option (List Token)
  | _, [] => some []
  | 0, _ :: _ => none
  | fuel + 1, ch :: rest =>
    if ch ∈ blanks then (lex fuel rest).map (Token.blank :: ·)
    else if ch ∈ marks then (lex fuel rest).map (Token.mark ch :: ·)
    else if ch = '"' then
      (readBody rest.length rest).bind fun body =>
        (lex fuel body.2).map (Token.string (1 + (Utf8Text.size rest - Utf8Text.size body.2)) body.1 :: ·)
    else if ch.isDigit then
      let digits := rest.takeWhile Char.isDigit
      (lex fuel (rest.drop digits.length)).map (Token.number (ch :: digits) :: ·)
    else none

theorem size_digit {ch : Char} (h : ch.isDigit = true) : ch.utf8Size = 1 := by
  simp only [Char.isDigit, Bool.and_eq_true, decide_eq_true_eq] at h
  unfold Char.utf8Size
  exact if_pos (UInt32.le_trans h.2 (by decide))

theorem size_digits {digits : List Char} (h : ∀ ch ∈ digits, ch.isDigit = true) :
    size digits = digits.length := by
  induction digits with
  | nil => rfl
  | cons ch rest ih =>
    rw [size_cons, List.length_cons, size_digit (h ch List.mem_cons_self),
      ih fun ch hch => h ch (List.mem_cons_of_mem _ hch)]
    omega

/-- The tokens take exactly the bytes of the text. -/
theorem lex_size {fuel : Nat} {text : List Char} {tokens : List Token}
    (h : lex fuel text = some tokens) : (tokens.map Token.size).sum = Utf8Text.size text := by
  induction fuel generalizing text tokens with
  | zero =>
    match text, h with
    | [], h => cases h; rfl
  | succ fuel ih =>
    match text, h with
    | [], h => cases h; rfl
    | ch :: rest, h =>
      have hascii : ∀ mark ∈ blanks ++ marks, mark.utf8Size = 1 :=
        List.forall_iff_forall_mem.mp (by decide)
      simp only [lex] at h
      split at h
      · next hblank =>
        obtain ⟨tail, htail, rfl⟩ := Option.map_eq_some_iff.mp h
        have hone := hascii ch (List.mem_append_left _ hblank)
        rw [List.map_cons, List.sum_cons, ih htail, size_cons, hone]
        rfl
      split at h
      · next hmark =>
        obtain ⟨tail, htail, rfl⟩ := Option.map_eq_some_iff.mp h
        have hone := hascii ch (List.mem_append_right _ hmark)
        rw [List.map_cons, List.sum_cons, ih htail, size_cons, hone]
        rfl
      split at h
      · next hquote =>
        subst hquote
        obtain ⟨⟨value, after⟩, hbody, h⟩ := Option.bind_eq_some_iff.mp h
        obtain ⟨tail, htail, rfl⟩ := Option.map_eq_some_iff.mp h
        have hone : '"'.utf8Size = 1 := rfl
        have hsize := readBody_size hbody
        rw [List.map_cons, List.sum_cons, ih htail, size_cons, hone]
        simp only [Token.size]
        omega
      split at h
      · next hdigit =>
        obtain ⟨tail, htail, rfl⟩ := Option.map_eq_some_iff.mp h
        rw [List.map_cons, List.sum_cons, ih htail, size_cons, size_digit hdigit]
        have hsplit : size (rest.takeWhile Char.isDigit) +
            size (rest.drop (rest.takeWhile Char.isDigit).length) = size rest := by
          rw [← size_append, List.prefix_iff_eq_append.mp (List.takeWhile_prefix _)]
        rw [size_digits (fun ch hch => List.mem_takeWhile_imp hch)] at hsplit
        simp only [Token.size, List.length_cons]
        omega
      · cases h

/-- No string token takes fewer bytes than the compact spelling of its value. -/
theorem lex_string {fuel bytes : Nat} {text value : List Char} {tokens : List Token}
    (h : lex fuel text = some tokens) (hmem : Token.string bytes value ∈ tokens) :
    Utf8Text.size (quoted value) ≤ bytes := by
  induction fuel generalizing text tokens with
  | zero =>
    match text, h with
    | [], h => cases h; cases hmem
  | succ fuel ih =>
    match text, h with
    | [], h => cases h; cases hmem
    | ch :: rest, h =>
      simp only [lex] at h
      split at h
      · obtain ⟨tail, htail, rfl⟩ := Option.map_eq_some_iff.mp h
        rcases List.mem_cons.mp hmem with hhead | hmem
        · cases hhead
        · exact ih htail hmem
      split at h
      · obtain ⟨tail, htail, rfl⟩ := Option.map_eq_some_iff.mp h
        rcases List.mem_cons.mp hmem with hhead | hmem
        · cases hhead
        · exact ih htail hmem
      split at h
      · obtain ⟨⟨body, after⟩, hbody, h⟩ := Option.bind_eq_some_iff.mp h
        obtain ⟨tail, htail, rfl⟩ := Option.map_eq_some_iff.mp h
        rcases List.mem_cons.mp hmem with hhead | hmem
        · cases hhead
          have hsize := readBody_size hbody
          have hone : '"'.utf8Size = 1 := rfl
          simp only [quoted, size_cons, size_append, size_nil, hone]
          omega
        · exact ih htail hmem
      split at h
      · obtain ⟨tail, htail, rfl⟩ := Option.map_eq_some_iff.mp h
        rcases List.mem_cons.mp hmem with hhead | hmem
        · cases hhead
        · exact ih htail hmem
      · cases h

/-! ## Tokens of compact text -/

theorem lex_mark {mark : Char} (hmark : mark ∈ marks) (fuel : Nat) (rest : List Char) :
    lex (fuel + 1) (mark :: rest) = (lex fuel rest).map (Token.mark mark :: ·) := by
  have hall : ∀ mark ∈ marks, mark ∉ blanks := List.forall_iff_forall_mem.mp (by decide)
  rw [lex, if_neg (hall mark hmark), if_pos hmark]

theorem length_le_escape (text : List Char) : text.length ≤ (escape text).length := by
  induction text with
  | nil => exact Nat.zero_le _
  | cons ch text ih =>
    obtain ⟨first, rest, hescape, -⟩ := escapeChar_cons ch
    simp only [escape, List.flatMap_cons, List.length_append, hescape, List.length_cons] at ih ⊢
    omega

theorem lex_quoted (text : List Char) (fuel : Nat) (rest : List Char) :
    lex (fuel + 1) (quoted text ++ rest) =
      (lex fuel rest).map (Token.string (Utf8Text.size (quoted text)) text :: ·) := by
  have hquote : '"' ∉ blanks ∧ '"' ∉ marks := by decide
  have hlength := length_le_escape text
  have hbody : readBody (escape text ++ '"' :: rest).length (escape text ++ '"' :: rest) =
      some (text, rest) := by
    apply readBody_escape
    rw [List.length_append, List.length_cons]
    omega
  have hsize : 1 + (Utf8Text.size (escape text ++ '"' :: rest) - Utf8Text.size rest) =
      Utf8Text.size (quoted text) := by
    simp only [quoted, size_append, size_cons, size_nil]
    have hone : '"'.utf8Size = 1 := rfl
    omega
  rw [quoted, List.cons_append, List.append_assoc, List.singleton_append, lex, if_neg hquote.1,
    if_neg hquote.2, if_pos rfl, hbody]
  simp only [Option.bind_some, hsize]
  rfl

theorem lex_number {digits rest : List Char} (hnonempty : digits ≠ [])
    (hdigits : ∀ ch ∈ digits, ch.isDigit = true) (hrest : (rest.takeWhile Char.isDigit) = [])
    (fuel : Nat) :
    lex (fuel + 1) (digits ++ rest) = (lex fuel rest).map (Token.number digits :: ·) := by
  match digits, hnonempty with
  | first :: digits, _ =>
    have hother : ∀ mark ∈ '"' :: (blanks ++ marks), mark.isDigit = false :=
      List.forall_iff_forall_mem.mp (by decide)
    have hfirst := hdigits first List.mem_cons_self
    have hplain : first ∉ '"' :: (blanks ++ marks) := by
      intro hmem
      rw [hother first hmem] at hfirst
      cases hfirst
    simp only [List.mem_cons, List.mem_append, not_or] at hplain
    have htake : (digits ++ rest).takeWhile Char.isDigit = digits := by
      rw [List.takeWhile_append_of_pos fun ch hch => hdigits ch (List.mem_cons_of_mem _ hch), hrest,
        List.append_nil]
    rw [List.cons_append, lex, if_neg hplain.2.1, if_neg hplain.2.2, if_neg hplain.1, if_pos hfirst]
    simp only [htake, List.drop_left]

/-! ## Arrays of strings -/

/-- The compact spelling of the strings after the first one, with the closing bracket. -/
def moreStrings : List (List Char) → List Char
  | [] => [']']
  | value :: rest => ',' :: (quoted value ++ moreStrings rest)

/-- The compact spelling of an array of strings. -/
def stringArray : List (List Char) → List Char
  | [] => ['[', ']']
  | value :: rest => '[' :: (quoted value ++ moreStrings rest)

/-- The strings of the tokens from a first string to a closing bracket that ends the text. -/
def readStrings : List Token → Option (List (List Char))
  | .string _ value :: .mark ',' :: rest => (readStrings rest).map (value :: ·)
  | [.string _ value, .mark ']'] => some [value]
  | _ => none

def readElements : List Token → Option (List (List Char))
  | [.mark '[', .mark ']'] => some []
  | .mark '[' :: rest => readStrings rest
  | _ => none

/-- The strings of a text that is a JSON array of strings, in any accepted spelling. -/
def readStringArray (text : List Char) : Option (List (List Char)) :=
  (lex text.length text).bind fun tokens => readElements (tokens.filter (· ≠ .blank))

def tokenOf (value : List Char) : Token := .string (Utf8Text.size (quoted value)) value

def moreTokens : List (List Char) → List Token
  | [] => [.mark ']']
  | value :: rest => .mark ',' :: tokenOf value :: moreTokens rest

theorem lex_moreStrings {values : List (List Char)} {fuel : Nat} (hfuel : (moreStrings values).length ≤ fuel) :
    lex fuel (moreStrings values) = some (moreTokens values) := by
  induction values generalizing fuel with
  | nil =>
    obtain ⟨fuel, rfl⟩ := Nat.exists_eq_succ_of_ne_zero (Nat.ne_of_gt hfuel)
    show lex (fuel + 1) [']'] = some [.mark ']']
    rw [lex_mark (by decide)]
    cases fuel <;> rfl
  | cons value rest ih =>
    have hlength : (moreStrings (value :: rest)).length =
        (quoted value).length + (moreStrings rest).length + 1 := by
      rw [moreStrings, List.length_cons, List.length_append]
    have hquoted : 0 < (quoted value).length := Nat.succ_pos _
    obtain ⟨fuel, rfl⟩ : ∃ more, fuel = more + 2 := ⟨fuel - 2, by omega⟩
    show lex (fuel + 2) (',' :: (quoted value ++ moreStrings rest)) = _
    rw [lex_mark (by decide), lex_quoted, ih (by omega)]
    rfl

theorem readStrings_moreTokens (first : List Char) (values : List (List Char)) :
    readStrings (tokenOf first :: moreTokens values) = some (first :: values) := by
  induction values generalizing first with
  | nil => rfl
  | cons value rest ih =>
    show (readStrings (tokenOf value :: moreTokens rest)).map (first :: ·) = _
    rw [ih]
    rfl

theorem blank_not_mem_moreTokens (values : List (List Char)) : Token.blank ∉ moreTokens values := by
  induction values with
  | nil => decide
  | cons value rest ih =>
    rw [moreTokens, List.mem_cons, List.mem_cons, not_or, not_or]
    exact ⟨by simp, by simp [tokenOf], ih⟩

/-- The compact spelling of an array of strings is read back. -/
theorem readStringArray_stringArray (values : List (List Char)) :
    readStringArray (stringArray values) = some values := by
  cases values with
  | nil => decide
  | cons value rest =>
    have hlength : (stringArray (value :: rest)).length =
        (quoted value).length + (moreStrings rest).length + 1 := by
      rw [stringArray, List.length_cons, List.length_append]
    have hquoted : 0 < (quoted value).length := Nat.succ_pos _
    obtain ⟨fuel, hfuel⟩ : ∃ more, (stringArray (value :: rest)).length = more + 2 :=
      ⟨(stringArray (value :: rest)).length - 2, by omega⟩
    have htokens : lex (fuel + 2) (stringArray (value :: rest)) =
        some (.mark '[' :: tokenOf value :: moreTokens rest) := by
      show lex (fuel + 2) ('[' :: (quoted value ++ moreStrings rest)) = _
      rw [lex_mark (by decide), lex_quoted, lex_moreStrings (by omega)]
      rfl
    have hsolid : (Token.mark '[' :: tokenOf value :: moreTokens rest).filter (· ≠ .blank) =
        .mark '[' :: tokenOf value :: moreTokens rest := by
      rw [List.filter_eq_self]
      intro token htoken
      have hblank : token ≠ .blank := by
        rintro rfl
        rw [List.mem_cons, List.mem_cons] at htoken
        rcases htoken with htoken | htoken | htoken
        · cases htoken
        · cases htoken
        · exact blank_not_mem_moreTokens rest htoken
      simpa using hblank
    unfold readStringArray
    rw [hfuel, htokens, Option.bind_some, hsolid]
    exact readStrings_moreTokens value rest

theorem moreStrings_visible {values : List (List Char)} {out : Char} (h : out ∈ moreStrings values) :
    32 ≤ out.toNat := by
  induction values with
  | nil =>
    rw [List.mem_singleton.mp h]
    decide
  | cons value rest ih =>
    rw [moreStrings, List.mem_cons, List.mem_append] at h
    rcases h with rfl | h | h
    · decide
    · exact quoted_visible h
    · exact ih h

/-- The compact spelling of an array of strings holds no control characters. -/
theorem stringArray_visible {values : List (List Char)} {out : Char} (h : out ∈ stringArray values) :
    32 ≤ out.toNat := by
  cases values with
  | nil =>
    have hall : ∀ mark ∈ ['[', ']'], 32 ≤ mark.toNat := List.forall_iff_forall_mem.mp (by decide)
    exact hall out h
  | cons value rest =>
    rw [stringArray, List.mem_cons, List.mem_append] at h
    rcases h with rfl | h | h
    · decide
    · exact quoted_visible h
    · exact moreStrings_visible h

end JsonText
