import Boxferry.Bundle.Transport
import Boxferry.Library.JsonText

/-! # Header texts

The JSON spellings a derived deserializer accepts for a member header, and the
compact object the serializer writes. An accepted text is an object with its
two fields in either order, or an array of the field values in declaration
order; blanks and longer string escapes are its surplus bytes. -/
namespace Boxferry.Bundle.HeaderText
open JsonText Model
set_option autoImplicit false

def nameKey : List Char := ['n', 'a', 'm', 'e']

def bytesKey : List Char := ['b', 'y', 't', 'e', 's']

/-! ## Writing -/

/-- The compact object of a header. -/
def compactChars (header : Header) : List Char :=
  '{' :: (quoted nameKey ++ ':' :: (quoted header.name.toList ++ ',' :: (quoted bytesKey ++
    ':' :: (Nat.toDigits 10 header.bytes.toNat ++ ['}']))))

def compact (header : Header) : Bytes := Utf8Text.bytes (String.ofList (compactChars header))

/-! ## Reading -/

/-- A canonical decimal number of 64 bits; floats, signs and leading zeros are rejected. -/
def readU64 (digits : List Char) : Option UInt64 :=
  match Decimal.read digits with
  | none => none
  | some value => if value < 2 ^ 64 then some (UInt64.ofNat value) else none

/-- The header of a name token and a length token. -/
def ofValues : Token → Token → Option Header
  | .string _ name, .number digits => (readU64 digits).map fun bytes => ⟨String.ofList name, bytes⟩
  | _, _ => none

/-- The header of an object's two entries, in either order. -/
def ofEntries (first second firstValue secondValue : Token) : Option Header :=
  match first, second with
  | .string _ firstKey, .string _ secondKey =>
    if firstKey = nameKey ∧ secondKey = bytesKey then ofValues firstValue secondValue
    else if firstKey = bytesKey ∧ secondKey = nameKey then ofValues secondValue firstValue
    else none
  | _, _ => none

/-- The header of the tokens between blanks. -/
def ofTokens : List Token → Option Header
  | [a, first, b, firstValue, c, second, d, secondValue, e] =>
    if [a, b, c, d, e] = [.mark '{', .mark ':', .mark ',', .mark ':', .mark '}'] then
      ofEntries first second firstValue secondValue
    else none
  | [a, name, b, bytes, c] =>
    if [a, b, c] = [.mark '[', .mark ',', .mark ']'] then ofValues name bytes else none
  | _ => none

def tokens (text : Bytes) : Option (List Token) :=
  (Utf8Text.ofBytes text).bind fun text => lex text.toList.length text.toList

def solid (tokens : List Token) : List Token := tokens.filter (· ≠ .blank)

/-- The header a derived deserializer reads from a text. -/
def read (text : Bytes) : Option Header := (tokens text).bind fun tokens => ofTokens (solid tokens)

/-! ## Form and surplus -/

/-- Whether the text is an array of field values rather than an object. -/
def isArray (text : Bytes) : Bool :=
  match tokens text with
  | none => false
  | some tokens => (solid tokens).head? == some (.mark '[')

/-- The bytes a token spends beyond its compact spelling. -/
def tokenSurplus : Token → Nat
  | .blank => 1
  | .string bytes value => bytes - Utf8Text.size (quoted value)
  | .mark _ | .number _ => 0

/-- Blanks, and string escapes longer than the compact ones. -/
def surplus (text : Bytes) : Nat :=
  match tokens text with
  | none => 0
  | some tokens => (tokens.map tokenSurplus).sum

/-! ## The compact object is read back -/

theorem readU64_toDigits (value : UInt64) : readU64 (Nat.toDigits 10 value.toNat) = some value := by
  unfold readU64
  rw [Decimal.read_toDigits]
  simp only
  rw [if_pos value.toNat_lt, UInt64.ofNat_toNat]

theorem ofBytes_compact (header : Header) :
    Utf8Text.ofBytes (compact header) = some (String.ofList (compactChars header)) :=
  Utf8Text.ofBytes_bytes _

theorem lex_compactChars (header : Header) (fuel : Nat) :
    lex (fuel + 9) (compactChars header) = some
      [.mark '{', .string 6 nameKey, .mark ':',
        .string (Utf8Text.size (quoted header.name.toList)) header.name.toList, .mark ',',
        .string 7 bytesKey, .mark ':', .number (Nat.toDigits 10 header.bytes.toNat), .mark '}'] := by
  have hname : Utf8Text.size (quoted nameKey) = 6 := by decide
  have hbytes : Utf8Text.size (quoted bytesKey) = 7 := by decide
  rw [compactChars, lex_mark (by decide), lex_quoted, lex_mark (by decide), lex_quoted,
    lex_mark (by decide), lex_quoted, lex_mark (by decide),
    lex_number Nat.toDigits_ne_nil (Decimal.digits_isDigit _) (by decide), lex_mark (by decide),
    hname, hbytes]
  cases fuel <;> rfl

theorem compactChars_length (header : Header) : 9 ≤ (compactChars header).length := by
  have hkeys : (quoted nameKey).length = 6 ∧ (quoted bytesKey).length = 7 := by decide
  simp only [compactChars, List.length_cons, List.length_append, hkeys]
  omega

theorem tokens_compact (header : Header) : tokens (compact header) = some
    [.mark '{', .string 6 nameKey, .mark ':',
      .string (Utf8Text.size (quoted header.name.toList)) header.name.toList, .mark ',',
      .string 7 bytesKey, .mark ':', .number (Nat.toDigits 10 header.bytes.toNat), .mark '}'] := by
  obtain ⟨fuel, hfuel⟩ := Nat.exists_eq_add_of_le' (compactChars_length header)
  rw [tokens, ofBytes_compact, Option.bind_some, String.toList_ofList, hfuel, lex_compactChars]

theorem read_compact (header : Header) : read (compact header) = some header := by
  rw [read, tokens_compact, Option.bind_some]
  simp only [solid, List.filter, ne_eq, reduceCtorEq, not_false_eq_true, decide_true, ofTokens,
    reduceIte, ofEntries, and_self, ofValues, readU64_toDigits, Option.map_some,
    String.ofList_toList]

theorem length_compact (header : Header) : (compact header).length =
    18 + Utf8Text.size (quoted header.name.toList) + (Nat.toDigits 10 header.bytes.toNat).length := by
  have hsize := lex_size (lex_compactChars header 0)
  rw [compact, Utf8Text.length_bytes_ofList, ← hsize]
  simp only [List.map_cons, List.map_nil, List.sum_cons, List.sum_nil, Token.size]
  omega

/-! ## Accepted texts and the compact object -/

/-- The bytes of a token that its compact spelling needs. -/
def essential : Token → Nat
  | .blank => 0
  | .string _ value => Utf8Text.size (quoted value)
  | .mark _ => 1
  | .number digits => digits.length

theorem size_eq_essential {fuel : Nat} {text : List Char} {tokens : List Token}
    (h : lex fuel text = some tokens) :
    Utf8Text.size text = (tokens.map essential).sum + (tokens.map tokenSurplus).sum := by
  have hsplit : ∀ token ∈ tokens, token.size = essential token + tokenSurplus token := by
    intro token hmem
    cases token with
    | blank => rfl
    | mark ch => rfl
    | string bytes value =>
      have hquoted := lex_string h hmem
      simp only [Token.size, essential, tokenSurplus]
      omega
    | number digits => rfl
  rw [← lex_size h, List.map_congr_left hsplit, List.sum_map_add]

theorem essential_solid (tokens : List Token) :
    ((solid tokens).map essential).sum = (tokens.map essential).sum := by
  induction tokens with
  | nil => rfl
  | cons token tokens ih =>
    unfold solid at ih ⊢
    cases token with
    | blank => simpa [essential] using ih
    | mark ch => simpa using ih
    | string bytes value => simpa using ih
    | number digits => simpa using ih

theorem length_of_readU64 {digits : List Char} {value : UInt64} (h : readU64 digits = some value) :
    Nat.toDigits 10 value.toNat = digits := by
  unfold readU64 at h
  split at h
  · cases h
  · next number hnumber =>
    split at h
    · next hsmall =>
      cases h
      rw [UInt64.toNat_ofNat_of_lt' hsmall]
      exact Decimal.toDigits_of_read hnumber
    · cases h

theorem essential_ofValues {name bytes : Token} {header : Header}
    (h : ofValues name bytes = some header) : essential name + essential bytes + 18 =
      (compact header).length := by
  match name, bytes, h with
  | .string size name, .number digits, h =>
    obtain ⟨value, hvalue, rfl⟩ := Option.map_eq_some_iff.mp h
    rw [length_compact, String.toList_ofList, length_of_readU64 hvalue]
    simp only [essential]
    omega

/-- An object needs the bytes of the compact object, an array fifteen fewer. -/
theorem essential_ofTokens {tokens : List Token} {header : Header}
    (h : ofTokens tokens = some header) :
    (tokens.map essential).sum + (if tokens.head? == some (.mark '[') then 15 else 0) =
      (compact header).length := by
  have hname : Utf8Text.size (quoted nameKey) = 6 := by decide
  have hbytes : Utf8Text.size (quoted bytesKey) = 7 := by decide
  unfold ofTokens at h
  split at h
  · next a first b firstValue c second d secondValue e =>
    rw [Option.ite_none_right_eq_some] at h
    obtain ⟨hmarks, h⟩ := h
    cases hmarks
    match first, second, h with
    | .string _ firstKey, .string _ secondKey, h =>
      simp only [ofEntries] at h
      split at h
      · next hkeys =>
        obtain ⟨rfl, rfl⟩ := hkeys
        rw [← essential_ofValues h]
        simp [essential, hname, hbytes]
        omega
      split at h
      · next hkeys =>
        obtain ⟨rfl, rfl⟩ := hkeys
        rw [← essential_ofValues h]
        simp [essential, hname, hbytes]
        omega
      · cases h
  · next a name b bytes c =>
    rw [Option.ite_none_right_eq_some] at h
    obtain ⟨hmarks, h⟩ := h
    cases hmarks
    rw [← essential_ofValues h]
    simp [essential]
    omega
  · cases h

/-- An accepted text exceeds the compact object by its surplus, less fifteen
bytes when it is an array. -/
theorem length_of_read {text : Bytes} {header : Header} (h : read text = some header) :
    text.length + (if isArray text then 15 else 0) = (compact header).length + surplus text := by
  obtain ⟨found, hfound, hheader⟩ := Option.bind_eq_some_iff.mp h
  obtain ⟨string, hstring, hlex⟩ := Option.bind_eq_some_iff.mp hfound
  have hlength : text.length = Utf8Text.size string.toList := by
    rw [← Utf8Text.length_bytes_toList, Utf8Text.bytes_of_ofBytes hstring]
  have hessential := essential_ofTokens hheader
  rw [essential_solid] at hessential
  rw [hlength, size_eq_essential hlex]
  simp only [isArray, surplus, hfound]
  omega

theorem lineFeed_not_mem_compact (header : Header) : lineFeed ∉ compact header := by
  have hmarks : ∀ mark ∈ marks, mark.toNat ≠ lineFeed.toNat := List.forall_iff_forall_mem.mp (by decide)
  have hquoted : ∀ text, ∀ ch ∈ quoted text, ch.toNat ≠ lineFeed.toNat := by
    intro text ch hch
    have hvisible := quoted_visible hch
    have hfeed : lineFeed.toNat = 10 := rfl
    omega
  have hdigits : ∀ ch ∈ Nat.toDigits 10 header.bytes.toNat, ch.toNat ≠ lineFeed.toNat := by
    intro ch hch hfeed
    have hdigit := Decimal.digits_isDigit _ ch hch
    have hchar : ch = '\n' := by rw [← Char.ofNat_toNat ch, hfeed]; rfl
    subst hchar
    exact absurd hdigit (by decide)
  apply Utf8Text.not_mem_bytes (by decide)
  intro ch hch
  simp only [compactChars, List.mem_cons, List.mem_append, List.not_mem_nil, or_false] at hch
  rcases hch with rfl | hch | rfl | hch | rfl | hch | rfl | hch | rfl
  · exact hmarks _ (by decide)
  · exact hquoted _ ch hch
  · exact hmarks _ (by decide)
  · exact hquoted _ ch hch
  · exact hmarks _ (by decide)
  · exact hquoted _ ch hch
  · exact hmarks _ (by decide)
  · exact hdigits ch hch
  · exact hmarks _ (by decide)

end Boxferry.Bundle.HeaderText
