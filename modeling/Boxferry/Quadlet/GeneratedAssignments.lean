import Boxferry.Library.JsonText
import Boxferry.Model.Text

/-! # Generated assignments

The quoted spelling that labels, annotations and log options are exported in,
and the reader that recovers the assignment. Every assignment without NUL is read
back, and what is read can be written again. -/
namespace Boxferry.Quadlet
open Model
set_option autoImplicit false

/-! ## Writing -/

/-- `{:04x}` of a code point with at most four digits. -/
def fourHexDigits (code : Nat) : List Char :=
  [JsonText.hexDigit (code / 4096 % 16), JsonText.hexDigit (code / 256 % 16),
    JsonText.hexDigit (code / 16 % 16), JsonText.hexDigit (code % 16)]

def encodeCharacter (character : Char) : List Char :=
  if character = '"' then ['\\', '"']
  else if character = '\\' then ['\\', '\\']
  else if character = '%' then ['%', '%']
  else if character = '\n' then ['\\', 'n']
  else if character = '\r' then ['\\', 'r']
  else if character = '\t' then ['\\', 't']
  else if isControl character then '\\' :: 'u' :: fourHexDigits character.toNat
  else [character]

/-- The characters of an assignment. -/
def assignment (name value : String) : List Char := name.toList ++ '=' :: value.toList

def encodeQuadletLabel (name value : String) : Option String :=
  if containsChar name '\x00' || containsChar value '\x00' then none
  else some (String.ofList ('"' :: ((assignment name value).flatMap encodeCharacter ++ ['"'])))

/-! ## Reading -/

/-- The character of a two-character escape. -/
def escapedCharacter : Char → Option Char
  | '"' => some '"'
  | '\\' => some '\\'
  | 'n' => some '\n'
  | 'r' => some '\r'
  | 't' => some '\t'
  | _ => none

/-- The character that four hexadecimal digits name, which is not NUL. -/
def hexCharacter (a b c d : Char) : Option Char :=
  (JsonText.unit a b c d).bind fun scalar =>
    if scalar.isValidChar ∧ scalar ≠ 0 then some (Char.ofNat scalar) else none

def decodeCharacters : List Char → Option (List Char)
  | [] => some []
  | '\\' :: 'u' :: a :: b :: c :: d :: rest =>
    (hexCharacter a b c d).bind fun character => (decodeCharacters rest).map (character :: ·)
  | '\\' :: escape :: rest =>
    (escapedCharacter escape).bind fun character => (decodeCharacters rest).map (character :: ·)
  | '\\' :: [] => none
  | '%' :: '%' :: rest => (decodeCharacters rest).map ('%' :: ·)
  | '%' :: _ => none
  | character :: rest =>
    if character = '"' ∨ isControl character = true then none
    else (decodeCharacters rest).map (character :: ·)

/-- The text between the quotes of a quoted value. -/
def unquote (quoted : List Char) : Option (List Char) :=
  if quoted.getLast? = some '"' then some quoted.dropLast else none

def decodeGeneratedAssignment (value : String) : Option String :=
  match value.toList with
  | '"' :: quoted => ((unquote quoted).bind decodeCharacters).map String.ofList
  | _ => some value

/-! ## What is written -/

/-- Every percent sign stands in a pair of two. -/
def PercentsPaired : List Char → Prop
  | '%' :: '%' :: rest => PercentsPaired rest
  | '%' :: _ => False
  | _ :: rest => PercentsPaired rest
  | [] => True

theorem percentsPaired_plain {character : Char} {rest : List Char} (h : character ≠ '%') :
    PercentsPaired (character :: rest) ↔ PercentsPaired rest := by
  rw [PercentsPaired]
  · intro tail hcharacter
    exact absurd hcharacter h
  · intro hcharacter
    exact absurd hcharacter h

theorem toNat_lt_of_isControl {character : Char} (h : isControl character = true) :
    character.toNat < 160 := by
  unfold isControl at h
  simp only [Bool.or_eq_true, decide_eq_true_eq, Bool.and_eq_true] at h
  omega

theorem hexDigit_plain : ∀ digit < 16, isControl (JsonText.hexDigit digit) = false ∧
    JsonText.hexDigit digit ≠ '%' := by decide

theorem fourHexDigits_plain {code : Nat} {character : Char} (h : character ∈ fourHexDigits code) :
    isControl character = false ∧ character ≠ '%' := by
  unfold fourHexDigits at h
  simp only [List.mem_cons, List.not_mem_nil, or_false] at h
  rcases h with rfl | rfl | rfl | rfl <;> exact hexDigit_plain _ (by omega)

/-- The forms a character is written in. -/
theorem encodeCharacter_cases (character : Char) :
    (∃ letter, encodeCharacter character = ['\\', letter] ∧
        escapedCharacter letter = some character ∧ isControl letter = false ∧ letter ≠ '%') ∨
      (character = '%' ∧ encodeCharacter character = ['%', '%']) ∨
      (isControl character = true ∧
        encodeCharacter character = '\\' :: 'u' :: fourHexDigits character.toNat) ∨
      (isControl character = false ∧ character ≠ '"' ∧ character ≠ '\\' ∧ character ≠ '%' ∧
        encodeCharacter character = [character]) := by
  by_cases hquote : character = '"'
  · exact Or.inl ⟨'"', by rw [hquote]; decide, by rw [hquote]; rfl, by decide, by decide⟩
  by_cases hbackslash : character = '\\'
  · exact Or.inl ⟨'\\', by rw [hbackslash]; decide, by rw [hbackslash]; rfl, by decide, by decide⟩
  by_cases hpercent : character = '%'
  · exact Or.inr (Or.inl ⟨hpercent, by rw [hpercent]; decide⟩)
  by_cases hnewline : character = '\n'
  · exact Or.inl ⟨'n', by rw [hnewline]; decide, by rw [hnewline]; rfl, by decide, by decide⟩
  by_cases hreturn : character = '\r'
  · exact Or.inl ⟨'r', by rw [hreturn]; decide, by rw [hreturn]; rfl, by decide, by decide⟩
  by_cases htab : character = '\t'
  · exact Or.inl ⟨'t', by rw [htab]; decide, by rw [htab]; rfl, by decide, by decide⟩
  refine Or.inr (Or.inr ?_)
  unfold encodeCharacter
  rw [if_neg hquote, if_neg hbackslash, if_neg hpercent, if_neg hnewline, if_neg hreturn, if_neg htab]
  cases hcontrol : isControl character with
  | true => exact Or.inl ⟨rfl, if_pos rfl⟩
  | false => exact Or.inr ⟨rfl, hquote, hbackslash, hpercent, if_neg Bool.false_ne_true⟩

theorem encodeCharacter_visible {character out : Char} (h : out ∈ encodeCharacter character) :
    isControl out = false := by
  rcases encodeCharacter_cases character with ⟨letter, hform, -, hletter, -⟩ | ⟨-, hform⟩ |
    ⟨-, hform⟩ | ⟨hplain, -, -, -, hform⟩
  · rw [hform, List.mem_cons, List.mem_singleton] at h
    rcases h with rfl | rfl
    · decide
    · exact hletter
  · rw [hform, List.mem_cons, List.mem_singleton, or_self] at h
    rw [h]
    decide
  · rw [hform, List.mem_cons, List.mem_cons] at h
    rcases h with rfl | rfl | h
    · decide
    · decide
    · exact (fourHexDigits_plain h).1
  · rw [hform, List.mem_singleton] at h
    rw [h]
    exact hplain

theorem percentsPaired_plains {plain rest : List Char} (h : ∀ character ∈ plain, character ≠ '%') :
    PercentsPaired (plain ++ rest) ↔ PercentsPaired rest := by
  induction plain with
  | nil => exact Iff.rfl
  | cons character plain ih =>
    rw [List.forall_mem_cons] at h
    rw [List.cons_append, percentsPaired_plain h.1, ih h.2]

theorem percentsPaired_encodeCharacter (character : Char) (rest : List Char) :
    PercentsPaired (encodeCharacter character ++ rest) ↔ PercentsPaired rest := by
  rcases encodeCharacter_cases character with ⟨letter, hform, -, -, hletter⟩ | ⟨-, hform⟩ |
    ⟨-, hform⟩ | ⟨-, -, -, hpercent, hform⟩
  · rw [hform]
    refine percentsPaired_plains fun other hother => ?_
    rw [List.mem_cons, List.mem_singleton] at hother
    rcases hother with rfl | rfl
    · decide
    · exact hletter
  · rw [hform]
    exact Iff.rfl
  · rw [hform]
    refine percentsPaired_plains fun other hother => ?_
    rw [List.mem_cons, List.mem_cons] at hother
    rcases hother with rfl | rfl | hother
    · decide
    · decide
    · exact (fourHexDigits_plain hother).2
  · rw [hform]
    exact percentsPaired_plain hpercent

theorem percentsPaired_flatMap (text rest : List Char) :
    PercentsPaired (text.flatMap encodeCharacter ++ rest) ↔ PercentsPaired rest := by
  induction text with
  | nil => exact Iff.rfl
  | cons character text ih =>
    rw [List.flatMap_cons, List.append_assoc, percentsPaired_encodeCharacter, ih]

/-! ## What is read back -/

theorem unit_fourHexDigits {code : Nat} (h : code < 65536) :
    JsonText.unit (JsonText.hexDigit (code / 4096 % 16)) (JsonText.hexDigit (code / 256 % 16))
      (JsonText.hexDigit (code / 16 % 16)) (JsonText.hexDigit (code % 16)) = some code := by
  unfold JsonText.unit
  rw [JsonText.hexValue_hexDigit _ (by omega), JsonText.hexValue_hexDigit _ (by omega),
    JsonText.hexValue_hexDigit _ (by omega), JsonText.hexValue_hexDigit _ (by omega)]
  show some _ = _
  congr 1
  omega

/-- Each character is read back from the form it was written in. -/
theorem decodeCharacters_encodeCharacter {character : Char} (hnul : character ≠ '\x00')
    (rest : List Char) : decodeCharacters (encodeCharacter character ++ rest) =
      (decodeCharacters rest).map (character :: ·) := by
  rcases encodeCharacter_cases character with ⟨letter, hform, hletter, -⟩ | ⟨hpercent, hform⟩ |
    ⟨hcontrol, hform⟩ | ⟨hplain, hquote, hbackslash, hpercent, hform⟩
  · rw [hform, List.cons_append, List.singleton_append, decodeCharacters]
    · rw [hletter]
      rfl
    · rintro a b c d tail rfl -
      cases hletter
  · rw [hform, hpercent]
    rfl
  · have hcode := toNat_lt_of_isControl hcontrol
    have hvalid : character.toNat.isValidChar ∧ character.toNat ≠ 0 := by
      refine ⟨character.valid, fun hzero => hnul ?_⟩
      rw [← Char.ofNat_toNat character, hzero]
    rw [hform]
    show (hexCharacter _ _ _ _).bind _ = _
    unfold hexCharacter
    rw [unit_fourHexDigits (by omega), Option.bind_some, if_pos hvalid, Option.bind_some,
      Char.ofNat_toNat]
    rfl
  · rw [hform, List.singleton_append, decodeCharacters]
    · rw [if_neg]
      rintro (h | h)
      · exact hquote h
      · rw [hplain] at h
        cases h
    all_goals
      intros
      first | exact hbackslash ‹_› | exact hpercent ‹_›

theorem decodeCharacters_flatMap {text : List Char} (hnul : '\x00' ∉ text) :
    decodeCharacters (text.flatMap encodeCharacter) = some text := by
  induction text with
  | nil => rfl
  | cons character text ih =>
    rw [List.mem_cons, not_or] at hnul
    rw [List.flatMap_cons, decodeCharacters_encodeCharacter (Ne.symm hnul.1), ih hnul.2]
    rfl

theorem toNat_ofNat {code : Nat} (h : code.isValidChar) : (Char.ofNat code).toNat = code := by
  unfold Char.ofNat
  rw [dif_pos h]
  rfl

theorem hexCharacter_nul {a b c d character : Char} (h : hexCharacter a b c d = some character) :
    character ≠ '\x00' := by
  obtain ⟨scalar, -, hscalar⟩ := Option.bind_eq_some_iff.mp h
  split at hscalar
  · next hvalid =>
    cases hscalar
    intro hnul
    have hcode := congrArg Char.toNat hnul
    rw [toNat_ofNat hvalid.1] at hcode
    exact hvalid.2 hcode
  · cases hscalar

theorem escapedCharacter_nul {letter character : Char} (h : escapedCharacter letter = some character) :
    character ≠ '\x00' := by
  unfold escapedCharacter at h
  split at h
  case h_6 => cases h
  all_goals
    cases h
    decide

theorem nul_cons {character : Char} {rest decoded : List Char} (hcharacter : character ≠ '\x00')
    (ih : ∀ {tail}, decodeCharacters rest = some tail → '\x00' ∉ tail)
    (h : (decodeCharacters rest).map (character :: ·) = some decoded) : '\x00' ∉ decoded := by
  obtain ⟨tail, htail, rfl⟩ := Option.map_eq_some_iff.mp h
  rw [List.mem_cons, not_or]
  exact ⟨Ne.symm hcharacter, ih htail⟩

/-- No reading gives NUL. -/
theorem decodeCharacters_nul {text decoded : List Char} (h : decodeCharacters text = some decoded) :
    '\x00' ∉ decoded := by
  fun_induction decodeCharacters text generalizing decoded with
  | case1 =>
    cases h
    exact List.not_mem_nil
  | case2 a b c d rest ih =>
    obtain ⟨character, hhex, h⟩ := Option.bind_eq_some_iff.mp h
    exact nul_cons (hexCharacter_nul hhex) ih h
  | case3 escape rest hlong ih =>
    obtain ⟨character, hescaped, h⟩ := Option.bind_eq_some_iff.mp h
    exact nul_cons (escapedCharacter_nul hescaped) ih h
  | case4 => cases h
  | case5 rest ih => exact nul_cons (by decide) ih h
  | case6 => cases h
  | case7 => cases h
  | case8 character rest _ _ _ _ _ hplain ih =>
    rw [not_or] at hplain
    refine nul_cons ?_ ih h
    rintro rfl
    exact hplain.2 (by decide)

/-! ## The codec -/

theorem decode_quoted (text : List Char) :
    decodeGeneratedAssignment (String.ofList ('"' :: (text ++ ['"']))) =
      (decodeCharacters text).map String.ofList := by
  unfold decodeGeneratedAssignment unquote
  rw [String.toList_ofList]
  simp

theorem nul_assignment {name value : String} :
    '\x00' ∉ assignment name value ↔ '\x00' ∉ name.toList ∧ '\x00' ∉ value.toList := by
  unfold assignment
  rw [List.mem_append, List.mem_cons, not_or, not_or]
  constructor
  · rintro ⟨hname, -, hvalue⟩
    exact ⟨hname, hvalue⟩
  · rintro ⟨hname, hvalue⟩
    exact ⟨hname, by decide, hvalue⟩

theorem encodeQuadletLabel_eq {name value : String} (h : '\x00' ∉ assignment name value) :
    encodeQuadletLabel name value =
      some (String.ofList ('"' :: ((assignment name value).flatMap encodeCharacter ++ ['"']))) := by
  rw [nul_assignment] at h
  unfold encodeQuadletLabel containsChar
  rw [if_neg]
  simp [h.1, h.2]

theorem decode_encodeQuadletLabel {name value text : String} (h : '\x00' ∉ assignment name value)
    (htext : encodeQuadletLabel name value = some text) :
    decodeGeneratedAssignment text = some (String.ofList (assignment name value)) := by
  rw [encodeQuadletLabel_eq h] at htext
  cases htext
  rw [decode_quoted, decodeCharacters_flatMap h]
  rfl

/-- Assignments survive: what is written is quoted, visible and safe from expansion, and reads back as
the assignment. What is read from a quoted text can be written again and reads the same. -/
structure Codec : Prop where
  written : ∀ name value : String, '\x00' ∉ name.toList → '\x00' ∉ value.toList →
    ∃ text, encodeQuadletLabel name value = some text ∧
      (∃ body, text.toList = '"' :: (body ++ ['"'])) ∧
      (∀ character ∈ text.toList, isControl character = false) ∧ PercentsPaired text.toList ∧
      decodeGeneratedAssignment text = some (name ++ "=" ++ value) ∧
      ('=' ∉ name.toList → splitOnce '=' (name ++ "=" ++ value) = some (name, value))
  rewritten : ∀ text decoded name value : String, text.toList.head? = some '"' →
    decodeGeneratedAssignment text = some decoded → splitOnce '=' decoded = some (name, value) →
      ∃ again, encodeQuadletLabel name value = some again ∧
        decodeGeneratedAssignment again = some decoded

theorem generatedAssignment_codec : Codec := by
  constructor
  case written =>
    intro name value hname hvalue
    have hnul := nul_assignment.mpr ⟨hname, hvalue⟩
    have hassignment : String.ofList (assignment name value) = name ++ "=" ++ value := by
      apply String.toList_injective
      rw [String.toList_ofList, String.toList_append, String.toList_append, List.append_assoc]
      rfl
    refine ⟨_, encodeQuadletLabel_eq hnul, ⟨_, String.toList_ofList⟩, ?_, ?_, ?_, ?_⟩
    · intro character hcharacter
      rw [String.toList_ofList, List.mem_cons, List.mem_append, List.mem_singleton,
        List.mem_flatMap] at hcharacter
      rcases hcharacter with rfl | ⟨source, -, hcharacter⟩ | rfl
      · decide
      · exact encodeCharacter_visible hcharacter
      · decide
    · rw [String.toList_ofList, percentsPaired_plain (by decide), percentsPaired_flatMap,
        percentsPaired_plain (by decide)]
      trivial
    · rw [← hassignment]
      exact decode_encodeQuadletLabel hnul (encodeQuadletLabel_eq hnul)
    · intro hequals
      have hjoin := @splitOnce_join '=' name value hequals
      rw [← String.append_assoc] at hjoin
      exact hjoin
  case rewritten =>
    intro text decoded name value hquoted hdecoded hsplit
    have hparts := splitOnce_eq_some hsplit
    have hnul : '\x00' ∉ assignment name value := by
      unfold assignment
      rw [← hparts]
      unfold decodeGeneratedAssignment at hdecoded
      split at hdecoded
      · obtain ⟨characters, hcharacters, rfl⟩ := Option.map_eq_some_iff.mp hdecoded
        obtain ⟨body, -, hbody⟩ := Option.bind_eq_some_iff.mp hcharacters
        rw [String.toList_ofList]
        exact decodeCharacters_nul hbody
      · next hplain =>
        cases htext : text.toList with
        | nil => simp [htext] at hquoted
        | cons first rest =>
          rw [htext, List.head?_cons, Option.some.injEq] at hquoted
          rw [hquoted] at htext
          exact absurd htext (hplain rest)
    refine ⟨_, encodeQuadletLabel_eq hnul, ?_⟩
    rw [decode_encodeQuadletLabel hnul (encodeQuadletLabel_eq hnul)]
    unfold assignment
    rw [← hparts, String.ofList_toList]

end Boxferry.Quadlet
