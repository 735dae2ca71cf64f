import Mathlib.Data.List.TakeWhile
import Boxferry.Model.Values

/-! # Text operations

Splitting and trimming of text, and what they do to text without separators. -/
namespace Boxferry.Model
set_option autoImplicit false

/-! ## Operations -/

/-- `str::split` at one character. -/
def splitText (separator : Char) (text : String) : List String :=
  (text.toList.splitOn separator).map String.ofList

/-- `slice::join` at one character. -/
def joinText (separator : Char) (parts : List String) : String :=
  String.ofList ([separator].intercalate (parts.map String.toList))

/-- `str::split_once` at one character. -/
def splitOnce (separator : Char) (text : String) : Option (String × String) :=
  match text.toList.dropWhile (· ≠ separator) with
  | [] => none
  | _ :: rest => some (String.ofList (text.toList.takeWhile (· ≠ separator)), String.ofList rest)

/-- The first bytes of a text, when a character ends there. -/
def takeBytes : Nat → List Char → Option (List Char)
  | 0, _ => some []
  | _, [] => none
  | count, ch :: rest =>
    if ch.utf8Size ≤ count then (takeBytes (count - ch.utf8Size) rest).map (ch :: ·) else none

/-- `char::is_ascii_whitespace`. -/
def isAsciiWhitespace (ch : Char) : Bool := ch ∈ [' ', '\t', '\n', '\x0c', '\r']

/-- `str::split_ascii_whitespace`. -/
def splitAsciiWhitespace (text : String) : List String :=
  ((text.toList.splitOnP isAsciiWhitespace).filter (!·.isEmpty)).map String.ofList

/-- `str::strip_prefix` with the whole text when the prefix is missing. -/
def withoutPrefix (start text : String) : String :=
  if startsWith text start then String.ofList (text.toList.drop start.toList.length) else text

/-- `str::parse::<u64>`. -/
def parseU64 (text : String) : Option Nat := parseUnsigned (2 ^ 64) text

/-! ## Parts of a split text -/

theorem mem_intercalate {α : Type} {separator : List α} {parts : List (List α)} {item : α}
    (h : item ∈ separator.intercalate parts) : item ∈ separator ∨ ∃ part ∈ parts, item ∈ part := by
  induction parts with
  | nil => simp at h
  | cons part rest ih =>
    cases rest with
    | nil =>
      rw [List.intercalate_singleton] at h
      exact Or.inr ⟨part, List.mem_cons_self, h⟩
    | cons next rest =>
      rw [List.intercalate_cons_cons, List.mem_append, List.mem_append] at h
      rcases h with (hpart | hseparator) | hrest
      · exact Or.inr ⟨part, List.mem_cons_self, hpart⟩
      · exact Or.inl hseparator
      · rcases ih hrest with hseparator | ⟨other, hother, hmem⟩
        · exact Or.inl hseparator
        · exact Or.inr ⟨other, List.mem_cons_of_mem _ hother, hmem⟩

theorem mem_intercalate_of_mem {α : Type} {separator part : List α} {parts : List (List α)} {item : α}
    (hpart : part ∈ parts) (h : item ∈ part) : item ∈ separator.intercalate parts := by
  induction parts with
  | nil => exact nomatch hpart
  | cons first rest ih =>
    cases rest with
    | nil =>
      rw [List.mem_singleton] at hpart
      rw [List.intercalate_singleton, ← hpart]
      exact h
    | cons next rest =>
      rw [List.intercalate_cons_cons, List.mem_append, List.mem_append]
      cases List.mem_cons.mp hpart with
      | inl hfirst => exact Or.inl (Or.inl (hfirst ▸ h))
      | inr hrest => exact Or.inr (ih hrest)

theorem mem_joinText {separator ch : Char} {parts : List String} (h : ch ∈ (joinText separator parts).toList) :
    ch = separator ∨ ∃ part ∈ parts, ch ∈ part.toList := by
  unfold joinText at h
  rw [String.toList_ofList] at h
  cases mem_intercalate h with
  | inl hseparator => exact Or.inl (List.mem_singleton.mp hseparator)
  | inr hpart =>
    obtain ⟨chars, hchars, hmem⟩ := hpart
    obtain ⟨part, hpart, rfl⟩ := List.mem_map.mp hchars
    exact Or.inr ⟨part, hpart, hmem⟩

theorem mem_joinText_of_mem {separator ch : Char} {part : String} {parts : List String} (hpart : part ∈ parts)
    (h : ch ∈ part.toList) : ch ∈ (joinText separator parts).toList := by
  unfold joinText
  rw [String.toList_ofList]
  exact mem_intercalate_of_mem (List.mem_map_of_mem hpart) h

/-- Every character of a text is the separator or in a part. -/
theorem mem_splitText (separator : Char) {ch : Char} {text : String} (h : ch ∈ text.toList) :
    ch = separator ∨ ∃ part ∈ splitText separator text, ch ∈ part.toList := by
  have hjoin : [separator].intercalate (text.toList.splitOn separator) = text.toList :=
    List.intercalate_splitOn separator
  rw [← hjoin] at h
  rcases mem_intercalate h with hseparator | ⟨part, hpart, hmem⟩
  · exact Or.inl (List.mem_singleton.mp hseparator)
  · refine Or.inr ⟨String.ofList part, List.mem_map_of_mem hpart, ?_⟩
    rw [String.toList_ofList]
    exact hmem

/-- The parts of a split list have its items, less those that separate. -/
theorem mem_splitOnP_iff {α : Type} {separates : α → Bool} {items : List α} {item : α} :
    (∃ piece ∈ items.splitOnP separates, item ∈ piece) ↔ item ∈ items ∧ separates item = false := by
  induction items with
  | nil => simp
  | cons first rest ih =>
    rw [List.splitOnP_cons_eq_if_modifyHead, List.mem_cons, or_and_right, ← ih]
    split
    · next hfirst =>
      have hno : ¬ (item = first ∧ separates item = false) := by
        rintro ⟨rfl, hitem⟩
        rw [hfirst] at hitem
        exact nomatch hitem
      simp [hno]
    · next hfirst =>
      rw [Bool.not_eq_true] at hfirst
      have hsame : item = first ∧ separates item = false ↔ item = first :=
        ⟨fun h => h.1, fun h => ⟨h, h ▸ hfirst⟩⟩
      cases hparts : rest.splitOnP separates with
      | nil => exact absurd hparts (List.splitOnP_ne_nil separates rest)
      | cons head others => simp [hsame, or_assoc]

/-- The parts of a text have its characters, less the separator. -/
theorem mem_of_mem_splitText {separator ch : Char} {text part : String} (hpart : part ∈ splitText separator text)
    (h : ch ∈ part.toList) : ch ∈ text.toList ∧ ch ≠ separator := by
  obtain ⟨piece, hpiece, rfl⟩ := List.mem_map.mp hpart
  rw [String.toList_ofList] at h
  rw [List.splitOn_eq_splitOnP] at hpiece
  obtain ⟨hmem, hother⟩ := mem_splitOnP_iff.mp ⟨piece, hpiece, h⟩
  exact ⟨hmem, beq_eq_false_iff_ne.mp hother⟩

theorem mem_withoutPrefix {start text : String} {ch : Char} (h : ch ∈ text.toList) :
    ch ∈ start.toList ∨ ch ∈ (withoutPrefix start text).toList := by
  unfold withoutPrefix
  split
  · next hstarts =>
    obtain ⟨rest, hrest⟩ := List.isPrefixOf_iff_prefix.mp hstarts
    rw [← hrest, List.drop_left, String.toList_ofList]
    rw [← hrest, List.mem_append] at h
    exact h
  · exact Or.inr h

/-! ## Plain text -/

/-- A character that neither trimming, nor word splitting, nor line continuation touches. -/
def IsPlain (ch : Char) : Prop := isWhitespace ch = false ∧ ch ≠ '\\'

instance (ch : Char) : Decidable (IsPlain ch) := inferInstanceAs (Decidable (_ ∧ _))

def PlainText (text : String) : Prop := ∀ ch ∈ text.toList, IsPlain ch

instance (text : String) : Decidable (PlainText text) :=
  decidable_of_iff (text.toList.Forall IsPlain) List.forall_iff_forall_mem

/-- Text without white space. -/
def Unspaced (text : String) : Prop := ∀ ch ∈ text.toList, isWhitespace ch = false

theorem PlainText.unspaced {text : String} (h : PlainText text) : Unspaced text :=
  fun ch hch => (h ch hch).1

theorem isUpper_eq (ch : Char) : ch.isUpper = decide (65 ≤ ch.val ∧ ch.val ≤ 90) := rfl

theorem isLower_eq (ch : Char) : ch.isLower = (decide (97 ≤ ch.val) && decide (ch.val ≤ 122)) := rfl

theorem isAlpha_eq (ch : Char) : ch.isAlpha = (ch.isUpper || ch.isLower) := rfl

/-- ASCII letters and digits, as numbers. -/
theorem toNat_of_isAlphanum {ch : Char} (h : ch.isAlphanum = true) :
    65 ≤ ch.toNat ∧ ch.toNat ≤ 90 ∨ 97 ≤ ch.toNat ∧ ch.toNat ≤ 122 ∨ 48 ≤ ch.toNat ∧ ch.toNat ≤ 57 := by
  simp only [Char.isAlphanum, isAlpha_eq, isUpper_eq, isLower_eq, Char.isDigit, Bool.or_eq_true,
    Bool.and_eq_true, decide_eq_true_eq, UInt32.le_iff_toNat_le, ge_iff_le] at h
  change ((65 ≤ ch.toNat ∧ ch.toNat ≤ 90) ∨ (97 ≤ ch.toNat ∧ ch.toNat ≤ 122)) ∨
    (48 ≤ ch.toNat ∧ ch.toNat ≤ 57) at h
  omega

/-- A printing ASCII character other than a backslash is plain. -/
theorem isPlain_of_printing {ch : Char} (hlow : 32 < ch.toNat) (hhigh : ch.toNat < 127)
    (hslash : ch ≠ '\\') : IsPlain ch := by
  refine ⟨?_, hslash⟩
  unfold isWhitespace
  simp only [Bool.or_eq_false_iff, Bool.and_eq_false_iff, decide_eq_false_iff_not, List.mem_cons,
    List.not_mem_nil, or_false]
  omega

theorem isPlain_of_isAlphanum {ch : Char} (h : ch.isAlphanum = true) : IsPlain ch := by
  have hrange := toNat_of_isAlphanum h
  apply isPlain_of_printing
  · omega
  · omega
  · rintro rfl
    revert h
    decide

theorem isPlain_of_isDigit {ch : Char} (h : ch.isDigit = true) : IsPlain ch :=
  isPlain_of_isAlphanum (by simp [Char.isAlphanum, h])

/-- A letter, a digit or one of some plain marks is plain. -/
theorem isPlain_of_mark {ch : Char} {marks : List Char} (hmarks : ∀ mark ∈ marks, IsPlain mark)
    (h : (ch.isAlphanum || ch ∈ marks) = true) : IsPlain ch := by
  rw [Bool.or_eq_true, decide_eq_true_eq] at h
  rcases h with halnum | hmark
  · exact isPlain_of_isAlphanum halnum
  · exact hmarks ch hmark

theorem plainText_append {left right : String} (hleft : PlainText left) (hright : PlainText right) :
    PlainText (left ++ right) := by
  intro ch hch
  rw [String.toList_append, List.mem_append] at hch
  rcases hch with hch | hch
  · exact hleft ch hch
  · exact hright ch hch

theorem plainText_of_parts (separator : Char) {text : String} (hseparator : IsPlain separator)
    (hparts : ∀ part ∈ splitText separator text, PlainText part) : PlainText text := by
  intro ch hch
  rcases mem_splitText separator hch with rfl | ⟨part, hpart, hmem⟩
  · exact hseparator
  · exact hparts part hpart ch hmem

/-- Text that parses as a number is digits after an optional plus sign. -/
theorem digits_of_parseU64 {text : String} {number : Nat} (h : parseU64 text = some number) :
    ∀ ch ∈ text.toList, ch.isDigit = true ∨ ch = '+' := by
  have hdigits : ∀ chars : List Char,
      (if (chars.isEmpty || !chars.all Char.isDigit) = true then none
      else if chars.foldl (fun total ch => total * 10 + (ch.toNat - 48)) 0 < 2 ^ 64 then
        some (chars.foldl (fun total ch => total * 10 + (ch.toNat - 48)) 0)
      else none) = some number → ∀ ch ∈ chars, ch.isDigit = true := by
    intro chars hparsed
    obtain ⟨hchars, -⟩ := Option.ite_none_left_eq_some.mp hparsed
    rw [Bool.or_eq_true, not_or, Bool.not_eq_true', Bool.not_eq_false, List.all_eq_true] at hchars
    exact hchars.2
  unfold parseU64 parseUnsigned at h
  cases htext : text.toList with
  | nil => simp
  | cons first rest =>
    rw [htext] at h
    by_cases hplus : first = '+'
    · subst hplus
      intro ch hch
      rcases List.mem_cons.mp hch with rfl | hrest
      · exact Or.inr rfl
      · exact Or.inl (hdigits rest h ch hrest)
    · have hall := hdigits (first :: rest) (by simpa [hplus] using h)
      exact fun ch hch => Or.inl (hall ch hch)

theorem plainText_of_parseU64 {text : String} {number : Nat} (h : parseU64 text = some number) :
    PlainText text := by
  intro ch hch
  rcases digits_of_parseU64 h ch hch with hdigit | rfl
  · exact isPlain_of_isDigit hdigit
  · decide

theorem trim_of_unspaced {text : String} (h : Unspaced text) : trim text = text := by
  have hdrop : ∀ chars : List Char, (∀ ch ∈ chars, isWhitespace ch = false) →
      chars.dropWhile isWhitespace = chars := by
    intro chars hchars
    cases chars with
    | nil => rfl
    | cons ch rest => exact List.dropWhile_cons_of_neg (by simp [hchars ch List.mem_cons_self])
  unfold trim
  rw [hdrop text.toList h, hdrop text.toList.reverse fun ch hch => h ch (List.mem_reverse.mp hch),
    List.reverse_reverse, String.ofList_toList]

theorem splitAsciiWhitespace_of_unspaced {text : String} (h : Unspaced text) (hnonempty : text ≠ "") :
    splitAsciiWhitespace text = [text] := by
  have hword : ∀ ch ∈ text.toList, isAsciiWhitespace ch = false := by
    intro ch hch
    have hplain := h ch hch
    unfold isAsciiWhitespace
    rw [decide_eq_false_iff_not]
    intro hmem
    simp only [List.mem_cons, List.not_mem_nil, or_false] at hmem
    rcases hmem with rfl | rfl | rfl | rfl | rfl
    all_goals revert hplain; decide
  have hchars : text.toList ≠ [] := fun hnil => hnonempty (String.toList_eq_nil_iff.mp hnil)
  unfold splitAsciiWhitespace
  rw [List.splitOnP_eq_singleton hword]
  simp [hchars]

/-! ## Splitting what was joined -/

theorem splitOnce_join {separator : Char} {left right : String} (h : separator ∉ left.toList) :
    splitOnce separator (left ++ (String.ofList [separator] ++ right)) = some (left, right) := by
  have hleft : ∀ ch ∈ left.toList, decide (ch ≠ separator) = true := by
    intro ch hch
    rw [decide_eq_true_eq]
    rintro rfl
    exact h hch
  have htext : (left ++ (String.ofList [separator] ++ right)).toList =
      left.toList ++ separator :: right.toList := by
    rw [String.toList_append, String.toList_append, String.toList_ofList]
    rfl
  unfold splitOnce
  rw [htext, List.dropWhile_append_of_pos hleft, List.takeWhile_append_of_pos hleft]
  simp

theorem splitText_join (separator : Char) (parts : List String) (hparts : parts ≠ [])
    (h : ∀ part ∈ parts, separator ∉ part.toList) :
    splitText separator (String.ofList ([separator].intercalate (parts.map String.toList))) = parts := by
  unfold splitText
  rw [String.toList_ofList, List.splitOn_intercalate]
  · rw [List.map_map]
    have hid : String.ofList ∘ String.toList = id := funext fun text => String.ofList_toList
    rw [hid, List.map_id]
  · intro chars hchars
    obtain ⟨part, hpart, rfl⟩ := List.mem_map.mp hchars
    exact h part hpart
  · simpa using hparts

theorem splitOnce_eq_some {separator : Char} {text left right : String}
    (h : splitOnce separator text = some (left, right)) :
    text.toList = left.toList ++ separator :: right.toList := by
  unfold splitOnce at h
  split at h
  · cases h
  · next first rest hdrop =>
    have hfirst : first = separator := by
      have hhead := List.head?_dropWhile_not (fun ch => decide (ch ≠ separator)) text.toList
      rw [hdrop] at hhead
      simpa using hhead
    rw [Option.some.injEq, Prod.mk.injEq] at h
    obtain ⟨rfl, rfl⟩ := h
    subst hfirst
    rw [String.toList_ofList, String.toList_ofList, ← hdrop, List.takeWhile_append_dropWhile]

end Boxferry.Model
