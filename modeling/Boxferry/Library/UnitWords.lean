import Mathlib.Data.List.Forall2

/-! # Words of a unit value

The reference reading of a unit value as a list of words: words are separated
by blanks, double quotes keep blanks inside a word and allow an escaped quote
or backslash, and a percent sign starts a specifier. -/
namespace UnitWords
set_option autoImplicit false

/-! ## Splitting -/

/-- Where the reader stands, with the part of the current word read so far. -/
inductive Reader where
  | between
  | word (read : List Char)
  | quoted (read : List Char)
  | escaped (read : List Char)

def split : Reader → List Char → Option (List (List Char))
  | .between, [] => some []
  | .word read, [] => some [read]
  | .quoted _, [] => none
  | .escaped _, [] => none
  | .between, ch :: rest =>
    if ch = ' ' then split .between rest
    else if ch = '"' then split (.quoted []) rest
    else split (.word [ch]) rest
  | .word read, ch :: rest =>
    if ch = ' ' then (split .between rest).map (read :: ·)
    else if ch = '"' then split (.quoted read) rest
    else split (.word (read ++ [ch])) rest
  | .quoted read, ch :: rest =>
    if ch = '"' then split (.word read) rest
    else if ch = '\\' then split (.escaped read) rest
    else split (.quoted (read ++ [ch])) rest
  | .escaped read, ch :: rest =>
    if ch = '"' ∨ ch = '\\' then split (.quoted (read ++ [ch])) rest else none

@[simp] theorem split_between (ch : Char) (rest : List Char) : split .between (ch :: rest) =
    if ch = ' ' then split .between rest else if ch = '"' then split (.quoted []) rest else split (.word [ch]) rest :=
  rfl

@[simp] theorem split_word (read rest : List Char) (ch : Char) : split (.word read) (ch :: rest) =
    if ch = ' ' then (split .between rest).map (read :: ·) else if ch = '"' then split (.quoted read) rest
    else split (.word (read ++ [ch])) rest :=
  rfl

@[simp] theorem split_within (read rest : List Char) (ch : Char) : split (.quoted read) (ch :: rest) =
    if ch = '"' then split (.word read) rest else if ch = '\\' then split (.escaped read) rest
    else split (.quoted (read ++ [ch])) rest :=
  rfl

@[simp] theorem split_escaped (read rest : List Char) (ch : Char) : split (.escaped read) (ch :: rest) =
    if ch = '"' ∨ ch = '\\' then split (.quoted (read ++ [ch])) rest else none :=
  rfl

/-- The spelling of one character between double quotes. -/
def escape (ch : Char) : List Char :=
  if ch = '\\' then ['\\', '\\'] else if ch = '"' then ['\\', '"'] else [ch]

def quote (text : List Char) : List Char := '"' :: text.flatMap escape ++ ['"']

theorem split_escape (ch : Char) (read rest : List Char) :
    split (.quoted read) (escape ch ++ rest) = split (.quoted (read ++ [ch])) rest := by
  unfold escape
  by_cases hslash : ch = '\\'
  · rw [if_pos hslash, hslash]
    simp
  · rw [if_neg hslash]
    by_cases hquote : ch = '"'
    · rw [if_pos hquote, hquote]
      simp
    · rw [if_neg hquote]
      simp [hslash, hquote]

theorem split_quoted (text read rest : List Char) :
    split (.quoted read) (text.flatMap escape ++ '"' :: rest) = split (.word (read ++ text)) rest := by
  induction text generalizing read with
  | nil => simp
  | cons ch text ih =>
    rw [List.flatMap_cons, List.append_assoc, split_escape, ih, List.append_assoc]
    rfl

theorem split_bare {text : List Char} (htext : ∀ ch ∈ text, ch ≠ ' ' ∧ ch ≠ '"')
    (read rest : List Char) :
    split (.word read) (text ++ rest) = split (.word (read ++ text)) rest := by
  induction text generalizing read with
  | nil => simp
  | cons ch text ih =>
    have hhead := htext ch List.mem_cons_self
    have hrest : ∀ other ∈ text, other ≠ ' ' ∧ other ≠ '"' := fun other hother =>
      htext other (List.mem_cons_of_mem _ hother)
    rw [List.cons_append, split_word, if_neg hhead.1, if_neg hhead.2, ih hrest, List.append_assoc]
    rfl

/-- A spelling that the reader takes for one word, whatever follows it. -/
def Spells (spelling text : List Char) : Prop :=
  ∀ rest, split .between (spelling ++ rest) = split (.word text) rest

theorem quote_spells (text : List Char) : Spells (quote text) text := by
  intro rest
  have hopen : split .between (quote text ++ rest) =
      split (.quoted []) (text.flatMap escape ++ '"' :: rest) := by
    simp [quote]
  rw [hopen, split_quoted, List.nil_append]

theorem bare_spells {text : List Char} (hnonempty : text ≠ [])
    (htext : ∀ ch ∈ text, ch ≠ ' ' ∧ ch ≠ '"') : Spells text text := by
  intro rest
  cases text with
  | nil => exact absurd rfl hnonempty
  | cons ch text =>
    have hhead := htext ch List.mem_cons_self
    have hstart : split .between (ch :: text ++ rest) = split (.word [ch]) (text ++ rest) := by
      rw [List.cons_append, split_between, if_neg hhead.1, if_neg hhead.2]
    rw [hstart, split_bare fun other hother => htext other (List.mem_cons_of_mem _ hother)]
    rfl

/-- Spellings joined by blanks are read back as the words they spell. -/
theorem split_joined {spellings words : List (List Char)} (h : List.Forall₂ Spells spellings words) :
    split .between ([' '].intercalate spellings) = some words := by
  induction h with
  | nil => rfl
  | @cons spelling text spellings words hhead hrest ih =>
    cases hrest with
    | nil =>
      have hlast := hhead []
      rw [List.append_nil] at hlast
      rw [List.intercalate_singleton, hlast]
      rfl
    | @cons next other spellings words hnext hrest =>
      have hjoin : [' '].intercalate (spelling :: next :: spellings) =
          spelling ++ ' ' :: [' '].intercalate (next :: spellings) := by
        simp [List.intercalate]
      rw [hjoin, hhead, split_word, if_pos rfl, ih]
      rfl

/-! ## Specifiers -/

/-- Literal text behind a value's specifiers; a single percent sign is live. -/
def resolve : List Char → Option (List Char)
  | [] => some []
  | [ch] => if ch = '%' then none else some [ch]
  | ch :: next :: rest =>
    if ch = '%' then if next = '%' then (resolve rest).map ('%' :: ·) else none
    else (resolve (next :: rest)).map (ch :: ·)

theorem resolve_of_free {text : List Char} (h : '%' ∉ text) : resolve text = some text := by
  fun_induction resolve text with
  | case1 => rfl
  | case2 => exact absurd List.mem_cons_self h
  | case3 => rfl
  | case4 => exact absurd List.mem_cons_self h
  | case5 => exact absurd List.mem_cons_self h
  | case6 ch next rest hch ih =>
    rw [ih fun hmem => h (List.mem_cons_of_mem _ hmem)]
    rfl

/-- Each literal percent sign is written with one more character than it stands for. -/
theorem resolve_length {text result : List Char} (h : resolve text = some result) :
    text.length = result.length + result.count '%' := by
  fun_induction resolve text generalizing result with
  | case1 =>
    rw [← Option.some.inj h]
    rfl
  | case2 => cases h
  | case3 ch hch =>
    rw [← Option.some.inj h, List.count_cons_of_ne hch]
    rfl
  | case4 rest ih =>
    obtain ⟨inner, hinner, hresult⟩ := Option.map_eq_some_iff.mp h
    have hlength := ih hinner
    rw [← hresult]
    simp only [List.length_cons, List.count_cons_self]
    omega
  | case5 => cases h
  | case6 ch next rest hch ih =>
    obtain ⟨inner, hinner, hresult⟩ := Option.map_eq_some_iff.mp h
    have hlength := ih hinner
    rw [← hresult, List.count_cons_of_ne hch]
    simp only [List.length_cons] at hlength ⊢
    omega

/-- A text stands for itself exactly when it has no percent sign. -/
theorem resolve_self {text : List Char} : resolve text = some text ↔ '%' ∉ text := by
  constructor
  · intro h
    have hlength := resolve_length h
    exact List.count_eq_zero.mp (by omega)
  · exact resolve_of_free

/-! ## Values -/

/-- The arguments a unit value stands for. -/
def read (value : String) : Option (List String) := do
  let words ← split .between value.toList
  let words ← words.mapM resolve
  some (words.map String.ofList)

theorem mapM_resolve_self {words : List (List Char)} :
    words.mapM resolve = some words ↔ ∀ text ∈ words, '%' ∉ text := by
  induction words with
  | nil => simp
  | cons text words ih =>
    rw [List.forall_mem_cons, ← ih, ← resolve_self, List.mapM_cons]
    cases htext : resolve text with
    | none => simp
    | some result =>
      cases hwords : words.mapM resolve with
      | none => simp
      | some results => simp

/-- Joined spellings stand for the texts they spell exactly when no text has a percent sign. -/
theorem read_joined {spellings arguments : List String}
    (h : List.Forall₂ (fun spelling argument => Spells spelling.toList argument.toList)
      spellings arguments) :
    read (" ".intercalate spellings) = some arguments ↔
      ∀ argument ∈ arguments, '%' ∉ argument.toList := by
  have hsplit : split .between (" ".intercalate spellings).toList =
      some (arguments.map String.toList) := by
    have hwords : List.Forall₂ Spells (spellings.map String.toList) (arguments.map String.toList) := by
      rw [List.forall₂_map_left_iff, List.forall₂_map_right_iff]
      exact h
    rw [String.toList_intercalate]
    exact split_joined hwords
  have hsame : ∀ words : List (List Char), words.map String.ofList = arguments ↔
      words = arguments.map String.toList := by
    intro words
    constructor
    · intro hwords
      simp [← hwords, List.map_map]
    · intro hwords
      simp [hwords, List.map_map]
  have hself : (arguments.map String.toList).mapM resolve = some (arguments.map String.toList) ↔
      ∀ text ∈ arguments.map String.toList, '%' ∉ text := mapM_resolve_self
  rw [List.forall_mem_map] at hself
  rw [← hself, read, hsplit]
  cases hresolved : (arguments.map String.toList).mapM resolve with
  | none => simp [hresolved]
  | some words => simp [hresolved, hsame]

/-- Encoding every argument gives a spelling of every argument. -/
theorem forall_spells_mapM {encode : String → Option String}
    (hencode : ∀ text spelling, encode text = some spelling → Spells spelling.toList text.toList)
    {arguments spellings : List String} (h : arguments.mapM encode = some spellings) :
    List.Forall₂ (fun spelling argument => Spells spelling.toList argument.toList)
      spellings arguments := by
  induction arguments generalizing spellings with
  | nil =>
    rw [← Option.some.inj h]
    exact List.Forall₂.nil
  | cons argument arguments ih =>
    rw [List.mapM_cons] at h
    obtain ⟨spelling, hspelling, hrest⟩ := Option.bind_eq_some_iff.mp h
    obtain ⟨tail, htail, hresult⟩ := Option.bind_eq_some_iff.mp hrest
    rw [← Option.some.inj hresult]
    exact List.Forall₂.cons (hencode argument spelling hspelling) (ih htail)

end UnitWords
