import Boxferry.Library.Scanning
import Boxferry.Library.Utf8Text
import Boxferry.Model.Text

/-! # Health durations

The exporter and the importer share one check of Podman's durations. It walks the text by byte
offsets, takes as many digits and dots as there are, and then the first unit of a list that starts
the rest. -/
namespace Boxferry.Quadlet
open Model
set_option autoImplicit false

/-! ## The check -/

/-- The text after the first bytes, when a character ends there. -/
def dropBytes : Nat → List Char → Option (List Char)
  | 0, text => some text
  | _, [] => none
  | count, ch :: rest => if ch.utf8Size ≤ count then dropBytes (count - ch.utf8Size) rest else none

/-- `str::char_indices`, from a byte offset on. -/
def charIndices : Nat → List Char → List (Nat × Char)
  | _, [] => []
  | offset, ch :: rest => (offset, ch) :: charIndices (offset + ch.utf8Size) rest

def isNumberChar (ch : Char) : Bool := ch.isDigit || ch = '.'

/-- The offset behind the digits and dots at the front. -/
def numberEnd (value : List Char) : Nat :=
  ((((charIndices 0 value).takeWhile fun item => isNumberChar item.2).map
    fun item => item.1 + item.2.utf8Size).getLast?).getD 0

/-- The units, in the order in which they are tried. The micro sign has two spellings. -/
def durationUnits : List (List Char) :=
  ["ns".toList, "us".toList, "\u00b5s".toList, "\u03bcs".toList, "ms".toList, "s".toList, "m".toList, "h".toList]

def unitPass (value : List Char) : Scanning.Pass Char :=
  match durationUnits.find? fun unit => unit.isPrefixOf value with
  | none => .rejected
  | some unit => (dropBytes (Utf8Text.size unit) value).elim .panicked .next

/-- One pass of the loop of `is_podman_health_duration`; a slice inside a character panics. -/
def durationPass (value : List Char) : Scanning.Pass Char :=
  if numberEnd value = 0 then .rejected
  else
    match takeBytes (numberEnd value) value with
    | none => .panicked
    | some number =>
      if 1 < number.count '.' ∨ number = ['.'] then .rejected
      else (dropBytes (numberEnd value) value).elim .panicked unitPass

def isPodmanHealthDuration (fuel : Nat) (value : String) : Scanning.Ending :=
  if value = "0" then .returned true else Scanning.loop durationPass fuel false value.toList

/-! ## The grammar -/

/-- An unsigned decimal number: digits with at most one dot, and at least one digit. -/
structure IsDurationNumber (number : List Char) : Prop where
  chars : ∀ ch ∈ number, ch.isDigit = true ∨ ch = '.'
  dots : number.count '.' ≤ 1
  digit : ∃ ch ∈ number, ch.isDigit = true

/-- A number with its unit. -/
def IsDurationTerm (term : List Char) : Prop :=
  ∃ number unit, IsDurationNumber number ∧ unit ∈ durationUnits ∧ term = number ++ unit

/-- Zero, or one term or more. -/
def IsHealthDuration (text : String) : Prop :=
  text = "0" ∨ text ≠ "" ∧ Scanning.Tokens IsDurationTerm text.toList

/-! ## Slices -/

theorem takeBytes_append (first rest : List Char) :
    takeBytes (Utf8Text.size first) (first ++ rest) = some first := by
  induction first with
  | nil => simp [takeBytes]
  | cons ch first ih =>
    have hpositive := Char.utf8Size_pos ch
    rw [Utf8Text.size_cons, List.cons_append, takeBytes, if_pos (Nat.le_add_right _ _), Nat.add_sub_cancel_left,
      ih]
    · rfl
    · omega

theorem dropBytes_append (first rest : List Char) :
    dropBytes (Utf8Text.size first) (first ++ rest) = some rest := by
  induction first with
  | nil => simp [dropBytes]
  | cons ch first ih =>
    have hpositive := Char.utf8Size_pos ch
    rw [Utf8Text.size_cons, List.cons_append, dropBytes, if_pos (Nat.le_add_right _ _), Nat.add_sub_cancel_left,
      ih]
    omega

/-- The offset behind a run of characters is the size of the run. -/
theorem getLast?_charIndices (offset : Nat) (text : List Char) :
    (((charIndices offset text).takeWhile fun item => isNumberChar item.2).map
      fun item => item.1 + item.2.utf8Size).getLast? =
      if text.takeWhile isNumberChar = [] then none
      else some (offset + Utf8Text.size (text.takeWhile isNumberChar)) := by
  induction text generalizing offset with
  | nil => rfl
  | cons ch rest ih =>
    unfold charIndices
    cases hnumber : isNumberChar ch with
    | false => simp [hnumber]
    | true =>
      simp only [List.takeWhile_cons, hnumber, if_true, List.map_cons, List.getLast?_cons, ih]
      by_cases hrest : rest.takeWhile isNumberChar = []
      · simp [hrest]
      · simp [hrest, Nat.add_assoc]

theorem numberEnd_eq (value : List Char) :
    numberEnd value = Utf8Text.size (value.takeWhile isNumberChar) := by
  unfold numberEnd
  rw [getLast?_charIndices]
  by_cases hempty : value.takeWhile isNumberChar = []
  · simp [hempty]
  · simp [hempty]

/-! ## One pass -/

/-- The pass in terms of characters: it takes a number and the first unit behind it. -/
theorem durationPass_eq (value : List Char) :
    durationPass value =
      if value.takeWhile isNumberChar = [] then .rejected
      else if 1 < (value.takeWhile isNumberChar).count '.' ∨ value.takeWhile isNumberChar = ['.'] then .rejected
      else unitPass (value.dropWhile isNumberChar) := by
  have hsplit : value = value.takeWhile isNumberChar ++ value.dropWhile isNumberChar :=
    List.takeWhile_append_dropWhile.symm
  have hzero : numberEnd value = 0 ↔ value.takeWhile isNumberChar = [] := by
    rw [numberEnd_eq]
    constructor
    · intro hsize
      cases hnumber : value.takeWhile isNumberChar with
      | nil => rfl
      | cons ch rest =>
        rw [hnumber, Utf8Text.size_cons] at hsize
        have hpositive := Char.utf8Size_pos ch
        omega
    · intro hnumber
      rw [hnumber]
      rfl
  have htake : takeBytes (numberEnd value) value = some (value.takeWhile isNumberChar) := by
    have h := takeBytes_append (value.takeWhile isNumberChar) (value.dropWhile isNumberChar)
    rwa [← hsplit, ← numberEnd_eq] at h
  have hdrop : dropBytes (numberEnd value) value = some (value.dropWhile isNumberChar) := by
    have h := dropBytes_append (value.takeWhile isNumberChar) (value.dropWhile isNumberChar)
    rwa [← hsplit, ← numberEnd_eq] at h
  unfold durationPass
  simp only [hzero, htake, hdrop, Option.elim_some]

theorem unitPass_append {unit : List Char} (rest : List Char)
    (h : (durationUnits.find? fun other => other.isPrefixOf (unit ++ rest)) = some unit) :
    unitPass (unit ++ rest) = .next rest := by
  unfold unitPass
  rw [h]
  simp only [dropBytes_append, Option.elim_some]

/-- What the unit pass does: it takes a unit off the front, or finds none. -/
theorem unitPass_cases (value : List Char) :
    unitPass value = .rejected ∨
      ∃ unit rest, unit ∈ durationUnits ∧ value = unit ++ rest ∧ unitPass value = .next rest := by
  cases hfind : durationUnits.find? fun unit => unit.isPrefixOf value with
  | none =>
    left
    unfold unitPass
    rw [hfind]
  | some unit =>
    right
    have hleading := List.find?_some hfind
    obtain ⟨rest, rfl⟩ := List.isPrefixOf_iff_prefix.mp hleading
    exact ⟨unit, rest, List.mem_of_find?_eq_some hfind, rfl, unitPass_append rest hfind⟩

/-- Where no letter follows a unit, it is the first unit that starts the text: `ms` is tried before
`m`, and `s` does not follow `m`. -/
theorem unitPass_complete {unit rest : List Char} (hunit : unit ∈ durationUnits)
    (hrest : ∀ ch ∈ rest.head?, isNumberChar ch = true) : unitPass (unit ++ rest) = .next rest := by
  apply unitPass_append
  unfold durationUnits at hunit
  simp only [List.mem_cons, List.not_mem_nil, or_false] at hunit
  rcases hunit with rfl | rfl | rfl | rfl | rfl | rfl | rfl | rfl
  case inr.inr.inr.inr.inr.inr.inl =>
    cases rest with
    | nil => decide
    | cons ch rest =>
      have hfollow : 's' ≠ ch := by
        rintro rfl
        have hnumber := hrest 's' rfl
        revert hnumber
        decide
      simp [durationUnits, List.isPrefixOf, hfollow]
  all_goals rfl

/-! ## The loop -/

theorem IsDurationNumber.takeable {number : List Char} (h : IsDurationNumber number) :
    number ≠ [] ∧ (∀ ch ∈ number, isNumberChar ch = true) ∧ ¬ (1 < number.count '.' ∨ number = ['.']) := by
  obtain ⟨digit, hdigit, hisDigit⟩ := h.digit
  refine ⟨List.ne_nil_of_mem hdigit, ?_, ?_⟩
  · intro ch hch
    unfold isNumberChar
    rcases h.chars ch hch with hch | rfl
    · rw [hch, Bool.true_or]
    · rfl
  · rintro (hdots | rfl)
    · exact absurd h.dots (Nat.not_le_of_lt hdots)
    · rw [List.mem_singleton.mp hdigit] at hisDigit
      revert hisDigit
      decide

/-- The digits and dots at the front are a number when they pass the checks. -/
theorem isDurationNumber_of_checks {value : List Char} (hempty : value.takeWhile isNumberChar ≠ [])
    (hchecks : ¬ (1 < (value.takeWhile isNumberChar).count '.' ∨ value.takeWhile isNumberChar = ['.'])) :
    IsDurationNumber (value.takeWhile isNumberChar) := by
  generalize hnumber : value.takeWhile isNumberChar = number at hempty hchecks
  rw [not_or, Nat.not_lt] at hchecks
  have hchars : ∀ ch ∈ number, ch.isDigit = true ∨ ch = '.' := by
    intro ch hch
    rw [← hnumber] at hch
    have hkept := List.mem_takeWhile_imp hch
    unfold isNumberChar at hkept
    simpa using hkept
  refine ⟨hchars, hchecks.1, ?_⟩
  by_contra hnone
  have hdots : ∀ ch ∈ number, ch = '.' := by
    intro ch hch
    rcases hchars ch hch with hdigit | hdot
    · exact absurd ⟨ch, hch, hdigit⟩ hnone
    · exact hdot
  -- A number of dots only has one dot, and that is the rejected text.
  have hreplicate := List.eq_replicate_of_mem hdots
  have hlength : number.length ≤ 1 := by
    rw [hreplicate, List.count_replicate_self] at hchecks
    exact hchecks.1
  have hone : number.length = 1 := le_antisymm hlength (List.length_pos_iff.mpr hempty)
  rw [hone] at hreplicate
  exact hchecks.2 hreplicate

theorem head_of_tokens {text : List Char} (h : Scanning.Tokens IsDurationTerm text) :
    ∀ ch ∈ text.head?, isNumberChar ch = true := by
  intro ch hch
  cases h with
  | nil => cases hch
  | cons hterm _ =>
    obtain ⟨number, unit, hnumber, -, rfl⟩ := hterm
    obtain ⟨hnonempty, hchars, -⟩ := hnumber.takeable
    cases number with
    | nil => exact absurd rfl hnonempty
    | cons first number =>
      rw [← Option.mem_some.mp hch]
      exact hchars first List.mem_cons_self

theorem unit_letter {unit : List Char} (h : unit ∈ durationUnits) :
    ∃ first more, unit = first :: more ∧ isNumberChar first = false := by
  have hletters : ∀ unit ∈ durationUnits, (unit.head?.any fun first => !isNumberChar first) = true := by decide
  have hletter := hletters unit h
  cases unit with
  | nil => exact absurd hletter (by decide)
  | cons first more => exact ⟨first, more, rfl, by simpa using hletter⟩

theorem durationPass_takes : Scanning.Takes IsDurationTerm durationPass where
  nonempty := by
    rintro ⟨number, unit, hnumber, -, hempty⟩
    exact hnumber.takeable.1 (List.append_eq_nil_iff.mp hempty.symm).1
  settled value := by
    rw [durationPass_eq]
    split
    · simp
    · split
      · simp
      · rcases unitPass_cases (value.dropWhile isNumberChar) with hpass | ⟨_, _, -, -, hpass⟩ <;> simp [hpass]
  sound value rest := by
    rw [durationPass_eq]
    split
    · simp
    · next hempty =>
      split
      · simp
      · next hchecks =>
        intro hpass
        rcases unitPass_cases (value.dropWhile isNumberChar) with hrejected | ⟨unit, other, hunit, hsplit, hnext⟩
        · rw [hrejected] at hpass
          cases hpass
        · rw [hnext] at hpass
          cases hpass
          refine ⟨value.takeWhile isNumberChar ++ unit,
            ⟨_, unit, isDurationNumber_of_checks hempty hchecks, hunit, rfl⟩, ?_⟩
          rw [List.append_assoc, ← hsplit, List.takeWhile_append_dropWhile]
  complete term rest := by
    rintro ⟨number, unit, hnumber, hunit, rfl⟩ hrest
    obtain ⟨hnonempty, hchars, hchecks⟩ := hnumber.takeable
    obtain ⟨first, more, rfl, hfirst⟩ := unit_letter hunit
    have hfront : (number ++ (first :: more ++ rest)).takeWhile isNumberChar = number := by
      rw [List.takeWhile_append_of_pos hchars, List.cons_append, List.takeWhile_cons_of_neg (by simp [hfirst]),
        List.append_nil]
    have hback : (number ++ (first :: more ++ rest)).dropWhile isNumberChar = first :: more ++ rest := by
      rw [List.dropWhile_append_of_pos hchars, List.cons_append, List.dropWhile_cons_of_neg (by simp [hfirst])]
    rw [List.append_assoc, durationPass_eq, hfront, hback, if_neg hnonempty, if_neg hchecks]
    exact unitPass_complete hunit (head_of_tokens hrest)

/-- With a pass for every character the check returns, and it accepts zero and the sequences of
numbers with units; no number of passes makes it slice inside a character. -/
theorem health_duration_grammar (text : String) :
    (∀ fuel, isPodmanHealthDuration fuel text ≠ .panicked) ∧
      ∃ answer, (∀ extra, isPodmanHealthDuration (text.toList.length + extra) text = .returned answer) ∧
        (answer = true ↔ IsHealthDuration text) := by
  unfold isPodmanHealthDuration IsHealthDuration
  by_cases hzero : text = "0"
  · simp [hzero]
  · simp only [hzero, if_false, false_or]
    refine ⟨fun fuel => durationPass_takes.loop_settled fuel false text.toList, ?_⟩
    have hrun := fun extra => durationPass_takes.loop_eq false text.toList
      (Nat.le_add_right text.toList.length extra)
    obtain ⟨answer, -, hanswer⟩ := hrun 0
    refine ⟨answer, ?_, ?_⟩
    · intro extra
      obtain ⟨other, hreturned, hother⟩ := hrun extra
      rw [hreturned, Bool.eq_iff_iff.mpr (hother.trans hanswer.symm)]
    · rw [hanswer, and_comm]
      simp only [Bool.false_eq_true, imp_false, ne_eq, String.toList_eq_nil_iff]

end Boxferry.Quadlet
