import Mathlib.Data.List.TakeWhile

/-! # Textual IP addresses

The recursive-descent grammar of textual IPv4 and IPv6 addresses: dotted
decimal octets without leading zeros, hexadecimal groups with one `::`
compression and an optional trailing dotted quad. Only the address family is
kept. -/
namespace IpText
set_option autoImplicit false

inductive Family where
  | v4
  | v6
deriving DecidableEq

def digitValue (ch : Char) : Nat :=
  if '0' ≤ ch ∧ ch ≤ '9' then ch.toNat - 48
  else if 'a' ≤ ch ∧ ch ≤ 'f' then ch.toNat - 87
  else if 'A' ≤ ch ∧ ch ≤ 'F' then ch.toNat - 55
  else 16

/-- A bounded number at the front of the input and what follows it. -/
def readNumber (radix maxDigits bound : Nat) (allowZeroPrefix : Bool) (input : List Char) :
    Option (Nat × List Char) :=
  let digits := input.takeWhile fun ch => digitValue ch < radix
  let value := digits.foldl (fun total ch => total * radix + digitValue ch) 0
  if digits.isEmpty || maxDigits < digits.length then none
  else if !allowZeroPrefix && input.head? == some '0' && 1 < digits.length then none
  else if value < bound then some (value, input.drop digits.length) else none

def readGiven (ch : Char) : List Char → Option (List Char)
  | [] => none
  | head :: rest => if head = ch then some rest else none

def readOctet (input : List Char) : Option (List Char) :=
  (readNumber 10 3 256 false input).map Prod.snd

def readIpv4 (input : List Char) : Option (List Char) := do
  let input ← readOctet input
  let input ← readGiven '.' input >>= readOctet
  let input ← readGiven '.' input >>= readOctet
  readGiven '.' input >>= readOctet

/-- Reads at most `left` groups. The result counts the groups, tells whether the
last two came from a dotted quad, and gives the unread input. -/
def readGroups : Nat → Bool → List Char → Nat × Bool × List Char
  | 0, _, input => (0, false, input)
  | left + 1, first, input =>
    let separated := if first then some input else readGiven ':' input
    match (if 1 ≤ left then separated >>= readIpv4 else none) with
    | some rest => (2, true, rest)
    | none =>
      match separated >>= readNumber 16 4 65536 true with
      | some (_, rest) =>
        let (count, quad, rest) := readGroups left false rest
        (count + 1, quad, rest)
      | none => (0, false, input)

def readIpv6 (input : List Char) : Option (List Char) :=
  let (headSize, headQuad, rest) := readGroups 8 true input
  if headSize = 8 then some rest
  else if headQuad then none
  else do
    let rest ← readGiven ':' rest >>= readGiven ':'
    some (readGroups (7 - headSize) true rest).2.2

/-- The family of a complete textual address. -/
def parse (text : String) : Option Family :=
  match readIpv4 text.toList with
  | some rest => if rest.isEmpty then some .v4 else none
  | none =>
    match readIpv6 text.toList with
    | some rest => if rest.isEmpty then some .v6 else none
    | none => none

example : parse "127.0.0.1" = some .v4 ∧ parse "127.0.0.01" = none ∧ parse "::ffff:10.0.0.1" = some .v6 ∧
    parse "1:2:3:4:5:6:7:8" = some .v6 ∧ parse "1::2::3" = none := by decide

/-! ## The characters of an address -/

/-- A reader that takes good characters only off the front of its input. -/
def Takes (good : Char → Prop) (input rest : List Char) : Prop :=
  ∃ used, input = used ++ rest ∧ ∀ ch ∈ used, good ch

section Takes
variable {good : Char → Prop} {input middle rest : List Char}

theorem takes_nothing : Takes good input input := ⟨[], rfl, by simp⟩

theorem Takes.trans (hfirst : Takes good input middle) (hsecond : Takes good middle rest) :
    Takes good input rest := by
  obtain ⟨first, rfl, hfirst⟩ := hfirst
  obtain ⟨second, rfl, hsecond⟩ := hsecond
  refine ⟨first ++ second, (List.append_assoc _ _ _).symm, ?_⟩
  intro ch hch
  rcases List.mem_append.mp hch with hch | hch
  · exact hfirst ch hch
  · exact hsecond ch hch

theorem Takes.mono {other : Char → Prop} (h : Takes good input rest) (hother : ∀ ch, good ch → other ch) :
    Takes other input rest := by
  obtain ⟨used, hinput, hused⟩ := h
  exact ⟨used, hinput, fun ch hch => hother ch (hused ch hch)⟩

theorem Takes.mem {ch : Char} (h : Takes good input rest) (hch : ch ∈ rest) : ch ∈ input := by
  obtain ⟨used, rfl, -⟩ := h
  exact List.mem_append_right used hch

/-- What was read to the end consists of good characters. -/
theorem Takes.all (h : Takes good input []) : ∀ ch ∈ input, good ch := by
  obtain ⟨used, rfl, hused⟩ := h
  rw [List.append_nil]
  exact hused

theorem takes_readNumber {radix maxDigits bound value : Nat} {allowZeroPrefix : Bool}
    (h : readNumber radix maxDigits bound allowZeroPrefix input = some (value, rest)) :
    Takes (fun ch => digitValue ch < radix) input rest := by
  have hrest : rest = input.drop (input.takeWhile fun ch => digitValue ch < radix).length := by
    unfold readNumber at h
    simp only at h
    split at h
    · cases h
    · split at h
      · cases h
      · split at h
        · exact (Prod.mk.inj (Option.some.inj h)).2.symm
        · cases h
  refine ⟨input.takeWhile fun ch => digitValue ch < radix, ?_, ?_⟩
  · rw [hrest]
    exact (List.prefix_iff_eq_append.mp (List.takeWhile_prefix _)).symm
  · intro ch hch
    have hdigit := List.mem_takeWhile_imp hch
    exact of_decide_eq_true hdigit

theorem takes_readGiven {ch : Char} (hgood : good ch) (h : readGiven ch input = some rest) :
    Takes good input rest := by
  cases input with
  | nil => cases h
  | cons head tail =>
    obtain ⟨hhead, htail⟩ := Option.ite_none_right_eq_some.mp h
    refine ⟨[head], by rw [← Option.some.inj htail]; rfl, ?_⟩
    intro other hother
    rw [List.mem_singleton.mp hother, hhead]
    exact hgood

end Takes

def IsQuadChar (ch : Char) : Prop := digitValue ch < 10 ∨ ch = '.'

def IsAddressChar (ch : Char) : Prop := digitValue ch < 16 ∨ ch = '.' ∨ ch = ':'

theorem IsQuadChar.isAddressChar {ch : Char} (h : IsQuadChar ch) : IsAddressChar ch := by
  rcases h with hdigit | rfl
  · exact Or.inl (by omega)
  · exact Or.inr (Or.inl rfl)

section Readers
variable {input rest : List Char}

theorem takes_readOctet (h : readOctet input = some rest) : Takes IsQuadChar input rest := by
  obtain ⟨⟨value, other⟩, hnumber, hrest⟩ := Option.map_eq_some_iff.mp h
  rw [← hrest]
  exact (takes_readNumber hnumber).mono fun ch hdigit => Or.inl hdigit

theorem takes_readIpv4 (h : readIpv4 input = some rest) : Takes IsQuadChar input rest := by
  have hpart : ∀ {first last : List Char}, (readGiven '.' first >>= readOctet) = some last →
      Takes IsQuadChar first last := by
    intro first last hread
    obtain ⟨middle, hdot, hoctet⟩ := Option.bind_eq_some_iff.mp hread
    exact (takes_readGiven (Or.inr rfl) hdot).trans (takes_readOctet hoctet)
  unfold readIpv4 at h
  obtain ⟨second, hfirst, h⟩ := Option.bind_eq_some_iff.mp h
  obtain ⟨third, hsecond, h⟩ := Option.bind_eq_some_iff.mp h
  obtain ⟨fourth, hthird, hfourth⟩ := Option.bind_eq_some_iff.mp h
  exact (((takes_readOctet hfirst).trans (hpart hsecond)).trans (hpart hthird)).trans (hpart hfourth)

theorem takes_readGroups (left : Nat) (first : Bool) (input : List Char) :
    Takes IsAddressChar input (readGroups left first input).2.2 := by
  induction left generalizing first input with
  | zero => exact takes_nothing
  | succ left ih =>
    unfold readGroups
    have hseparated : ∀ {middle : List Char}, (if first then some input else readGiven ':' input) = some middle →
        Takes IsAddressChar input middle := by
      intro middle hmiddle
      cases first with
      | true => exact Option.some.inj hmiddle ▸ takes_nothing
      | false => exact takes_readGiven (Or.inr (Or.inr rfl)) hmiddle
    simp only
    split
    · next rest hquad =>
      split at hquad
      · obtain ⟨middle, hmiddle, hrest⟩ := Option.bind_eq_some_iff.mp hquad
        exact (hseparated hmiddle).trans ((takes_readIpv4 hrest).mono fun ch hch => hch.isAddressChar)
      · cases hquad
    · split
      · next value rest hgroup =>
        obtain ⟨middle, hmiddle, hrest⟩ := Option.bind_eq_some_iff.mp hgroup
        have hnumber : Takes IsAddressChar middle rest :=
          (takes_readNumber hrest).mono fun ch hdigit => Or.inl hdigit
        exact ((hseparated hmiddle).trans hnumber).trans (ih false rest)
      · exact takes_nothing

theorem takes_readIpv6 (h : readIpv6 input = some rest) : Takes IsAddressChar input rest := by
  unfold readIpv6 at h
  simp only at h
  have hhead := takes_readGroups 8 true input
  split at h
  · rw [← Option.some.inj h]
    exact hhead
  · split at h
    · cases h
    · obtain ⟨middle, hcolons, hrest⟩ := Option.bind_eq_some_iff.mp h
      obtain ⟨one, hfirst, hsecond⟩ := Option.bind_eq_some_iff.mp hcolons
      have hcolon : IsAddressChar ':' := Or.inr (Or.inr rfl)
      have htail := ((hhead.trans (takes_readGiven hcolon hfirst)).trans (takes_readGiven hcolon hsecond)).trans
        (takes_readGroups (7 - (readGroups 8 true input).1) true middle)
      rw [← Option.some.inj hrest]
      exact htail

theorem mem_of_readGiven {ch : Char} (h : readGiven ch input = some rest) : ch ∈ input := by
  cases input with
  | nil => cases h
  | cons head tail =>
    obtain ⟨rfl, -⟩ := Option.ite_none_right_eq_some.mp h
    exact List.mem_cons_self

theorem colon_of_readGroups {left : Nat} (h : (readGroups left false input).1 ≠ 0) : ':' ∈ input := by
  cases hcolon : readGiven ':' input with
  | some rest => exact mem_of_readGiven hcolon
  | none =>
    cases left with
    | zero => exact absurd rfl h
    | succ left =>
      unfold readGroups at h
      simp [hcolon] at h

/-- An address of groups has a colon. -/
theorem colon_of_readIpv6 (h : readIpv6 input = some rest) : ':' ∈ input := by
  unfold readIpv6 at h
  simp only at h
  split at h
  · next hfull =>
    unfold readGroups at hfull
    simp only at hfull
    split at hfull
    · cases hfull
    · split at hfull
      · next value other hnumber =>
        have hmore : (readGroups 7 false other).1 ≠ 0 := by
          intro hzero
          rw [hzero] at hfull
          cases hfull
        exact (takes_readNumber hnumber).mem (colon_of_readGroups hmore)
      · cases hfull
  · split at h
    · cases h
    · obtain ⟨middle, hcolons, -⟩ := Option.bind_eq_some_iff.mp h
      obtain ⟨one, hfirst, -⟩ := Option.bind_eq_some_iff.mp hcolons
      exact (takes_readGroups 8 true input).mem (mem_of_readGiven hfirst)

end Readers

/-- What a text is read as: a dotted quad, or else an address with colons. -/
theorem parse_cases {text : String} {family : Family} (h : parse text = some family) :
    (family = .v4 ∧ readIpv4 text.toList = some []) ∨
      (family = .v6 ∧ readIpv6 text.toList = some []) := by
  unfold parse at h
  cases hquad : readIpv4 text.toList with
  | some rest =>
    rw [hquad] at h
    obtain ⟨hempty, hfamily⟩ := Option.ite_none_right_eq_some.mp h
    exact Or.inl ⟨(Option.some.inj hfamily).symm, congrArg some (List.isEmpty_iff.mp hempty)⟩
  | none =>
    rw [hquad] at h
    simp only at h
    cases hgroups : readIpv6 text.toList with
    | none =>
      rw [hgroups] at h
      cases h
    | some rest =>
      rw [hgroups] at h
      obtain ⟨hempty, hfamily⟩ := Option.ite_none_right_eq_some.mp h
      exact Or.inr ⟨(Option.some.inj hfamily).symm, congrArg some (List.isEmpty_iff.mp hempty)⟩

theorem quad_of_parse {text : String} (h : parse text = some .v4) : ∀ ch ∈ text.toList, IsQuadChar ch := by
  rcases parse_cases h with ⟨-, hread⟩ | ⟨hfamily, -⟩
  · exact (takes_readIpv4 hread).all
  · cases hfamily

theorem colon_of_parse {text : String} (h : parse text = some .v6) : ':' ∈ text.toList := by
  rcases parse_cases h with ⟨hfamily, -⟩ | ⟨-, hread⟩
  · cases hfamily
  · exact colon_of_readIpv6 hread

/-- An address consists of hexadecimal digits, dots and colons. -/
theorem address_of_parse {text : String} {family : Family} (h : parse text = some family) :
    ∀ ch ∈ text.toList, IsAddressChar ch := by
  rcases parse_cases h with ⟨-, hread⟩ | ⟨-, hread⟩
  · exact fun ch hch => ((takes_readIpv4 hread).all ch hch).isAddressChar
  · exact (takes_readIpv6 hread).all

end IpText
