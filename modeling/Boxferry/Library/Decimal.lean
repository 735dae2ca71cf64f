import Mathlib.Data.List.Induction

/-! # Canonical decimal numbers

Nonempty digit runs without a superfluous leading zero, and the numbers they
spell. Reading inverts the usual printing of natural numbers in both
directions. -/
namespace Decimal
set_option autoImplicit false

/-- The number a run of decimal digits spells. -/
def value (digits : List Char) : Nat := Nat.ofDigitChars 10 digits 0

/-- A digit run without a superfluous leading zero. -/
def canonical (digits : List Char) : Bool :=
  !digits.isEmpty && digits.all Char.isDigit && (digits.length == 1 || digits.head? != some '0')

def read (digits : List Char) : Option Nat :=
  if canonical digits then some (value digits) else none

theorem digits_isDigit (n : Nat) : ∀ ch ∈ Nat.toDigits 10 n, ch.isDigit = true :=
  fun _ hch => Nat.isDigit_of_mem_toDigits (by decide) (by decide) hch

theorem digitChar_zero_iff {n : Nat} (h : n < 10) : Nat.digitChar n = '0' ↔ n = 0 := by
  have hall : ∀ n, n < 10 → (Nat.digitChar n = '0' ↔ n = 0) := by decide
  exact hall n h

theorem head_toDigits {n : Nat} (h : 0 < n) : (Nat.toDigits 10 n).head? ≠ some '0' := by
  induction n using Nat.strongRecOn with
  | _ n ih =>
    by_cases hsmall : n < 10
    · rw [Nat.toDigits_of_lt_base hsmall]
      simp only [List.head?_cons, ne_eq, Option.some.injEq]
      intro hzero
      exact absurd ((digitChar_zero_iff hsmall).mp hzero) (by omega)
    · rw [Nat.toDigits_of_base_le (by decide) (by omega)]
      have hhead := ih (n / 10) (by omega) (by omega)
      cases hdigits : Nat.toDigits 10 (n / 10) with
      | nil => exact absurd hdigits Nat.toDigits_ne_nil
      | cons first rest =>
        rw [hdigits] at hhead
        exact hhead

theorem canonical_toDigits (n : Nat) : canonical (Nat.toDigits 10 n) = true := by
  have hdigits : (Nat.toDigits 10 n).all Char.isDigit = true :=
    List.all_eq_true.mpr (digits_isDigit n)
  have hnonempty : (Nat.toDigits 10 n).isEmpty = false := by
    rw [List.isEmpty_eq_false_iff]
    exact Nat.toDigits_ne_nil
  unfold canonical
  rw [hdigits, hnonempty]
  rcases Nat.eq_zero_or_pos n with rfl | hpos
  · rfl
  · simp [head_toDigits hpos]

theorem read_toDigits (n : Nat) : read (Nat.toDigits 10 n) = some n := by
  unfold read value
  rw [if_pos (canonical_toDigits n), Nat.ofDigitChars_ten_toDigits]

theorem digitChar_toNat {ch : Char} (h : ch.isDigit = true) :
    Nat.digitChar (ch.toNat - 48) = ch ∧ ch.toNat - 48 < 10 := by
  have hall : ∀ n, n < 10 → Nat.digitChar n = Char.ofNat (n + 48) := by decide
  have hbounds : 48 ≤ ch.toNat ∧ ch.toNat ≤ 57 := by
    simp only [Char.isDigit, Bool.and_eq_true, decide_eq_true_eq] at h
    exact h
  refine ⟨?_, by omega⟩
  rw [hall _ (by omega), Nat.sub_add_cancel hbounds.1, Char.ofNat_toNat]

theorem value_append (digits : List Char) (last : Char) :
    value (digits ++ [last]) = 10 * value digits + (last.toNat - 48) := by
  unfold value
  rw [Nat.ofDigitChars_append, Nat.ofDigitChars_cons, Nat.ofDigitChars_nil]
  rfl

/-- A canonical run is the printing of the number it spells. -/
theorem toDigits_value {digits : List Char} (h : canonical digits = true) :
    Nat.toDigits 10 (value digits) = digits := by
  induction digits using List.reverseRecOn with
  | nil => cases h
  | append_singleton init last ih =>
    unfold canonical at h
    simp only [Bool.and_eq_true, List.all_append, List.all_cons, List.all_nil, Bool.and_true] at h
    obtain ⟨⟨-, hinit, hlast⟩, hhead⟩ := h
    obtain ⟨hchar, hsmall⟩ := digitChar_toNat hlast
    rw [value_append]
    cases init with
    | nil =>
      have hzero : value [] = 0 := rfl
      rw [hzero, Nat.mul_zero, Nat.zero_add, Nat.toDigits_of_lt_base hsmall, hchar]
      rfl
    | cons first rest =>
      have hfirst : first ≠ '0' := by simpa using hhead
      have hcanonical : canonical (first :: rest) = true := by
        simp [canonical, hfirst] at hinit ⊢
        exact hinit
      have hdigits := ih hcanonical
      have hpos : 0 < value (first :: rest) := by
        rcases Nat.eq_zero_or_pos (value (first :: rest)) with hzero | hpos
        · rw [hzero, Nat.toDigits_zero] at hdigits
          cases hdigits
          exact absurd rfl hfirst
        · exact hpos
      rw [← Nat.toDigits_append_toDigits (by decide) hpos hsmall, hdigits,
        Nat.toDigits_of_lt_base hsmall, hchar]

theorem toDigits_of_read {digits : List Char} {n : Nat} (h : read digits = some n) :
    Nat.toDigits 10 n = digits := by
  unfold read at h
  split at h
  · next hcanonical =>
    cases h
    exact toDigits_value hcanonical
  · cases h

end Decimal
