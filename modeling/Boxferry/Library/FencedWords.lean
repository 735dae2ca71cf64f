import Boxferry.Library.Rewriting
import Mathlib.Data.List.Infix

/-! # Fenced words

One word put for another wherever it stands behind a letter that neither holds. The words stand
between gaps; where each gap but the last ends in a letter that the new word cannot hold, writing the
old word for the new one again gives the first text, unless the new word stood in it before. -/
namespace FencedWords
open Rewriting
set_option autoImplicit false

variable {α : Type} {fence : α → Prop} {word old new text rest gap : List α} {gaps : List (List α)}

/-- Each gap but the last ends in a letter that no word holds. -/
def Fenced (fence : α → Prop) (gaps : List (List α)) : Prop :=
  ∀ gap ∈ gaps.dropLast, ∃ front letter, gap = front ++ [letter] ∧ fence letter

theorem fenced_singleton (gap : List α) : Fenced fence [gap] := by
  intro other h
  cases h

theorem Fenced.tail (h : Fenced fence (gap :: gaps)) : Fenced fence gaps := by
  intro other hother
  cases gaps with
  | nil => cases hother
  | cons next more => exact h other (List.mem_cons_of_mem gap hother)

/-- More text before the first word. -/
theorem Fenced.before (h : Fenced fence (gap :: gaps)) (front : List α) : Fenced fence ((front ++ gap) :: gaps) := by
  intro other hother
  cases gaps with
  | nil => cases hother
  | cons next more =>
    rw [List.dropLast_cons_cons, List.mem_cons] at hother
    obtain rfl | hother := hother
    · obtain ⟨first, letter, hgap, hletter⟩ := h gap List.mem_cons_self
      exact ⟨front ++ first, letter, by rw [hgap, List.append_assoc], hletter⟩
    · exact h other (List.mem_cons_of_mem gap hother)

/-- One more word before the first gap. -/
theorem Fenced.next {letter : α} {front : List α} (h : Fenced fence gaps) (hletter : fence letter) :
    Fenced fence ((front ++ [letter]) :: gaps) := by
  intro other hother
  cases gaps with
  | nil => cases hother
  | cons next more =>
    rw [List.dropLast_cons_cons, List.mem_cons] at hother
    obtain rfl | hother := hother
    · exact ⟨front, letter, rfl, hletter⟩
    · exact h other hother

theorem intercalate_before (word front gap : List α) (gaps : List (List α)) :
    word.intercalate ((front ++ gap) :: gaps) = front ++ word.intercalate (gap :: gaps) := by
  cases gaps with
  | nil => simp
  | cons next more => rw [List.intercalate_cons_cons, List.intercalate_cons_cons, List.append_assoc, List.append_assoc,
      List.append_assoc]

/-- Letters that are each written as a word of other letters. -/
theorem flatMap_intercalate {β : Type} (write : α → List β) (word : List α) (gaps : List (List α)) :
    (word.intercalate gaps).flatMap write = (word.flatMap write).intercalate (gaps.map (List.flatMap write)) := by
  induction gaps with
  | nil => rfl
  | cons gap gaps ih =>
    cases gaps with
    | nil => rw [List.intercalate_singleton, List.map_singleton, List.intercalate_singleton]
    | cons next more =>
      rw [List.intercalate_cons_cons, List.flatMap_append, List.flatMap_append, ih]
      simp only [List.map_cons, List.intercalate_cons_cons]

theorem Fenced.flatMap {β : Type} {write : α → List β} {other : β → Prop} (h : Fenced fence gaps)
    (hwrite : ∀ letter, fence letter → ∃ written, write letter = [written] ∧ other written) :
    Fenced other (gaps.map (List.flatMap write)) := by
  intro gap hgap
  rw [← List.map_dropLast, List.mem_map] at hgap
  obtain ⟨source, hsource, rfl⟩ := hgap
  obtain ⟨front, letter, rfl, hletter⟩ := h source hsource
  obtain ⟨written, hwritten, hother⟩ := hwrite letter hletter
  refine ⟨front.flatMap write, written, ?_, hother⟩
  rw [List.flatMap_append, List.flatMap_singleton, hwritten]

/-! ## Back again -/

/-- A word that begins inside a gap would hold the last letter of the gap. -/
theorem not_prefix_of_fence {letter : α} (hword : ∀ letter ∈ word, ¬ fence letter) (hletter : fence letter)
    (hfree : ¬ word <+: text ++ [letter]) (rest : List α) : ¬ word <+: text ++ letter :: rest := by
  intro h
  by_cases hlength : word.length ≤ text.length + 1
  · apply hfree
    rw [List.append_cons] at h
    apply List.prefix_of_prefix_length_le h (List.prefix_append _ rest)
    rw [List.length_append, List.length_singleton]
    exact hlength
  · have hshort : text ++ [letter] <+: word := by
      apply List.prefix_of_prefix_length_le _ h
      · rw [List.length_append, List.length_singleton]
        omega
      · have htext := List.append_cons text letter rest
        rw [htext]
        exact List.prefix_append _ rest
    exact hword letter (hshort.subset (by simp)) hletter

variable [DecidableEq α]

theorem firstRule_singleton (h : ¬ word <+: text) : firstRule [(word, old)] text = none := by
  rw [firstRule_eq_none]
  intro rule hrule
  rw [List.mem_singleton] at hrule
  rw [hrule]
  exact h

/-- The gap before a word is copied. -/
theorem rewrite_gap {letter : α} (hnew : ∀ letter ∈ new, ¬ fence letter) (hletter : fence letter)
    (hfree : ¬ new <:+: text ++ [letter]) :
    rewrite [(new, old)] 0 (text ++ letter :: rest) = text ++ letter :: rewrite [(new, old)] 0 rest := by
  induction text with
  | nil =>
    have hnone := not_prefix_of_fence hnew hletter (fun h => hfree h.isInfix) rest
    rw [List.nil_append] at hnone ⊢
    rw [rewrite_copy (firstRule_singleton hnone), List.nil_append]
  | cons first text ih =>
    have hnone := not_prefix_of_fence hnew hletter (fun h => hfree h.isInfix) rest
    rw [List.cons_append] at hnone hfree ⊢
    rw [rewrite_copy (firstRule_singleton hnone), ih, List.cons_append]
    exact fun h => hfree (List.infix_cons h)

/-- A text without the word is copied. -/
theorem rewrite_free (hfree : ¬ new <:+: text) : rewrite [(new, old)] 0 text = text := by
  induction text with
  | nil => rfl
  | cons first text ih =>
    rw [rewrite_copy (firstRule_singleton fun h => hfree h.isInfix), ih]
    exact fun h => hfree (List.infix_cons h)

/-- The old word comes back everywhere. -/
theorem rewrite_intercalate (hne : new ≠ []) (hnew : ∀ letter ∈ new, ¬ fence letter) (hfenced : Fenced fence gaps)
    (hfree : ¬ new <:+: old.intercalate gaps) :
    rewrite [(new, old)] 0 (new.intercalate gaps) = old.intercalate gaps := by
  induction gaps with
  | nil => rfl
  | cons gap gaps ih =>
    cases gaps with
    | nil =>
      rw [List.intercalate_singleton] at hfree ⊢
      rw [List.intercalate_singleton]
      exact rewrite_free hfree
    | cons next more =>
      obtain ⟨front, letter, hgap, hletter⟩ := hfenced gap List.mem_cons_self
      rw [List.intercalate_cons_cons] at hfree ⊢
      rw [List.intercalate_cons_cons, hgap, List.append_assoc, List.append_assoc, List.singleton_append]
      rw [hgap, List.append_assoc] at hfree
      have hrule : firstRule [(new, old)] (new ++ new.intercalate (next :: more)) = some (new, old) := by
        unfold firstRule
        rw [List.find?_cons_of_pos]
        rw [List.isPrefixOf_iff_prefix]
        exact List.prefix_append _ _
      rw [rewrite_gap hnew hletter, @rewrite_rule _ _ _ _ (new, old) hrule hne, ih hfenced.tail]
      · rw [List.append_assoc, List.append_assoc, List.singleton_append]
      · rw [← List.append_assoc] at hfree
        exact fun h => hfree (h.trans (List.suffix_append _ _).isInfix)
      · exact fun h => hfree (h.trans (List.prefix_append _ _).isInfix)

end FencedWords
