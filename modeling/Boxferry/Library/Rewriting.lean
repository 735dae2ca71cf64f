import Mathlib.Algebra.GroupWithZero.Nat
import Mathlib.Data.List.Find

/-! # Left-to-right rewriting

One pass over a text that replaces, at each position, the first rule whose left side stands
there, and copies a symbol where none does. A stream that is rewritten as far as no rule can reach
beyond it, and keeps the rest, is rewritten as its whole text is. -/
set_option autoImplicit false

namespace Rewriting
variable {α : Type} [DecidableEq α]

def firstRule (rules : List (List α × List α)) (text : List α) : Option (List α × List α) :=
  rules.find? fun rule => rule.1.isPrefixOf text

/-- Rewrites a text after a number of symbols that a rule has taken. -/
def rewrite (rules : List (List α × List α)) : Nat → List α → List α
  | _, [] => []
  | skip + 1, _ :: rest => rewrite rules skip rest
  | 0, first :: rest =>
    match firstRule rules (first :: rest) with
    | some rule => rule.2 ++ rewrite rules (rule.1.length - 1) rest
    | none => first :: rewrite rules 0 rest

/-- Rewrites at the positions before the budget, and gives back what is left from there on. -/
def scan (rules : List (List α × List α)) : Nat → Nat → List α → List α × List α
  | _, _, [] => ([], [])
  | budget, skip + 1, _ :: rest => scan rules (budget - 1) skip rest
  | 0, 0, first :: rest => ([], first :: rest)
  | budget + 1, 0, first :: rest =>
    match firstRule rules (first :: rest) with
    | some rule => ((rule.2 ++ (scan rules budget (rule.1.length - 1) rest).1),
        (scan rules budget (rule.1.length - 1) rest).2)
    | none => (first :: (scan rules budget 0 rest).1, (scan rules budget 0 rest).2)

variable {rules : List (List α × List α)} {text rest more : List α} {first : α} {rule : List α × List α}
  {budget skip overlap : Nat}

/-! ## One position -/

theorem firstRule_eq_some (h : firstRule rules text = some rule) :
    rule ∈ rules ∧ ∃ rest, text = rule.1 ++ rest := by
  unfold firstRule at h
  refine ⟨List.mem_of_find?_eq_some h, ?_⟩
  have hbegins := List.find?_some h
  obtain ⟨rest, hrest⟩ := List.isPrefixOf_iff_prefix.mp hbegins
  exact ⟨rest, hrest.symm⟩

theorem firstRule_eq_none : firstRule rules text = none ↔ ∀ rule ∈ rules, ¬ rule.1 <+: text := by
  unfold firstRule
  rw [List.find?_eq_none]
  constructor
  · intro h rule hrule hbegins
    exact h rule hrule (List.isPrefixOf_iff_prefix.mpr hbegins)
  · intro h rule hrule hbegins
    exact h rule hrule (List.isPrefixOf_iff_prefix.mp hbegins)

/-- What follows a text that is long enough for every rule does not matter. -/
theorem firstRule_append (h : ∀ rule ∈ rules, rule.1.length ≤ text.length) :
    firstRule rules (text ++ more) = firstRule rules text := by
  unfold firstRule
  refine List.find?_congr fun rule hrule => ?_
  rw [Bool.eq_iff_iff, List.isPrefixOf_iff_prefix, List.isPrefixOf_iff_prefix]
  constructor
  · intro hbegins
    exact List.prefix_of_prefix_length_le hbegins (List.prefix_append text more) (h rule hrule)
  · exact fun hbegins => hbegins.trans (List.prefix_append text more)

theorem rewrite_nil (skip : Nat) : rewrite rules skip [] = [] := by
  cases skip <;> rfl

theorem rewrite_skip (skip : Nat) (text : List α) : rewrite rules skip text = rewrite rules 0 (text.drop skip) := by
  induction text generalizing skip with
  | nil => rw [rewrite_nil, List.drop_nil, rewrite_nil]
  | cons first rest ih =>
    cases skip with
    | zero => rfl
    | succ skip =>
      rw [List.drop_succ_cons, rewrite]
      exact ih skip

theorem rewrite_rule (h : firstRule rules (rule.1 ++ rest) = some rule) (hne : rule.1 ≠ []) :
    rewrite rules 0 (rule.1 ++ rest) = rule.2 ++ rewrite rules 0 rest := by
  obtain ⟨left, right⟩ := rule
  cases left with
  | nil => exact absurd rfl hne
  | cons first others =>
    simp only [List.cons_append] at h ⊢
    rw [rewrite, h]
    simp only
    rw [rewrite_skip, List.length_cons, Nat.add_sub_cancel, List.drop_left]

theorem rewrite_copy (h : firstRule rules (first :: rest) = none) :
    rewrite rules 0 (first :: rest) = first :: rewrite rules 0 rest := by
  rw [rewrite, h]

/-- What holds of the rewriting of every text, as it holds after each rule and each copied symbol. -/
theorem rewrite_induction {motive : List α → List α → Prop} (hne : ∀ rule ∈ rules, rule.1 ≠ []) (hnil : motive [] [])
    (hrule : ∀ rule ∈ rules, ∀ rest, firstRule rules (rule.1 ++ rest) = some rule →
      motive rest (rewrite rules 0 rest) → motive (rule.1 ++ rest) (rule.2 ++ rewrite rules 0 rest))
    (hcopy : ∀ first rest, firstRule rules (first :: rest) = none →
      motive rest (rewrite rules 0 rest) → motive (first :: rest) (first :: rewrite rules 0 rest))
    (text : List α) : motive text (rewrite rules 0 text) := by
  induction hlength : text.length using Nat.strongRecOn generalizing text with
  | _ length ih =>
    cases text with
    | nil => exact hnil
    | cons first rest =>
      cases hfirst : firstRule rules (first :: rest) with
      | none =>
        rw [rewrite_copy hfirst]
        refine hcopy first rest hfirst (ih rest.length ?_ rest rfl)
        rw [← hlength, List.length_cons]
        omega
      | some rule =>
        obtain ⟨hmem, tail, htail⟩ := firstRule_eq_some hfirst
        rw [htail] at hfirst ⊢
        have hpos := List.length_pos_iff.mpr (hne rule hmem)
        rw [rewrite_rule hfirst (hne rule hmem)]
        refine hrule rule hmem tail hfirst (ih tail.length ?_ tail rfl)
        rw [← hlength, htail, List.length_append]
        omega

/-! ## Streams -/

/-- A scan rewrites as the whole text is rewritten, as far as it gets, and leaves at most the
symbols that a rule may still need. -/
theorem scan_append (hrules : ∀ rule ∈ rules, rule.1.length ≤ overlap + 1) (hskip : skip ≤ text.length)
    (hbudget : budget = text.length - overlap) (more : List α) :
    rewrite rules skip (text ++ more) = (scan rules budget skip text).1 ++ rewrite rules 0 ((scan rules budget skip text).2 ++ more) ∧
      (scan rules budget skip text).2.length ≤ overlap := by
  induction text generalizing budget skip with
  | nil =>
    obtain rfl : skip = 0 := Nat.le_zero.mp hskip
    exact ⟨rfl, Nat.zero_le _⟩
  | cons first rest ih =>
    rw [List.length_cons] at hskip hbudget
    cases skip with
    | succ skip =>
      rw [scan, List.cons_append, rewrite]
      exact ih (by omega) (by omega)
    | zero =>
      cases budget with
      | zero =>
        rw [scan]
        refine ⟨rfl, ?_⟩
        rw [List.length_cons]
        omega
      | succ budget =>
        have hlong : ∀ rule ∈ rules, rule.1.length ≤ (first :: rest).length := by
          intro rule hrule
          have hlength := hrules rule hrule
          rw [List.length_cons]
          omega
        have hsame : firstRule rules (first :: (rest ++ more)) = firstRule rules (first :: rest) := firstRule_append hlong
        rw [scan, List.cons_append, rewrite, hsame]
        cases hfirst : firstRule rules (first :: rest) with
        | none =>
          obtain ⟨hrest, hleft⟩ := ih (Nat.zero_le _) (show budget = rest.length - overlap by omega)
          simp only
          rw [hrest]
          exact ⟨rfl, hleft⟩
        | some rule =>
          have hrule := hlong rule (firstRule_eq_some hfirst).1
          rw [List.length_cons] at hrule
          obtain ⟨hrest, hleft⟩ := ih (show rule.1.length - 1 ≤ rest.length by omega)
            (show budget = rest.length - overlap by omega)
          simp only
          rw [hrest, List.append_assoc]
          exact ⟨rfl, hleft⟩

/-- A scan with a budget for the whole text leaves nothing. -/
theorem scan_all (h : text.length ≤ budget) : scan rules budget skip text = (rewrite rules skip text, []) := by
  induction text generalizing budget skip with
  | nil => rw [rewrite_nil, scan]
  | cons first rest ih =>
    rw [List.length_cons] at h
    cases skip with
    | succ skip =>
      rw [scan, rewrite]
      exact ih (by omega)
    | zero =>
      cases budget with
      | zero => omega
      | succ budget =>
        rw [scan, rewrite]
        cases firstRule rules (first :: rest) with
        | none =>
          simp only
          rw [ih (by omega)]
        | some rule =>
          simp only
          rw [ih (by omega)]

/-! ## Marks -/

section Marks
variable {left value text inner : List α} {opening closing : α}

/-- A text without the opening of a mark that the result begins with begins the text. -/
theorem begins_of_rewrite (hleft : left ≠ []) (hopening : opening ∉ value)
    (h : value <+: rewrite [(left, opening :: inner)] 0 text) : value <+: text := by
  refine @rewrite_induction α _ [(left, opening :: inner)]
    (fun text result => ∀ value : List α, opening ∉ value → value <+: result → value <+: text)
    (by simpa using hleft) (fun _ _ hbegins => hbegins) ?_ ?_ text value hopening h
  · intro rule hrule rest _ _ value hvalue hbegins
    obtain rfl := List.mem_singleton.mp hrule
    cases value with
    | nil => exact List.nil_prefix
    | cons first others =>
      obtain ⟨rfl, -⟩ := List.cons_prefix_cons.mp hbegins
      exact absurd List.mem_cons_self hvalue
  · intro first rest _ ih value hvalue hbegins
    cases value with
    | nil => exact List.nil_prefix
    | cons head others =>
      obtain ⟨rfl, htail⟩ := List.cons_prefix_cons.mp hbegins
      have hothers := ih others (fun hmem => hvalue (List.mem_cons_of_mem _ hmem)) htail
      exact List.cons_prefix_cons.mpr ⟨rfl, hothers⟩

/-- A text that no mark has a part of is not in the result where it is replaced, or was not there before. -/
theorem absent_rewrite (hleft : left ≠ []) (hvalue : value ≠ []) (hopening : opening ∉ value) (hclosing : closing ∉ value)
    (hmark : ¬ value <:+: opening :: inner ++ [closing]) (h : value = left ∨ ¬ value <:+: text) :
    ¬ value <:+: rewrite [(left, opening :: inner ++ [closing])] 0 text := by
  refine @rewrite_induction α _ [(left, opening :: inner ++ [closing])]
    (fun text result => (value = left ∨ ¬ value <:+: text) → ¬ value <:+: result)
    (by simpa using hleft) (fun _ hnil => hvalue (List.infix_nil.mp hnil)) ?_ ?_ text h
  · intro rule hrule rest _ ih habsent hwithin
    obtain rfl := List.mem_singleton.mp hrule
    have hrest := ih (habsent.imp_right fun hnot hin => hnot (hin.trans List.infix_append_right))
    obtain hin | hin | ⟨before, after, rfl, hends, hbegins⟩ := List.infix_append_iff.mp hwithin
    · exact hmark hin
    · exact hrest hin
    · -- a part that crosses the end of a mark has its closing
      obtain rfl | ⟨others, rfl, -⟩ := List.suffix_concat_iff.mp hends
      · exact hrest hbegins.isInfix
      · exact hclosing (by simp)
  · intro first rest hfirst ih habsent hwithin
    obtain hbegins | hin := List.infix_cons_iff.mp hwithin
    · rw [← rewrite_copy hfirst] at hbegins
      have hbefore := begins_of_rewrite hleft hopening hbegins
      rcases habsent with rfl | hnot
      · exact firstRule_eq_none.mp hfirst _ List.mem_cons_self hbefore
      · exact hnot hbefore.isInfix
    · exact ih (habsent.imp_right fun hnot hin => hnot (List.infix_cons hin)) hin

end Marks
end Rewriting
