import Mathlib.Data.List.Infix

/-! # Patterns in spaced words

Where a pattern occurs in words that are joined by one space: a pattern without a space within
one word, and a pattern with one space at the end of a word and the start of the next. -/
namespace SpacedWords
set_option autoImplicit false

universe u
variable {α : Type u} {space : α} {pattern first second left right : List α} {words : List (List α)}

theorem prefix_append_cons (hpattern : space ∉ pattern) :
    pattern <+: left ++ space :: right ↔ pattern <+: left := by
  constructor
  · intro h
    induction pattern generalizing left with
    | nil => exact List.nil_prefix
    | cons item rest ih =>
      rw [List.mem_cons, not_or] at hpattern
      cases left with
      | nil => exact absurd (List.cons_prefix_cons.mp h).1.symm hpattern.1
      | cons head tail =>
        obtain ⟨hsame, hrest⟩ := List.cons_prefix_cons.mp h
        exact List.cons_prefix_cons.mpr ⟨hsame, ih hpattern.2 hrest⟩
  · exact fun h => h.trans (List.prefix_append left _)

theorem infix_append_cons (hne : pattern ≠ []) (hpattern : space ∉ pattern) :
    pattern <:+: left ++ space :: right ↔ pattern <:+: left ∨ pattern <:+: right := by
  induction left with
  | nil =>
    have hno : ¬ pattern <+: [] ++ space :: right := by
      intro h
      exact hne (List.prefix_nil.mp ((prefix_append_cons hpattern).mp h))
    rw [List.nil_append, List.infix_cons_iff, List.infix_nil]
    exact ⟨fun h => Or.inr (h.resolve_left hno), fun h => Or.inr (h.resolve_left hne)⟩
  | cons head tail ih =>
    rw [List.cons_append, List.infix_cons_iff, ih, ← List.cons_append, prefix_append_cons hpattern,
      List.infix_cons_iff, or_assoc]

theorem spaced_prefix_append_cons (hfirst : space ∉ first) (hleft : space ∉ left) :
    first ++ space :: second <+: left ++ space :: right ↔ first = left ∧ second <+: right := by
  induction first generalizing left with
  | nil =>
    cases left with
    | nil =>
      rw [List.nil_append, List.nil_append, List.cons_prefix_cons]
      exact ⟨fun h => ⟨rfl, h.2⟩, fun h => ⟨rfl, h.2⟩⟩
    | cons head tail =>
      rw [List.mem_cons, not_or] at hleft
      rw [List.nil_append, List.cons_append, List.cons_prefix_cons]
      exact ⟨fun h => absurd h.1 hleft.1, fun h => (nomatch h.1)⟩
  | cons item rest ih =>
    rw [List.mem_cons, not_or] at hfirst
    cases left with
    | nil =>
      rw [List.nil_append, List.cons_append, List.cons_prefix_cons]
      exact ⟨fun h => absurd h.1.symm hfirst.1, fun h => (nomatch h.1)⟩
    | cons head tail =>
      rw [List.mem_cons, not_or] at hleft
      rw [List.cons_append, List.cons_append, List.cons_prefix_cons, ih hfirst.2 hleft.2, List.cons.injEq, and_assoc]

theorem spaced_infix_append_cons (hfirst : space ∉ first) (hleft : space ∉ left) :
    first ++ space :: second <:+: left ++ space :: right ↔
      (first <:+ left ∧ second <+: right) ∨ first ++ space :: second <:+: right := by
  induction left with
  | nil =>
    rw [List.nil_append, List.infix_cons_iff]
    have hhead : first ++ space :: second <+: [] ++ space :: right ↔ first = [] ∧ second <+: right :=
      spaced_prefix_append_cons hfirst hleft
    rw [List.nil_append] at hhead
    rw [hhead, List.suffix_nil]
  | cons head tail ih =>
    have htail : space ∉ tail := fun h => hleft (List.mem_cons_of_mem head h)
    rw [List.cons_append, List.infix_cons_iff, ← List.cons_append,
      spaced_prefix_append_cons hfirst hleft, ih htail, List.suffix_cons_iff, or_and_right, or_assoc]

/-! ## Joined words -/

theorem intercalate_cons {word next : List α} {rest : List (List α)} :
    [space].intercalate (word :: next :: rest) = word ++ space :: [space].intercalate (next :: rest) := by
  rw [List.intercalate_cons_cons, List.append_assoc]
  rfl

theorem map_intercalate {β : Type u} (change : α → β) :
    ([space].intercalate words).map change = [change space].intercalate (words.map (List.map change)) := by
  induction words with
  | nil => rfl
  | cons word rest ih =>
    cases rest with
    | nil => rw [List.intercalate_singleton, List.map_singleton, List.intercalate_singleton]
    | cons next rest =>
      rw [intercalate_cons, List.map_append, List.map_cons, ih]
      rfl

theorem prefix_intercalate (hne : pattern ≠ []) (hpattern : space ∉ pattern) :
    pattern <+: [space].intercalate words ↔ ∃ word ∈ words.head?, pattern <+: word := by
  cases words with
  | nil =>
    constructor
    · intro h
      exact absurd (List.prefix_nil.mp h) hne
    · rintro ⟨word, hword, -⟩
      exact nomatch hword
  | cons word rest =>
    have hhead : (∃ other ∈ (word :: rest).head?, pattern <+: other) ↔ pattern <+: word := by simp
    rw [hhead]
    cases rest with
    | nil => rw [List.intercalate_singleton]
    | cons next rest =>
      rw [intercalate_cons]
      exact prefix_append_cons hpattern

theorem infix_intercalate (hne : pattern ≠ []) (hpattern : space ∉ pattern) :
    pattern <:+: [space].intercalate words ↔ ∃ word ∈ words, pattern <:+: word := by
  induction words with
  | nil =>
    constructor
    · intro h
      exact absurd (List.infix_nil.mp h) hne
    · rintro ⟨word, hword, -⟩
      exact nomatch hword
  | cons word rest ih =>
    rw [List.exists_mem_cons_iff, ← ih]
    cases rest with
    | nil =>
      rw [List.intercalate_singleton]
      exact ⟨Or.inl, fun h => h.resolve_right fun hnone => hne (List.infix_nil.mp hnone)⟩
    | cons next rest =>
      rw [intercalate_cons]
      exact infix_append_cons hne hpattern

/-- A pattern with one space spans two neighbouring words. -/
theorem spaced_infix_intercalate (hsecond : second ≠ []) (hfirst : space ∉ first) (hlast : space ∉ second)
    (hwords : ∀ word ∈ words, space ∉ word) :
    first ++ space :: second <:+: [space].intercalate words ↔
      ∃ before left right after, words = before ++ left :: right :: after ∧ first <:+ left ∧ second <+: right := by
  induction words with
  | nil =>
    constructor
    · intro h
      exact absurd (List.infix_nil.mp h) (by simp)
    · rintro ⟨before, left, right, after, hnone, -⟩
      exact absurd hnone (by simp)
  | cons word rest ih =>
    have hword := hwords word List.mem_cons_self
    cases rest with
    | nil =>
      rw [List.intercalate_singleton]
      constructor
      · rintro ⟨before, after, hsplit⟩
        refine absurd (hsplit ▸ ?_) hword
        simp
      · rintro ⟨before, left, right, after, hone, -⟩
        have hlength := congrArg List.length hone
        simp only [List.length_append, List.length_cons, List.length_nil] at hlength
        omega
    | cons next rest =>
      rw [intercalate_cons, spaced_infix_append_cons hfirst hword,
        ih fun other hother => hwords other (List.mem_cons_of_mem word hother), prefix_intercalate hsecond hlast]
      constructor
      · rintro (⟨hleft, right, hright, hleading⟩ | ⟨before, left, right, after, hsplit, hboth⟩)
        · have hnext : next = right := Option.some.inj hright
          exact ⟨[], word, right, rest, by rw [← hnext]; rfl, hleft, hleading⟩
        · exact ⟨word :: before, left, right, after, by rw [hsplit]; rfl, hboth⟩
      · rintro ⟨before, left, right, after, hsplit, hleft, hleading⟩
        cases before with
        | nil =>
          obtain ⟨hhead, htail⟩ := List.cons.inj hsplit
          obtain ⟨hnext, -⟩ := List.cons.inj htail
          rw [hhead]
          exact Or.inl ⟨hleft, right, by rw [← hnext]; rfl, hleading⟩
        | cons head before =>
          obtain ⟨-, htail⟩ := List.cons.inj hsplit
          exact Or.inr ⟨before, left, right, after, htail, hleft, hleading⟩

end SpacedWords
