import Mathlib.Data.List.TakeWhile
import Mathlib.Tactic.ByContra

/-! # Scanning loops

A loop that takes one token after another off the front of a text. When a pass takes exactly the
token that the rest of the text allows, the loop accepts the texts that are nonempty sequences of
tokens, whatever other ways of splitting the text there are. -/
set_option autoImplicit false

namespace Scanning
variable {α : Type}

/-- What one pass of the loop does with the remaining text. -/
inductive Pass (α : Type) where
  | next (rest : List α)
  | rejected
  | panicked

inductive Ending where
  | returned (answer : Bool)
  | panicked
  | unfinished
deriving DecidableEq

/-- The loop with a bound on its passes; `found` is the answer at the end of the text. -/
def loop (pass : List α → Pass α) : ℕ → Bool → List α → Ending
  | _, found, [] => .returned found
  | 0, _, _ :: _ => .unfinished
  | fuel + 1, _, head :: tail =>
    match pass (head :: tail) with
    | .next rest => loop pass fuel true rest
    | .rejected => .returned false
    | .panicked => .panicked

/-- A text that is one token after another. -/
inductive Tokens (IsToken : List α → Prop) : List α → Prop where
  | nil : Tokens IsToken []
  | cons {token rest : List α} : IsToken token → Tokens IsToken rest → Tokens IsToken (token ++ rest)

/-- The pass takes one token off the front, the only one that leaves a sequence of tokens. -/
structure Takes (IsToken : List α → Prop) (pass : List α → Pass α) : Prop where
  nonempty : ¬ IsToken []
  settled : ∀ text, pass text ≠ .panicked
  sound : ∀ text rest, pass text = .next rest → ∃ token, IsToken token ∧ text = token ++ rest
  complete : ∀ token rest, IsToken token → Tokens IsToken rest → pass (token ++ rest) = .next rest

section Run
variable {IsToken : List α → Prop} {pass : List α → Pass α}

theorem Takes.tokens_iff (h : Takes IsToken pass) {head : α} {tail : List α} :
    Tokens IsToken (head :: tail) ↔ ∃ rest, pass (head :: tail) = .next rest ∧ Tokens IsToken rest := by
  constructor
  · intro htokens
    generalize htext : head :: tail = text at htokens
    cases htokens with
    | nil => cases htext
    | cons htoken hrest => exact ⟨_, h.complete _ _ htoken hrest, hrest⟩
  · rintro ⟨rest, hpass, hrest⟩
    obtain ⟨token, htoken, htext⟩ := h.sound _ _ hpass
    rw [htext]
    exact .cons htoken hrest

/-- With a pass for every item the loop returns, and it accepts the sequences of tokens. -/
theorem Takes.loop_eq (h : Takes IsToken pass) (found : Bool) (text : List α) {fuel : ℕ}
    (hfuel : text.length ≤ fuel) :
    ∃ answer, loop pass fuel found text = .returned answer ∧
      (answer = true ↔ Tokens IsToken text ∧ (text = [] → found = true)) := by
  induction fuel generalizing found text with
  | zero =>
    obtain rfl := List.length_eq_zero_iff.mp (Nat.le_zero.mp hfuel)
    exact ⟨found, rfl, fun hfound => ⟨.nil, fun _ => hfound⟩, fun htokens => htokens.2 rfl⟩
  | succ fuel ih =>
    cases text with
    | nil => exact ⟨found, rfl, fun hfound => ⟨.nil, fun _ => hfound⟩, fun htokens => htokens.2 rfl⟩
    | cons head tail =>
      unfold loop
      have hiff : Tokens IsToken (head :: tail) ↔
          ∃ rest, pass (head :: tail) = .next rest ∧ Tokens IsToken rest := h.tokens_iff
      cases hpass : pass (head :: tail) with
      | panicked => exact absurd hpass (h.settled _)
      | rejected =>
        refine ⟨false, rfl, fun hfalse => (Bool.false_ne_true hfalse).elim, ?_⟩
        rintro ⟨htokens, -⟩
        obtain ⟨rest, hnext, -⟩ := hiff.mp htokens
        rw [hpass] at hnext
        cases hnext
      | next rest =>
        obtain ⟨token, htoken, htext⟩ := h.sound _ _ hpass
        have hshorter : rest.length ≤ fuel := by
          have hlength : (head :: tail).length = token.length + rest.length := by
            rw [htext, List.length_append]
          have hpositive : 0 < token.length := by
            apply List.length_pos_iff.mpr
            rintro rfl
            exact h.nonempty htoken
          omega
        obtain ⟨answer, hloop, hanswer⟩ := ih true rest hshorter
        refine ⟨answer, hloop, ?_⟩
        rw [hanswer, hiff, hpass]
        constructor
        · rintro ⟨htokens, -⟩
          exact ⟨⟨rest, rfl, htokens⟩, fun hempty => by cases hempty⟩
        · rintro ⟨⟨other, hother, htokens⟩, -⟩
          cases hother
          exact ⟨htokens, fun _ => rfl⟩

/-- A pass never panics, so no bound on the passes makes the loop panic. -/
theorem Takes.loop_settled (h : Takes IsToken pass) (fuel : ℕ) (found : Bool) (text : List α) :
    loop pass fuel found text ≠ .panicked := by
  induction fuel generalizing found text with
  | zero => cases text <;> simp [loop]
  | succ fuel ih =>
    cases text with
    | nil => simp [loop]
    | cons head tail =>
      unfold loop
      cases hpass : pass (head :: tail) with
      | next rest => exact ih true rest
      | rejected => simp
      | panicked => exact absurd hpass (h.settled _)

end Run
end Scanning
