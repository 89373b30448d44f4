import Formula.Cursor.Accept
import Formula.Rule.Alphabet

/-!
# `Formula.Lexer.Decimal` — reading a decimal number

A decimal is an optional sign, optional blanks, and then digits with an optional fraction, or a
fraction alone. A fraction is a point and at least one digit. What turns out not to be a decimal is
given back, so that a failed attempt leaves the cursor where it was.

## Contents
- **Computations.** `of_bind_ok`: what a computation in two parts has done when it succeeds.
- **Fractions.** `acceptFraction`.
- **Decimals.** `acceptDecimal`.
- **Progress.** `acceptDecimal_shorter`: a decimal that is read is no longer ahead.
-/

namespace Formula

/-! ## Computations -/

/-- A computation that succeeds in two parts. -/
theorem of_bind_ok {ε α β : Type} {x : Except ε α} {f : α → Except ε β} {r : β}
    (h : x >>= f = .ok r) : ∃ a, x = .ok a ∧ f a = .ok r := by
  cases x with
  | error e => cases h
  | ok a => exact ⟨a, rfl, h⟩

namespace Cursor

open Alphabet

/-! ## Fractions -/

/-- Reads a point and the digits after it, or gives the point back. -/
def acceptFraction (c : Cursor) : Except Fault (Bool × Cursor) :=
  match c.accept [point] with
  | (true, c₁) =>
      match c₁.acceptMany [digit] with
      | (true, c₂) => .ok (true, c₂)
      | (false, c₂) => return (false, ← c₂.restore c.mark)
  | (false, c₁) => return (false, ← c₁.restore c.mark)

/-! ## Decimals -/

/-- Reads a sign, blanks, and digits with a fraction or a fraction alone, or gives all of it back. -/
def acceptDecimal (c : Cursor) : Except Fault (Bool × Cursor) := do
  let c₁ := (c.accept [sign]).2
  let c₂ := (c₁.acceptMany [blank]).2
  match c₂.acceptMany [digit] with
  | (true, c₃) => return (true, (← c₃.acceptFraction).2)
  | (false, c₃) =>
      match ← c₃.acceptFraction with
      | (true, c₄) => return (true, c₄)
      | (false, c₄) => return (false, ← c₄.restore c.mark)

/-! ## Progress -/

/-- A return to a mark brings back what lay ahead of it. -/
theorem restore_ahead {c c' : Cursor} {m : Mark} (h : c.restore m = .ok c') :
    c'.ahead = m.ahead := by
  unfold restore at h
  split at h
  · cases h
  · cases h
    rfl

/-- A fraction that is read is no longer ahead; otherwise all is as it was. -/
theorem acceptFraction_progress {c c' : Cursor} {b : Bool} (h : c.acceptFraction = .ok (b, c')) :
    if b then c'.ahead.length < c.ahead.length else c'.ahead = c.ahead := by
  unfold acceptFraction at h
  split at h
  · next c₁ h₁ =>
      split at h
      · next c₂ h₂ =>
          cases h
          have := accept_shorter h₁
          have := acceptMany_shorter h₂
          simp only [if_true]
          omega
      · next c₂ h₂ =>
          obtain ⟨c₃, hr, h⟩ := of_bind_ok h
          cases h
          exact restore_ahead hr
  · next c₁ h₁ =>
      obtain ⟨c₃, hr, h⟩ := of_bind_ok h
      cases h
      exact restore_ahead hr

/-- A decimal that is read is no longer ahead; otherwise all is as it was. -/
theorem acceptDecimal_progress {c c' : Cursor} {b : Bool} (h : c.acceptDecimal = .ok (b, c')) :
    if b then c'.ahead.length < c.ahead.length else c'.ahead = c.ahead := by
  have h₁ := accept_length_le [sign] c
  have h₂ := acceptMany_length_le [blank] (c.accept [sign]).2
  unfold acceptDecimal at h
  dsimp only at h
  split at h
  · next c₃ h₃ =>
      have h₃ := acceptMany_shorter h₃
      obtain ⟨⟨found, c₄⟩, hf, h⟩ := of_bind_ok h
      cases h
      have hfraction := acceptFraction_progress hf
      cases found with
      | true =>
          simp only [if_true] at hfraction ⊢
          omega
      | false =>
          simp only [if_true, Bool.false_eq_true, if_false] at hfraction ⊢
          rw [hfraction]
          omega
  · next c₃ h₃ =>
      have h₄ := acceptMany_length_le [digit] ((c.accept [sign]).2.acceptMany [blank]).2
      rw [h₃] at h₄
      simp only at h₄
      obtain ⟨⟨found, c₄⟩, hf, h⟩ := of_bind_ok h
      have hfraction := acceptFraction_progress hf
      cases found with
      | true =>
          cases h
          simp only [if_true] at hfraction ⊢
          omega
      | false =>
          obtain ⟨c₅, hr, h⟩ := of_bind_ok h
          cases h
          exact restore_ahead hr

end Cursor

end Formula
