import Formula.Cursor.Basic
import Formula.Rule.Longest

/-!
# `Formula.Cursor.Accept` — reading what a list of rules accepts

`accept` tries one character and undoes the reading when no rule takes it; `acceptText` takes the
longest text that fits. Both have a greedy form, which goes on as long as it succeeds.

## Contents
- **Characters.** `accept`, `acceptMany`.
- **Texts.** `advance`, `acceptText`, `acceptTexts`.
- **Progress.** What succeeds reads something: `accept_shorter`, `acceptText_shorter`; nothing ever
  adds to what lies ahead: `acceptMany_length_le`.
-/

namespace Formula.Cursor

open Rule

/-! ## Characters -/

/-- Reads the next character when some rule accepts it, and otherwise undoes the reading. -/
def accept (rules : List Rule) (c : Cursor) : Bool × Cursor :=
  match c.next with
  | (some x, c') => if anyAcceptsChar rules x then (true, c') else (false, c'.back)
  | (none, c') => (false, c'.back)

/-- A character that is accepted is no longer ahead. -/
theorem accept_shorter {rules : List Rule} {c c' : Cursor} (h : c.accept rules = (true, c')) :
    c'.ahead.length + 1 = c.ahead.length := by
  obtain ⟨behind, ahead, start, overread⟩ := c
  cases ahead with
  | nil => simp [accept, next] at h
  | cons x rest =>
      by_cases hx : anyAcceptsChar rules x
      · simp [accept, next, hx] at h
        subst h
        rfl
      · simp [accept, next, hx] at h

/-- Reads characters as long as some rule accepts the next one; tells whether there was any. -/
def acceptMany (rules : List Rule) (c : Cursor) : Bool × Cursor :=
  match _h : c.accept rules with
  | (true, c') => (true, (c'.acceptMany rules).2)
  | (false, c') => (false, c')
termination_by c.ahead.length
decreasing_by
  have := accept_shorter _h
  omega

/-! ## Texts -/

/-- Moves over a number of characters. -/
def advance : Nat → Cursor → Cursor
  | 0, c => c
  | n + 1, c =>
      match c.ahead with
      | [] => c
      | x :: rest => advance n { c with behind := x :: c.behind, ahead := rest }

/-- Reads the longest text that some rule accepts. -/
def acceptText (rules : List Rule) (c : Cursor) : Bool × Cursor :=
  match longest? rules c.ahead with
  | some piece => (true, c.advance piece.length)
  | none => (false, c)

/-- Moving over characters leaves what follows them ahead. -/
theorem advance_ahead (n : Nat) (c : Cursor) : (c.advance n).ahead = c.ahead.drop n := by
  induction n generalizing c with
  | zero => rfl
  | succ n ih =>
      obtain ⟨behind, ahead, start, overread⟩ := c
      cases ahead with
      | nil => rfl
      | cons x rest => simp [advance, ih]

/-- A text that is accepted is no longer ahead, and it was not empty. -/
theorem acceptText_shorter {rules : List Rule} {c c' : Cursor}
    (h : c.acceptText rules = (true, c')) : c'.ahead.length < c.ahead.length := by
  unfold acceptText at h
  split at h
  · next piece hp =>
      obtain ⟨hne, t, ht⟩ := exists_append_of_longest? hp
      have hlen := List.length_pos_iff.2 hne
      simp only [Prod.mk.injEq, true_and] at h
      subst h
      simp only [advance_ahead, List.length_drop, ht, List.length_append]
      omega
  · simp at h

/-- Reads longest accepted texts as long as there is one; tells whether there was any. -/
def acceptTexts (rules : List Rule) (c : Cursor) : Bool × Cursor :=
  match _h : c.acceptText rules with
  | (true, c') => (true, (c'.acceptTexts rules).2)
  | (false, c') => (false, c')
termination_by c.ahead.length
decreasing_by exact acceptText_shorter _h

/-! ## Progress -/

/-- A character that is tried is read or given back. -/
theorem accept_length_le (rules : List Rule) (c : Cursor) :
    (c.accept rules).2.ahead.length ≤ c.ahead.length := by
  obtain ⟨behind, ahead, start, overread⟩ := c
  cases ahead with
  | nil =>
      simp only [accept, next, back]
      split <;> simp_all
  | cons x rest =>
      by_cases hx : anyAcceptsChar rules x
      · simp [accept, next, hx]
      · have hf : anyAcceptsChar rules x = false := by simpa using hx
        by_cases ho : overread = 0
        · simp [accept, next, back, hf, ho]
        · simp [accept, next, back, hf, ho]

/-- Greedy reading adds nothing to what lies ahead. -/
theorem acceptMany_length_le (rules : List Rule) (c : Cursor) :
    (c.acceptMany rules).2.ahead.length ≤ c.ahead.length := by
  fun_induction acceptMany rules c with
  | case1 c c' h ih =>
      have := accept_shorter h
      show (acceptMany rules c').2.ahead.length ≤ c.ahead.length
      omega
  | case2 c c' h =>
      have := accept_length_le rules c
      rw [h] at this
      exact this

/-- Greedy reading that finds something leaves less ahead. -/
theorem acceptMany_shorter {rules : List Rule} {c c' : Cursor}
    (h : c.acceptMany rules = (true, c')) : c'.ahead.length < c.ahead.length := by
  unfold acceptMany at h
  split at h
  · next c₁ hc =>
      have h₁ := accept_shorter hc
      have h₂ := acceptMany_length_le rules c₁
      simp only [Prod.mk.injEq, true_and] at h
      subst h
      omega
  · simp at h

end Formula.Cursor
