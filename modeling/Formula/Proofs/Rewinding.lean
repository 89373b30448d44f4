import Mathlib.Logic.Function.Iterate
import Formula.Proofs.Undoing

/-!
# `Formula.Proofs.Rewinding` — every reading can be undone

Undoing looks at nothing but the requests at the end of the text that were not undone yet: while there
are any, it takes one of them back, and otherwise it gives back a character. So it undoes what was done
last only because such requests are made at the end of the text and nowhere else (`Settled`), whatever
was done with the cursor before. Then one step back undoes one reading, in the middle of the text and
past its end, and as many steps back undo any number of readings. A reading that fails has undone itself.

## Contents
- **Places.** `startOffset_le`, `offset_le`, `Settled.offset_eq`: start and place are in the text, and at
  its end where requests were not undone.
- **Steps.** `Settled.back_next`, `Settled.next_back_iff`.
- **Rows of readings.** `readMany`, with `back_readMany`.
- **Failures.** `Settled.eq_of_accept`, and the same for the other readings.
- **Histories.** `every_reading_can_be_undone`.
-/

namespace Formula.Cursor

open Rule Piece Text

variable {c : Cursor} {rules : List Rule}

/-! ## Places -/

theorem startOffset_le (c : Cursor) : c.startOffset ≤ byteLength c.text := by
  have hsplit := congrArg byteLength (List.take_append_drop c.start c.text)
  rw [byteLength_append] at hsplit
  rw [startOffset]
  omega

theorem offset_le (c : Cursor) : c.offset ≤ byteLength c.text := by
  rw [text, byteLength_append, byteLength_reverse, offset]
  exact Nat.le_add_right _ _

theorem offset_eq_zero_iff (c : Cursor) : c.offset = 0 ↔ c.position = 0 := by
  have hle := length_le_byteLength c.behind
  unfold offset position
  constructor
  · omega
  · intro hzero
    rw [List.length_eq_zero_iff.1 hzero, byteLength_nil]

/-- Requests that were not undone were made where nothing is ahead. -/
theorem Settled.offset_eq (h : c.Settled) (hpos : 0 < c.overread) : c.offset = byteLength c.text := by
  rw [text, h hpos, List.append_nil, byteLength_reverse, offset]

/-! ## Steps -/

/-- One step back undoes one reading. -/
theorem Settled.back_next (h : c.Settled) : c.next.2.back = c := by
  obtain ⟨behind, ahead, start, overread⟩ := c
  cases ahead with
  | nil => rfl
  | cons x rest =>
      have hzero : overread = 0 := by
        by_contra hne
        cases h (Nat.pos_of_ne_zero hne)
      subst hzero
      rfl

theorem next_ne (c : Cursor) : c.next.2 ≠ c := by
  obtain ⟨behind, ahead, start, overread⟩ := c
  cases ahead with
  | nil => simp [next]
  | cons x rest => simp [next]

/-- A reading undoes a step back, unless there was nothing to step back over. -/
theorem Settled.next_back_iff (h : c.Settled) :
    c.back.next.2 = c ↔ ¬ (c.position = 0 ∧ c.overread = 0) := by
  obtain ⟨behind, ahead, start, overread⟩ := c
  cases overread with
  | zero =>
      cases behind with
      | nil => simpa [Cursor.back, position] using next_ne ⟨[], ahead, start, 0⟩
      | cons x rest => simp [Cursor.back, Cursor.next, position]
  | succ n =>
      -- a request at the end is taken back and made again
      obtain rfl : ahead = [] := h (Nat.succ_pos n)
      simp [Cursor.back, Cursor.next]

/-! ## Rows of readings -/

/-- The cursor after a number of readings of one character. -/
def readMany (k : Nat) (c : Cursor) : Cursor := (fun d => d.next.2)^[k] c

/-- As many steps back undo a number of readings. -/
theorem back_readMany (h : c.Settled) (k : Nat) : back^[k] (readMany k c) = c := by
  induction k generalizing c with
  | zero => rfl
  | succ k ih =>
      -- the first reading is undone by the last step back
      have hrest : back^[k] (readMany k c.next.2) = c.next.2 := ih h.next
      rw [Function.iterate_succ_apply', readMany, Function.iterate_succ_apply]
      show (back^[k] (readMany k c.next.2)).back = c
      rw [hrest, h.back_next]

/-! ## Failures -/

theorem Settled.eq_of_accept (h : c.Settled) (hfail : (c.accept rules).1 = false) :
    (c.accept rules).2 = c := by
  rw [accept_eq h] at hfail ⊢
  have hnil : initial rules c.ahead = [] := by simpa using hfail
  rw [hnil, past_nil]

theorem Settled.eq_of_acceptMany (h : c.Settled) (hfail : (c.acceptMany rules).1 = false) :
    (c.acceptMany rules).2 = c := by
  rw [acceptMany_eq h] at hfail ⊢
  have hnil : stretch rules c.ahead = [] := by simpa using hfail
  rw [hnil, past_nil]

theorem eq_of_acceptText (hfail : (c.acceptText rules).1 = false) : (c.acceptText rules).2 = c := by
  rw [acceptText_eq] at hfail ⊢
  have hnone : longest? rules c.ahead = none := by simpa using hfail
  rw [hnone, Option.getD_none, past_nil]

theorem eq_of_acceptTexts (hfail : (c.acceptTexts rules).1 = false) :
    (c.acceptTexts rules).2 = c := by
  unfold acceptTexts at hfail ⊢
  split at hfail
  · cases hfail
  · next c' hc =>
      -- the first text is missing already
      have hfirst : (c.acceptText rules).2 = c := eq_of_acceptText (by rw [hc])
      rw [hc] at hfirst
      exact hfirst

/-! ## Histories -/

/-- Whatever was done with a cursor before: its place and the token's start are boundaries of the source,
    and requests that were not undone lie at its end. A number of readings, some of them past the end
    perhaps, is undone by as many steps back; a step back is undone by a reading, unless there was nothing
    to step back over; and a reading that accepts nothing leaves the cursor as it was. -/
theorem every_reading_can_be_undone (source : String) (hs : List (Marked × Operation)) (a : Marked)
    (h : History source.toList hs a) :
    (a.cursor.startOffset ≤ byteLength source.toList ∧ isBoundary source.toList a.cursor.startOffset ∧
        a.cursor.offset ≤ byteLength source.toList ∧ isBoundary source.toList a.cursor.offset) ∧
      (0 < a.cursor.overread → a.cursor.offset = byteLength source.toList) ∧
      (∀ k, back^[k] (readMany k a.cursor) = a.cursor) ∧
      (a.cursor.back.next.2 = a.cursor ↔ ¬ (a.cursor.offset = 0 ∧ a.cursor.overread = 0)) ∧
      ∀ rules,
        ((a.cursor.accept rules).1 = false → (a.cursor.accept rules).2 = a.cursor) ∧
        ((a.cursor.acceptMany rules).1 = false → (a.cursor.acceptMany rules).2 = a.cursor) ∧
        ((a.cursor.acceptText rules).1 = false → (a.cursor.acceptText rules).2 = a.cursor) ∧
        ((a.cursor.acceptTexts rules).1 = false → (a.cursor.acceptTexts rules).2 = a.cursor) := by
  have hreachable := h.sprung.reachable
  have hsettled := hreachable.settled
  have htext := hreachable.text_eq
  refine ⟨⟨?_, ?_, ?_, ?_⟩, ?_, back_readMany hsettled, ?_, ?_⟩
  · rw [← htext]
    exact startOffset_le _
  · rw [isBoundary, ← htext, dropBytes_startOffset]
    rfl
  · rw [← htext]
    exact offset_le _
  · rw [isBoundary, ← htext, dropBytes_offset]
    rfl
  · rw [← htext]
    exact hsettled.offset_eq
  · rw [hsettled.next_back_iff, offset_eq_zero_iff]
  · intro rules
    exact ⟨hsettled.eq_of_accept, hsettled.eq_of_acceptMany, eq_of_acceptText, eq_of_acceptTexts⟩

/-- The first character is dropped, the second read, and the end asked for twice: three more requests are
    undone by three steps back, and the step back that takes a request back is undone by making it again. -/
theorem undone_past_the_end :
    ∃ hs a, History "∪b".toList hs a ∧ hs.map (·.2) = [.next, .skip, .next, .next, .next] ∧
      a.cursor.startOffset = 3 ∧ a.cursor.offset = 4 ∧ a.cursor.overread = 2 ∧
      back^[3] (readMany 3 a.cursor) = a.cursor ∧ a.cursor.back.next.2 = a.cursor := by
  have hstart : History "∪b".toList [] ⟨ofList ['∪', 'b'], []⟩ := .start
  have h := hstart.perform .next |>.perform .skip |>.perform .next |>.perform .next |>.perform .next
  obtain ⟨-, -, hmany, hback, -⟩ := every_reading_can_be_undone "∪b" _ _ h
  exact ⟨_, _, h, rfl, rfl, rfl, rfl, hmany 3, hback.2 (by decide)⟩

end Formula.Cursor
