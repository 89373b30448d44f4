import Formula.Proofs.Reading

/-!
# `Formula.Proofs.Reachable` — all cursors that a text gives rise to

A cursor can be led about freely: characters are read and readings undone, the longest text that a list
of rules accepts is taken, pending text is cut off or dropped, and marks are returned to. Whatever is
done, requests that were not undone lie at the end of the text; only the token's start may come to lie
past the cursor.

## Contents
- **Moves.** `Reachable`; the other readings are made of these moves: `Reachable.accept`,
  `Reachable.acceptMany`, `Reachable.acceptTexts`.
- **Conditions.** `Reachable.settled`, `Reachable.proper`.
-/

namespace Formula.Cursor

variable {text : List Char} {c : Cursor}

/-! ## Moves -/

/-- The cursors that a text gives rise to. A mark may be returned to from anywhere. -/
inductive Reachable (text : List Char) : Cursor → Prop where
  | start : Reachable text (ofList text)
  | next {c : Cursor} (h : Reachable text c) : Reachable text c.next.2
  | back {c : Cursor} (h : Reachable text c) : Reachable text c.back
  | acceptText {c : Cursor} (h : Reachable text c) (rules : List Rule) :
      Reachable text (c.acceptText rules).2
  | restore {c d c' : Cursor} (h : Reachable text c) (hd : Reachable text d)
      (hmark : c.restore d.mark = .ok c') : Reachable text c'
  | cut {c c' : Cursor} {s : List Char} (h : Reachable text c) (hcut : c.cut = .ok (s, c')) :
      Reachable text c'
  | skip {c : Cursor} (h : Reachable text c) : Reachable text c.skip

theorem Reachable.accept (h : Reachable text c) (rules : List Rule) :
    Reachable text (c.accept rules).2 := by
  have hnext := h.next
  unfold Cursor.accept
  split
  · next x c₁ hc =>
      rw [hc] at hnext
      split
      · exact hnext
      · exact hnext.back
  · next c₁ hc =>
      rw [hc] at hnext
      exact hnext.back

theorem Reachable.acceptMany (h : Reachable text c) (rules : List Rule) :
    Reachable text (c.acceptMany rules).2 := by
  fun_induction Cursor.acceptMany rules c with
  | case1 c c₁ hc ih =>
      have hread := h.accept rules
      rw [hc] at hread
      exact ih hread
  | case2 c c₁ hc =>
      have hread := h.accept rules
      rwa [hc] at hread

theorem Reachable.acceptTexts (h : Reachable text c) (rules : List Rule) :
    Reachable text (c.acceptTexts rules).2 := by
  fun_induction Cursor.acceptTexts rules c with
  | case1 c c₁ hc ih =>
      have hread := h.acceptText rules
      rw [hc] at hread
      exact ih hread
  | case2 c c₁ hc =>
      have hread := h.acceptText rules
      rwa [hc] at hread

/-! ## Conditions -/

theorem Settled.next (h : c.Settled) : c.next.2.Settled := by
  obtain ⟨behind, ahead, start, overread⟩ := c
  cases ahead with
  | nil => exact fun _ => rfl
  | cons x rest =>
      intro hpos
      cases h hpos

theorem Settled.back (h : c.Settled) : c.back.Settled := by
  intro hpos
  unfold Cursor.back at hpos ⊢
  split at hpos
  · next hzero =>
      split at hpos
      all_goals exact absurd hzero (Nat.pos_iff_ne_zero.1 hpos)
  · next hne =>
      rw [if_neg hne]
      exact h (Nat.pos_of_ne_zero hne)

/-- Requests that were not undone lie at the end of the text, whatever was done with the cursor. -/
theorem Reachable.settled (h : Reachable text c) : c.Settled := by
  induction h with
  | start => exact fun hpos => absurd hpos (Nat.lt_irrefl 0)
  | next _ ih => exact ih.next
  | back _ ih => exact ih.back
  | @acceptText c _ rules ih =>
      rw [acceptText_eq]
      exact ih.past _
  | @restore c d c' _ _ hmark _ ihd =>
      -- a mark brings back what was read and overread where it was set
      unfold Cursor.restore at hmark
      split at hmark
      · cases hmark
      · cases hmark
        exact ihd
  | @cut c c' s _ hcut ih =>
      unfold Cursor.cut at hcut
      split at hcut
      · cases hcut
        exact ih
      · cases hcut
  | skip _ ih => exact ih

/-- Where the token does not start past the cursor, all readings work as intended. -/
theorem Reachable.proper (h : Reachable text c) (hstart : c.start ≤ c.position) : c.Proper :=
  ⟨h.settled, hstart⟩

end Formula.Cursor
