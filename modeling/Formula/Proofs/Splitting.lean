import Formula.Proofs.Location
import Formula.Text.Lines

/-!
# `Formula.Proofs.Splitting` — lines of a text and places in it

A text falls apart into lines at its line feeds, and a walk over a text counts the same line feeds. So
the line and the column of a place are the line that holds the character there and its place in that
line. A carriage return before a line feed belongs to no line; every other character that is no line
feed stands in the line where a walk finds it.

## Contents
- **Lines.** `Text.lines_lineFeed`, `Text.lines_cons`; `Text.not_mem_of_mem_lines`.
- **Parts.** `Text.exists_lines_append`, `Text.exists_lines_cons`.
- **Places.** `Source.Location.column_foldl`, `Source.Location.column_foldl_le`; `Source.line_at`.
-/

namespace Formula

namespace Text

variable {c : Char} {s u line : List Char}

/-! ## Lines -/

theorem lines_lineFeed (s : List Char) : lines ('\n' :: s) = [] :: lines s := by rw [lines]

/-- A carriage return before a line feed is left out; any other character but the line feed starts the
    first line. -/
theorem lines_cons (hc : c ≠ '\n') (s : List Char) :
    lines (c :: s) =
      if c = '\r' ∧ s.head? = some '\n' then lines s
      else
        match lines s with
        | [] => [[c]]
        | line :: others => (c :: line) :: others := by
  split
  · next h =>
      obtain ⟨rfl, hs⟩ := h
      obtain ⟨t, rfl⟩ := List.head?_eq_some_iff.1 hs
      rw [lines_lineFeed]
      rw [lines]
  · next h =>
      have hbreak : ∀ t, c = '\r' → s = '\n' :: t → False := by
        rintro t rfl rfl
        exact h ⟨rfl, rfl⟩
      exact lines.eq_4 c s hc hbreak

/-- No line has a line feed in it. -/
theorem not_mem_of_mem_lines (h : line ∈ lines s) : '\n' ∉ line := by
  induction s generalizing line with
  | nil => cases h
  | cons c s ih =>
      by_cases hc : c = '\n'
      · subst hc
        rw [lines_lineFeed, List.mem_cons] at h
        rcases h with rfl | h
        · exact List.not_mem_nil
        · exact ih h
      · rw [lines_cons hc] at h
        split at h
        · exact ih h
        · cases hlines : lines s with
          | nil =>
              rw [hlines, List.mem_singleton] at h
              rw [h, List.mem_singleton]
              exact Ne.symm hc
          | cons first others =>
              simp only [hlines, List.mem_cons] at h ih
              rcases h with rfl | h
              · rw [List.mem_cons, not_or]
                exact ⟨Ne.symm hc, ih (Or.inl rfl)⟩
              · exact ih (Or.inr h)

/-! ## Parts -/

/-- What comes before a line feed makes as many lines as there are line feeds in it, and one more. -/
theorem exists_lines_append (u s : List Char) :
    ∃ before, before.length = u.count '\n' + 1 ∧ lines (u ++ '\n' :: s) = before ++ lines s := by
  induction u with
  | nil => exact ⟨[[]], rfl, lines_lineFeed s⟩
  | cons c u ih =>
      obtain ⟨before, hlength, hlines⟩ := ih
      by_cases hc : c = '\n'
      · subst hc
        refine ⟨[] :: before, by simp [hlength], ?_⟩
        rw [List.cons_append, lines_lineFeed, hlines, List.cons_append]
      · rw [List.cons_append, lines_cons hc, hlines, List.count_cons_of_ne hc]
        split
        · exact ⟨before, hlength, rfl⟩
        · obtain ⟨first, others, rfl⟩ := List.exists_cons_of_length_eq_add_one hlength
          exact ⟨(c :: first) :: others, hlength, rfl⟩

/-- What stands before a character, with no line feed in it, begins the first line, and the character
    follows it there. -/
theorem exists_lines_cons (hc : c ≠ '\n') (hreturn : c ≠ '\r') (hu : '\n' ∉ u) (v : List Char) :
    ∃ w others, lines (u ++ c :: v) = (u ++ c :: w) :: others := by
  induction u with
  | nil =>
      rw [List.nil_append, lines_cons hc, if_neg fun h => hreturn h.1]
      cases lines v with
      | nil => exact ⟨[], [], rfl⟩
      | cons line others => exact ⟨line, others, rfl⟩
  | cons d u ih =>
      rw [List.mem_cons, not_or] at hu
      obtain ⟨w, others, hlines⟩ := ih hu.2
      -- the next character is not the line feed that a carriage return may go with
      have hhead : (u ++ c :: v).head? ≠ some '\n' := by
        cases u with
        | nil => simpa using hc
        | cons x u => simpa using fun h : x = '\n' => hu.2 (h ▸ List.mem_cons_self)
      rw [List.cons_append, lines_cons (Ne.symm hu.1), if_neg fun h => hhead h.2, hlines]
      exact ⟨w, others, rfl⟩

/-- Every text ends with what follows its last line feed. -/
theorem exists_last_line (u : List Char) :
    '\n' ∉ u ∨ ∃ v w, u = v ++ '\n' :: w ∧ '\n' ∉ w := by
  induction u with
  | nil => exact Or.inl List.not_mem_nil
  | cons c u ih =>
      rcases ih with hu | ⟨v, w, rfl, hw⟩
      · by_cases hc : c = '\n'
        · exact Or.inr ⟨[], u, by rw [hc, List.nil_append], hu⟩
        · exact Or.inl (by rw [List.mem_cons, not_or]; exact ⟨Ne.symm hc, hu⟩)
      · exact Or.inr ⟨c :: v, w, rfl, hw⟩

end Text

namespace Source

variable {c : Char} {u : List Char}

/-! ## Places -/

/-- A walk without a line feed goes one column on with every character. -/
theorem Location.column_foldl (p : Location) (h : '\n' ∉ u) :
    (u.foldl advance p).column = p.column + u.length := by
  induction u generalizing p with
  | nil => rfl
  | cons c u ih =>
      rw [List.mem_cons, not_or] at h
      rw [List.foldl_cons, ih _ h.2, advance, if_neg (Ne.symm h.1), List.length_cons]
      exact Nat.add_right_comm ..

/-- No walk leads further to the right than its characters do in one line. -/
theorem Location.column_foldl_le (p : Location) (hp : 1 ≤ p.column) (u : List Char) :
    (u.foldl advance p).column ≤ p.column + u.length := by
  induction u generalizing p with
  | nil => exact Nat.le_refl _
  | cons c u ih =>
      rw [List.foldl_cons, List.length_cons]
      by_cases hc : c = '\n'
      · have hfirst : (p.advance c).column = 1 := by rw [advance, if_pos hc]
        have hrest := ih (p.advance c) (Nat.le_of_eq hfirst.symm)
        omega
      · have hnext : (p.advance c).column = p.column + 1 := by rw [advance, if_neg hc]
        have hrest := ih (p.advance c) (by omega)
        omega

/-- The line of a place, as counted by a walk to it, holds the character there, in the column that the
    walk has come to. -/
theorem line_at (hc : c ≠ '\n') (hreturn : c ≠ '\r') (u v : List Char) :
    ∃ before w t after, Text.lines (u ++ c :: v) = before ++ (w ++ c :: t) :: after ∧
      (u.foldl Location.advance .start).line = before.length + 1 ∧
      (u.foldl Location.advance .start).column = w.length + 1 := by
  rcases Text.exists_last_line u with hu | ⟨x, w, rfl, hw⟩
  · obtain ⟨t, after, hlines⟩ := Text.exists_lines_cons hc hreturn hu v
    refine ⟨[], u, t, after, hlines, ?_, ?_⟩
    · rw [Location.line_foldl, List.count_eq_zero_of_not_mem hu]
      rfl
    · rw [Location.column_foldl _ hu]
      exact Nat.add_comm ..
  · obtain ⟨before, hlength, hbefore⟩ := Text.exists_lines_append x (w ++ c :: v)
    obtain ⟨t, after, hlines⟩ := Text.exists_lines_cons hc hreturn hw v
    refine ⟨before, w, t, after, ?_, ?_, ?_⟩
    · rw [List.append_assoc, List.cons_append, hbefore, hlines]
    · rw [Location.line_foldl, List.count_append, List.count_cons_self,
        List.count_eq_zero_of_not_mem hw, hlength]
      exact Nat.add_comm ..
    · rw [Location.foldl_after_lineFeed]
      show (w.foldl Location.advance .start).column = w.length + 1
      rw [Location.column_foldl _ hw]
      exact Nat.add_comm ..

end Source

end Formula
