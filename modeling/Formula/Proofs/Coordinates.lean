import Mathlib.Data.List.DropRight
import Mathlib.Data.Prod.Lex
import Mathlib.Order.Bounds.Basic
import Formula.Proofs.Boundaries
import Formula.Proofs.Location

/-!
# `Formula.Proofs.Coordinates` — line and column tell offsets apart

The search for an offset stops at the first boundary that is not before it, or at the end of the text.
What it has walked over up to there determines the place: the line counts the line feeds in it, and the
column the characters after the last of them. Each step of a walk leads to the next line or further to the
right, so places come in the order of their offsets, and no two boundaries share line and column.

## Contents
- **Walks.** `Location.column_foldl_start`; `Location.exists_seek_eq`, the walk that a search makes.
- **Order.** `Location.coordinates`, with `Location.coordinates_lt_advance` for a step and
  `Location.coordinates_lt_foldl` for a walk.
- **Main result.** `locate_exact_and_ordered`.
-/

namespace Formula.Source

open Text

variable {u v w : List Char} {source : String} {a b : Nat}

namespace Location

/-! ## Walks -/

/-- A walk from the start counts in its column the characters after the last line feed. -/
theorem column_foldl_start (u : List Char) :
    (u.foldl advance start).column = 1 + (u.rtakeWhile (· ≠ '\n')).length := by
  induction u using List.reverseRecOn with
  | nil => rfl
  | append_singleton u c ih =>
      rw [List.foldl_append, List.foldl_cons, List.foldl_nil, advance]
      by_cases hc : c = '\n'
      · rw [if_pos hc, List.rtakeWhile_concat_neg _ _ _ (by simpa using hc)]
        rfl
      · rw [if_neg hc, List.rtakeWhile_concat_pos _ _ _ (by simpa using hc), List.length_append]
        exact congrArg (· + 1) ih

/-- A search walks over the shortest beginning that reaches the offset, and over the whole text if none
    does. -/
theorem exists_seek_eq (p : Location) (offset : Nat) (s : List Char) :
    ∃ u v, s = u ++ v ∧ p.seek offset s = u.foldl advance p ∧
      min offset (p.offset + byteLength s) ≤ p.offset + byteLength u ∧
      ∀ x y, s = x ++ y → min offset (p.offset + byteLength s) ≤ p.offset + byteLength x →
        byteLength u ≤ byteLength x := by
  induction s generalizing p with
  | nil => exact ⟨[], [], rfl, rfl, Nat.min_le_right .., fun _ _ _ _ => Nat.zero_le _⟩
  | cons c s ih =>
      rw [seek]
      split
      · next hreached =>
          refine ⟨[], c :: s, rfl, rfl, Nat.le_trans (Nat.min_le_left ..) hreached, ?_⟩
          intro x y _ _
          exact Nat.zero_le _
      · next hahead =>
          obtain ⟨u, v, rfl, hseek, hle, hleast⟩ := ih (p.advance c)
          have hoffset : (p.advance c).offset = p.offset + c.utf8Size := by
            unfold advance
            split <;> rfl
          have hc := c.utf8Size_pos
          rw [hoffset, Nat.add_assoc, Nat.add_assoc] at hle
          refine ⟨c :: u, v, rfl, hseek, hle, ?_⟩
          intro x y hsplit hx
          rcases List.append_eq_cons_iff.1 hsplit.symm with ⟨rfl, -⟩ | ⟨x, rfl, hrest⟩
          · -- the first character lies before the offset, so nothing less than it reaches the offset
            rw [byteLength_nil, byteLength_cons] at hx
            omega
          · rw [byteLength_cons, byteLength_cons] at hx
            rw [byteLength_cons, byteLength_cons]
            refine Nat.add_le_add_left (hleast x y hrest ?_) _
            rwa [hoffset, Nat.add_assoc, Nat.add_assoc]

/-! ## Order -/

/-- Line and column; the line comes first. -/
def coordinates (p : Location) : ℕ ×ₗ ℕ := toLex (p.line, p.column)

/-- One step leads to the next line or further to the right. -/
theorem coordinates_lt_advance (p : Location) (c : Char) : p.coordinates < (p.advance c).coordinates := by
  unfold coordinates advance
  rw [Prod.Lex.toLex_lt_toLex]
  split
  · exact Or.inl (Nat.lt_succ_self p.line)
  · exact Or.inr ⟨rfl, Nat.lt_succ_self p.column⟩

/-- So does a walk of at least one step. -/
theorem coordinates_lt_foldl (p : Location) (h : w ≠ []) :
    p.coordinates < (w.foldl advance p).coordinates := by
  induction w generalizing p with
  | nil => exact absurd rfl h
  | cons c w ih =>
      have hstep := coordinates_lt_advance p c
      by_cases hw : w = []
      · subst hw
        exact hstep
      · exact lt_trans hstep (ih (p.advance c) hw)

end Location

/-- Of two boundaries, the later has the later line and column. -/
theorem coordinates_lt_of_lt (ha : isBoundary source.toList a) (hb : isBoundary source.toList b)
    (h : a < b) : (locate source a).coordinates < (locate source b).coordinates := by
  obtain ⟨u, v, hsource, rfl⟩ := isBoundary_iff.1 ha
  obtain ⟨x, y, hsource', rfl⟩ := isBoundary_iff.1 hb
  obtain ⟨w, rfl⟩ := prefix_of_byteLength_le (hsource.symm.trans hsource') (Nat.le_of_lt h)
  have hw : w ≠ [] := by
    rintro rfl
    rw [List.append_nil] at h
    exact absurd h (Nat.lt_irrefl _)
  rw [locate_append hsource, locate_append hsource', List.foldl_append]
  exact Location.coordinates_lt_foldl _ hw

/-! ## Main result -/

/-- The place of any offset, also of one inside a character or past the end, is that of the first boundary
    that is not before it, or of the end. Its line counts the line feeds before this boundary, and its
    column the characters after the last of them. Places come in the order of their boundaries, by line
    first and then by column, so that line and column tell any two boundaries apart. -/
theorem locate_exact_and_ordered (source : String) :
    (∀ offset, ∃ before after, source.toList = before ++ after ∧
      IsLeast {m | isBoundary source.toList m ∧ min offset (byteLength source.toList) ≤ m}
        (byteLength before) ∧
      locate source offset = ⟨1 + before.count '\n', 1 + (before.rtakeWhile (· ≠ '\n')).length,
        byteLength before⟩) ∧
    StrictMonoOn (fun m => (locate source m).coordinates) {m | isBoundary source.toList m} ∧
    Set.InjOn (fun m => (locate source m).coordinates) {m | isBoundary source.toList m} := by
  have hmono : StrictMonoOn (fun m => (locate source m).coordinates) {m | isBoundary source.toList m} := by
    intro a ha b hb hlt
    exact coordinates_lt_of_lt ha hb hlt
  refine ⟨?_, hmono, hmono.injOn⟩
  intro offset
  obtain ⟨u, v, hsource, hseek, hle, hleast⟩ := Location.exists_seek_eq .start offset source.toList
  have hstart : Location.start.offset = 0 := rfl
  simp only [hstart, Nat.zero_add] at hle hleast
  refine ⟨u, v, hsource, ⟨⟨isBoundary_iff.2 ⟨u, v, hsource, rfl⟩, hle⟩, ?_⟩, ?_⟩
  · rintro m ⟨hm, hreaches⟩
    obtain ⟨x, y, hsplit, rfl⟩ := isBoundary_iff.1 hm
    exact hleast x y hsplit hreaches
  · have hline := Location.line_foldl .start u
    have hcolumn := Location.column_foldl_start u
    have hoffset := Location.offset_foldl .start u
    rw [hstart, Nat.zero_add] at hoffset
    rw [locate, hseek, ← hcolumn, ← hoffset]
    exact congrArg (fun n => Location.mk n _ _) hline

example : locate "a\r\n∑x" 4 = ⟨2, 2, 6⟩ := by decide

end Formula.Source
