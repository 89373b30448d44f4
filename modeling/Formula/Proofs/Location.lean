import Formula.Source.Location

/-!
# `Formula.Proofs.Location` — the place of an offset between two characters

## Contents
- **Walks.** `Location.seek_append`: the search stops where the first part of the text ends;
  `Location.offset_foldl`, `Location.line_foldl`; `Location.foldl_after_lineFeed`.
- **Places.** `locate_append`, `locate_append_offset`.
-/

namespace Formula.Source

open Text

variable {u v : List Char}

namespace Location

/-! ## Walks -/

/-- The search for the end of a first part walks over exactly that part. -/
theorem seek_append (p : Location) (u v : List Char) :
    p.seek (p.offset + byteLength u) (u ++ v) = u.foldl advance p := by
  induction u generalizing p with
  | nil =>
      cases v with
      | nil => rfl
      | cons c v => simp [seek]
  | cons c u ih =>
      have hc := c.utf8Size_pos
      have hlt : ¬ p.offset + (c.utf8Size + byteLength u) ≤ p.offset := by omega
      have hoffset : (p.advance c).offset = p.offset + c.utf8Size := by
        unfold advance
        split <;> rfl
      rw [List.cons_append, byteLength_cons, seek, if_neg hlt, ← Nat.add_assoc, ← hoffset]
      exact ih (p.advance c)

/-- A walk adds the bytes that it passes. -/
theorem offset_foldl (p : Location) (u : List Char) :
    (u.foldl advance p).offset = p.offset + byteLength u := by
  induction u generalizing p with
  | nil => rfl
  | cons c u ih =>
      rw [List.foldl_cons, ih, byteLength_cons]
      unfold advance
      split
      · exact Nat.add_assoc ..
      · exact Nat.add_assoc ..

/-- A walk counts the line feeds that it passes. -/
theorem line_foldl (p : Location) (u : List Char) :
    (u.foldl advance p).line = p.line + u.count '\n' := by
  induction u generalizing p with
  | nil => rfl
  | cons c u ih =>
      rw [List.foldl_cons, ih, List.count_cons]
      unfold advance
      split
      · next hc =>
          simp only [hc, beq_self_eq_true, if_true]
          omega
      · next hc => simp [hc]

/-- A place further down the same text. -/
def shift (p : Location) (lines bytes : Nat) : Location :=
  ⟨p.line + lines, p.column, p.offset + bytes⟩

theorem advance_shift (p : Location) (lines bytes : Nat) (c : Char) :
    (p.shift lines bytes).advance c = (p.advance c).shift lines bytes := by
  unfold advance shift
  split
  · rw [Nat.add_right_comm p.line, Nat.add_right_comm p.offset]
  · rw [Nat.add_right_comm p.offset]

/-- A walk that starts further down ends as much further down. -/
theorem foldl_shift (p : Location) (lines bytes : Nat) (u : List Char) :
    u.foldl advance (p.shift lines bytes) = (u.foldl advance p).shift lines bytes := by
  induction u generalizing p with
  | nil => rfl
  | cons c u ih => rw [List.foldl_cons, advance_shift, ih, List.foldl_cons]

/-- After a line feed, a walk goes as it would from the start, further down. -/
theorem foldl_after_lineFeed (u v : List Char) :
    (u ++ '\n' :: v).foldl advance start =
      (v.foldl advance start).shift (1 + u.count '\n') (byteLength u + 1) := by
  have hline := line_foldl start u
  have hoffset := offset_foldl start u
  have hstart : (u.foldl advance start).advance '\n' =
      start.shift (1 + u.count '\n') (byteLength u + 1) := by
    rw [advance, if_pos rfl, hline, hoffset]
    simp only [start, shift]
    rw [Nat.add_assoc 1, Nat.add_comm (u.count '\n'), Nat.add_assoc 0]
    rfl
  rw [List.foldl_append, List.foldl_cons, hstart, foldl_shift]

end Location

/-! ## Places -/

/-- The place between two parts of a source is reached by a walk over the first part. -/
theorem locate_append {source : String} (h : source.toList = u ++ v) :
    locate source (byteLength u) = u.foldl Location.advance .start := by
  have hseek := Location.seek_append .start u v
  rw [show Location.start.offset + byteLength u = byteLength u from Nat.zero_add _] at hseek
  rw [locate, h, hseek]

/-- Its offset is the one that was asked for. -/
theorem locate_append_offset {source : String} (h : source.toList = u ++ v) :
    (locate source (byteLength u)).offset = byteLength u := by
  rw [locate_append h, Location.offset_foldl]
  exact Nat.zero_add _

end Formula.Source
