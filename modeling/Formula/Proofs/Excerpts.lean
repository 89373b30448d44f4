import Mathlib.Data.List.Intervals
import Mathlib.Data.Nat.Digits.Lemmas
import Formula.Proofs.Splitting
import Formula.Source.Excerpt

/-!
# `Formula.Proofs.Excerpts` — the shape of an excerpt

An excerpt shows a line of a source, up to two lines before it and up to two after it, in their order. Each
line stands in a row after its number, and the numbers take up the same room, which is that of the last of
them, as no number before it has more digits. Directly below the line in question, and nowhere else, there
is a row with a caret. There is no excerpt only where there is no such line. The column of the caret need not
lie in the line; one that is too far out is refused, as memory does not hold the blanks before it.

## Contents
- **Numbers.** `length_toString`, `length_toString_mono`, `not_mem_toString`.
- **Rows.** `numberedRows`, `excerptRows_append`; `not_mem_of_mem_excerptRows`.
- **Numbers in rows.** `numberColumn`, `rowOf`, with `numberedRows_eq_map` and `excerptRows_of_line`.
- **Excerpts.** `excerpt_eq_none_iff`, `excerptAt_eq`, `excerptAt_eq_none_iff`, and `excerpt_shape`;
  `no_room_for_caret`, a column that is too far out.
-/

namespace Formula.Source

variable {source : String} {width number line column first : Nat}
variable {text row : List Char} {before after ls rows : List (List Char)}

/-! ## Numbers -/

/-- A number is written with as many characters as it has digits. -/
theorem length_toString {n : Nat} (h : 0 < n) : (toString n).length = (Nat.digits 10 n).length := by
  have hrepr : 0 < (Nat.repr n).length := Nat.length_repr_pos
  have hdigits : 0 < (Nat.digits 10 n).length :=
    List.length_pos_iff.2 (Nat.digits_ne_nil_iff_ne_zero.2 (Nat.pos_iff_ne_zero.1 h))
  apply Nat.le_antisymm
  · exact (Nat.length_repr_le_iff hdigits).2 ((Nat.digits_length_le_iff (by decide) n).1 (Nat.le_refl _))
  · exact (Nat.digits_length_le_iff (by decide) n).2 ((Nat.length_repr_le_iff hrepr).1 (Nat.le_refl _))

/-- A larger number has no fewer digits. -/
theorem length_toString_mono {m n : Nat} (h : m ≤ n) : (toString m).length ≤ (toString n).length := by
  have hpos : 0 < (Nat.repr n).length := Nat.length_repr_pos
  have hn : n < 10 ^ (Nat.repr n).length := (Nat.length_repr_le_iff hpos).1 (Nat.le_refl _)
  exact (Nat.length_repr_le_iff hpos).2 (Nat.lt_of_le_of_lt h hn)

/-- A number has digits only, so no line feed. -/
theorem not_mem_toString (n : Nat) : '\n' ∉ (toString n).toList := by
  intro h
  rw [Nat.toString_eq_ofList_toDigits, String.toList_ofList] at h
  exact absurd (Nat.isDigit_of_mem_toDigits (by decide) (by decide) h) (by decide)

/-! ## Rows -/

/-- Lines in rows, numbered from the first number on. -/
def numberedRows (width first : Nat) (ls : List (List Char)) : List (List Char) :=
  (ls.zipIdx first).map fun (text, number) => lineRow width number text

/-- The row of a line, followed by the caret if it is the line in question. -/
def rowsAt (width line column : Nat) : List Char × Nat → List (List Char) :=
  fun (text, number) =>
    if number = line then [lineRow width number text, caretRow width column]
    else [lineRow width number text]

/-- Away from the line in question there is one row for each line. -/
theorem flatMap_rowsAt (h : line < first ∨ first + ls.length ≤ line) :
    (ls.zipIdx first).flatMap (rowsAt width line column) = numberedRows width first ls := by
  induction ls generalizing first with
  | nil => rfl
  | cons text ls ih =>
      have hne : first ≠ line := by
        rw [List.length_cons] at h
        omega
      have hrest : line < first + 1 ∨ first + 1 + ls.length ≤ line := by
        rw [List.length_cons] at h
        omega
      rw [List.zipIdx_cons, List.flatMap_cons, ih hrest, rowsAt, if_neg hne]
      rfl

/-- The lines shown are the last two before the line in question, the line itself, and the first two
    after it. -/
theorem take_drop_around (before after : List (List Char)) (text : List Char) :
    ((before ++ text :: after).drop (before.length - contextLines)).take
        (before.length + 1 + min after.length contextLines - (before.length - contextLines)) =
      before.drop (before.length - contextLines) ++ text :: after.take contextLines := by
  have hcount : before.length + 1 + min after.length contextLines - (before.length - contextLines) =
      (before.drop (before.length - contextLines)).length + (min contextLines after.length + 1) := by
    rw [List.length_drop, Nat.min_comm]
    omega
  rw [List.drop_append_of_le_length (Nat.sub_le ..), hcount, List.take_length_add_append,
    List.take_succ_cons, ← List.take_eq_take_min]

/-- An excerpt has a row for each of them, a row with the caret below the line in question, and a
    separator above and below. -/
theorem excerptRows_append (before after : List (List Char)) (text : List Char) (column : Nat)
    (hwidth : width = (toString (before.length + 1 + min after.length contextLines)).length) :
    excerptRows (before ++ text :: after) (before.length + 1) column =
      some ([separatorRow width] ++
        (numberedRows width (before.length - contextLines + 1)
            (before.drop (before.length - contextLines)) ++
          ([lineRow width (before.length + 1) text, caretRow width column] ++
            numberedRows width (before.length + 2) (after.take contextLines))) ++
        [separatorRow width]) := by
  have hlength : (before ++ text :: after).length = before.length + 1 + after.length := by
    rw [List.length_append, List.length_cons, ← Nat.add_assoc, Nat.add_right_comm]
  have hfirst : max 1 (before.length + 1 - contextLines) = before.length - contextLines + 1 := by
    unfold contextLines
    omega
  have hlast : min (before ++ text :: after).length (before.length + 1 + contextLines) =
      before.length + 1 + min after.length contextLines := by
    rw [hlength]
    exact Nat.add_min_add_left ..
  have hmiddle : before.length - contextLines + 1 +
      (before.drop (before.length - contextLines)).length = before.length + 1 := by
    rw [List.length_drop]
    omega
  have hline : rowsAt width (before.length + 1) column (text, before.length + 1) =
      [lineRow width (before.length + 1) text, caretRow width column] := if_pos rfl
  -- the line in question is the only one that the caret goes with
  have hrows : ((before.drop (before.length - contextLines) ++ text :: after.take contextLines).zipIdx
      (before.length - contextLines + 1)).flatMap (rowsAt width (before.length + 1) column) =
        numberedRows width (before.length - contextLines + 1)
            (before.drop (before.length - contextLines)) ++
          ([lineRow width (before.length + 1) text, caretRow width column] ++
            numberedRows width (before.length + 2) (after.take contextLines)) := by
    rw [List.zipIdx_append, List.flatMap_append, flatMap_rowsAt (Or.inr (Nat.le_of_eq hmiddle)),
      hmiddle, List.zipIdx_cons, List.flatMap_cons, hline,
      flatMap_rowsAt (Or.inl (Nat.lt_succ_self _))]
  rw [excerptRows, if_neg (by rw [hlength]; omega)]
  simp only [hfirst, hlast, ← hwidth, Nat.add_sub_cancel, Nat.add_sub_add_right, take_drop_around]
  rw [← hrows]
  rfl

theorem not_mem_separatorRow : '\n' ∉ separatorRow width := by
  unfold separatorRow
  simp

theorem not_mem_caretRow : '\n' ∉ caretRow width column := by
  unfold caretRow
  simp

theorem not_mem_lineRow (h : '\n' ∉ text) : '\n' ∉ lineRow width number text := by
  unfold lineRow List.leftpad
  simp only [List.mem_append, not_or]
  exact ⟨⟨⟨by simp, not_mem_toString number⟩, by decide⟩, h⟩

/-- No row has a line feed in it, as no line has. -/
theorem not_mem_of_mem_excerptRows (h : excerptRows ls line column = some rows)
    (hls : ∀ text ∈ ls, '\n' ∉ text) (hrow : row ∈ rows) : '\n' ∉ row := by
  unfold excerptRows at h
  split at h
  · cases h
  · obtain rfl := Option.some.inj h
    simp only [List.mem_append, List.mem_singleton] at hrow
    rcases hrow with (rfl | hrow) | rfl
    · exact not_mem_separatorRow
    · obtain ⟨⟨text, number⟩, hmem, hrow⟩ := List.mem_flatMap.1 hrow
      have htext : '\n' ∉ text :=
        hls text (List.mem_of_mem_drop (List.mem_of_mem_take (List.fst_mem_of_mem_zipIdx hmem)))
      dsimp only at hrow
      split at hrow
      · rw [List.mem_pair] at hrow
        rcases hrow with hrow | hrow
        · rw [hrow]
          exact not_mem_lineRow htext
        · rw [hrow]
          exact not_mem_caretRow
      · rw [List.mem_singleton] at hrow
        rw [hrow]
        exact not_mem_lineRow htext
    · exact not_mem_separatorRow

/-! ## Numbers in rows -/

/-- A number at the right edge of a column of some width. -/
def numberColumn (width number : Nat) : List Char :=
  List.replicate (width - (toString number).length) ' ' ++ (toString number).toList

/-- The row of one of these lines: its number, a bar, and the line as it is. Lines are counted from one. -/
def rowOf (ls : List (List Char)) (width number : Nat) : List Char :=
  numberColumn width number ++ [' ', '|', ' '] ++ ls.getD (number - 1) []

/-- A column is as wide as it should be, if the digits fit into it. -/
theorem length_numberColumn (h : (toString number).length ≤ width) :
    (numberColumn width number).length = width := by
  rw [numberColumn, List.length_append, List.length_replicate, String.length_toList]
  exact Nat.sub_add_cancel h

theorem lineRow_eq_rowOf (h : ls.getD (number - 1) [] = text) :
    lineRow width number text = rowOf ls width number := by
  rw [rowOf, h, lineRow, numberColumn, List.leftpad, String.length_toList]

/-- Lines that follow each other are shown in the rows of their numbers. -/
theorem numberedRows_eq_map (width : Nat) (before shown after : List (List Char)) :
    numberedRows width (before.length + 1) shown =
      (List.Ico (before.length + 1) (before.length + 1 + shown.length)).map
        (rowOf (before ++ (shown ++ after)) width) := by
  induction shown generalizing before with
  | nil => simp [numberedRows]
  | cons text shown ih =>
      have hrest := ih (before ++ [text])
      rw [List.length_append, List.length_singleton, List.append_assoc] at hrest
      have hfirst : (before ++ (text :: shown ++ after)).getD (before.length + 1 - 1) [] = text := by
        simp
      have hlast : before.length + 1 + (text :: shown).length = before.length + 1 + 1 + shown.length := by
        rw [List.length_cons]
        omega
      rw [hlast, List.Ico.eq_cons (by omega), List.map_cons, ← lineRow_eq_rowOf hfirst]
      show lineRow width (before.length + 1) text :: numberedRows width (before.length + 1 + 1) shown = _
      rw [hrest]
      rfl

/-- The line in question is shown after the lines before it. -/
theorem numberedRows_concat (width first : Nat) (ls : List (List Char)) (text : List Char) :
    numberedRows width first (ls ++ [text]) =
      numberedRows width first ls ++ [lineRow width (first + ls.length) text] := by
  rw [numberedRows, List.zipIdx_append, List.map_append]
  rfl

/-- The rows of an excerpt are those of the numbers of its lines, with the row of the caret below that of
    the line in question. -/
theorem excerptRows_eq_map (before after : List (List Char)) (text : List Char) (column : Nat)
    (hls : ls = before ++ text :: after)
    (hwidth : width = (toString (before.length + 1 + min after.length contextLines)).length) :
    excerptRows ls (before.length + 1) column =
      some ([separatorRow width] ++
        (List.Ico (before.length - contextLines + 1) (before.length + 2)).map (rowOf ls width) ++
        [caretRow width column] ++
        (List.Ico (before.length + 2) (before.length + 2 + min after.length contextLines)).map
          (rowOf ls width) ++
        [separatorRow width]) := by
  have habove := numberedRows_eq_map width (before.take (before.length - contextLines))
    (before.drop (before.length - contextLines) ++ [text]) after
  have hbelow := numberedRows_eq_map width (before ++ [text]) (after.take contextLines)
    (after.drop contextLines)
  have hfirst : (before.take (before.length - contextLines)).length = before.length - contextLines :=
    List.length_take_of_le (Nat.sub_le ..)
  have hcount : before.length - contextLines + 1 +
      (before.drop (before.length - contextLines) ++ [text]).length = before.length + 2 := by
    rw [List.length_append, List.length_drop, List.length_singleton]
    omega
  have hline : before.length - contextLines + 1 +
      (before.drop (before.length - contextLines)).length = before.length + 1 := by
    rw [List.length_drop]
    omega
  rw [hfirst, hcount, numberedRows_concat, hline, List.append_assoc, ← List.append_assoc (before.take _),
    List.take_append_drop, List.singleton_append, ← hls] at habove
  rw [List.length_append, List.length_singleton, List.length_take, List.take_append_drop, List.append_assoc,
    List.singleton_append, ← hls, Nat.min_comm] at hbelow
  rw [← habove, ← hbelow, hls, excerptRows_append before after text column hwidth]
  simp

/-- A line that there is has a place among the lines. -/
theorem exists_line (hpos : 1 ≤ line) (hle : line ≤ ls.length) :
    ∃ before text after, ls = before ++ text :: after ∧ before.length + 1 = line := by
  have hlt : line - 1 < ls.length := by omega
  refine ⟨ls.take (line - 1), ls[line - 1], ls.drop (line - 1 + 1), ?_, ?_⟩
  · rw [← List.drop_eq_getElem_cons hlt, List.take_append_drop]
  · rw [List.length_take_of_le (Nat.le_of_lt hlt)]
    exact Nat.sub_add_cancel hpos

/-- The rows of an excerpt, by the numbers of the first and of the last line that it shows. -/
theorem excerptRows_of_line {last : Nat} (column : Nat) (hpos : 1 ≤ line) (hle : line ≤ ls.length)
    (hfirst : first = max 1 (line - 2)) (hlast : last = min ls.length (line + 2))
    (hwidth : width = (Nat.digits 10 last).length) :
    excerptRows ls line column =
      some ([separatorRow width] ++ (List.Ico first (line + 1)).map (rowOf ls width) ++
        [caretRow width column] ++ (List.Ico (line + 1) (last + 1)).map (rowOf ls width) ++
        [separatorRow width]) := by
  obtain ⟨before, text, after, hls, rfl⟩ := exists_line hpos hle
  have hend : last = before.length + 1 + min after.length contextLines := by
    rw [hlast, hls, List.length_append, List.length_cons, contextLines]
    omega
  have hbegin : first = before.length - contextLines + 1 := by
    rw [hfirst, contextLines]
    omega
  have hdigits : width = (toString (before.length + 1 + min after.length contextLines)).length := by
    rw [← hend, hwidth, length_toString (by omega)]
  have hcount : last + 1 = before.length + 2 + min after.length contextLines := by omega
  rw [excerptRows_eq_map before after text column hls hdigits, hbegin, hcount]

/-! ## Excerpts -/

/-- There is no excerpt exactly where there is no such line. -/
theorem excerpt_eq_none_iff :
    excerpt source line column = none ↔ line = 0 ∨ (Text.lines source.toList).length < line := by
  rw [excerpt, Option.map_eq_none_iff, excerptRows]
  split
  · next hline => simp [hline]
  · next hline => simp [hline]

/-- An excerpt is refused only where its caret needs more room than there is. -/
theorem excerptAt_eq (source : String) (line column : Nat) :
    excerptAt source line column =
      if 1 ≤ line ∧ line ≤ (Text.lines source.toList).length ∧ blockLimit < column - 1 then
        .error ⟨column - 1⟩
      else .ok (excerpt source line column) := by
  unfold excerptAt requireRoom
  split
  · next hline =>
      rw [if_neg (by omega), excerpt_eq_none_iff.2 hline]
  · next hline =>
      rw [Nat.mul_one]
      split
      · next hfits =>
          rw [if_neg (by omega)]
          rfl
      · next hlarge =>
          rw [if_pos (by omega)]
          rfl

/-- Whatever the column, there is no excerpt exactly where there is no such line. -/
theorem excerptAt_eq_none_iff :
    excerptAt source line column = .ok none ↔ line = 0 ∨ (Text.lines source.toList).length < line := by
  rw [excerptAt_eq]
  split
  · next hlarge =>
      constructor
      · intro hnone
        cases hnone
      · intro hline
        omega
  · rw [Except.ok.injEq, excerpt_eq_none_iff]

/-- If there is room for the blanks before a caret, there is an excerpt or no such line. -/
theorem excerptAt_eq_excerpt (h : column - 1 ≤ blockLimit) :
    excerptAt source line column = .ok (excerpt source line column) := by
  rw [excerptAt_eq, if_neg (by omega)]

/-- There is no excerpt exactly where there is no such line. Where there is one, the excerpt is had exactly
    if memory holds the blanks before its caret. It shows the lines from the second before the line in
    question to the second after it, as far as there are such lines, between two equal separators. Each is
    shown unchanged after its number, in a column as wide as the last number; the row with the caret follows
    the line in question and no other; and every row, itself without a line feed, ends with one. -/
theorem excerpt_shape (source : String) (line column : Nat) :
    (excerptAt source line column = .ok none ↔ line = 0 ∨ (Text.lines source.toList).length < line) ∧
    (1 ≤ line → line ≤ (Text.lines source.toList).length → column - 1 ≤ blockLimit →
      ∃ first last width rows, first = max 1 (line - 2) ∧
        last = min (Text.lines source.toList).length (line + 2) ∧
        width = (Nat.digits 10 last).length ∧
        rows = [List.replicate (width + 1) '-' ++ ['|', '-', '-']] ++
          (List.Ico first (line + 1)).map (rowOf (Text.lines source.toList) width) ++
          [List.replicate width ' ' ++ [' ', '|', ' '] ++ List.replicate (column - 1) ' ' ++ ['^']] ++
          (List.Ico (line + 1) (last + 1)).map (rowOf (Text.lines source.toList) width) ++
          [List.replicate (width + 1) '-' ++ ['|', '-', '-']] ∧
        excerptAt source line column =
          .ok (some (String.ofList (rows.flatMap fun row => row ++ ['\n']))) ∧
        (∀ row ∈ rows, '\n' ∉ row) ∧
        ∀ number, first ≤ number → number ≤ last → (numberColumn width number).length = width) ∧
    (1 ≤ line → line ≤ (Text.lines source.toList).length → blockLimit < column - 1 →
      excerptAt source line column = .error ⟨column - 1⟩) := by
  refine ⟨excerptAt_eq_none_iff, ?_, ?_⟩
  · intro hpos hle hroom
    have hrows := excerptRows_of_line column hpos hle rfl rfl rfl
    refine ⟨_, _, _, _, rfl, rfl, rfl, rfl, ?_, ?_, ?_⟩
    · rw [excerptAt_eq_excerpt hroom, excerpt, hrows]
      rfl
    · intro row hrow
      exact not_mem_of_mem_excerptRows hrows (fun _ => Text.not_mem_of_mem_lines) hrow
    · intro number _ hnumber
      apply length_numberColumn
      rw [← length_toString (by omega)]
      exact length_toString_mono hnumber
  · intro hpos hle hlarge
    rw [excerptAt_eq, if_pos ⟨hpos, hle, hlarge⟩]

/-- The numbers of the lines shown go over from one digit to two, and take up the same room. -/
theorem excerpt_over_ten :
    1 ≤ 9 ∧ 9 ≤ (Text.lines "a\nb\nc\nd\ne\nf\ng\nh\r\ni&\nj\nk\n".toList).length ∧
      2 - 1 ≤ blockLimit ∧
      excerptAt "a\nb\nc\nd\ne\nf\ng\nh\r\ni&\nj\nk\n" 9 2 =
        .ok (some "---|--\n 7 | g\n 8 | h\n 9 | i&\n   |  ^\n10 | j\n11 | k\n---|--\n") ∧
      (numberColumn 2 9).length = 2 ∧ (numberColumn 2 10).length = 2 := by
  have hle : 9 ≤ (Text.lines "a\nb\nc\nd\ne\nf\ng\nh\r\ni&\nj\nk\n".toList).length := by decide
  have hroom : 2 - 1 ≤ blockLimit := by decide
  obtain ⟨-, hshape, -⟩ := excerpt_shape "a\nb\nc\nd\ne\nf\ng\nh\r\ni&\nj\nk\n" 9 2
  obtain ⟨first, last, width, rows, rfl, hlast, hwidth, hrows, hexcerpt, -, hcolumns⟩ :=
    hshape (by decide) hle hroom
  have hlast : last = 11 := hlast
  subst hlast
  have hwidth : width = 2 := by
    rw [hwidth]
    decide
  subst hwidth
  refine ⟨by decide, hle, hroom, ?_, hcolumns 9 (by decide) (by decide),
    hcolumns 10 (by decide) (by decide)⟩
  rw [hexcerpt, hrows]
  decide

/-- Below the one line of a source, in the last column that a word of 64 bits can count, no caret can be
    put: the blanks before it need more room than there is. -/
theorem no_room_for_caret :
    (Text.lines "a".toList).length = 1 ∧ excerptAt "a" 1 (2 ^ 64 - 1) = .error ⟨2 ^ 64 - 2⟩ := by
  have hcount : (Text.lines "a".toList).length = 1 := by decide
  have hlarge : blockLimit < 2 ^ 64 - 1 - 1 := by decide
  refine ⟨hcount, ?_⟩
  rw [excerptAt_eq, if_pos ⟨Nat.le_refl 1, Nat.le_of_eq hcount.symm, hlarge⟩, Nat.sub_sub]

end Formula.Source
