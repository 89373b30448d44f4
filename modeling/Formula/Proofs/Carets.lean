import Formula.Proofs.Acceptance
import Formula.Proofs.Excerpts
import Formula.Proofs.Lines

/-!
# `Formula.Proofs.Carets` — the caret below the character that is rejected

An excerpt shows the lines around a line and a caret below a column of it. The numbers before the lines
and the blanks before the caret take up the same room, as the last number shown is the widest. An error
is found at a character that breaks no line, so its line and column are the line that holds this
character and its place there, and the caret stands below it.

## Contents
- **Carets.** `CaretBelow`, `length_mark`; `excerpt_append`.
- **Errors.** `Lexer.error_place`, `Lexer.caret_below_rejected_character`.
-/

namespace Formula.Source

variable {width number column : Nat} {before after : List (List Char)}

/-! ## Carets -/

/-- In a text, the row of a line, its number before it, is directly followed by a row with one caret. The
    caret is as far from the left as a character of the line is in the row above: the one in a column. -/
def CaretBelow (out : String) (number column : Nat) (line : List Char) (c : Char) : Prop :=
  ∃ above label mark below,
    out.toList =
      (above ++ (label ++ line) :: (mark ++ ['^']) :: below).flatMap (fun row => row ++ ['\n']) ∧
    (∀ row ∈ above ++ (label ++ line) :: (mark ++ ['^']) :: below, '\n' ∉ row) ∧
    (∃ blanks, label = List.replicate blanks ' ' ++ (toString number).toList ++ [' ', '|', ' ']) ∧
    '^' ∉ mark ∧ mark.length = label.length + (column - 1) ∧ (label ++ line)[mark.length]? = some c

/-- What stands before a line. -/
def label (width number : Nat) : List Char :=
  (toString number).toList.leftpad width ' ' ++ [' ', '|', ' ']

/-- What stands before a caret. -/
def mark (width column : Nat) : List Char :=
  List.replicate width ' ' ++ [' ', '|', ' '] ++ List.replicate (column - 1) ' '

/-- A caret is as far from the left as the column that it marks. -/
theorem length_mark (h : (toString number).length ≤ width) :
    (mark width column).length = (label width number).length + (column - 1) := by
  unfold mark label
  rw [List.length_append, List.length_append, List.length_append, List.length_leftpad,
    String.length_toList, Nat.max_eq_left h, List.length_replicate, List.length_replicate]

theorem not_mem_mark : '^' ∉ mark width column := by
  unfold mark
  simp

/-- The excerpt around a character of a source has the caret below it. -/
theorem excerpt_append {source : String} {c : Char} {w t : List Char}
    (h : Text.lines source.toList = before ++ (w ++ c :: t) :: after) :
    ∃ out, excerpt source (before.length + 1) (w.length + 1) = some out ∧
      CaretBelow out (before.length + 1) (w.length + 1) (w ++ c :: t) c := by
  obtain ⟨width, hwidth⟩ :
      ∃ width, width = (toString (before.length + 1 + min after.length contextLines)).length :=
    ⟨_, rfl⟩
  -- the number of the line is no wider than that of the last line shown
  have hfits : (toString (before.length + 1)).length ≤ width := by
    rw [hwidth]
    exact length_toString_mono (Nat.le_add_right ..)
  have hlength : (mark width (w.length + 1)).length =
      (label width (before.length + 1)).length + w.length :=
    length_mark hfits
  obtain ⟨above, below, hrows⟩ : ∃ above below,
      excerptRows (Text.lines source.toList) (before.length + 1) (w.length + 1) =
        some (above ++ (label width (before.length + 1) ++ (w ++ c :: t)) ::
          (mark width (w.length + 1) ++ ['^']) :: below) := by
    refine ⟨separatorRow width :: numberedRows width (before.length - contextLines + 1)
        (before.drop (before.length - contextLines)),
      numberedRows width (before.length + 2) (after.take contextLines) ++ [separatorRow width], ?_⟩
    rw [h, excerptRows_append before after (w ++ c :: t) (w.length + 1) hwidth]
    simp [lineRow, caretRow, label, mark]
  refine ⟨_, by rw [excerpt, hrows]; rfl, above, label width (before.length + 1),
    mark width (w.length + 1), below, String.toList_ofList, ?_, ⟨_, rfl⟩, not_mem_mark, hlength, ?_⟩
  · intro row hrow
    exact not_mem_of_mem_excerptRows hrows (fun _ => Text.not_mem_of_mem_lines) hrow
  · rw [hlength, List.getElem?_append_right (Nat.le_add_right ..), Nat.add_sub_cancel_left,
      List.getElem?_append_right (Nat.le_refl _), Nat.sub_self]
    rfl

example : excerpt "a\n&\n" 2 1 = some "--|--\n1 | a\n2 | &\n  | ^\n--|--\n" := by decide +kernel

end Formula.Source

namespace Formula.Lexer

open Text

/-! ## Errors -/

variable {source : String} {e : LexError}

/-- An error is found at a character that breaks no line. -/
theorem error_place (h : tokenize source = .error e) :
    ∃ u c v, source.toList = u ++ c :: v ∧ c ≠ '\n' ∧ c ≠ '\r' ∧ e.found = some c ∧
      e.location = u.foldl Source.Location.advance .start := by
  obtain ⟨gs, gap, rest, hlexes⟩ := exists_lexes none source.toList
  obtain ⟨c, v, rfl, rfl⟩ := rest_of_error hlexes h
  have hbreak : ∀ x, x = '\n' ∨ x = '\r' → c ≠ x := by
    rintro x hx rfl
    rcases of_lexes_cons hlexes c v rfl with hforeign | ⟨rfl, -⟩
    · refine hforeign (admissible_of_symbol ?_)
      rcases hx with rfl | rfl
      all_goals decide
    · revert hx
      decide
  refine ⟨layout gs ++ gap, c, v, ?_, hbreak _ (Or.inl rfl), hbreak _ (Or.inr rfl), rfl, rfl⟩
  rw [List.append_assoc, hlexes.layout_eq]

/-- The excerpt around an error has its caret below the character that is rejected: the line of the error
    is the line of the source that holds this character, in the column of the error, and the caret stands
    below it, in the row directly below the row of this line. No caret needs more room than the source. -/
theorem caret_below_rejected_character (source : String) (e : LexError)
    (h : tokenize source = .error e) :
    ∃ c text out, e.found = some c ∧ 1 ≤ e.location.line ∧ 1 ≤ e.location.column ∧
      (lines source.toList)[e.location.line - 1]? = some text ∧
      text[e.location.column - 1]? = some c ∧
      Source.excerpt source e.location.line e.location.column = some out ∧
      Source.CaretBelow out e.location.line e.location.column text c ∧
      (byteLength source.toList ≤ blockLimit →
        Source.excerptAt source e.location.line e.location.column = .ok (some out)) := by
  obtain ⟨u, c, v, hsource, hfeed, hreturn, hfound, hlocation⟩ := error_place h
  obtain ⟨before, w, t, after, hlines, hline, hcolumn⟩ := Source.line_at hfeed hreturn u v
  rw [← hsource] at hlines
  rw [← hlocation] at hline hcolumn
  obtain ⟨out, hout, hcaret⟩ := Source.excerpt_append hlines
  rw [← hline, ← hcolumn] at hout hcaret
  refine ⟨c, w ++ c :: t, out, hfound, ?_, ?_, ?_, ?_, hout, hcaret, ?_⟩
  · rw [hline]
    exact Nat.le_add_left ..
  · rw [hcolumn]
    exact Nat.le_add_left ..
  · rw [hline, hlines, Nat.add_sub_cancel, List.getElem?_append_right (Nat.le_refl _), Nat.sub_self]
    rfl
  · rw [hcolumn, Nat.add_sub_cancel, List.getElem?_append_right (Nat.le_refl _), Nat.sub_self]
    rfl
  · intro hroom
    have hright := Source.Location.column_foldl_le .start (Nat.le_refl 1) u
    rw [← hlocation] at hright
    have hbytes : u.length ≤ byteLength source.toList := by
      rw [hsource, byteLength_append]
      exact Nat.le_trans (length_le_byteLength u) (Nat.le_add_right ..)
    have hblanks : e.location.column - 1 ≤ u.length :=
      Nat.sub_le_of_le_add (Nat.le_trans hright (Nat.le_of_eq (Nat.add_comm ..)))
    rw [Source.excerptAt_eq_excerpt (Nat.le_trans hblanks (Nat.le_trans hbytes hroom)), hout]

/-- The caret stands below an ampersand that has an accented letter before it, in a line after an empty
    one and without a line feed at its end. -/
theorem caret_below_ampersand :
    tokenize "\r\né&" = .error ⟨"operator", some '&', ⟨2, 2, 4⟩⟩ ∧
      byteLength "\r\né&".toList ≤ blockLimit ∧
      ∃ out, Source.excerptAt "\r\né&" 2 2 = .ok (some out) ∧
        Source.CaretBelow out 2 2 ['é', '&'] '&' := by
  have hstop : Lexes (some .name) ([] ++ ['&']) [] [] ['&'] := by
    refine Lexes.stop ?_ ?_ ?_
    all_goals decide +kernel
  have hname : Lexes (some .newLine) ['é', '&'] [⟨[], .name, ['é']⟩] [] ['&'] := by
    refine Lexes.token_of_reader [] ['é'] ['&'] .name ?_ ?_ ?_ ?_ hstop
    all_goals decide +kernel
  have hfeed : Lexes (some .newLine) ['\n', 'é', '&'] [⟨[], .newLine, ['\n']⟩, ⟨[], .name, ['é']⟩] []
      ['&'] := by
    refine Lexes.token_of_reader [] ['\n'] ['é', '&'] .dispatch ?_ ?_ ?_ ?_ hname
    all_goals decide +kernel
  have hreturn : Lexes none "\r\né&".toList
      [⟨[], .newLine, ['\r']⟩, ⟨[], .newLine, ['\n']⟩, ⟨[], .name, ['é']⟩] [] ['&'] := by
    refine Lexes.token_of_reader [] ['\r'] ['\n', 'é', '&'] .dispatch ?_ ?_ ?_ ?_ hfeed
    all_goals decide +kernel
  have herror : tokenize "\r\né&" = .error ⟨"operator", some '&', ⟨2, 2, 4⟩⟩ := error_of_rest hreturn
  have hroom : byteLength "\r\né&".toList ≤ blockLimit := by decide +kernel
  have hline : (lines "\r\né&".toList)[1]? = some ['é', '&'] := by decide +kernel
  obtain ⟨c, text, out, hfound, -, -, hat, -, -, hcaret, hout⟩ := caret_below_rejected_character _ _ herror
  obtain rfl := Option.some.inj hfound
  obtain rfl := Option.some.inj (hline.symm.trans hat)
  exact ⟨herror, hroom, out, hout hroom, hcaret⟩

end Formula.Lexer
