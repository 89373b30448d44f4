import Formula.Room
import Formula.Text.Lines

/-!
# `Formula.Source.Excerpt` — a line of a source, in its surroundings, with a caret

An excerpt shows a line with up to two lines before and two after it, each with its number. Below
the line a caret marks a column. The numbers are as wide as the last of them.

## Contents
- **Rows.** `separatorRow`, `lineRow`, `caretRow`, `excerptRows`.
- **Excerpts.** `excerpt`; `excerptAt`, which asks for room for the caret row.
-/

namespace Formula.Source

/-! ## Rows -/

/-- The row above and below the lines. -/
def separatorRow (width : Nat) : List Char :=
  List.replicate (width + 1) '-' ++ ['|', '-', '-']

/-- A line after its number. -/
def lineRow (width number : Nat) (line : List Char) : List Char :=
  (toString number).toList.leftpad width ' ' ++ [' ', '|', ' '] ++ line

/-- A caret below a column; columns start at one. -/
def caretRow (width column : Nat) : List Char :=
  List.replicate width ' ' ++ [' ', '|', ' '] ++ List.replicate (column - 1) ' ' ++ ['^']

/-- How many lines are shown before and after the line in question. -/
def contextLines : Nat := 2

/-- The rows of an excerpt, or nothing when there is no such line. -/
def excerptRows (lines : List (List Char)) (line column : Nat) : Option (List (List Char)) :=
  if line = 0 ∨ lines.length < line then none
  else
    let first := max 1 (line - contextLines)
    let last := min lines.length (line + contextLines)
    let width := (toString last).length
    let shown := (lines.drop (first - 1)).take (last + 1 - first)
    let rows := (shown.zipIdx first).flatMap fun (text, number) =>
      if number = line then [lineRow width number text, caretRow width column]
      else [lineRow width number text]
    some ([separatorRow width] ++ rows ++ [separatorRow width])

/-! ## Excerpts -/

/-- The lines around a place in a source, each row ended by a line feed. -/
def excerpt (source : String) (line column : Nat) : Option String :=
  (excerptRows (Text.lines source.toList) line column).map fun rows =>
    String.ofList (rows.flatMap fun row => row ++ ['\n'])

/-- The lines around any place that is asked for. A column need not lie in its line, so the blanks
    before the caret may be more than memory holds. -/
def excerptAt (source : String) (line column : Nat) : Except NoRoom (Option String) :=
  if line = 0 ∨ (Text.lines source.toList).length < line then .ok none
  else (requireRoom (column - 1) 1).map fun _ => excerpt source line column

end Formula.Source
