/-!
# `Formula.Text.Lines` — the lines of a text

A line ends at a line feed, together with one carriage return directly before it. A last line
without a line feed counts when it is not empty, and keeps whatever it ends in.

## Contents
- **Splitting.** `lines`.
-/

namespace Formula.Text

/-! ## Splitting -/

/-- The lines of a text, without their ends. -/
def lines : List Char → List (List Char)
  | [] => []
  | '\n' :: rest => [] :: lines rest
  | '\r' :: '\n' :: rest => [] :: lines rest
  | c :: rest =>
      match lines rest with
      | [] => [[c]]
      | line :: others => (c :: line) :: others

end Formula.Text
