import Formula.Rule.Basic
import Formula.Text.Numeric
import Formula.Text.Alphabetic

/-!
# `Formula.Rule.Alphabet` — the characters and operators of the notation

## Contents
- **Classes.** `digit`, `letter`, `underscore`, `sign`, `blank`, `newLine`, `punctuation`,
  `exponent`, `point`.
- **Operators.** `operator`, the table of all operators.
-/

namespace Formula.Alphabet

/-! ## Classes -/

/-- Digits of any script, and other numeric characters. -/
def digit : Rule := .predicate ⟨"digit", Text.isNumeric⟩

/-- Letters of any script. -/
def letter : Rule := .predicate ⟨"letter", Text.isAlphabetic⟩

/-- The underscore, which may stand wherever a letter may. -/
def underscore : Rule := .chars "_"

/-- The signs of a number. -/
def sign : Rule := .chars "+-"

/-- Blanks, which separate tokens and are dropped; line breaks are not among them. -/
def blank : Rule := .chars " \t"

/-- The characters that break a line, each on its own. -/
def newLine : Rule := .chars "\r\n"

/-- Brackets, comma and point. -/
def punctuation : Rule := .chars "()\x7b\x7d,.[]"

/-- The letters that start an exponent. -/
def exponent : Rule := .chars "eE"

/-- The decimal point. -/
def point : Rule := .chars "."

/-! ## Operators -/

/-- All operators; where one starts with another, the longer is taken. -/
def operator : Rule :=
  .strings ["+", "-", "*", "/", "%", "^", "!", "==", "!=", ">", ">=", "<", "<=", "&&", "||", "|",
    "=", "∑", "∏", "∪", "∩", "∁", "⊂", "⊄", "⊆", "⊈", "∈", "∉", "∀", "∃", "∄", "∃!", "∄!"]

end Formula.Alphabet
