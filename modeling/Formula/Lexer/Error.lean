import Formula.Source.Location
import Formula.Text.Quoted

/-!
# `Formula.Lexer.Error` — a character that fits nothing

## Contents
- **Errors.** `LexError`, `LexError.expected`.
- **Wording.** `LexError.message`, `LexError.display`.
-/

namespace Formula

/-! ## Errors -/

/-- A category of token was expected, and something else, or the end of the source, was found. -/
structure LexError where
  category : String
  found : Option Char
  location : Source.Location
deriving DecidableEq, Repr

namespace LexError

/-- The error at a byte offset of a source. -/
def expected (category : String) (found : Option Char) (source : String) (offset : Nat) :
    LexError :=
  ⟨category, found, Source.locate source offset⟩

/-! ## Wording -/

/-- What was expected and what was found. -/
def message (e : LexError) : String :=
  match e.found with
  | some c => s!"expected {e.category}, got {Text.quoteChar c}"
  | none => s!"expected {e.category}, got end of input"

/-- The message after its line and column. -/
def display (e : LexError) : String := s!"[{e.location.text}] {e.message}"

end LexError

end Formula
