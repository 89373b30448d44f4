import Formula.Text.Bytes

/-!
# `Formula.Source.Location` — lines, columns and offsets in a source text

Lines and columns start at one and columns count characters; offsets start at zero and count bytes.
Only a line feed starts a new line.

## Contents
- **Locations.** `Location`, `Location.start`, `Location.advance` over one character.
- **Search.** `locate`: the location of a byte offset, or of the end when the offset lies past it.
-/

namespace Formula.Source

/-! ## Locations -/

/-- A place in a source text. -/
structure Location where
  line : Nat
  column : Nat
  offset : Nat
deriving DecidableEq, Repr

namespace Location

/-- The place before the first character. -/
def start : Location := ⟨1, 1, 0⟩

/-- The place after one more character. -/
def advance (p : Location) (c : Char) : Location :=
  if c = '\n' then ⟨p.line + 1, 1, p.offset + c.utf8Size⟩
  else ⟨p.line, p.column + 1, p.offset + c.utf8Size⟩

/-- Line and column, with a colon between them. -/
def text (p : Location) : String := s!"{p.line}:{p.column}"

/-- The places passed while walking over a text, the first one included. -/
def trail (p : Location) : List Char → List Location
  | [] => [p]
  | c :: rest => p :: (p.advance c).trail rest

/-! ## Search -/

/-- Walks on from a place over the rest of the text until the offset is reached. -/
def seek (p : Location) (offset : Nat) : List Char → Location
  | [] => p
  | c :: rest => if offset ≤ p.offset then p else (p.advance c).seek offset rest

end Location

/-- The place of a byte offset: the first character boundary at or after it, and the end of the text
    when there is none. -/
def locate (source : String) (offset : Nat) : Location :=
  Location.start.seek offset source.toList

end Formula.Source
