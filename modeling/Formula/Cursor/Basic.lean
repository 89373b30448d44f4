import Formula.Text.Bytes

/-!
# `Formula.Cursor.Basic` — a place in a text, with undo and marks

A cursor is a gap in a text: the characters already read, nearest first, and the characters ahead.
It remembers where the current token starts, and how often it was asked for more at the end of the
text, so that each request can be undone by one `back`.

Undoing may lead back past the start of the token; asking for the token's text is then a misuse, and
so is a return to a mark that lies before the start. A misuse says what was wrong and where the
cursor stood.

## Contents
- **Cursors.** `Cursor`, `ofString`, `text`, `position`, `offset`, `startOffset`.
- **Reading.** `peek`, `next`, `back`.
- **Marks.** `Mark`, `mark`, `restore`.
- **Tokens.** `pending`, `cut`, `skip`.
-/

namespace Formula

open Text

/-! ## Cursors -/

/-- A place in a text. -/
structure Cursor where
  /-- The characters read so far, the nearest first. -/
  behind : List Char
  /-- The characters still to be read. -/
  ahead : List Char
  /-- How many characters stand before the current token. -/
  start : Nat
  /-- How many requests at the end of the text have not been undone. -/
  overread : Nat
deriving DecidableEq, Repr

namespace Cursor

/-- The cursor before a list of characters. -/
def ofList (chars : List Char) : Cursor := ⟨[], chars, 0, 0⟩

/-- The cursor before a whole text. -/
def ofString (source : String) : Cursor := ofList source.toList

/-- The whole text, which no operation changes. -/
def text (c : Cursor) : List Char := c.behind.reverse ++ c.ahead

/-- How many characters have been read. -/
def position (c : Cursor) : Nat := c.behind.length

/-- How many bytes have been read. -/
def offset (c : Cursor) : Nat := byteLength c.behind

/-- How many bytes stand before the current token. -/
def startOffset (c : Cursor) : Nat := byteLength (c.text.take c.start)

/-! ## Reading -/

/-- The next character, left where it is. -/
def peek (c : Cursor) : Option Char := c.ahead.head?

/-- Reads one character; at the end of the text, notes that there was none. -/
def next (c : Cursor) : Option Char × Cursor :=
  match c.ahead with
  | [] => (none, { c with overread := c.overread + 1 })
  | x :: rest => (some x, { c with behind := x :: c.behind, ahead := rest })

/-- Undoes the last `next`; before the first character there is nothing to undo. -/
def back (c : Cursor) : Cursor :=
  if c.overread = 0 then
    match c.behind with
    | [] => c
    | x :: rest => { c with behind := rest, ahead := x :: c.ahead }
  else { c with overread := c.overread - 1 }

/-! ## Marks -/

/-- A place to come back to. -/
structure Mark where
  behind : List Char
  ahead : List Char
  overread : Nat
deriving DecidableEq, Repr

/-- What a cursor cannot be asked to do. -/
inductive Misuse where
  /-- The token's text was asked for while the cursor stood before the token's start. -/
  | textBeforeStart
  /-- The mark lies before the token's start. -/
  | markBeforeStart
deriving DecidableEq, Repr

/-- A misuse, and the cursor that was misused. -/
structure Fault where
  misuse : Misuse
  cursor : Cursor
deriving DecidableEq, Repr

/-- The present place. -/
def mark (c : Cursor) : Mark := ⟨c.behind, c.ahead, c.overread⟩

/-- Returns to a mark, which must not lie before the token's start. -/
def restore (c : Cursor) (m : Mark) : Except Fault Cursor :=
  if m.behind.length < c.start then .error ⟨.markBeforeStart, c⟩
  else .ok ⟨m.behind, m.ahead, c.start, m.overread⟩

/-! ## Tokens -/

/-- The text from the token's start to the cursor, when the start is not past the cursor. -/
def pending? (c : Cursor) : Option (List Char) :=
  if c.start ≤ c.position then some (c.behind.take (c.position - c.start)).reverse else none

/-- Takes the pending text, and starts the next token here. -/
def cut (c : Cursor) : Except Fault (List Char × Cursor) :=
  match c.pending? with
  | some s => .ok (s, { c with start := c.position })
  | none => .error ⟨.textBeforeStart, c⟩

/-- Drops the pending text, and starts the next token here. -/
def skip (c : Cursor) : Cursor := { c with start := c.position }

end Cursor

end Formula
