import Formula.Cursor.Basic
import Formula.Lexer.Error
import Formula.Token.Basic

/-!
# `Formula.Token.Queue` — tokens produced and not yet taken

Tokens are taken in the order in which they were produced. The kind of the last one produced is kept
after it was taken, for it decides how the next characters are read.

## Contents
- **Queues.** `TokenQueue`, `push`, `pop`.
- **Producing.** `commit` turns a cursor's pending text into a token; `reject` records an error.
-/

namespace Formula

/-! ## Queues -/

/-- Tokens produced and not yet taken, the kind of the last one produced, and the recorded error. -/
structure TokenQueue where
  pending : List Token := []
  lastKind : Option Token.Kind := none
  error : Option LexError := none
deriving DecidableEq, Repr

namespace TokenQueue

/-- Nothing has been produced. -/
def empty : TokenQueue := {}

/-- Adds a token at the end. -/
def push (q : TokenQueue) (t : Token) : TokenQueue :=
  { q with pending := q.pending ++ [t], lastKind := some t.kind }

/-- Takes the oldest token. -/
def pop (q : TokenQueue) : Option Token × TokenQueue :=
  match q.pending with
  | [] => (none, q)
  | t :: rest => (some t, { q with pending := rest })

/-- Takes the recorded error. -/
def takeError (q : TokenQueue) : Option LexError × TokenQueue :=
  (q.error, { q with error := none })

/-! ## Producing -/

/-- Cuts the pending text off a cursor and adds it as a token. -/
def commit (q : TokenQueue) (kind : Token.Kind) (c : Cursor) :
    Except Cursor.Fault (Cursor × TokenQueue) :=
  match c.cut with
  | .ok (text, c') => .ok (c', q.push ⟨kind, String.ofList text⟩)
  | .error fault => .error fault

/-- Adds an error token for the character ahead of a cursor, and records the error. -/
def reject (q : TokenQueue) (category : String) (c : Cursor) : TokenQueue :=
  let e := LexError.expected category c.peek (String.ofList c.text) c.offset
  { q.push ⟨.error, e.message⟩ with error := some e }

end TokenQueue

end Formula
