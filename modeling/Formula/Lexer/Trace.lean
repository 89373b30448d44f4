import Formula.Lexer.Basic
import Formula.Log.Record

/-!
# `Formula.Lexer.Trace` — what happens during a run

The events of a step can be told from the lexer before it and the lexer after it, so a run keeps no
record of its own: its events are those of its steps.

## Contents
- **Events.** `Event`, `Event.record`.
- **Steps and runs.** `stepEvents`, `events`.
-/

namespace Formula.Lexer

open Log

/-! ## Events -/

/-- Something that happens while a lexer runs. -/
inductive Event where
  /-- A state gets its turn at an offset. -/
  | entered (state : State) (offset : Nat)
  /-- A text of some bytes was accepted at an offset. -/
  | accepted (offset length : Nat)
  /-- A token was produced. -/
  | produced (token : Token)
  /-- A character was rejected. -/
  | rejected (error : LexError)
  /-- The run has ended. -/
  | halted
deriving Repr

/-- The log record of an event. -/
def Event.record : Event → LogRecord
  | .entered s offset =>
      ⟨.trace, .lexer, "Lexer step", [("state", .text s.label), ("pos", .number offset)]⟩
  | .accepted offset length =>
      ⟨.trace, .lexer, "Accepted string", [("pos", .number offset), ("len", .number length)]⟩
  | .produced t =>
      ⟨.debug, .lexer, "Produced token",
        [("token_type", .text t.kind.label), ("text", .text (Text.quote t.text))]⟩
  | .rejected e =>
      ⟨.warn, .lexer, s!"Lex error: {e.message}",
        [("line", .number e.location.line), ("column", .number e.location.column)]⟩
  | .halted => ⟨.debug, .lexer, "Lexer halted", []⟩

/-! ## Steps and runs -/

/-- The text that a state accepts as a whole: only operators are read so. -/
def acceptedEvents (s : State) (c : Cursor) : List Event :=
  match s with
  | .operator =>
      match Rule.longest? [Alphabet.operator] c.ahead with
      | some piece => [.accepted c.offset (Text.byteLength piece)]
      | none => []
  | _ => []

/-- What a lexer produced, told from its tokens before and after. -/
def producedEvents (before after : TokenQueue) : List Event :=
  (after.pending.drop before.pending.length).map fun t =>
    match t.isError, after.error with
    | true, some e => .rejected e
    | _, _ => .produced t

/-- The events of one step, in order. -/
def stepEvents (s : State) (l : Lexer) : List Event :=
  let after := l.step s
  .entered s l.cursor.offset :: acceptedEvents s l.cursor ++ producedEvents l.tokens after.tokens
    ++ if after.mode == .halted then [.halted] else []

/-- The events of all steps that are still to come, in order. -/
def events (l : Lexer) : List Event :=
  match _h : l.mode with
  | .active s => stepEvents s l ++ (l.step s).events
  | _ => []
termination_by l.work
decreasing_by exact step_work_lt _h

end Formula.Lexer
