import Formula.Expr.Eval
import Formula.Json.Writer
import Formula.Lexer.Error

/-!
# `Formula.Failure` — what can go wrong, and how it is reported

Reading a source and evaluating an expression fail in different ways; callers that do both see one
type. A report says in which phase it happened, where (for a lexical error), what kind of failure it
is, and what the message is.

## Contents
- **Failures.** `Failure`, `display`, `phase`, `line`, `column`.
- **Reports.** `Report`, `Failure.report`, `Report.display`, `Report.json`.
- **Lifting.** `evaluate`.
-/

namespace Formula

/-! ## Failures -/

/-- A lexical error or an evaluation error. -/
inductive Failure where
  | lexing (error : LexError)
  | evaluation (error : EvalError)
deriving DecidableEq, Repr

namespace Failure

/-- The failure in one line. -/
def display : Failure → String
  | .lexing e => e.display
  | .evaluation e => s!"Eval error: {e.message}"

/-- The name of the phase that failed. -/
def phase : Failure → String
  | .lexing _ => "lexer"
  | .evaluation _ => "eval"

/-- The line of a lexical error. -/
def line : Failure → Option Nat
  | .lexing e => some e.location.line
  | .evaluation _ => none

/-- The column of a lexical error. -/
def column : Failure → Option Nat
  | .lexing e => some e.location.column
  | .evaluation _ => none

/-- The name of the kind of failure. -/
def kind : Failure → String
  | .lexing _ => "Expected"
  | .evaluation (.unexpectedType _ _) => "UnexpectedType"
  | .evaluation (.nameConflict _ _) => "NameConflict"
  | .evaluation (.undefinedName _) => "UndefinedName"
  | .evaluation (.invalidNumber _ _) => "InvalidNumber"

/-- The message, without phase and place. -/
def message : Failure → String
  | .lexing e => e.message
  | .evaluation e => e.message

end Failure

/-! ## Reports -/

/-- A failure, laid out for display or for a machine. -/
structure Report where
  phase : String
  line : Option Nat
  column : Option Nat
  errorKind : String
  message : String
deriving DecidableEq, Repr

/-- The report of a failure. -/
def Failure.report (f : Failure) : Report :=
  ⟨f.phase, f.line, f.column, f.kind, f.message⟩

namespace Report

/-- The report in one line; the phase stands where there is no place. -/
def display (r : Report) : String :=
  match r.line, r.column with
  | some line, some column => s!"[{line}:{column}] {r.phase} error: {r.message}"
  | _, _ => s!"[{r.phase}] {r.phase} error: {r.message}"

/-- The fields of a report, in order. -/
def record (r : Report) : Json.Record :=
  let number? : Option Nat → Json.Scalar
    | some n => .number n
    | none => .null
  [("phase", .text r.phase), ("line", number? r.line), ("column", number? r.column),
    ("error_kind", .text r.errorKind), ("message", .text r.message)]

/-- The report as JSON on one line. -/
def json (r : Report) : String := Json.compact r.record

end Report

/-! ## Lifting -/

/-- Evaluates an expression, with errors as failures; nothing when references lead in a circle. -/
def evaluate (b : Bindings) (e : Expr) : Option (Except Failure Value) :=
  (b.eval e).run.map fun r => r.mapError .evaluation

end Formula
