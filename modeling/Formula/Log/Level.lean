/-!
# `Formula.Log.Level` — how important a log record is

## Contents
- **Levels.** `Level`, from the least to the most important; `rank`, `name`, `all`.
- **Reading.** `ofName?` takes exact names, `parse?` any case and one more name.
- **Phases.** `Phase`: the parts of the program that write records, with `name` and `target`.
-/

namespace Formula.Log

/-! ## Levels -/

/-- How important a record is. -/
inductive Level where
  | trace
  | debug
  | info
  | warn
  | error
deriving DecidableEq, Repr

namespace Level

/-- The place of a level, the least important first. -/
def rank : Level → Nat
  | trace => 0
  | debug => 1
  | info => 2
  | warn => 3
  | error => 4

/-- Levels are ordered by importance. -/
instance : LE Level where
  le a b := a.rank ≤ b.rank

instance (a b : Level) : Decidable (a ≤ b) := inferInstanceAs (Decidable (a.rank ≤ b.rank))

/-- The name of a level. -/
def name : Level → String
  | trace => "trace"
  | debug => "debug"
  | info => "info"
  | warn => "warn"
  | error => "error"

/-- The name of a level in capitals, as it stands in records. -/
def label (l : Level) : String := l.name.map Char.toUpper

/-- All levels, the most important first. -/
def all : List Level := [error, warn, info, debug, trace]

/-! ## Reading -/

/-- The level with exactly this name. -/
def ofName? (s : String) : Option Level := all.find? (·.name == s)

/-- The level that a user names, in any mixture of cases; `silent` leaves only errors. -/
def parse? (s : String) : Option Level :=
  let lower := s.map Char.toLower
  if lower == "silent" then some error else ofName? lower

end Level

/-! ## Phases -/

/-- A part of the program that writes records. -/
inductive Phase where
  | lexer
  | eval
  | cli
deriving DecidableEq, Repr

namespace Phase

/-- The name of a phase. -/
def name : Phase → String
  | lexer => "lexer"
  | eval => "eval"
  | cli => "cli"

/-- What the records of a phase are addressed to. -/
def target (p : Phase) : String := "mathex::" ++ p.name

/-- All phases. -/
def all : List Phase := [lexer, eval, cli]

end Phase

end Formula.Log
