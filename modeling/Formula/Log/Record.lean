import Formula.Json.Writer
import Formula.Log.Settings

/-!
# `Formula.Log.Record` — records and the lines they are written in

## Contents
- **Records.** `LogRecord`.
- **Lines.** `LogFormat`; `compactLine`, `prettyLine`, `jsonLine`; `LogFormat.line`.
- **Journals.** `journal`: the lines of the records that the settings let through.
-/

namespace Formula.Log

/-! ## Records -/

/-- Something that happened. -/
structure LogRecord where
  level : Level
  phase : Phase
  message : String
  fields : List (String × Json.Scalar)
deriving DecidableEq, Repr

/-! ## Lines -/

/-- How records are laid out. -/
inductive LogFormat where
  | pretty
  | compact
  | json
deriving DecidableEq, Repr

namespace LogRecord

/-- What a field holds, without quotes. -/
def fieldText : Json.Scalar → String
  | .null => "null"
  | .number n => toString n
  | .text s => s

/-- The level in five columns, on the right. -/
def levelColumn (r : LogRecord) : String :=
  String.ofList (r.level.label.toList.leftpad 5 ' ')

/-- Level, target and message, then the fields. -/
def compactLine (r : LogRecord) : String :=
  s!"{r.levelColumn} {r.phase.target}: {r.message}"
    ++ String.join (r.fields.map fun (name, value) => " " ++ name ++ "=" ++ fieldText value) ++ "\n"

/-- Level, target and message, then the fields with commas, then an empty line. -/
def prettyLine (r : LogRecord) : String :=
  s!"  {r.levelColumn} {r.phase.target}: {r.message}"
    ++ String.join (r.fields.map fun (name, value) => ", " ++ name ++ ": " ++ fieldText value)
    ++ "\n\n"

/-- A record as JSON, its fields after the message. -/
def jsonLine (r : LogRecord) : String :=
  "\x7b\"level\":" ++ Json.quote r.level.label ++ ",\"fields\":"
    ++ Json.compact (("message", .text r.message) :: r.fields)
    ++ ",\"target\":" ++ Json.quote r.phase.target ++ "\x7d\n"

end LogRecord

/-- The line of a record. -/
def LogFormat.line : LogFormat → LogRecord → String
  | .pretty => LogRecord.prettyLine
  | .compact => LogRecord.compactLine
  | .json => LogRecord.jsonLine

/-! ## Journals -/

/-- The lines of the records that the settings let through, in order. -/
def journal (settings : LogSettings) (format : LogFormat) (records : List LogRecord) : String :=
  String.join ((records.filter fun r => settings.isEnabled r.phase.target r.level).map format.line)

end Formula.Log
