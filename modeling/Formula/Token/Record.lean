import Formula.Json.Writer
import Formula.Token.Basic

/-!
# `Formula.Token.Record` — tokens as JSON

## Contents
- **Records.** `Token.record`, `Token.json`.
- **Lists.** `Token.listText`, one token a line, and `Token.listJson`.
-/

namespace Formula.Token

/-! ## Records -/

/-- The kind and text of a token. -/
def record (t : Token) : Json.Record :=
  [("type", .text t.kind.label), ("text", .text t.text)]

/-- A token on one line. -/
def json (t : Token) : String := Json.compact t.record

/-! ## Lists -/

/-- One token a line. -/
def listText (ts : List Token) : String :=
  String.join (ts.map fun t => t.display ++ "\n")

/-- An array of tokens, ended by a line feed. -/
def listJson (ts : List Token) : String :=
  Json.prettyList (ts.map record) ++ "\n"

end Formula.Token
