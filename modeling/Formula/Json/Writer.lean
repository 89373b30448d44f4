/-!
# `Formula.Json.Writer` — flat records as JSON text

What the program writes in JSON are records whose fields hold a text, a number or nothing. Fields
keep their order.

## Contents
- **Texts.** `escape`, `quote`.
- **Records.** `Scalar`, `Record`, `compact` on one line, `prettyList` with one field a line.
-/

namespace Formula.Json

/-! ## Texts -/

/-- A character inside a JSON text. Control characters without a short escape are written by their
    number in four digits; everything else, beyond ASCII too, stands as it is. -/
def escape (c : Char) : List Char :=
  if c = '"' then ['\\', '"']
  else if c = '\\' then ['\\', '\\']
  else if c = '\x08' then ['\\', 'b']
  else if c = '\x0c' then ['\\', 'f']
  else if c = '\n' then ['\\', 'n']
  else if c = '\r' then ['\\', 'r']
  else if c = '\t' then ['\\', 't']
  else if c.toNat < 0x20 then
    ['\\', 'u', '0', '0', Nat.digitChar (c.toNat / 16), Nat.digitChar (c.toNat % 16)]
  else [c]

/-- A text between double quotes. -/
def quote (s : String) : String :=
  String.ofList ('"' :: s.toList.flatMap escape ++ ['"'])

/-! ## Records -/

/-- What a field holds. -/
inductive Scalar where
  | null
  | number (value : Nat)
  | text (value : String)
deriving DecidableEq, Repr

/-- Fields by name, in order. -/
abbrev Record := List (String × Scalar)

/-- What a field holds, as JSON. -/
def Scalar.render : Scalar → String
  | .null => "null"
  | .number value => toString value
  | .text value => quote value

/-- A record on one line, without blanks. -/
def compact (r : Record) : String :=
  "\x7b" ++ ",".intercalate (r.map fun (name, value) => quote name ++ ":" ++ value.render) ++ "\x7d"

/-- A record with one field a line, indented by one level of two blanks. -/
def pretty (r : Record) : String :=
  "  \x7b\n"
    ++ ",\n".intercalate (r.map fun (name, value) => "    " ++ quote name ++ ": " ++ value.render)
    ++ "\n  \x7d"

/-- A list of records with one field a line; the empty list stands on one line. -/
def prettyList (rs : List Record) : String :=
  if rs.isEmpty then "[]" else "[\n" ++ ",\n".intercalate (rs.map pretty) ++ "\n]"

end Formula.Json
