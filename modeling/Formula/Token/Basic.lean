import Formula.Text.Quoted

/-!
# `Formula.Token.Basic` — tokens

## Contents
- **Kinds.** `Token.Kind`, its `label`, and which kinds end a run (`isTerminal`).
- **Tokens.** `Token`, `Token.display`.
-/

namespace Formula

/-! ## Kinds -/

/-- What a token is. -/
inductive Token.Kind where
  /-- The report of a lexical error, in place of a token. -/
  | error
  /-- The end of the source. -/
  | endOfInput
  /-- One character that breaks a line. -/
  | newLine
  /-- A bracket, a comma or a point. -/
  | punctuation
  /-- A number, with its sign and exponent. -/
  | number
  /-- A member of the table of operators. -/
  | operator
  /-- A letter or underscore, then letters, digits and underscores. -/
  | name
deriving DecidableEq, Repr

namespace Token.Kind

/-- The kind as it is listed. -/
def label : Kind → String
  | error => "ERROR"
  | endOfInput => "EOF"
  | newLine => "NEW_LINE"
  | punctuation => "PUNCTUATION"
  | number => "NUMBER"
  | operator => "OPERATOR"
  | name => "NAME"

/-- Nothing follows a token of this kind. -/
def isTerminal : Kind → Bool
  | error | endOfInput => true
  | _ => false

end Token.Kind

/-! ## Tokens -/

/-- A piece of the source with its kind; the text of an error token is the message instead. -/
structure Token where
  kind : Token.Kind
  text : String
deriving DecidableEq, Repr

namespace Token

/-- The token reports an error. -/
def isError (t : Token) : Bool := t.kind == .error

/-- The token as it is listed: kind and quoted text, or the end of the source by itself. -/
def display (t : Token) : String :=
  match t.kind with
  | .endOfInput => "<EOF>"
  | kind => "<" ++ kind.label ++ ", " ++ Text.quote t.text ++ ">"

end Token

end Formula
