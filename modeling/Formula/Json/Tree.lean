import Formula.Json.Lexeme

/-!
# `Formula.Json.Tree` — JSON values

A value is built while its lexemes go by: what has been opened and not yet closed lies on a stack,
and what may come next is known at every point. So values may be nested to any depth.

Members keep their order, and members of the same name are all kept: whoever reads an object decides
about them.

## Contents
- **Values.** `Tree`.
- **Building.** `Frame`, `Expectation`, `Builder`, `Builder.place`, `Builder.build`, `ofLexemes?`.
- **Reading.** `parse?`.
-/

namespace Formula.Json

/-! ## Values -/

/-- A JSON value. The names of members are texts, as far as they denote characters. -/
inductive Tree where
  | null
  | boolean (value : Bool)
  | number (value : Number)
  | text (value : Option String)
  | array (items : List Tree)
  | object (members : List (Option String × Tree))
deriving Repr

/-! ## Building -/

/-- Something opened and not yet closed, with what it holds so far, the last first. -/
inductive Frame where
  | array (items : List Tree)
  | object (members : List (Option String × Tree))
  /-- An object, and the name of the member whose value comes next. -/
  | member (members : List (Option String × Tree)) (name : Option String)

/-- What may come next. -/
inductive Expectation where
  /-- A value. -/
  | value
  /-- A value, or the end of the array just opened. -/
  | item
  /-- A name, or the end of the object just opened. -/
  | member
  /-- A name. -/
  | name
  /-- The colon after a name. -/
  | colon
  /-- What follows a value that is complete. -/
  | done (value : Tree)

/-- What has been opened, the last first, and what may come next. -/
structure Builder where
  stack : List Frame
  expectation : Expectation

/-- Takes the first lexeme of a value. -/
def placeValue (stack : List Frame) (lexeme : Lexeme) : Option Builder :=
  match lexeme with
  | .null => some ⟨stack, .done .null⟩
  | .boolean b => some ⟨stack, .done (.boolean b)⟩
  | .number n => some ⟨stack, .done (.number n)⟩
  | .text s => some ⟨stack, .done (.text s)⟩
  | .openArray => some ⟨.array [] :: stack, .item⟩
  | .openObject => some ⟨.object [] :: stack, .member⟩
  | _ => none

/-- Takes a lexeme after a complete value. -/
def placeAfter (stack : List Frame) (value : Tree) (lexeme : Lexeme) : Option Builder :=
  match stack, lexeme with
  | .array items :: rest, .comma => some ⟨.array (value :: items) :: rest, .value⟩
  | .array items :: rest, .closeArray => some ⟨rest, .done (.array (value :: items).reverse)⟩
  | .member members name :: rest, .comma =>
      some ⟨.object ((name, value) :: members) :: rest, .name⟩
  | .member members name :: rest, .closeObject =>
      some ⟨rest, .done (.object ((name, value) :: members).reverse)⟩
  | _, _ => none

/-- Takes the name of a member. -/
def placeName (stack : List Frame) (lexeme : Lexeme) : Option Builder :=
  match stack, lexeme with
  | .object members :: rest, .text name => some ⟨.member members name :: rest, .colon⟩
  | _, _ => none

/-- Takes one lexeme, if it may come next. -/
def Builder.place (b : Builder) (lexeme : Lexeme) : Option Builder :=
  match b.expectation with
  | .value => placeValue b.stack lexeme
  | .item =>
      match b.stack, lexeme with
      | .array _ :: rest, .closeArray => some ⟨rest, .done (.array [])⟩
      | _, _ => placeValue b.stack lexeme
  | .member =>
      match b.stack, lexeme with
      | .object _ :: rest, .closeObject => some ⟨rest, .done (.object [])⟩
      | _, _ => placeName b.stack lexeme
  | .name => placeName b.stack lexeme
  | .colon => if lexeme = .colon then some ⟨b.stack, .value⟩ else none
  | .done value => placeAfter b.stack value lexeme

/-- The value that lexemes make up, after what a builder has taken already. -/
def Builder.build (b : Builder) : List Lexeme → Option Tree
  | [] =>
      match b.stack, b.expectation with
      | [], .done value => some value
      | _, _ => none
  | lexeme :: rest => do (← b.place lexeme).build rest

/-- The value that lexemes make up. -/
def ofLexemes? (lexemes : List Lexeme) : Option Tree := Builder.build ⟨[], .value⟩ lexemes

/-! ## Reading -/

/-- The value that a text denotes, if it is JSON and nothing else. -/
def parse? (text : String) : Option Tree := do ofLexemes? (← Lexeme.ofChars? text.toList)

end Formula.Json
