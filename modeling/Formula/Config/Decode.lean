import Formula.Config.Basic
import Formula.Json.Tree

/-!
# `Formula.Config.Decode` — reading a configuration

A part of the configuration is an object with its fields as members, or an array of its fields in
order, from which the last ones may be missing. A missing field has its default value. An object may
have other members, which are ignored, but no field twice; an array may have no more items than
there are fields.

## Contents
- **Parts.** `member?`, `fields?`.
- **Leaves.** `natural?`, `boolean?`, `level?`, `optionalLevel?`.
- **Configurations.** `runSettings?`, `logSettings?`, `Config.ofJson?`, `Config.parse?`.
-/

namespace Formula.Config

open Json Log

/-! ## Parts -/

/-- The value of a member, or that there is none; nothing when there are several of that name. -/
def member? (members : List (Option String × Tree)) (name : String) : Option (Option Tree) :=
  match members.filter fun m => m.1 == some name with
  | [] => some none
  | [(_, value)] => some (some value)
  | _ => none

/-- The fields of a part, in order, each if it is there. -/
def fields? (names : List String) : Tree → Option (List (Option Tree))
  | .array items =>
      if items.length ≤ names.length then
        some (items.map some ++ List.replicate (names.length - items.length) none)
      else none
  | .object members =>
      if members.all fun m => m.1.isSome then names.mapM (member? members) else none
  | _ => none

/-- The value of a field, or its default. -/
def fieldOr {α : Type} (default : α) (read : Tree → Option α) : Option Tree → Option α
  | none => some default
  | some value => read value

/-! ## Leaves -/

/-- A number of up to sixty-four bits, without sign, fraction or exponent. -/
def natural? : Tree → Option Nat
  | .number (.natural n) => if n < Nat.pow 2 64 then some n else none
  | _ => none

/-- A truth value. -/
def boolean? : Tree → Option Bool
  | .boolean b => some b
  | _ => none

/-- A level: its name, or an object with that name as its only member, holding null. -/
def level? : Tree → Option Level
  | .text (some name) => Level.ofName? name
  | .object [(some name, .null)] => Level.ofName? name
  | _ => none

/-- A level, or null for none. -/
def optionalLevel? : Tree → Option (Option Level)
  | .null => some none
  | value => (level? value).map some

/-! ## Configurations -/

/-- How tokens are produced. -/
def runSettings? (json : Tree) : Option RunSettings := do
  match ← fields? ["token_buffer", "threaded"] json with
  | [tokenBuffer, threaded] =>
      let default : RunSettings := {}
      return {
        tokenBuffer := ← fieldOr default.tokenBuffer natural? tokenBuffer
        threaded := ← fieldOr default.threaded boolean? threaded }
  | _ => none

/-- Which log records are written. -/
def logSettings? (json : Tree) : Option LogSettings := do
  match ← fields? ["level", "lexer", "eval"] json with
  | [level, lexer, eval] =>
      let default : LogSettings := {}
      return {
        level := ← fieldOr default.level level? level
        lexer := ← fieldOr default.lexer optionalLevel? lexer
        eval := ← fieldOr default.eval optionalLevel? eval }
  | _ => none

/-- The configuration that a JSON value holds. -/
def ofJson? (json : Tree) : Option Config := do
  match ← fields? ["lexer", "logging"] json with
  | [lexer, logging] =>
      let default : Config := {}
      return {
        lexer := ← fieldOr default.lexer runSettings? lexer
        logging := ← fieldOr default.logging logSettings? logging }
  | _ => none

/-- The configuration that a text holds. -/
def parse? (text : String) : Option Config := do ofJson? (← Json.parse? text)

end Formula.Config
