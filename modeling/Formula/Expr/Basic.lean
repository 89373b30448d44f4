import Formula.Numeral
import Formula.Text.Quoted

/-!
# `Formula.Expr.Basic` — expressions and their values

The members of a set are expressions that have not been evaluated, also when the set is a value.

## Contents
- **Expressions.** `Expr`.
- **Values.** `Value`, its `Value.Kind`, `Value.display`, and `Value.toExpr`, the literal of a value.
- **Errors.** `Conflict`, `EvalError`, `EvalError.message`.
-/

namespace Formula

/-! ## Expressions -/

/-- What can be evaluated. -/
inductive Expr where
  /-- A literal number. -/
  | number (value : Rat)
  /-- A literal truth value. -/
  | boolean (value : Bool)
  /-- A literal set. -/
  | set (members : List Expr)
  /-- Whatever a name is bound to. -/
  | reference (name : String)
  /-- The sum of numbers. -/
  | sum (operands : List Expr)
deriving Repr

/-! ## Values -/

/-- What an expression evaluates to. -/
inductive Value where
  | number (value : Rat)
  | boolean (value : Bool)
  | set (members : List Expr)
deriving Repr

/-- What kind of value a value is. -/
inductive Value.Kind where
  | number
  | boolean
  | set
deriving DecidableEq, Repr

namespace Value

/-- The kind as it is written in messages. -/
def Kind.label : Kind → String
  | .number => "number"
  | .boolean => "boolean"
  | .set => "set"

/-- The kind of a value. -/
def kind : Value → Kind
  | .number _ => .number
  | .boolean _ => .boolean
  | .set _ => .set

/-- The value as text; of a set, only the number of its members. -/
def display : Value → String
  | .number value => Numeral.render value
  | .boolean value => if value then "true" else "false"
  | .set members => s!"\x7b{members.length} elements\x7d"

/-- The literal of a value. -/
def toExpr : Value → Expr
  | .number value => .number value
  | .boolean value => .boolean value
  | .set members => .set members

end Value

/-! ## Errors -/

/-- Why a name cannot be bound or unbound as asked. -/
inductive Conflict where
  | reassignConstant
  | duplicateConstant
  | variableToConstant
  | removeConstant
  | missingVariable
deriving DecidableEq, Repr

/-- The wording of a conflict. -/
def Conflict.reason : Conflict → String
  | .reassignConstant => "cannot change the value of a constant"
  | .duplicateConstant => "a constant with this name already exists"
  | .variableToConstant => "is a variable and cannot be turned into a constant"
  | .removeConstant => "is a constant and cannot be removed"
  | .missingVariable => "no such variable"

/-- Why an evaluation fails. -/
inductive EvalError where
  /-- A value of one kind stands where another kind is needed. -/
  | unexpectedType (expected actual : Value.Kind)
  /-- A name cannot be bound or unbound as asked. -/
  | nameConflict (name : String) (conflict : Conflict)
  /-- A name is bound neither as a variable nor as a constant. -/
  | undefinedName (name : String)
  /-- A text is no number literal. -/
  | invalidNumber (text : String) (defect : Numeral.Defect)
deriving DecidableEq, Repr

/-- The wording of an error. -/
def EvalError.message : EvalError → String
  | .unexpectedType expected actual =>
      s!"unexpected type: expected {expected.label}, got {actual.label}"
  | .nameConflict name conflict => "name conflict on `" ++ name ++ "`: " ++ conflict.reason
  | .undefinedName name => "no variable or constant named `" ++ name ++ "`"
  | .invalidNumber text defect => s!"invalid number literal {Text.quote text}: {defect.reason}"

/-- Reads a number literal, with the whole text in the error. -/
def EvalError.readNumber (text : String) : Except EvalError Rat :=
  (Numeral.read text).mapError (.invalidNumber text)

end Formula
