import Formula.Expr.Bindings

/-!
# `Formula.Expr.Eval` — evaluation

A literal is its own value, a reference is looked up each time and evaluated, and a sum adds the
numbers of its operands from left to right; the first operand that fails or is no number decides the
error. The members of a set are left as they are.

References may lead in a circle. Evaluation then has no outcome, which is told apart from an error:
an outcome is `none` when references never end. As every bound name is looked up at most once on a
path that does not go round in a circle, the number of bound names limits how far references lead.

## Contents
- **Outcomes.** `Outcome`.
- **Evaluation.** `Expr.evalWith`, given what names stand for; `Bindings.resolve`; `Bindings.eval`.
- **Typed evaluation.** `Bindings.evalNumber`, `evalBoolean`, `evalSet`.
-/

namespace Formula

/-! ## Outcomes -/

/-- A value or an error, or nothing when references lead in a circle. -/
abbrev Outcome := ExceptT EvalError Option

/-- The number of a value, or a type error. -/
def Value.number? : Value → Except EvalError Rat
  | .number value => .ok value
  | other => .error (.unexpectedType .number other.kind)

/-- The truth value of a value, or a type error. -/
def Value.boolean? : Value → Except EvalError Bool
  | .boolean value => .ok value
  | other => .error (.unexpectedType .boolean other.kind)

/-- The members of a value, or a type error. -/
def Value.set? : Value → Except EvalError (List Expr)
  | .set members => .ok members
  | other => .error (.unexpectedType .set other.kind)

/-! ## Evaluation -/

mutual

/-- Evaluates an expression, given what names stand for. -/
def Expr.evalWith (resolve : String → Outcome Value) : Expr → Outcome Value
  | .number value => pure (.number value)
  | .boolean value => pure (.boolean value)
  | .set members => pure (.set members)
  | .reference name => resolve name
  | .sum operands => Expr.sumWith resolve 0 operands

/-- Adds the numbers of expressions to a total. -/
def Expr.sumWith (resolve : String → Outcome Value) (total : Rat) : List Expr → Outcome Value
  | [] => pure (.number total)
  | e :: rest => do
      let value ← e.evalWith resolve
      let n ← liftExcept value.number?
      Expr.sumWith resolve (total + n) rest

end

/-- What a name stands for, when no path of references is longer than the bound. -/
def Bindings.resolve (b : Bindings) : Nat → String → Outcome Value
  | 0, _ => ExceptT.mk none
  | bound + 1, name => do
      let e ← liftExcept (b.get name)
      e.evalWith (b.resolve bound)

/-- The value of an expression. -/
def Bindings.eval (b : Bindings) (e : Expr) : Outcome Value :=
  e.evalWith (b.resolve (b.size + 1))

/-! ## Typed evaluation -/

/-- The value of an expression that has to be a number. -/
def Bindings.evalNumber (b : Bindings) (e : Expr) : Outcome Rat := do
  liftExcept (← b.eval e).number?

/-- The value of an expression that has to be a truth value. -/
def Bindings.evalBoolean (b : Bindings) (e : Expr) : Outcome Bool := do
  liftExcept (← b.eval e).boolean?

/-- The members of an expression that has to be a set. -/
def Bindings.evalSet (b : Bindings) (e : Expr) : Outcome (List Expr) := do
  liftExcept (← b.eval e).set?

end Formula
