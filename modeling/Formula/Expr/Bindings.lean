import Std.Data.TreeMap
import Formula.Expr.Basic

/-!
# `Formula.Expr.Bindings` — variables and constants

A name is bound as a variable or as a constant, never as both. A variable may be bound anew and
removed; a constant stays.

## Contents
- **Bindings.** `Bindings`, `hasVariable`, `hasConstant`, `get`.
- **Changes.** `setVariable`, `setConstant`, `removeVariable`.
- **Names.** `variableNames`, `constantNames`, in ascending order.
-/

namespace Formula

/-! ## Bindings -/

/-- Expressions by name. -/
structure Bindings where
  vars : Std.TreeMap String Expr
  consts : Std.TreeMap String Expr

namespace Bindings

/-- No name is bound. -/
def empty : Bindings := ⟨∅, ∅⟩

/-- The name is bound as a variable. -/
def hasVariable (b : Bindings) (name : String) : Bool := b.vars.contains name

/-- The name is bound as a constant. -/
def hasConstant (b : Bindings) (name : String) : Bool := b.consts.contains name

/-- The name is bound. -/
def has (b : Bindings) (name : String) : Bool := b.hasVariable name || b.hasConstant name

/-- The expression bound to a name; a variable is looked for first. -/
def get (b : Bindings) (name : String) : Except EvalError Expr :=
  match b.vars[name]? with
  | some e => .ok e
  | none =>
      match b.consts[name]? with
      | some e => .ok e
      | none => .error (.undefinedName name)

/-- How many names are bound. -/
def size (b : Bindings) : Nat := b.vars.size + b.consts.size

/-! ## Changes -/

/-- Binds a variable, in place of an earlier variable of that name. -/
def setVariable (b : Bindings) (name : String) (e : Expr) : Except EvalError Bindings :=
  if b.hasConstant name then .error (.nameConflict name .reassignConstant)
  else .ok { b with vars := b.vars.insert name e }

/-- Binds a constant under a name that is not bound yet. -/
def setConstant (b : Bindings) (name : String) (e : Expr) : Except EvalError Bindings :=
  if b.hasConstant name then .error (.nameConflict name .duplicateConstant)
  else if b.hasVariable name then .error (.nameConflict name .variableToConstant)
  else .ok { b with consts := b.consts.insert name e }

/-- Removes a variable, and hands out what it was bound to. -/
def removeVariable (b : Bindings) (name : String) : Except EvalError (Expr × Bindings) :=
  match b.vars[name]? with
  | some e => .ok (e, { b with vars := b.vars.erase name })
  | none =>
      if b.hasConstant name then .error (.nameConflict name .removeConstant)
      else .error (.nameConflict name .missingVariable)

/-! ## Names -/

/-- The names of the variables, ascending. -/
def variableNames (b : Bindings) : List String := b.vars.keys

/-- The names of the constants, ascending. -/
def constantNames (b : Bindings) : List String := b.consts.keys

end Bindings

end Formula
