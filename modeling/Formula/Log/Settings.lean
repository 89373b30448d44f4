import Formula.Log.Level

/-!
# `Formula.Log.Settings` — which records are written

Every phase has a level of its own or the common one. A record is addressed to a target; the phase
whose target is the longest beginning of it decides, and the common level where there is none.

## Contents
- **Settings.** `LogSettings`, `levelFor`.
- **Filter.** `threshold`, `isEnabled`.
-/

namespace Formula.Log

/-! ## Settings -/

/-- The common level, and the levels of phases that have one of their own. -/
structure LogSettings where
  level : Level := .warn
  lexer : Option Level := none
  eval : Option Level := none
deriving DecidableEq, Repr

namespace LogSettings

/-- The level of a phase. -/
def levelFor (s : LogSettings) : Phase → Level
  | .lexer => s.lexer.getD s.level
  | .eval => s.eval.getD s.level
  | .cli => s.level

/-! ## Filter -/

/-- The longer of two phases' targets, the first if they are as long. -/
def longer (best : Option Phase) (p : Phase) : Option Phase :=
  match best with
  | some q => if q.target.length < p.target.length then some p else some q
  | none => some p

/-- The least important level that is written for a target. -/
def threshold (s : LogSettings) (target : String) : Level :=
  let phases := Phase.all.filter fun p => p.target.toList.isPrefixOf target.toList
  match phases.foldl longer none with
  | some p => s.levelFor p
  | none => s.level

/-- Records of this level are written for a target. -/
def isEnabled (s : LogSettings) (target : String) (level : Level) : Bool :=
  s.threshold target ≤ level

end LogSettings

end Formula.Log
