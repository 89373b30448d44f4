import Formula.Log.Settings
import Formula.Run.Settings

/-!
# `Formula.Config.Basic` — the configuration of the program

## Contents
- **Configurations.** `Config`.
-/

namespace Formula

/-! ## Configurations -/

/-- How tokens are produced, and which log records are written. -/
structure Config where
  lexer : RunSettings := {}
  logging : Log.LogSettings := {}
deriving DecidableEq, Repr

end Formula
