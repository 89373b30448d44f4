/-!
# `Formula.Run.Settings` — how tokens are produced

## Contents
- **Settings.** `RunSettings`, `RunSettings.capacity`.
- **Shared settings.** `SharedSettings`: settings that are installed once, the defaults if nobody
  did so before the first use.
-/

namespace Formula

/-! ## Settings -/

/-- How tokens are produced. -/
structure RunSettings where
  /-- How many tokens the queue of a worker is asked to hold. -/
  tokenBuffer : Nat := 2
  /-- A worker produces the tokens. -/
  threaded : Bool := false
deriving DecidableEq, Repr

/-- How many tokens the queue of a worker holds: never none. -/
def RunSettings.capacity (s : RunSettings) : Nat := max s.tokenBuffer 1

/-! ## Shared settings -/

/-- Settings that are installed at most once. -/
structure SharedSettings where
  installed : Option RunSettings := none
deriving DecidableEq, Repr

namespace SharedSettings

/-- The installed settings; the defaults are installed if there are none. -/
def current (s : SharedSettings) : RunSettings × SharedSettings :=
  let settings := s.installed.getD {}
  (settings, ⟨some settings⟩)

/-- Some settings are installed. -/
def isInstalled (s : SharedSettings) : Bool := s.installed.isSome

/-- Installs settings, or hands them back when there are some already. -/
def install (s : SharedSettings) (settings : RunSettings) : Except RunSettings SharedSettings :=
  match s.installed with
  | none => .ok ⟨some settings⟩
  | some _ => .error settings

end SharedSettings

end Formula
