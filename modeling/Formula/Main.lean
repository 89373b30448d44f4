import Formula.Command.Program

/-!
# `Formula.Main` — the command as a program

## Contents
- **Reading.** `systemError`, `systemEnvironment`.
- **Running.** `main`.
-/

namespace Formula.Command

/-! ## Reading -/

/-- What the operating system says, with its number where it is known. -/
def systemError : IO.Error → ReadError
  | .noFileOrDirectory _ code details => .system details code.toNat
  | .permissionDenied _ code details => .system details code.toNat
  | .inappropriateType _ code details => .system details code.toNat
  | .invalidArgument _ code details => .system details code.toNat
  | .resourceExhausted _ code details => .system details code.toNat
  | .hardwareFault code details => .system details code.toNat
  | .otherError code details => .system details code.toNat
  | e => .system (toString e) 0

/-- Bytes that are read, as a text. -/
def readText (read : IO ByteArray) : IO (Except ReadError String) := do
  try
    return textOfBytes (← read)
  catch e =>
    return .error (systemError e)

/-- The files and the standard input of this process. -/
def systemEnvironment : Environment IO where
  fileText path := readText (IO.FS.readBinFile path)
  inputText := readText do (← IO.getStdin).readBinToEnd

end Formula.Command

/-! ## Running -/

/-- Runs the command with the arguments of this process. -/
def main (arguments : List String) : IO UInt32 := do
  let outcome ← Formula.Command.run Formula.Command.systemEnvironment arguments
  (← IO.getStdout).putStr outcome.output
  (← IO.getStderr).putStr outcome.errors
  return outcome.exitCode.toUInt32
