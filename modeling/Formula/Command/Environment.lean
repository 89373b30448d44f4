/-!
# `Formula.Command.Environment` — where a command reads from

A command reads files and its standard input. Both give a text, or say why there is none.

## Contents
- **Errors.** `ReadError`, `ReadError.message`.
- **Environments.** `Environment`, over any monad in which reading takes place; `textOfBytes`.
-/

namespace Formula.Command

/-! ## Errors -/

/-- Why a text cannot be read. -/
inductive ReadError where
  /-- The operating system refuses, with a description and a number. -/
  | system (description : String) (code : Nat)
  /-- The bytes are no UTF-8. -/
  | notText
deriving DecidableEq, Repr

namespace ReadError

/-- There is nothing under this path. -/
def notFound : ReadError := .system "No such file or directory" 2

/-- A file stands where a directory is needed. -/
def notADirectory : ReadError := .system "Not a directory" 20

/-- A directory stands where a file is needed. -/
def isADirectory : ReadError := .system "Is a directory" 21

/-- There is a device file, but nothing is attached to it. -/
def noSuchDevice : ReadError := .system "No such device or address" 6

/-- The path, or a name in it, is too long. -/
def nameTooLong : ReadError := .system "File name too long" 36

/-- The wording of an error. -/
def message : ReadError → String
  | .system description code => s!"{description} (os error {code})"
  | .notText => "stream did not contain valid UTF-8"

end ReadError

/-! ## Environments -/

/-- Where a command reads from. -/
structure Environment (m : Type → Type) where
  fileText : String → m (Except ReadError String)
  inputText : m (Except ReadError String)

/-- The text that bytes hold. -/
def textOfBytes (bytes : ByteArray) : Except ReadError String :=
  match String.fromUTF8? bytes with
  | some text => .ok text
  | none => .error .notText

end Formula.Command
