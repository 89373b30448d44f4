import Formula.Log.Record

/-!
# `Formula.Command.Arguments` — what a command line asks for

Arguments are read from left to right, and the first thing that is wrong decides. A word that starts
with a hyphen is a flag, except the hyphen alone; after the word `--` nothing is a flag any more. A
setting takes its value from the same word, after an equals sign, or from the next word, which must
not be a flag. Everything else is the expression, of which there is one.

Nothing may be given twice. Asking for help or for the version counts at once, whatever follows.
That an expression and a file exclude each other is found out at the end.

## Contents
- **Invocations.** `OutputFormat`, `Invocation`, `Request`.
- **Errors.** `UsageError`.
- **Words.** `Setting`, `Switch`, `Word`, `Word.ofString`.
- **Reading.** `Invocation.set`, `Invocation.read`, `Request.ofArguments`.
-/

namespace Formula.Command

open Log

/-! ## Invocations -/

/-- How tokens are printed. -/
inductive OutputFormat where
  /-- One token a line. -/
  | text
  /-- A JSON array. -/
  | json
deriving DecidableEq, Repr

/-- A request to print the tokens of an expression. -/
structure Invocation where
  expression : Option String := none
  file : Option String := none
  config : Option String := none
  format : Option OutputFormat := none
  threaded : Bool := false
  logLevel : Option Level := none
  logFormat : Option LogFormat := none
deriving DecidableEq, Repr

/-- What a command line asks for. -/
inductive Request where
  | help
  | version
  | lex (invocation : Invocation)
deriving DecidableEq, Repr

/-! ## Errors -/

/-- A setting, which takes a value. -/
inductive Setting where
  | file
  | config
  | format
  | logLevel
  | logFormat
deriving DecidableEq, Repr

/-- A flag that takes no value. -/
inductive Switch where
  | threaded
  | help
  | version
deriving DecidableEq, Repr

/-- What is wrong with a command line. -/
inductive UsageError where
  | unknownFlag (word : String)
  | missingValue (setting : Setting)
  | invalidValue (setting : Setting) (value : String)
  | unexpectedValue (switch : Switch)
  | repeatedSetting (setting : Setting)
  | repeatedSwitch (switch : Switch)
  | extraArgument (word : String)
  | expressionWithFile
deriving DecidableEq, Repr

/-- The long name of a setting. -/
def Setting.name : Setting → String
  | .file => "file"
  | .config => "config"
  | .format => "format"
  | .logLevel => "log-level"
  | .logFormat => "log-format"

/-- The long name of a switch. -/
def Switch.name : Switch → String
  | .threaded => "threaded"
  | .help => "help"
  | .version => "version"

/-- The wording of an error. -/
def UsageError.message : UsageError → String
  | .unknownFlag word => s!"unexpected argument '{word}'"
  | .missingValue setting => s!"a value is required for '--{setting.name}'"
  | .invalidValue setting value => s!"invalid value '{value}' for '--{setting.name}'"
  | .unexpectedValue switch => s!"unexpected value for '--{switch.name}'"
  | .repeatedSetting setting => s!"'--{setting.name}' cannot be used multiple times"
  | .repeatedSwitch switch => s!"'--{switch.name}' cannot be used multiple times"
  | .extraArgument word => s!"unexpected argument '{word}'"
  | .expressionWithFile => "an expression cannot be used with '--file'"

/-! ## Words -/

/-- What a word of the command line is, before `--`. -/
inductive Word where
  /-- The end of the flags. -/
  | separator
  /-- Not a flag. -/
  | operand (text : String)
  /-- A setting, with the value given in the same word. -/
  | setting (setting : Setting) (value : Option String)
  /-- A switch, and whether a value was given with it. -/
  | switch (switch : Switch) (hasValue : Bool)
  /-- A flag that does not exist. -/
  | unknown (text : String)
deriving DecidableEq, Repr

/-- All settings. -/
def Setting.all : List Setting := [.file, .config, .format, .logLevel, .logFormat]

/-- All switches. -/
def Switch.all : List Switch := [.threaded, .help, .version]

/-- A flag given by its long name, with what follows an equals sign. -/
def Word.ofLongName (name : String) (value : Option String) : Word :=
  match Setting.all.find? (·.name == name), Switch.all.find? (·.name == name) with
  | some s, _ => .setting s value
  | none, some s => .switch s value.isSome
  | none, none => .unknown name

/-- The value in what follows the letter of a setting: one equals sign is dropped. -/
def attachedValue : List Char → Option String
  | [] => none
  | '=' :: value => some (String.ofList value)
  | value => some (String.ofList value)

/-- A flag given by its letter, with the rest of its word. Letters of switches end the reading, so
    that what follows them does not matter. -/
def Word.ofLetter (letter : Char) (rest : List Char) : Word :=
  if letter = 'f' then .setting .file (attachedValue rest)
  else if letter = 'c' then .setting .config (attachedValue rest)
  else if letter = 'h' then .switch .help false
  else if letter = 'V' then .switch .version false
  else .unknown (String.singleton letter)

/-- What a word is, before `--`. -/
def Word.ofString (word : String) : Word :=
  match word.toList with
  | ['-', '-'] => .separator
  | '-' :: '-' :: body =>
      let name := String.ofList (body.takeWhile (· != '='))
      match body.dropWhile (· != '=') with
      | [] => ofLongName name none
      | _ :: value => ofLongName name (some (String.ofList value))
  | '-' :: letter :: rest => ofLetter letter rest
  | _ => .operand word

/-! ## Reading -/

namespace Invocation

/-- Gives a setting that has no value yet its value, read by `read`. -/
def assign {α : Type} (setting : Setting) (value : String) (old : Option α)
    (read : String → Option α) (put : α → Invocation) : Except UsageError Invocation :=
  if old.isSome then .error (.repeatedSetting setting)
  else
    match read value with
    | some a => .ok (put a)
    | none => .error (.invalidValue setting value)

/-- A path, which is never empty. -/
def path? (value : String) : Option String := if value.isEmpty then none else some value

/-- An output format by its name. -/
def outputFormat? (value : String) : Option OutputFormat :=
  if value = "text" then some .text else if value = "json" then some .json else none

/-- A log format by its name. -/
def logFormat? (value : String) : Option LogFormat :=
  if value = "pretty" then some .pretty
  else if value = "compact" then some .compact
  else if value = "json" then some .json
  else none

/-- Gives a setting its value, once. -/
def set (i : Invocation) (setting : Setting) (value : String) : Except UsageError Invocation :=
  match setting with
  | .file => assign setting value i.file path? fun v => { i with file := some v }
  | .config => assign setting value i.config path? fun v => { i with config := some v }
  | .format => assign setting value i.format outputFormat? fun v => { i with format := some v }
  | .logLevel => assign setting value i.logLevel Level.parse? fun v => { i with logLevel := some v }
  | .logFormat =>
      assign setting value i.logFormat logFormat? fun v => { i with logFormat := some v }

/-- Takes a word as the expression, once. -/
def setExpression (i : Invocation) (word : String) : Except UsageError Invocation :=
  if i.expression.isSome then .error (.extraArgument word)
  else .ok { i with expression := some word }

/-- Asks for a worker, once. -/
def setThreaded (i : Invocation) : Except UsageError Invocation :=
  if i.threaded then .error (.repeatedSwitch .threaded) else .ok { i with threaded := true }

/-- The request, when all words have been read. -/
def request (i : Invocation) : Except UsageError Request :=
  if i.expression.isSome && i.file.isSome then .error .expressionWithFile else .ok (.lex i)

/-- Reads the words after `--`. -/
def readOperands (i : Invocation) (words : List String) : Except UsageError Request := do
  (← words.foldlM setExpression i).request

/-- A word that cannot be the value of the flag before it. -/
def isFlag (word : String) : Bool :=
  match Word.ofString word with
  | .operand _ => false
  | _ => true

/-- Reads words up to the end, or up to the first that decides. -/
def read (i : Invocation) : List String → Except UsageError Request
  | [] => i.request
  | word :: rest =>
      match Word.ofString word with
      | .separator => i.readOperands rest
      | .operand text => do (← i.setExpression text).read rest
      | .setting s (some value) => do (← i.set s value).read rest
      | .setting s none =>
          match rest with
          | value :: rest =>
              if isFlag value then .error (.missingValue s)
              else do (← i.set s value).read rest
          | [] => .error (.missingValue s)
      | .switch s true => .error (.unexpectedValue s)
      | .switch .threaded false => do (← i.setThreaded).read rest
      | .switch .help false => .ok .help
      | .switch .version false => .ok .version
      | .unknown text => .error (.unknownFlag text)

end Invocation

/-- What a command line asks for. -/
def Request.ofArguments (arguments : List String) : Except UsageError Request :=
  Invocation.read {} arguments

end Formula.Command
