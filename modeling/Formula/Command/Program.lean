import Formula.Command.Arguments
import Formula.Command.Environment
import Formula.Config.Decode
import Formula.Feed
import Formula.Lexer.Trace
import Formula.Source.Excerpt
import Formula.Token.Record

/-!
# `Formula.Command.Program` — the command that prints tokens

The command reads its configuration, then its source, and prints the tokens of the source. Log
records and errors go to the error output. An expression on the command line comes before a file,
and a file before the standard input.

## Contents
- **Outcomes.** `Outcome`, `Outcome.failed`, `Outcome.aborted`.
- **Texts.** `versionText`, `helpText`.
- **Reading.** `loadConfig`, `Invocation.override`, `readSource`.
- **Printing.** `records`, `printTokens`, `printFailure`, `lexSource`.
- **Running.** `run`.
-/

namespace Formula.Command

open Log

/-! ## Outcomes -/

/-- What a run of the command leaves. -/
structure Outcome where
  exitCode : Nat
  output : String
  errors : String
deriving DecidableEq, Repr

/-- The command could not get what it needs. -/
def Outcome.failed (message : String) : Outcome := ⟨1, "", s!"Error: {message}\n"⟩

/-- The command ran out of room; the log up to then is kept. -/
def Outcome.aborted (log : String) : Outcome := ⟨101, "", log ++ "capacity overflow\n"⟩

/-! ## Texts -/

/-- What the command says about its version. -/
def versionText : String := "mathex 0.1.0\n"

/-- How the command is used. -/
def helpText : String :=
  String.join (List.map (· ++ "\n")
    ["Mathex expression lexer",
      "",
      "Usage: mathex [OPTIONS] [EXPR]",
      "",
      "Arguments:",
      "  [EXPR]  Expression to lex (reads stdin when neither EXPR nor --file is given)",
      "",
      "Options:",
      "  -f, --file <PATH>          Read the expression from a file",
      "  -c, --config <PATH>        Configuration file (JSON)",
      "      --format <FORMAT>      Token output format: text, json",
      "      --threaded             Run the lexer on a worker thread",
      "      --log-level <LEVEL>    Log level: silent, error, warn, info, debug, trace",
      "      --log-format <FORMAT>  Log output format: pretty, compact, json",
      "  -h, --help                 Print help",
      "  -V, --version              Print version"])

/-! ## Reading -/

/-- The configuration in a file, or the default without one. -/
def loadConfig {m : Type → Type} [Monad m] (env : Environment m) :
    Option String → m (Except String Config)
  | none => return .ok {}
  | some path => do
      match ← env.fileText path with
      | .error e => return .error s!"cannot read '{path}': {e.message}"
      | .ok text =>
          match Config.parse? text with
          | some config => return .ok config
          | none => return .error s!"cannot parse '{path}': not a configuration"

/-- What the command line says comes before what the configuration says. -/
def Invocation.override (i : Invocation) (config : Config) : Config :=
  { lexer := { config.lexer with threaded := i.threaded || config.lexer.threaded }
    logging := { config.logging with level := i.logLevel.getD config.logging.level } }

/-- The source: the expression, else a file, else the standard input. -/
def readSource {m : Type → Type} [Monad m] (env : Environment m) (i : Invocation) :
    m (Except String String) := do
  match i.expression, i.file with
  | some expression, _ => return .ok expression
  | none, some path =>
      return (← env.fileText path).mapError fun e => s!"cannot read '{path}': {e.message}"
  | none, none => return (← env.inputText).mapError fun e => s!"cannot read stdin: {e.message}"

/-! ## Printing -/

/-- The log records of lexing a source, in order; they end early when the worker's queue finds no
    room. -/
def records (settings : RunSettings) (source : String) : List LogRecord :=
  let threaded := if settings.threaded then "true" else "false"
  let capacity := [("capacity", Json.Scalar.number settings.capacity)]
  let asking : List LogRecord :=
    [⟨.info, .cli, "Lexing input", [("threaded", .text threaded)]⟩]
      ++ if settings.threaded then
          [⟨.debug, .lexer, "Using threaded token stream", capacity⟩]
        else []
  let spawning : List LogRecord :=
    if settings.threaded then [⟨.debug, .lexer, "Spawning lexer worker", capacity⟩] else []
  let lexing : List LogRecord :=
    [⟨.info, .lexer, "Starting tokenization", [("bytes", .number source.utf8ByteSize)]⟩]
      ++ (Lexer.ofString source).events.map Lexer.Event.record
  match tokenize source settings with
  | .error _ => asking
  | .ok (.error _) => asking ++ spawning ++ lexing
  | .ok (.ok tokens) =>
      asking ++ spawning ++ lexing
        ++ [⟨.info, .lexer, "Tokenization completed", [("tokens", .number tokens.length)]⟩]

/-- What is printed for tokens. -/
def printTokens (format : OutputFormat) (tokens : List Token) : String :=
  match format with
  | .text => Token.listText tokens
  | .json => Token.listJson tokens

/-- What is said about a failure: the report, and the place in the source if there is one. -/
def describeFailure (failure : Failure) (source : String) : String :=
  let place :=
    match failure.line, failure.column with
    | some line, some column => (Source.excerpt source line column).getD ""
    | _, _ => ""
  s!"error: {failure.report.display}\n" ++ place

/-- What is printed for a failure: nothing, or the report as JSON. -/
def printFailure (format : OutputFormat) (failure : Failure) : String :=
  match format with
  | .text => ""
  | .json => failure.report.json ++ "\n"

/-- Prints the tokens of a source, or says why there are none. -/
def lexSource (i : Invocation) (config : Config) (source : String) : Outcome :=
  let format := i.format.getD .text
  let log := journal config.logging (i.logFormat.getD .compact) (records config.lexer source)
  match tokenize source config.lexer with
  | .ok (.ok tokens) => ⟨0, printTokens format tokens, log⟩
  | .ok (.error failure) =>
      ⟨1, printFailure format failure, log ++ describeFailure failure source⟩
  | .error _ => .aborted log

/-! ## Running -/

/-- Carries out an invocation. -/
def Invocation.run {m : Type → Type} [Monad m] (env : Environment m) (i : Invocation) :
    m Outcome := do
  match ← loadConfig env i.config with
  | .error message => return .failed message
  | .ok config =>
      match ← readSource env i with
      | .error message => return .failed message
      | .ok source => return lexSource i (i.override config) source

/-- Runs the command with the given arguments. -/
def run {m : Type → Type} [Monad m] (env : Environment m) (arguments : List String) :
    m Outcome :=
  match Request.ofArguments arguments with
  | .error e => return ⟨2, "", s!"error: {e.message}\n"⟩
  | .ok .help => return ⟨0, helpText, ""⟩
  | .ok .version => return ⟨0, versionText, ""⟩
  | .ok (.lex i) => i.run env

end Formula.Command
