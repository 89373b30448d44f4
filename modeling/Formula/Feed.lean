import Formula.Failure
import Formula.Pipe.Basic
import Formula.Run.Settings

/-!
# `Formula.Feed` — tokens directly or through a worker

The settings of a run say whether a source is lexed on request or by a worker; the tokens and the
outcome are the same.

## Contents
- **Feeds.** `Feed`, `Feed.start`, `next`, `finish`, `toList`.
- **Whole sources.** `collect`, `tokenize`.
-/

namespace Formula

/-! ## Feeds -/

/-- Where tokens come from. -/
inductive Feed where
  /-- A lexer that runs on request. -/
  | direct (lexer : Lexer)
  /-- A worker that runs ahead. -/
  | piped (pipe : Pipe)

namespace Feed

/-- Starts on a source as the settings ask; only a worker's queue needs room. -/
def start (source : String) (settings : RunSettings) : Except NoRoom Feed :=
  let lexer := Lexer.ofString source
  if settings.threaded then (Pipe.spawn lexer settings.capacity).map .piped
  else .ok (.direct lexer)

/-- The source text. -/
def source : Feed → String
  | .direct l => l.source
  | .piped p => p.source

/-- The next token, or nothing after the last one. -/
def next : Feed → Option Token × Feed
  | .direct l =>
      let (t, l') := l.next
      (t, .direct l')
  | .piped p =>
      let (t, p') := p.receive
      (t, .piped p')

/-- A bound on the tokens that can still come. -/
def weight : Feed → Nat
  | .direct l => l.weight
  | .piped p => p.weight

/-- Taking a token lowers the weight. -/
theorem next_weight_lt {f f' : Feed} {t : Token} (h : f.next = (some t, f')) :
    f'.weight < f.weight := by
  cases f with
  | direct l =>
      cases hn : l.next with
      | mk o l' =>
          simp only [next, hn, Prod.mk.injEq] at h
          obtain ⟨rfl, rfl⟩ := h
          exact Lexer.next_weight_lt hn
  | piped p =>
      cases hn : p.receive with
      | mk o p' =>
          simp only [next, hn, Prod.mk.injEq] at h
          obtain ⟨rfl, rfl⟩ := h
          exact Pipe.receive_weight_lt hn

/-- Ends the taking of tokens; fails when the report of an error was among those taken. -/
def finish : Feed → Except Failure Unit
  | .direct l =>
      match l.error with
      | some e => .error (.lexing e)
      | none => .ok ()
  | .piped p => p.finish.mapError .lexing

/-- All tokens that are still to come. -/
def toList (f : Feed) : List Token :=
  match _h : f.next with
  | (some t, f') => t :: f'.toList
  | (none, _) => []
termination_by f.weight
decreasing_by exact next_weight_lt _h

/-! ## Whole sources -/

/-- The tokens up to the last one or up to the report of an error, without that report, and the feed
    after them. -/
def untilError (f : Feed) : List Token × Feed :=
  match _h : f.next with
  | (some t, f') =>
      if t.isError then ([], f')
      else
        let (ts, last) := f'.untilError
        (t :: ts, last)
  | (none, f') => ([], f')
termination_by f.weight
decreasing_by exact next_weight_lt _h

/-- All tokens that are still to come, or the failure that ends them. -/
def collect (f : Feed) : Except Failure (List Token) :=
  let run := f.untilError
  match run.2.finish with
  | .ok () => .ok run.1
  | .error failure => .error failure

end Feed

/-- All tokens of a source, the end of the source included, or the failure that ended the run. -/
def tokenize (source : String) (settings : RunSettings) :
    Except NoRoom (Except Failure (List Token)) :=
  (Feed.start source settings).map Feed.collect

end Formula
