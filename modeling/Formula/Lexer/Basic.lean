import Formula.Lexer.State

/-!
# `Formula.Lexer.Basic` — from a source text to its tokens

A lexer runs its states one after the other. Tokens are produced on request: `next` runs only until
there is one to hand out. The last token is the end of the source or the report of an error, and
nothing follows it.

Every step lowers the *work* that is left, which counts the characters ahead and the hand-overs that
can still follow; so each request ends, and so does the whole run.

## Contents
- **Lexers.** `Mode`, `Lexer`, `ofString`, `source`, `isFinished`, `error`.
- **Steps.** `step`, `work`, `step_work_lt`, and `weight`, which counts tokens not yet taken too.
- **Requests.** `next`, `next_weight_lt`, `toList`.
- **Whole sources.** `tokenize`: all tokens, or the error that ended the run.
-/

namespace Formula

/-! ## Lexers -/

/-- What a lexer does when it is asked for more. -/
inductive Lexer.Mode where
  /-- It goes on in a state. -/
  | active (state : Lexer.State)
  /-- It has reached the end of its run. -/
  | halted
  /-- Its cursor was misused. -/
  | stuck (misuse : Cursor.Misuse)
deriving DecidableEq, Repr

/-- A run of the states over a source text. -/
structure Lexer where
  cursor : Cursor
  tokens : TokenQueue
  mode : Lexer.Mode
deriving Repr

namespace Lexer

/-- A lexer before a source text. -/
def ofString (source : String) : Lexer :=
  ⟨Cursor.ofString source, .empty, .active .dispatch⟩

/-- The source text. -/
def source (l : Lexer) : String := String.ofList l.cursor.text

/-- The lexer will go on in some state. -/
def isActive (l : Lexer) : Bool :=
  match l.mode with
  | .active _ => true
  | _ => false

/-- The run has ended and all its tokens have been taken. -/
def isFinished (l : Lexer) : Bool := !l.isActive && l.tokens.pending.isEmpty

/-- The error that the run has met. -/
def error (l : Lexer) : Option LexError := l.tokens.error

/-! ## Steps -/

/-- Carries out one step of the given state. -/
def step (s : State) (l : Lexer) : Lexer :=
  match s.step l.cursor l.tokens with
  | .ok r =>
      { cursor := r.cursor, tokens := r.tokens,
        mode := match r.state with
          | some s' => .active s'
          | none => .halted }
  | .error fault => { l with cursor := fault.cursor, mode := .stuck fault.misuse }

/-- A bound on the steps that can still follow. -/
def work (l : Lexer) : Nat :=
  match l.mode with
  | .active s => 3 * l.cursor.ahead.length + s.rank + 1
  | _ => 0

/-- A bound on the tokens that can still be taken. -/
def weight (l : Lexer) : Nat := l.work + l.tokens.pending.length

/-- Every step lowers the work, and adds at most one token. -/
theorem step_progress {s : State} {l : Lexer} (h : l.mode = .active s) :
    (l.step s).work < l.work ∧
      (l.step s).tokens.pending.length ≤ l.tokens.pending.length + 1 := by
  have hwork : l.work = 3 * l.cursor.ahead.length + s.rank + 1 := by simp [work, h]
  cases hs : s.step l.cursor l.tokens with
  | error f =>
      have hl : l.step s = { l with cursor := f.cursor, mode := .stuck f.misuse } := by
        simp [step, hs]
      rw [hl, hwork]
      exact ⟨Nat.succ_pos _, Nat.le_succ _⟩
  | ok r =>
      obtain ⟨hdone, hlen⟩ := State.step_progress hs
      obtain ⟨state, cursor, tokens⟩ := r
      cases state with
      | none =>
          have hl : l.step s = ⟨cursor, tokens, .halted⟩ := by simp [step, hs]
          rw [hl, hwork]
          exact ⟨Nat.succ_pos _, hlen⟩
      | some s' =>
          have hl : l.step s = ⟨cursor, tokens, .active s'⟩ := by simp [step, hs]
          rw [hl, hwork]
          have hlt := hdone s' rfl
          exact ⟨Nat.succ_lt_succ hlt, hlen⟩

/-- Every step lowers the work that is left. -/
theorem step_work_lt {s : State} {l : Lexer} (h : l.mode = .active s) :
    (l.step s).work < l.work :=
  (step_progress h).1

/-! ## Requests -/

/-- The next token, or nothing after the last one. -/
def next (l : Lexer) : Option Token × Lexer :=
  match l.tokens.pop with
  | (some t, q) => (some t, { l with tokens := q })
  | (none, _) =>
      match _h : l.mode with
      | .active s => (l.step s).next
      | .halted => (none, l)
      | .stuck _ => (none, l)
termination_by l.work
decreasing_by exact step_work_lt _h

/-- Taking a token leaves fewer to be taken. -/
theorem next_weight_lt {l l' : Lexer} {t : Token} (h : l.next = (some t, l')) :
    l'.weight < l.weight := by
  fun_induction next l with
  | case1 l u q hq =>
      cases h
      unfold TokenQueue.pop at hq
      split at hq
      · cases hq
      · next u rest hpending =>
          cases hq
          simp [weight, work, hpending]
  | case2 l q hq s hs ih =>
      have hstep := step_progress hs
      have := ih h
      simp only [weight] at this ⊢
      omega
  | case3 => cases h
  | case4 => cases h

/-- All tokens that are still to be taken. -/
def toList (l : Lexer) : List Token :=
  match _h : l.next with
  | (some t, l') => t :: l'.toList
  | (none, _) => []
termination_by l.weight
decreasing_by exact next_weight_lt _h

/-! ## Whole sources -/

/-- Takes tokens up to the last one, or up to a recorded error. -/
def collect (l : Lexer) : Except LexError (List Token) :=
  match _h : l.next with
  | (none, _) => .ok []
  | (some t, l') =>
      if t.isError then
        match l'.error with
        | some e => .error e
        | none => return t :: (← l'.collect)
      else return t :: (← l'.collect)
termination_by l.weight
decreasing_by all_goals exact next_weight_lt _h

/-- All tokens of a source, the end of the source included, or the error that ended the run. -/
def tokenize (source : String) : Except LexError (List Token) :=
  (ofString source).collect

end Lexer

end Formula
