import Formula.Lexer.Basic
import Formula.Room

/-!
# `Formula.Pipe.Basic` — tokens through a bounded queue

A worker runs a lexer and puts its tokens into a queue of limited capacity; a consumer takes them
out. Each side moves on its own: the worker waits while the queue is full, the consumer while it is
empty. The queue ends when the worker has ended and everything was taken. A consumer that has seen
enough closes the queue; the worker's next attempt to put in a token then fails and ends it.

The worker's own moves are `advance`, the consumer's are `take` and `close`. `receive` and `finish`
are the consumer waiting: they let the worker move until the consumer can.

## Contents
- **Pipes.** `Worker`, `Pipe`, `ofLexer`; `spawn`, which asks for room for the queue, with
  `spawn_eq_ok_iff`.
- **Moves.** `advance`, `take`, `close`.
- **Measure.** `weight`; `advance_weight_lt`, `take_weight_lt`.
- **Waiting.** `receive`, `join`, `finish`, `toList`.
-/

namespace Formula

/-! ## Pipes -/

/-- What the worker is doing. -/
inductive Worker where
  /-- It is about to ask the lexer for a token. -/
  | lexing (lexer : Lexer)
  /-- It holds a token that has to go into the queue. -/
  | sending (token : Token) (lexer : Lexer)
  /-- It has ended, with the error that its lexer had met. -/
  | ended (error : Option LexError)
deriving Repr

/-- What a worker can still do: each token costs it two moves and the consumer one. -/
def Worker.weight : Worker → Nat
  | .lexing l => 3 * l.weight + 1
  | .sending _ l => 3 * l.weight + 3
  | .ended _ => 0

/-- A worker, the queue between it and the consumer, and what the consumer has seen. -/
structure Pipe where
  source : String
  capacity : Nat
  worker : Worker
  queue : List Token
  /-- The consumer has closed the queue. -/
  closed : Bool
  /-- The consumer has taken the report of an error. -/
  errorTaken : Bool
  /-- The queue can hold a token. -/
  capacity_pos : 0 < capacity

namespace Pipe

/-- A worker with this lexer, before its first move. The queue holds at least one token, whatever
    capacity is asked for. -/
def ofLexer (lexer : Lexer) (capacity : Nat) : Pipe where
  source := lexer.source
  capacity := max capacity 1
  worker := .lexing lexer
  queue := []
  closed := false
  errorTaken := false
  capacity_pos := by omega

/-- How many bytes a place of the queue takes: 32 for the token, and a word that says whose turn it
    is. -/
def placeBytes : Nat := 40

/-- Hands a lexer to a worker, if there is room for all places of the queue. -/
def spawn (lexer : Lexer) (capacity : Nat) : Except NoRoom Pipe :=
  (requireRoom (max capacity 1) placeBytes).map fun _ => ofLexer lexer capacity

/-- A worker is started exactly when the whole queue fits into a block of memory. -/
theorem spawn_eq_ok_iff {lexer : Lexer} {capacity : Nat} {p : Pipe} :
    spawn lexer capacity = .ok p ↔
      max capacity 1 * placeBytes ≤ blockLimit ∧ p = ofLexer lexer capacity := by
  unfold spawn
  cases h : requireRoom (max capacity 1) placeBytes with
  | ok u =>
      have hle := requireRoom_eq_ok_iff.1 h
      constructor
      · intro hp
        cases hp
        exact ⟨hle, rfl⟩
      · rintro ⟨_, rfl⟩
        rfl
  | error e =>
      constructor
      · intro hp
        cases hp
      · rintro ⟨hle, _⟩
        rw [requireRoom_eq_ok_iff.2 hle] at h
        cases h

/-! ## Moves -/

/-- One move of the worker, or nothing when it has to wait or has ended. -/
def advance (p : Pipe) : Option Pipe :=
  match p.worker with
  | .lexing l =>
      match l.next with
      | (some t, l') => some { p with worker := .sending t l' }
      | (none, l') => some { p with worker := .ended l'.error }
  | .sending t l =>
      if p.closed then some { p with worker := .ended l.error }
      else if p.queue.length < p.capacity then
        some { p with worker := .lexing l, queue := p.queue ++ [t] }
      else none
  | .ended _ => none

/-- The consumer takes the oldest token, or learns that there will be none; nothing when it has to
    wait. -/
def take (p : Pipe) : Option (Option Token × Pipe) :=
  match p.queue with
  | t :: rest => some (some t, { p with queue := rest, errorTaken := p.errorTaken || t.isError })
  | [] =>
      match p.worker with
      | .ended _ => some (none, p)
      | _ => none

/-- The consumer closes the queue, and what is left in it is lost. -/
def close (p : Pipe) : Pipe := { p with queue := [], closed := true }

/-! ## Measure -/

/-- What worker and consumer can still do before the queue ends. -/
def weight (p : Pipe) : Nat := p.worker.weight + p.queue.length

/-- Every move of the worker lowers the weight. -/
theorem advance_weight_lt {p p' : Pipe} (h : p.advance = some p') : p'.weight < p.weight := by
  unfold advance at h
  split at h
  · next l hw =>
      split at h
      · next t l' hn =>
          cases h
          have := Lexer.next_weight_lt hn
          simp only [weight, hw, Worker.weight]
          omega
      · next l' hn =>
          cases h
          simp only [weight, hw, Worker.weight]
          omega
  · next t l hw =>
      split at h
      · cases h
        simp only [weight, hw, Worker.weight]
        omega
      · split at h
        · cases h
          simp only [weight, hw, Worker.weight, List.length_append, List.length_singleton]
          omega
        · cases h
  · cases h

/-- Taking a token lowers the weight. -/
theorem take_weight_lt {p p' : Pipe} {t : Token} (h : p.take = some (some t, p')) :
    p'.weight < p.weight := by
  unfold take at h
  split at h
  · next u rest hq =>
      cases h
      simp [weight, hq]
  · split at h <;> cases h

/-! ## Waiting -/

/-- Lets the worker move until the consumer can take a token or learns that there is none. -/
def receive (p : Pipe) : Option Token × Pipe :=
  match p.take with
  | some r => r
  | none =>
      match _h : p.advance with
      | some p' => p'.receive
      | none => (none, p)
termination_by p.weight
decreasing_by exact advance_weight_lt _h

/-- Lets the worker move until it has ended, and hands out the error that its lexer had met. -/
def join (p : Pipe) : Option LexError :=
  match p.worker with
  | .ended e => e
  | _ =>
      match _h : p.advance with
      | some p' => p'.join
      | none => none
termination_by p.weight
decreasing_by exact advance_weight_lt _h

/-- Closes the queue and waits for the worker; an error counts only if its report was taken. -/
def finish (p : Pipe) : Except LexError Unit :=
  match p.close.join with
  | some e => if p.errorTaken then .error e else .ok ()
  | none => .ok ()

/-- Receiving a token lowers the weight. -/
theorem receive_weight_lt {p p' : Pipe} {t : Token} (h : p.receive = (some t, p')) :
    p'.weight < p.weight := by
  fun_induction receive p with
  | case1 p r hr =>
      subst h
      exact take_weight_lt hr
  | case2 p hr q hq ih =>
      have := ih h
      have := advance_weight_lt hq
      omega
  | case3 => cases h

/-- All tokens that are still to be received. -/
def toList (p : Pipe) : List Token :=
  match _h : p.receive with
  | (some t, p') => t :: p'.toList
  | (none, _) => []
termination_by p.weight
decreasing_by exact receive_weight_lt _h

end Pipe

end Formula
