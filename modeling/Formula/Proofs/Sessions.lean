import Formula.Proofs.Schedules

/-!
# `Formula.Proofs.Sessions` — worker and consumer never wait for each other

A session is a pipe together with what its consumer is doing. The consumer asks for tokens and waits for
the answers; when it has seen enough, it closes the queue and waits for the worker to end. The two sides
move in turn, in any order. Neither wait is in vain. Where the consumer waits for a token, the queue is
empty, so there is room for the token that the worker holds. Where it waits for the worker to end, the
queue is closed: a worker that was waiting for room meets the closed queue and ends. This rests on the
order of the last two: a worker that waits for room would not end while the queue is open.

What carries the proof is that no token is lost or made up while the queue is open: those that the
consumer has got, those in the queue and those that the worker still has are the tokens of the source
(`Accounts`). Once the queue is closed, each move leaves fewer to be made (`Closing`).

## Contents
- **Sessions.** `Consumer`, `Session`, `Move`, `Step`, `Run`; the tokens `received` in a run.
- **The worker.** `Worker.rest`, what it still has; `advance_eq_none_iff`, where it has to wait, and
  `advance_of_closed`, where it need not.
- **Accounts.** `Accounts.advance`, `Accounts.take` and, for whole runs, `Run.accounts`; with them
  `Step.lex_cases` and `Step.send_cases`.
- **Waiting.** `ClosedByConsumer`, with `ClosedByConsumer.exists_step`.
- **Ends.** `Closing.step`, `Closing.run`; `Run.length_le_weight`, for a worker that moves by itself.
- **Main result.** `session_never_deadlocks`.
-/

namespace Formula

/-! ## Sessions -/

/-- What the consumer is doing. -/
inductive Consumer where
  /-- It is busy with something else. -/
  | away
  /-- It has asked for a token, and waits for the answer. -/
  | receiving
  /-- It has closed the queue, and waits for the worker to end. -/
  | finishing
  /-- It has learned that the worker has ended, and has left. -/
  | gone
deriving DecidableEq, Repr

/-- A pipe and its consumer. -/
structure Session where
  pipe : Pipe
  consumer : Consumer

namespace Session

open Pipe Lexer

/-- What can happen next. -/
inductive Move where
  /-- The worker asks its lexer for a token. -/
  | lex
  /-- The worker attempts to put the token that it holds into the queue. -/
  | send
  /-- The consumer asks for a token. -/
  | ask
  /-- The consumer gets the answer. -/
  | answer (token : Option Token)
  /-- The consumer closes the queue. -/
  | close
  /-- The consumer learns that the worker has ended. -/
  | leave
deriving DecidableEq, Repr

/-- A session before the first move. -/
def ofLexer (lexer : Lexer) (capacity : Nat) : Session := ⟨Pipe.ofLexer lexer capacity, .away⟩

/-- One move of either side. -/
inductive Step : Session → Move → Session → Prop where
  | lex {p p' : Pipe} {c : Consumer} {l : Lexer} (hw : p.worker = .lexing l)
      (hmove : p.advance = some p') : Step ⟨p, c⟩ .lex ⟨p', c⟩
  | send {p p' : Pipe} {c : Consumer} {t : Token} {l : Lexer} (hw : p.worker = .sending t l)
      (hmove : p.advance = some p') : Step ⟨p, c⟩ .send ⟨p', c⟩
  | ask {p : Pipe} : Step ⟨p, .away⟩ .ask ⟨p, .receiving⟩
  | answer {p p' : Pipe} {r : Option Token} (htake : p.take = some (r, p')) :
      Step ⟨p, .receiving⟩ (.answer r) ⟨p', .away⟩
  | close {p : Pipe} : Step ⟨p, .away⟩ .close ⟨p.close, .finishing⟩
  | leave {p : Pipe} {e : Option LexError} (hw : p.worker = .ended e) :
      Step ⟨p, .finishing⟩ .leave ⟨p, .gone⟩

/-- Moves of both sides, in some order. -/
inductive Run (s₀ : Session) : List Move → Session → Prop where
  | start : Run s₀ [] s₀
  | step {ms : List Move} {m : Move} {s s' : Session} (h : Run s₀ ms s) (hstep : Step s m s') :
      Run s₀ (ms ++ [m]) s'

/-- The token that the consumer gets by a move, if it gets one. -/
def Move.got : Move → List Token
  | .answer r => r.toList
  | _ => []

/-- The tokens that the consumer has got. -/
def received (ms : List Move) : List Token := ms.flatMap Move.got

end Session

/-! ## The worker -/

/-- The tokens that a worker has not put into the queue yet. -/
def Worker.rest : Worker → List Token
  | .lexing l => l.toList
  | .sending t l => t :: l.toList
  | .ended _ => []

/-- A bound on the moves that a worker makes once the queue is closed. -/
def Worker.moves : Worker → Nat
  | .lexing _ => 2
  | .sending _ _ => 1
  | .ended _ => 0

/-- A bound on the attempts to put a token into the queue among them. -/
def Worker.attempts : Worker → Nat
  | .ended _ => 0
  | _ => 1

theorem Worker.moves_le (w : Worker) : w.moves ≤ 2 := by
  cases w <;> simp [Worker.moves]

theorem Worker.attempts_le (w : Worker) : w.attempts ≤ 1 := by
  cases w <;> simp [Worker.attempts]

theorem Worker.exists_of_attempts_eq_zero {w : Worker} (h : w.attempts = 0) : ∃ e, w = .ended e := by
  cases w with
  | ended e => exact ⟨e, rfl⟩
  | _ => cases h

namespace Pipe

open Lexer

variable {p p' : Pipe} {r : Option Token} {tokens got : List Token} {n : Nat}

/-- A worker has to wait only where it has ended, or where it holds a token and the queue is open and
    full. -/
theorem advance_eq_none_iff :
    p.advance = none ↔
      (∃ e, p.worker = .ended e) ∨
        ∃ t l, p.worker = .sending t l ∧ p.closed = false ∧ p.capacity ≤ p.queue.length := by
  cases hw : p.worker with
  | lexing l =>
      cases hn : l.next with
      | mk r l' =>
          cases r with
          | some t => simp [advance_of_token hw hn]
          | none => simp [advance_of_end hw hn]
  | sending t l =>
      cases hclosed : p.closed with
      | true => simp [advance, hw, hclosed]
      | false => simp [advance, hw, hclosed]
  | ended e => simp [advance, hw]

theorem closed_of_advance (hmove : p.advance = some p') : p'.closed = p.closed := by
  rcases advance_cases hmove with ⟨l, t, l', -, -, rfl⟩ | ⟨l, l', -, -, rfl⟩ |
    ⟨t, l, -, -, rfl⟩ | ⟨t, l, -, -, -, rfl⟩
  all_goals rfl

theorem closed_of_take (htake : p.take = some (r, p')) : p'.closed = p.closed := by
  rcases take_cases htake with ⟨t, rest, -, -, rfl⟩ | ⟨e, -, -, -, rfl⟩
  all_goals rfl

/-- Once the queue is closed, the worker puts nothing in, and each of its moves leaves fewer to be made. -/
theorem advance_of_closed (hclosed : p.closed = true) (hmove : p.advance = some p') :
    p'.queue = p.queue ∧ p'.worker.moves < p.worker.moves ∧
      p'.worker.attempts ≤ p.worker.attempts := by
  rcases advance_cases hmove with ⟨l, t, l', hw, -, rfl⟩ | ⟨l, l', hw, -, rfl⟩ |
    ⟨t, l, hw, -, rfl⟩ | ⟨t, l, hw, hopen, -, -⟩
  · simp [hw, Worker.moves, Worker.attempts]
  · simp [hw, Worker.moves, Worker.attempts]
  · simp [hw, Worker.moves, Worker.attempts]
  · cases hclosed.symm.trans hopen

/-! ## Accounts -/

/-- What holds of a pipe at any time when the consumer has got these tokens. -/
structure Accounts (tokens : List Token) (n : Nat) (got : List Token) (p : Pipe) : Prop where
  capacity_eq : p.capacity = max n 1
  length_le : p.queue.length ≤ p.capacity
  queue_eq_nil : p.closed = true → p.queue = []
  /-- While the queue is open, no token is lost or made up. -/
  tokens_eq : p.closed = false → got ++ (p.queue ++ p.worker.rest) = tokens

theorem accounts_ofLexer (l : Lexer) (n : Nat) : Accounts l.toList n [] (ofLexer l n) :=
  ⟨rfl, Nat.zero_le _, fun _ => rfl, fun _ => rfl⟩

/-- Every move of the worker keeps the accounts. -/
theorem Accounts.advance (h : Accounts tokens n got p) (hmove : p.advance = some p') :
    Accounts tokens n got p' := by
  obtain ⟨hcapacity, hlength, hnil, htokens⟩ := h
  rcases advance_cases hmove with ⟨l, t, l', hw, hn, rfl⟩ | ⟨l, l', hw, hn, rfl⟩ |
    ⟨t, l, hw, hclosed, rfl⟩ | ⟨t, l, hw, hopen, hroom, rfl⟩
  · refine ⟨hcapacity, hlength, hnil, ?_⟩
    intro hopen
    rw [← htokens hopen]
    simp only [hw, Worker.rest, toList_of_some hn]
  · refine ⟨hcapacity, hlength, hnil, ?_⟩
    intro hopen
    rw [← htokens hopen]
    simp only [hw, Worker.rest, toList_of_none hn]
  · refine ⟨hcapacity, hlength, hnil, ?_⟩
    intro hopen
    cases hclosed.symm.trans hopen
  · -- the token goes from the worker to the queue
    refine ⟨hcapacity, ?_, ?_, ?_⟩
    · rw [List.length_append, List.length_singleton]
      exact hroom
    · intro hclosed
      cases hclosed.symm.trans hopen
    · intro _
      rw [← htokens hopen]
      simp [hw, Worker.rest]

/-- What the consumer takes from the queue it has got. -/
theorem Accounts.take (h : Accounts tokens n got p) (htake : p.take = some (r, p')) :
    Accounts tokens n (got ++ r.toList) p' := by
  obtain ⟨hcapacity, hlength, hnil, htokens⟩ := h
  rcases take_cases htake with ⟨t, rest, hq, rfl, rfl⟩ | ⟨e, hq, -, rfl, rfl⟩
  · rw [hq] at hlength hnil htokens
    refine ⟨hcapacity, Nat.le_of_succ_le hlength, ?_, ?_⟩
    · intro hclosed
      cases hnil hclosed
    · intro hopen
      rw [← htokens hopen]
      simp
  · rw [Option.toList_none, List.append_nil]
    exact ⟨hcapacity, hlength, hnil, htokens⟩

theorem Accounts.close (h : Accounts tokens n got p) : Accounts tokens n got p.close :=
  ⟨h.capacity_eq, Nat.zero_le _, fun _ => rfl, nofun⟩

end Pipe

namespace Session

open Pipe Lexer

variable {s s' : Session} {m : Move} {ms : List Move} {p p' : Pipe} {c : Consumer}
variable {tokens got : List Token} {n : Nat}

/-- Every move of either side keeps the accounts. -/
theorem Step.accounts (hstep : Step s m s') (h : Accounts tokens n got s.pipe) :
    Accounts tokens n (got ++ m.got) s'.pipe := by
  cases hstep with
  | lex _ hmove => simpa only [Move.got, List.append_nil] using h.advance hmove
  | send _ hmove => simpa only [Move.got, List.append_nil] using h.advance hmove
  | ask => simpa only [Move.got, List.append_nil] using h
  | answer htake => exact h.take htake
  | close => simpa only [Move.got, List.append_nil] using h.close
  | leave _ => simpa only [Move.got, List.append_nil] using h

/-- Every run keeps the accounts. -/
theorem Run.accounts (hrun : Run s ms s') (h : Accounts tokens n got s.pipe) :
    Accounts tokens n (got ++ received ms) s'.pipe := by
  induction hrun with
  | start => simpa [received] using h
  | step _ hstep ih =>
      have hnext := hstep.accounts ih
      rwa [List.append_assoc, received, ← List.flatMap_singleton Move.got, ← List.flatMap_append] at hnext

/-- Asking its lexer, the worker puts nothing in yet: it holds a token then, or has ended after the last
    one. -/
theorem Step.lex_cases (hstep : Step s .lex s') (h : Accounts tokens n got s.pipe) :
    s'.pipe.queue = s.pipe.queue ∧
      ((∃ t l, s'.pipe.worker = .sending t l) ∨
        (∃ e, s'.pipe.worker = .ended e) ∧ (s.pipe.closed = false → got ++ s.pipe.queue = tokens)) := by
  have hafter := (hstep.accounts h).tokens_eq
  cases hstep with
  | lex hw hmove =>
      rcases advance_cases hmove with ⟨l, t, l', -, -, rfl⟩ | ⟨l, l', -, -, rfl⟩ |
        ⟨t, l, hw', -, -⟩ | ⟨t, l, hw', -, -, -⟩
      · exact ⟨rfl, Or.inl ⟨t, l', rfl⟩⟩
      · refine ⟨rfl, Or.inr ⟨⟨_, rfl⟩, ?_⟩⟩
        simpa only [Move.got, Worker.rest, List.append_nil] using hafter
      · cases hw.symm.trans hw'
      · cases hw.symm.trans hw'

/-- An attempt puts in the token that the worker holds, the next one of the source; only where the queue is
    closed it ends the worker instead. -/
theorem Step.send_cases (hstep : Step s .send s') (h : Accounts tokens n got s.pipe) :
    (∃ t l, s.pipe.worker = .sending t l ∧ s'.pipe.worker = .lexing l ∧
        s'.pipe.queue = s.pipe.queue ++ [t] ∧ got ++ s'.pipe.queue <+: tokens) ∨
      (∃ e, s'.pipe.worker = .ended e) ∧ s.pipe.closed = true := by
  have hafter := (hstep.accounts h).tokens_eq
  cases hstep with
  | send hw hmove =>
      rcases advance_cases hmove with ⟨l, t, l', hw', -, -⟩ | ⟨l, l', hw', -, -⟩ |
        ⟨t, l, -, hclosed, rfl⟩ | ⟨t, l, hw', hopen, -, rfl⟩
      · cases hw.symm.trans hw'
      · cases hw.symm.trans hw'
      · exact Or.inr ⟨⟨_, rfl⟩, hclosed⟩
      · refine Or.inl ⟨t, l, hw', rfl, rfl, l.toList, ?_⟩
        rw [← hafter hopen]
        simp [Move.got, Worker.rest]

/-! ## Waiting -/

/-- The queue is closed since the consumer has closed it. -/
def ClosedByConsumer (s : Session) : Prop :=
  s.pipe.closed = true ↔ s.consumer = .finishing ∨ s.consumer = .gone

theorem closedByConsumer_ofLexer (l : Lexer) (n : Nat) : (ofLexer l n).ClosedByConsumer := by
  simp [ClosedByConsumer, ofLexer, Pipe.ofLexer]

theorem Step.closedByConsumer (hstep : Step s m s') (h : s.ClosedByConsumer) : s'.ClosedByConsumer := by
  unfold ClosedByConsumer at h ⊢
  cases hstep with
  | lex _ hmove => rwa [closed_of_advance hmove]
  | send _ hmove => rwa [closed_of_advance hmove]
  | ask => simpa using h
  | answer htake =>
      rw [closed_of_take htake]
      simpa using h
  | close => simp [Pipe.close]
  | leave _ => simpa using h

theorem Run.closedByConsumer (hrun : Run s ms s') (h : s.ClosedByConsumer) : s'.ClosedByConsumer := by
  induction hrun with
  | start => exact h
  | step _ hstep ih => exact hstep.closedByConsumer ih

/-- A worker that can move is a side that can move. -/
theorem exists_step_of_advance (h : p.advance ≠ none) : ∃ m s', Step ⟨p, c⟩ m s' := by
  obtain ⟨p', hmove⟩ := Option.ne_none_iff_exists'.1 h
  cases hw : p.worker with
  | lexing l => exact ⟨.lex, _, .lex hw hmove⟩
  | sending t l => exact ⟨.send, _, .send hw hmove⟩
  | ended e => exact absurd (advance_eq_none_iff.2 (Or.inl ⟨e, hw⟩)) h

/-- Where the consumer waits, it gets its answer, or the worker can move. -/
theorem ClosedByConsumer.exists_step (h : s.ClosedByConsumer)
    (hwait : s.consumer = .receiving ∨ s.consumer = .finishing) : ∃ m s', Step s m s' := by
  obtain ⟨p, c⟩ := s
  unfold ClosedByConsumer at h
  rcases hwait with rfl | rfl
  · have hopen : p.closed = false := by simpa using h
    cases htake : p.take with
    | some r => exact ⟨_, _, .answer htake⟩
    | none => exact exists_step_of_advance (advance_ne_none hopen htake)
  · have hclosed : p.closed = true := h.2 (Or.inl rfl)
    cases hw : p.worker with
    | ended e => exact ⟨_, _, .leave hw⟩
    | _ =>
        -- a worker that holds a token meets the closed queue, full as it was
        apply exists_step_of_advance
        rw [Ne, advance_eq_none_iff]
        simp [hw, hclosed]

/-! ## Ends -/

/-- The consumer has closed the queue, and nothing is in it. -/
structure Closing (s : Session) : Prop where
  consumer : s.consumer = .finishing ∨ s.consumer = .gone
  closed : s.pipe.closed = true
  queue_eq_nil : s.pipe.queue = []

/-- A bound on the moves that follow once the queue is closed. -/
def left (s : Session) : Nat := s.pipe.worker.moves + if s.consumer = .finishing then 1 else 0

theorem left_le (s : Session) : s.left ≤ 3 := by
  have hmoves := s.pipe.worker.moves_le
  unfold left
  split <;> omega

/-- Once the queue is closed, each move leaves fewer to be made, and an attempt to put in a token leaves
    none. -/
theorem Closing.step (h : Closing s) (hstep : Step s m s') :
    Closing s' ∧ s'.left + 1 ≤ s.left ∧
      s'.pipe.worker.attempts + [m].count .send ≤ s.pipe.worker.attempts := by
  obtain ⟨hconsumer, hclosed, hnil⟩ := h
  cases hstep with
  | lex hw hmove =>
      obtain ⟨hqueue, hmoves, hattempts⟩ := advance_of_closed hclosed hmove
      have hclosed' := (closed_of_advance hmove).trans hclosed
      exact ⟨⟨hconsumer, hclosed', hqueue.trans hnil⟩, Nat.add_lt_add_right hmoves _, hattempts⟩
  | send hw hmove =>
      obtain ⟨hqueue, hmoves, -⟩ := advance_of_closed hclosed hmove
      have hclosed' := (closed_of_advance hmove).trans hclosed
      refine ⟨⟨hconsumer, hclosed', hqueue.trans hnil⟩, Nat.add_lt_add_right hmoves _, ?_⟩
      -- the attempt fails, and ends the worker
      obtain rfl := Option.some.inj ((advance_of_refused hw hclosed).symm.trans hmove)
      simp [hw, Worker.attempts]
  | ask => simp at hconsumer
  | answer htake => simp at hconsumer
  | close => simp at hconsumer
  | leave hw => exact ⟨⟨Or.inr rfl, hclosed, hnil⟩, by simp [left], Nat.le_refl _⟩

/-- Once the queue is closed, few moves are left, and at most one attempt to put in a token. -/
theorem Closing.run (h : Closing s) (hrun : Run s ms s') :
    Closing s' ∧ s'.left + ms.length ≤ s.left ∧
      s'.pipe.worker.attempts + ms.count .send ≤ s.pipe.worker.attempts := by
  induction hrun with
  | start => exact ⟨h, Nat.le_refl _, Nat.le_refl _⟩
  | step _ hstep ih =>
      obtain ⟨hclosing, hleft, hattempts⟩ := ih
      obtain ⟨hclosing', hleft', hattempts'⟩ := hclosing.step hstep
      refine ⟨hclosing', ?_, ?_⟩
      · rw [List.length_append, List.length_singleton]
        omega
      · rw [List.count_append]
        omega

/-- A worker that moves by itself comes to an end. -/
theorem Run.length_le_weight (h : Run s ms s') (hworker : ∀ m ∈ ms, m = .lex ∨ m = .send) :
    ms.length + s'.pipe.weight ≤ s.pipe.weight := by
  induction h with
  | start => simp
  | @step ms m s₁ s₂ _ hstep ih =>
      have hbefore := ih fun m hm => hworker m (List.mem_append_left _ hm)
      have hlt : s₂.pipe.weight < s₁.pipe.weight := by
        rcases hworker m (List.mem_append_right _ List.mem_cons_self) with rfl | rfl
        · cases hstep with
          | lex _ hmove => exact advance_weight_lt hmove
        · cases hstep with
          | send _ hmove => exact advance_weight_lt hmove
      rw [List.length_append, List.length_singleton]
      omega

/-! ## Main result -/

/-- Whatever the source, the capacity and the order of moves: the queue never holds more tokens than its
    capacity, or one. Where the consumer waits, for a token or for the end of the worker, there is a move
    to be made, and the worker by itself cannot go on making moves for ever. A turn of the worker has two
    moves. With the first it gets a token, or ends since there is none left; with the second it puts this
    token in, the next one of the source after those that the consumer has got and those in the queue, or
    ends since the queue is closed. Once the consumer has closed the queue, at most three moves follow, the
    consumer's last one among them; nothing is put in any more, and there is at most one more attempt,
    which ends the worker. -/
theorem session_never_deadlocks (source : String) (n : Nat) (ms : List Move) (s : Session)
    (h : Run (ofLexer (ofString source) n) ms s) :
    s.pipe.queue.length ≤ max n 1 ∧
      (s.consumer = .receiving ∨ s.consumer = .finishing → ∃ m s', Step s m s') ∧
      (∀ ms' s', Run s ms' s' → (∀ m ∈ ms', m = .lex ∨ m = .send) → ms'.length ≤ s.pipe.weight) ∧
      (∀ s', Step s .lex s' → s'.pipe.queue = s.pipe.queue ∧
        ((∃ t l, s'.pipe.worker = .sending t l) ∨
          (∃ e, s'.pipe.worker = .ended e) ∧
            (s.pipe.closed = false → received ms ++ s.pipe.queue = (ofString source).toList))) ∧
      (∀ s', Step s .send s' →
        (∃ t l, s.pipe.worker = .sending t l ∧ s'.pipe.worker = .lexing l ∧
          s'.pipe.queue = s.pipe.queue ++ [t] ∧
          received ms ++ s'.pipe.queue <+: (ofString source).toList) ∨
        (∃ e, s'.pipe.worker = .ended e) ∧ s.pipe.closed = true) ∧
      (s.consumer = .finishing → ∀ ms' s', Run s ms' s' →
        ms'.length ≤ 3 ∧ (s'.consumer = .gone ∨ ∃ m s'', Step s' m s'') ∧ s'.pipe.queue = [] ∧
          ms'.count .send ≤ 1 ∧ (.send ∈ ms' → ∃ e, s'.pipe.worker = .ended e)) := by
  have haccounts := h.accounts (accounts_ofLexer (ofString source) n)
  rw [List.nil_append] at haccounts
  have hclosed := h.closedByConsumer (closedByConsumer_ofLexer (ofString source) n)
  refine ⟨?_, hclosed.exists_step, ?_, ?_, ?_, ?_⟩
  · rw [← haccounts.capacity_eq]
    exact haccounts.length_le
  · intro ms' s' hrun hworker
    exact Nat.le_of_add_right_le (hrun.length_le_weight hworker)
  · intro s' hstep
    exact hstep.lex_cases haccounts
  · intro s' hstep
    exact hstep.send_cases haccounts
  · intro hfinish ms' s' hrun
    have hnow := hclosed.2 (Or.inl hfinish)
    have hclosing := Closing.mk (Or.inl hfinish) hnow (haccounts.queue_eq_nil hnow)
    obtain ⟨hafter, hleft, hattempts⟩ := hclosing.run hrun
    have hmoves := s.left_le
    have hone := s.pipe.worker.attempts_le
    refine ⟨by omega, ?_, hafter.queue_eq_nil, by omega, ?_⟩
    · rcases hafter.consumer with hwait | hgone
      · exact Or.inr ((hrun.closedByConsumer hclosed).exists_step (Or.inr hwait))
      · exact Or.inl hgone
    · intro hsend
      have hcount := List.count_pos_iff.2 hsend
      exact Worker.exists_of_attempts_eq_zero (by omega)

/-- A worker that holds a token when the queue is closed ends with its attempt to put it in. -/
theorem run_of_refused {t : Token} {l : Lexer} (hw : p.worker = .sending t l) (hclosed : p.closed = true) :
    Run ⟨p, .finishing⟩ [.send, .leave] ⟨{ p with worker := .ended l.error }, .gone⟩ :=
  Run.start.step (.send hw (advance_of_refused hw hclosed)) |>.step (.leave rfl)

/-- The queue has room for one token, and the consumer takes none: the worker holds the second token, and
    has to wait. It does so until the consumer has closed the queue; then its attempt fails, and it ends. -/
theorem blocked_worker_ends_on_close :
    ∃ s s₁ s₂, Run (ofLexer (ofString "(") 0) [.lex, .send, .lex] s ∧ s.pipe.advance = none ∧
      Run (ofLexer (ofString "(") 0) [.lex, .send, .lex, .close] s₁ ∧ s₁.consumer = .finishing ∧
      (∃ m s', Step s₁ m s') ∧ Run s₁ [.send, .leave] s₂ ∧ s₂.consumer = .gone ∧
      [Move.send, .leave].count .send ≤ 1 ∧ ∃ e, s₂.pipe.worker = .ended e := by
  have hsource : (Cursor.ofString "(").ahead = [] ++ (['('] ++ []) := rfl
  have hpiece : lexeme none (['('] ++ []) = ['('] := by decide
  obtain ⟨c, hbracket, hc, ha, -, -⟩ :=
    next_of_segment (settled_ofString "(") hsource nofun nofun hpiece
  have hnothing : c.ahead = [] ++ [] := ha
  obtain ⟨l, hend, -, -, -⟩ := next_of_rest hc hnothing nofun nofun rfl
  have hstart : Run (ofLexer (ofString "(") 0) [] _ := .start
  have hblocked := hstart.step (.lex rfl (advance_of_token rfl hbracket))
    |>.step (.send rfl (advance_of_room rfl rfl Nat.one_pos))
    |>.step (.lex rfl (advance_of_token rfl hend))
  have hclose := hblocked.step .close
  obtain ⟨-, hmove, -, -, -, hfinish⟩ := session_never_deadlocks "(" 0 _ _ hclose
  obtain ⟨-, -, -, hcount, hended⟩ := hfinish rfl _ _ (run_of_refused rfl rfl)
  exact ⟨_, _, _, hblocked, advance_eq_none_iff.2 (Or.inr ⟨_, _, rfl, rfl, Nat.le_refl _⟩), hclose, rfl,
    hmove (Or.inr rfl), run_of_refused rfl rfl, rfl, hcount, hended (by decide)⟩

end Session

end Formula
