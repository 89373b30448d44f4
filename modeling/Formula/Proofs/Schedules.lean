import Formula.Feed
import Formula.Proofs.Runs

/-!
# `Formula.Proofs.Schedules` — a worker makes no difference

Worker and consumer of a pipe move in turn, in any order. A *schedule* is one such order, with the
answers that the consumer has got. Whatever the schedule, the answers are those of a lexer that is
asked directly, and so is the outcome when the consumer has seen enough: an error that the worker has
met, but whose report was not taken, does not count.

What carries the proof is where a token can be: it was taken, it is in the queue, or the worker holds
it. In this order, they are the answers of the lexer so far (`Faithful`), and every move of either side
keeps it so.

## Contents
- **Moves.** `advance_cases`, `take_cases`: all that worker and consumer can do.
- **Schedules.** `Schedule`; `Faithful`, with `faithful_ofLexer`, `Faithful.advance`, `Faithful.take`
  and, for whole schedules, `Schedule.faithful`.
- **Waiting.** `schedule_receive`: a consumer that waits is never left without an answer.
- **Ends.** `Faithful.join_close`, `Faithful.finish_eq`, and `schedule_agrees_with_requests`.
-/

namespace Formula.Pipe

open Lexer

variable {p p' p₀ : Pipe} {l l' : Lexer} {t : Token} {r : Option Token} {rs : List (Option Token)}
variable {e : Option LexError}

/-! ## Moves -/

/-- The worker gets a token, or learns that there is none; it puts a token into the queue, or finds
    the queue closed. -/
theorem advance_cases (h : p.advance = some p') :
    (∃ l t l', p.worker = .lexing l ∧ l.next = (some t, l') ∧
        p' = { p with worker := .sending t l' }) ∨
      (∃ l l', p.worker = .lexing l ∧ l.next = (none, l') ∧
        p' = { p with worker := .ended l'.error }) ∨
      (∃ t l, p.worker = .sending t l ∧ p.closed = true ∧
        p' = { p with worker := .ended l.error }) ∨
      (∃ t l, p.worker = .sending t l ∧ p.closed = false ∧ p.queue.length < p.capacity ∧
        p' = { p with worker := .lexing l, queue := p.queue ++ [t] }) := by
  unfold advance at h
  split at h
  · next l hw =>
      split at h
      · next t l' hn => exact Or.inl ⟨l, t, l', hw, hn, (Option.some.inj h).symm⟩
      · next l' hn => exact Or.inr (Or.inl ⟨l, l', hw, hn, (Option.some.inj h).symm⟩)
  · next t l hw =>
      split at h
      · next hclosed =>
          exact Or.inr (Or.inr (Or.inl ⟨t, l, hw, hclosed, (Option.some.inj h).symm⟩))
      · next hopen =>
          split at h
          · next hroom =>
              rw [Bool.not_eq_true] at hopen
              exact Or.inr (Or.inr (Or.inr ⟨t, l, hw, hopen, hroom, (Option.some.inj h).symm⟩))
          · cases h
  · cases h

theorem advance_of_token (hw : p.worker = .lexing l) (hn : l.next = (some t, l')) :
    p.advance = some { p with worker := .sending t l' } := by
  simp [advance, hw, hn]

theorem advance_of_end (hw : p.worker = .lexing l) (hn : l.next = (none, l')) :
    p.advance = some { p with worker := .ended l'.error } := by
  simp [advance, hw, hn]

theorem advance_of_room (hw : p.worker = .sending t l) (hopen : p.closed = false)
    (hroom : p.queue.length < p.capacity) :
    p.advance = some { p with worker := .lexing l, queue := p.queue ++ [t] } := by
  simp [advance, hw, hopen, hroom]

theorem advance_of_refused (hw : p.worker = .sending t l) (hclosed : p.closed = true) :
    p.advance = some { p with worker := .ended l.error } := by
  simp [advance, hw, hclosed]

/-- The consumer takes the oldest token, or learns that the queue has ended. -/
theorem take_cases (h : p.take = some (r, p')) :
    (∃ t rest, p.queue = t :: rest ∧ r = some t ∧
        p' = { p with queue := rest, errorTaken := p.errorTaken || t.isError }) ∨
      (∃ e, p.queue = [] ∧ p.worker = .ended e ∧ r = none ∧ p' = p) := by
  unfold take at h
  split at h
  · next t rest hq =>
      cases h
      exact Or.inl ⟨t, rest, hq, rfl, rfl⟩
  · next hq =>
      split at h
      · next e hw =>
          cases h
          exact Or.inr ⟨e, hq, hw, rfl, rfl⟩
      · cases h

/-! ## Schedules -/

/-- The moves of worker and consumer, in some order, lead from a pipe to another, and these are the
    answers that the consumer has got. -/
inductive Schedule (p₀ : Pipe) : List (Option Token) → Pipe → Prop where
  | start : Schedule p₀ [] p₀
  | work {rs : List (Option Token)} {p p' : Pipe} (h : Schedule p₀ rs p)
      (hmove : p.advance = some p') : Schedule p₀ rs p'
  | receive {rs : List (Option Token)} {r : Option Token} {p p' : Pipe} (h : Schedule p₀ rs p)
      (hmove : p.take = some (r, p')) : Schedule p₀ (rs ++ [r]) p'

/-- Where the worker is when `n` answers of the lexer have left it. -/
def Reached (l : Lexer) (n : Nat) : Worker → Prop
  | .lexing l' => l' = after n l
  | .sending t l' => (after n l).next = (some t, l')
  | .ended e => ∃ l', (after n l).next = (none, l') ∧ e = l'.error

/-- The answers that were got and the queue after them are the answers of the lexer. -/
structure Faithful (l : Lexer) (rs : List (Option Token)) (p : Pipe) : Prop where
  answers : rs ++ p.queue.map some = results (rs.length + p.queue.length) l
  worker : Reached l (rs.length + p.queue.length) p.worker
  errorTaken : p.errorTaken = true ↔ ∃ t, some t ∈ rs ∧ t.isError
  isOpen : p.closed = false

theorem faithful_ofLexer (l : Lexer) (capacity : Nat) : Faithful l [] (ofLexer l capacity) :=
  ⟨rfl, rfl, by simp [ofLexer], rfl⟩

/-- Every move of the worker keeps the pipe faithful. -/
theorem Faithful.advance (h : Faithful l rs p) (hmove : p.advance = some p') : Faithful l rs p' := by
  obtain ⟨hanswers, hworker, herror, hopen⟩ := h
  rcases advance_cases hmove with ⟨l₁, t, l₂, hw, hn, rfl⟩ | ⟨l₁, l₂, hw, hn, rfl⟩ |
    ⟨t, l₁, hw, hclosed, rfl⟩ | ⟨t, l₁, hw, -, -, rfl⟩
  · rw [hw] at hworker
    obtain rfl : l₁ = _ := hworker
    exact ⟨hanswers, hn, herror, hopen⟩
  · rw [hw] at hworker
    obtain rfl : l₁ = _ := hworker
    exact ⟨hanswers, ⟨l₂, hn, rfl⟩, herror, hopen⟩
  · rw [hopen] at hclosed
    cases hclosed
  · rw [hw] at hworker
    have hn : (after (rs.length + p.queue.length) l).next = (some t, l₁) := hworker
    refine ⟨?_, ?_, herror, hopen⟩
    · simp only [List.map_append, List.map_cons, List.map_nil, List.length_append,
        List.length_singleton]
      rw [← List.append_assoc, hanswers, ← Nat.add_assoc, results_succ, hn]
    · simp only [List.length_append, List.length_singleton]
      show l₁ = after _ l
      rw [← Nat.add_assoc, after_succ, hn]

/-- Every move of the consumer keeps the pipe faithful, with one more answer. -/
theorem Faithful.take (h : Faithful l rs p) (hmove : p.take = some (r, p')) :
    Faithful l (rs ++ [r]) p' := by
  obtain ⟨hanswers, hworker, herror, hopen⟩ := h
  rcases take_cases hmove with ⟨t, rest, hq, rfl, rfl⟩ | ⟨e, hq, hw, rfl, rfl⟩
  · -- the token goes from the queue to the answers, and the worker is where it was
    have hlen : (rs ++ [some t]).length + rest.length = rs.length + p.queue.length := by
      rw [hq, List.length_append, List.length_singleton, List.length_cons]
      omega
    refine ⟨?_, ?_, ?_, hopen⟩
    · rw [hlen, ← hanswers, hq]
      simp
    · rw [hlen]
      exact hworker
    · show (p.errorTaken || t.isError) = true ↔ _
      rw [Bool.or_eq_true, herror]
      constructor
      · rintro (⟨u, hu, hue⟩ | ht)
        · exact ⟨u, List.mem_append_left _ hu, hue⟩
        · exact ⟨t, by simp, ht⟩
      · rintro ⟨u, hu, hue⟩
        rcases List.mem_append.1 hu with hu | hu
        · exact Or.inl ⟨u, hu, hue⟩
        · cases List.mem_singleton.1 hu
          exact Or.inr hue
  · -- at the end of the queue one more request changes nothing
    rw [hw, hq] at hworker
    obtain ⟨l', hn, rfl⟩ := hworker
    rw [hq] at hanswers
    simp only [List.map_nil, List.append_nil, List.length_nil, Nat.add_zero] at hanswers hn
    refine ⟨?_, ?_, ?_, hopen⟩
    · simp only [hq, List.map_nil, List.append_nil, List.length_nil, Nat.add_zero,
        List.length_append, List.length_singleton]
      rw [results_succ, ← hanswers, hn]
    · simp only [hw, hq, List.length_nil, Nat.add_zero, List.length_append, List.length_singleton]
      exact ⟨l', by rw [after_succ, hn, next_of_none hn], rfl⟩
    · rw [herror]
      simp

/-- Every schedule keeps the pipe faithful. -/
theorem Schedule.faithful {n : Nat} (h : Schedule (ofLexer l n) rs p) : Faithful l rs p := by
  induction h with
  | start => exact faithful_ofLexer l n
  | work _ hmove ih => exact ih.advance hmove
  | receive _ hmove ih => exact ih.take hmove

/-! ## Waiting -/

/-- Where the consumer has to wait, an open pipe lets the worker move. -/
theorem advance_ne_none (hopen : p.closed = false) (h : p.take = none) : p.advance ≠ none := by
  intro hadvance
  have hq : p.queue = [] := by
    cases hq : p.queue with
    | nil => rfl
    | cons t rest => simp [Pipe.take, hq] at h
  cases hw : p.worker with
  | lexing l =>
      cases hn : l.next with
      | mk r l' =>
          cases r with
          | some t => simp [advance_of_token hw hn] at hadvance
          | none => simp [advance_of_end hw hn] at hadvance
  | sending t l => simp [advance_of_room hw hopen (by simp [hq, p.capacity_pos])] at hadvance
  | ended e => simp [Pipe.take, hq, hw] at h

/-- Waiting is a schedule too: the worker moves until there is an answer. -/
theorem schedule_receive {n : Nat} (h : Schedule (ofLexer l n) rs p) :
    Schedule (ofLexer l n) (rs ++ [p.receive.1]) p.receive.2 := by
  fun_induction Pipe.receive p with
  | case1 p r hr => exact h.receive hr
  | case2 p _ q hq ih => exact ih (h.work hq)
  | case3 p htake hadvance => exact absurd hadvance (advance_ne_none h.faithful.isOpen htake)

/-! ## Ends -/

theorem join_of_ended (h : p.worker = .ended e) : p.join = e := by
  rw [join]
  simp only [h]

theorem join_of_advance (h : p.advance = some p') : p.join = p'.join := by
  rw [join]
  split
  · next e hw => simp [Pipe.advance, hw] at h
  · split
    · next q hq =>
        rw [h] at hq
        rw [Option.some.inj hq]
    · next hq =>
        rw [h] at hq
        cases hq

/-- Once the consumer has closed the queue, the worker ends with its next attempt to put a token in. -/
theorem join_of_closed {t : Token} (hw : p.worker = .sending t l) (hclosed : p.closed = true) :
    p.join = l.error := by
  rw [join_of_advance (advance_of_refused hw hclosed)]
  exact join_of_ended rfl

/-- The error that is handed out at the end was recorded by the answer after the last that left the
    worker. -/
theorem Faithful.join_close (h : Faithful l rs p) :
    p.close.join = (after (rs.length + p.queue.length + 1) l).error := by
  have hworker := h.worker
  rw [after_succ]
  cases hw : p.worker with
  | lexing l₁ =>
      rw [hw] at hworker
      rw [← show l₁ = after (rs.length + p.queue.length) l from hworker]
      cases hn : l₁.next with
      | mk r l₂ =>
          cases r with
          | some t =>
              rw [join_of_advance (advance_of_token (p := p.close) hw hn)]
              exact join_of_closed rfl rfl
          | none =>
              rw [join_of_advance (advance_of_end (p := p.close) hw hn)]
              exact join_of_ended rfl
  | sending t l₁ =>
      rw [hw] at hworker
      rw [show (after (rs.length + p.queue.length) l).next = (some t, l₁) from hworker]
      exact join_of_closed (t := t) hw rfl
  | ended e =>
      rw [hw] at hworker
      obtain ⟨l₁, hn, rfl⟩ := hworker
      rw [hn]
      exact join_of_ended hw

/-- The answers that were got are the first answers of the lexer. -/
theorem Faithful.answers_eq (h : Faithful l rs p) : rs = results rs.length l := by
  have hanswers := congrArg (List.take rs.length) h.answers
  rwa [List.take_left, take_results] at hanswers

variable {source : String}

theorem finish_direct_of_error {e : LexError} (h : l.error = some e) :
    Feed.finish (.direct l) = .error (.lexing e) := by
  simp only [Feed.finish, h]

theorem finish_direct_of_none (h : l.error = none) : Feed.finish (.direct l) = .ok () := by
  simp only [Feed.finish, h]

/-- A lexer that was asked directly fails exactly when it has recorded an error. -/
theorem finish_direct_eq_error_iff :
    (∃ e, Feed.finish (.direct l) = .error (.lexing e)) ↔ l.error.isSome := by
  cases h : l.error with
  | some e => simp [finish_direct_of_error h]
  | none => simp [finish_direct_of_none h]

/-- The outcome is that of a lexer that was asked directly for as many answers. -/
theorem Faithful.finish_eq (h : Faithful (ofString source) rs p) :
    Feed.finish (.piped p) = Feed.finish (.direct (after rs.length (ofString source))) := by
  have hreported := reported_ofString source rs.length
  rw [← h.answers_eq, ← h.errorTaken] at hreported
  have hjoin := h.join_close
  show p.finish.mapError Failure.lexing = _
  unfold finish
  cases herror : (after rs.length (ofString source)).error with
  | some e =>
      -- what was recorded when the report was taken is still recorded at the end
      rw [error_ofString_mono (by omega) herror] at hjoin
      rw [finish_direct_of_error herror]
      rw [herror] at hreported
      have htaken : p.errorTaken = true := hreported.1 rfl
      rw [hjoin, htaken]
      rfl
  | none =>
      -- whatever the worker has met since then, its report was not taken
      have hnot : p.errorTaken = false := by
        rw [herror] at hreported
        simpa using hreported
      rw [finish_direct_of_none herror, hnot]
      cases p.close.join with
      | some e => rfl
      | none => rfl

/-- Whatever the order of moves, a consumer that has got `k` answers from a worker has got the first
    `k` answers of the lexer, and the outcome, if it stops there, is that of a lexer that was asked `k`
    times. It is an error exactly when the report of the error was among the answers. The next answer
    is never withheld. -/
theorem schedule_agrees_with_requests (source : String) (n : Nat) (p₀ p : Pipe)
    (rs : List (Option Token)) (hspawn : spawn (ofString source) n = .ok p₀)
    (h : Schedule p₀ rs p) :
    rs = results rs.length (ofString source) ∧
      Feed.finish (.piped p) = Feed.finish (.direct (after rs.length (ofString source))) ∧
      ((∃ e, Feed.finish (.piped p) = .error (.lexing e)) ↔ ∃ t, some t ∈ rs ∧ t.isError) ∧
      p.receive.1 = (after rs.length (ofString source)).next.1 ∧
      Schedule p₀ (rs ++ [p.receive.1]) p.receive.2 := by
  -- that there was room for the queue has no bearing on what goes through it
  obtain ⟨-, rfl⟩ := spawn_eq_ok_iff.1 hspawn
  have hfaithful := h.faithful
  have hanswers := hfaithful.answers_eq
  have hfinish := hfaithful.finish_eq
  have hreceive := schedule_receive h
  refine ⟨hanswers, hfinish, ?_, ?_, hreceive⟩
  · have hreported := reported_ofString source rs.length
    rw [← hanswers] at hreported
    rw [hfinish, finish_direct_eq_error_iff, hreported]
  · have hnext := hreceive.faithful.answers_eq
    rw [List.length_append, List.length_singleton, results_succ, ← hanswers] at hnext
    exact List.singleton_inj.1 (List.append_cancel_left hnext)

/-- The worker has met the error, and its report is in the queue; but it was not taken, and so there
    is no error when the consumer stops. -/
theorem schedule_agrees_before_report :
    ∃ p e, Schedule (ofLexer (ofString "2&") 0) [some ⟨.number, "2"⟩] p ∧
      p.worker = .ended (some e) ∧ p.queue = [⟨.error, e.message⟩] ∧
      Feed.finish (.piped p) = .ok () := by
  have hsource : (Cursor.ofString "2&").ahead = [] ++ (['2'] ++ ['&']) := rfl
  have htwo : lexeme none (['2'] ++ ['&']) = ['2'] := by decide
  obtain ⟨c, hnumber, hc, ha, -, -⟩ :=
    next_of_segment (settled_ofString "2&") hsource nofun nofun htwo
  have hrest : c.ahead = [] ++ ['&'] := ha
  have hblank : NoBlank ['&'] := by
    rintro x ⟨⟩
    decide
  have hnil : lexeme (some .number) ['&'] = [] := by decide
  obtain ⟨l, hreport, hpending, hmode, herror⟩ := next_of_rest hc hrest nofun hblank hnil
  have hend := next_of_halted hpending hmode
  have hstart : Schedule (ofLexer (ofString "2&") 0) [] _ := .start
  have h := hstart.work (advance_of_token rfl hnumber)
    |>.work (advance_of_room rfl rfl Nat.one_pos)
    |>.receive rfl
    |>.work (advance_of_token rfl hreport)
    |>.work (advance_of_room rfl rfl Nat.one_pos)
    |>.work (advance_of_end rfl hend)
  have hspawn : spawn (ofString "2&") 0 = .ok (ofLexer (ofString "2&") 0) :=
    spawn_eq_ok_iff.2 ⟨by decide, rfl⟩
  obtain ⟨-, hfinish, -⟩ := schedule_agrees_with_requests "2&" 0 _ _ _ hspawn h
  refine ⟨_, _, h, congrArg Worker.ended herror, rfl, ?_⟩
  rw [hfinish]
  show Feed.finish (.direct (ready (Cursor.ofString "2&") none).next.2) = _
  rw [hnumber]
  rfl

end Formula.Pipe
