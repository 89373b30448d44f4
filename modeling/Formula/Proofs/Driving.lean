import Formula.Proofs.Places
import Formula.Proofs.Steps

/-!
# `Formula.Proofs.Driving` — every run ends, once

A lexer is driven by its steps, and tokens may be taken at any time in between. However it is driven,
it halts after at most three steps for each character and one more: a character can be handed over
twice before some state reads it. To see this, the work that is left is not enough. A state other than
`dispatch` must always have a character ahead, so that the last step is taken by `dispatch`.

A request that hands out nothing is one that finds the run at its end. So the tokens of a source are
finite in number, the last of them ends the run and no other does, and nothing follows it.

## Contents
- **Drives.** `Drives`; `Drives.trans`, `drives_next`, `drives_after`.
- **Courses.** `OnCourse`, which steps keep; `Drives.steps_le`, `exists_halted`.
- **Ends.** `isFinished_iff`: which requests hand out nothing.
- **Sources.** `runs_to_one_end`.
- **Bounds.** `drives_signs`: as many steps as there can be are needed.
-/

namespace Formula.Lexer

open State Piece Alphabet

variable {l l₀ l₁ l₂ l' : Lexer} {st : State} {m n : Nat}

/-! ## Drives -/

/-- A number of steps, with tokens taken in between, leads from one lexer to another. -/
inductive Drives (l₀ : Lexer) : Nat → Lexer → Prop where
  | start : Drives l₀ 0 l₀
  | step {n : Nat} {l : Lexer} {st : State} (h : Drives l₀ n l) (hm : l.mode = .active st) :
      Drives l₀ (n + 1) (l.step st)
  | take {n : Nat} {l : Lexer} (h : Drives l₀ n l) :
      Drives l₀ n { l with tokens := l.tokens.pop.2 }

theorem Drives.trans (h₁ : Drives l₀ m l₁) (h₂ : Drives l₁ n l₂) : Drives l₀ (m + n) l₂ := by
  induction h₂ with
  | start => exact h₁
  | step _ hm ih => exact ih.step hm
  | take _ ih => exact ih.take

/-- A request is a number of steps, and a token is taken. -/
theorem drives_next (l : Lexer) : ∃ n, Drives l n l.next.2 := by
  fun_induction next l with
  | case1 l t q hpop =>
      have htake : Drives l 0 { l with tokens := l.tokens.pop.2 } := Drives.start.take
      rw [hpop] at htake
      exact ⟨0, htake⟩
  | case2 l q hpop st hm ih =>
      -- one step, and the request goes on from where it leads
      obtain ⟨n, hn⟩ := ih
      exact ⟨0 + 1 + n, (Drives.start.step hm).trans hn⟩
  | case3 => exact ⟨0, .start⟩
  | case4 => exact ⟨0, .start⟩

/-- So are requests in a row. -/
theorem drives_after (k : Nat) (l : Lexer) : ∃ n, Drives l n (after k l) := by
  induction k with
  | zero => exact ⟨0, .start⟩
  | succ k ih =>
      obtain ⟨m, hm⟩ := ih
      obtain ⟨n, hn⟩ := drives_next (after k l)
      rw [after_succ]
      exact ⟨m + n, hm.trans hn⟩

/-- Each step is paid for by some of the work. -/
theorem Drives.work_le (h : Drives l₀ n l) : n + l.work ≤ l₀.work := by
  induction h with
  | start => exact Nat.le_of_eq (Nat.zero_add _)
  | step _ hm ih =>
      have hlt := step_work_lt hm
      omega
  | take _ ih => exact ih

/-! ## Courses -/

/-- The lexer has halted, or it can be driven on: its token does not start past its cursor, and a state
    that is to read a token has a character ahead. -/
inductive OnCourse (l : Lexer) : Prop where
  | active {st : State} (hm : l.mode = .active st) (hproper : l.cursor.Proper)
      (hahead : st ≠ .dispatch → l.cursor.ahead ≠ [])
  | halted (hm : l.mode = .halted)

theorem onCourse_ofString (source : String) : OnCourse (ofString source) :=
  .active rfl ⟨settled_ofString source, Nat.le_refl 0⟩ (absurd rfl)

theorem OnCourse.of_active (h : OnCourse l) (hm : l.mode = .active st) :
    l.cursor.Proper ∧ (st ≠ .dispatch → l.cursor.ahead ≠ []) := by
  cases h with
  | active hst hproper hahead =>
      rw [hm] at hst
      cases hst
      exact ⟨hproper, hahead⟩
  | halted hhalted =>
      rw [hm] at hhalted
      cases hhalted

/-- A step leads on, or leaves a token to be taken. -/
theorem OnCourse.step (h : OnCourse l) (hm : l.mode = .active st) :
    OnCourse (l.step st) ∧ (l.step st).isFinished = false := by
  obtain ⟨hproper, -⟩ := h.of_active hm
  obtain ⟨r, hr, hstep⟩ := State.exists_step st l.tokens hproper
  have hentry : (st.entry l.cursor).Proper := State.proper_entry hproper
  unfold Lexer.step
  rw [hr]
  cases hstep with
  | commit => exact ⟨.active rfl (.skip (hentry.settled.past _)) (absurd rfl), rfl⟩
  | finish => exact ⟨.halted rfl, by simp [isFinished, TokenQueue.push]⟩
  | handOver _ hahead => exact ⟨.active rfl hentry fun _ => hahead, rfl⟩
  | reject => exact ⟨.halted rfl, by simp [isFinished, TokenQueue.reject, TokenQueue.push]⟩

/-- However a lexer is driven, it stays on course. -/
theorem Drives.onCourse (h : Drives l₀ n l) (h₀ : OnCourse l₀) : OnCourse l := by
  induction h with
  | start => exact h₀
  | step _ hm ih => exact (ih.step hm).1
  | take _ ih =>
      cases ih with
      | active hm hproper hahead => exact .active hm hproper hahead
      | halted hm => exact .halted hm

/-- Work for three more steps is left while a lexer is active, although there may be one only. -/
theorem OnCourse.le_work (h : OnCourse l) (hm : l.mode = .active st) : 3 ≤ l.work := by
  have hwork : l.work = 3 * l.cursor.ahead.length + st.rank + 1 := by simp [work, hm]
  obtain ⟨-, hahead⟩ := h.of_active hm
  by_cases hst : st = .dispatch
  · -- its rank is two
    subst hst
    simp only [State.rank] at hwork
    omega
  · have hpos := List.length_pos_iff.2 (hahead hst)
    omega

/-- The two steps' worth of work that are left before the last step are never carried out. -/
theorem Drives.steps_le (h : Drives l₀ n l) (h₀ : OnCourse l₀) : n ≤ l₀.work - 2 := by
  induction h with
  | start => exact Nat.zero_le _
  | step hdrives hm _ =>
      -- before the last step, three steps' worth of work were left
      have hwork := hdrives.work_le
      have hle := (hdrives.onCourse h₀).le_work hm
      omega
  | take _ ih => exact ih

/-- A lexer that is on course can be driven until it halts. -/
theorem exists_halted (h : OnCourse l) : ∃ n l', Drives l n l' ∧ l'.mode = .halted := by
  induction hwork : l.work using Nat.strong_induction_on generalizing l with
  | _ w ih =>
      cases h with
      | halted hm => exact ⟨0, l, .start, hm⟩
      | @active st hm hproper hahead =>
          -- a step leaves less work, and stays on course
          have hstep := (OnCourse.active hm hproper hahead).step hm
          have hlt := step_work_lt hm
          rw [hwork] at hlt
          obtain ⟨n, l', hdrives, hhalted⟩ := ih _ hlt hstep.1 rfl
          exact ⟨0 + 1 + n, l', (Drives.start.step hm).trans hdrives, hhalted⟩

/-! ## Ends -/

/-- A request hands out nothing exactly if the run has ended and all its tokens have been taken. -/
theorem isFinished_iff (h : OnCourse l) : l.isFinished ↔ l.next.1 = none := by
  fun_induction next l with
  | case1 l t q hpop =>
      have hne : l.tokens.pending ≠ [] := by
        intro hnil
        simp [TokenQueue.pop, hnil] at hpop
      simp [isFinished, hne]
  | case2 l q hpop st hm ih =>
      -- the lexer is active, and after its step it is so again or has a token to hand out
      obtain ⟨hstep, hnot⟩ := h.step hm
      rw [← ih hstep, hnot]
      simp [isFinished, isActive, hm]
  | case3 l q hpop hm => simp [isFinished, isActive, hm, pending_of_pop hpop]
  | case4 l q hpop _ hm => simp [isFinished, isActive, hm, pending_of_pop hpop]

/-! ## Sources -/

theorem work_ofString (source : String) : (ofString source).work = 3 * source.length + 3 := by
  show 3 * source.toList.length + 2 + 1 = _
  rw [String.length_toList]

/-- Driven in whatever way, a lexer before a source takes at most three steps for each character and
    one more, and can always be driven on until it halts. It hands out no more tokens than there are
    characters and one more; the last of them ends the run, and no other does; after it there is
    nothing, however often it is asked for. At any point between two requests, the lexer is finished
    exactly if the next request hands out nothing, and an error is recorded exactly if its report was
    handed out. -/
theorem runs_to_one_end (source : String) :
    (∀ n l, Drives (ofString source) n l →
      n ≤ 3 * source.length + 1 ∧ ∃ m l', Drives l m l' ∧ l'.mode = .halted) ∧
    (∃ ts final, (ofString source).toList = ts ++ [final] ∧ ts.length ≤ source.length ∧
      (∀ t ∈ ts, t.kind.isTerminal = false) ∧ final.kind.isTerminal ∧
      ∀ k, results (ts.length + 1 + k) (ofString source) =
        (ts ++ [final]).map some ++ List.replicate k none) ∧
    ∀ k, (∃ n, Drives (ofString source) n (after k (ofString source))) ∧
      ((after k (ofString source)).isFinished ↔ (after k (ofString source)).next.1 = none) ∧
      ((after k (ofString source)).error.isSome ↔
        ∃ t, some t ∈ results k (ofString source) ∧ t.isError) := by
  have hstart := onCourse_ofString source
  refine ⟨?_, ?_, ?_⟩
  · intro n l hdrives
    refine ⟨?_, exists_halted (hdrives.onCourse hstart)⟩
    have hle := hdrives.steps_le hstart
    rwa [work_ofString] at hle
  · obtain ⟨gs, gap, rest, hlexes⟩ := exists_lexes none source.toList
    have hlist := toList_ofString hlexes
    have hlen := hlexes.length_le
    rw [String.length_toList] at hlen
    refine ⟨gs.map Segment.token, _, hlist, by simpa using hlen, ?_, isTerminal_lastToken _, ?_⟩
    · intro t ht
      exact (token_of_lexes hlexes ht).1
    · intro k
      have hresults := results_toList (ofString source) k
      rwa [hlist, List.length_append, List.length_singleton] at hresults
  · intro k
    obtain ⟨n, hdrives⟩ := drives_after k (ofString source)
    exact ⟨⟨n, hdrives⟩, isFinished_iff (hdrives.onCourse hstart), reported_ofString source k⟩

/-! ## Bounds -/

variable {c : Cursor} {last : Option Token.Kind} {rules : List Rule}

theorem operator_cons_plus (s : List Char) : Piece.operator ('+' :: s) = ['+'] := by
  have hne : Piece.operator ('+' :: s) ≠ [] := operator_ne_nil_of_accepts (acceptsText_of_sign rfl)
  have hf := check_of_operator (f := fun q => q.head? != some '+' || q == ['+'])
    (acceptsText_operator hne) (by decide +kernel)
  obtain ⟨t, ht⟩ := prefix_operator ('+' :: s)
  obtain ⟨x, p, hp⟩ := List.exists_cons_of_ne_nil hne
  rw [hp] at ht hf ⊢
  cases ht
  simpa using hf

theorem stretch_signs (h : Rule.anyAcceptsChar rules '+' = false) (n : Nat) :
    stretch rules (List.replicate n '+') = [] := by
  simp [stretch, h]

/-- No number stands at the beginning of signs only. -/
theorem numeral_signs (n : Nat) : numeral (List.replicate n '+') = [] := by
  rw [numeral_eq_nil]
  cases n with
  | zero => rfl
  | succ n =>
      have hplus : initial [sign] (List.replicate (n + 1) '+') = ['+'] :=
        initial_cons_of_accepts rfl
      have hpoint : initial [point] (List.replicate n '+') = [] := by
        have hnot : Rule.anyAcceptsChar [point] '+' = false := rfl
        simp [initial, List.take_replicate, hnot]
      have hblank : Rule.anyAcceptsChar [blank] '+' = false := rfl
      have hdigit : Rule.anyAcceptsChar [digit] '+' = false := by decide
      simp [decimal, unsigned, fraction, hplus, hpoint, stretch_signs hblank, stretch_signs hdigit]

/-- A sign that no number follows is handed over twice before it is read. -/
theorem drives_of_sign (h : c.Settled) (ha : c.afterBlanks.ahead = List.replicate (n + 1) '+')
    (hlast : stateFor '+' last = .number) :
    Drives (ready c last) 3 (ready (c.afterBlanks.past ['+']).skip (some .operator)) := by
  have hnil : numeral c.afterBlanks.ahead = [] := by rw [ha, numeral_signs]
  have hpeek : c.afterBlanks.peek = some '+' := by
    rw [Cursor.peek, ha]
    rfl
  have hpiece : State.operator.piece c.afterBlanks.ahead = ['+'] := by
    rw [ha]
    exact operator_cons_plus _
  have hread : State.operator.act last c.afterBlanks =
      .ok (.commit .operator (c.afterBlanks.past ['+'])) := by
    rw [← hpiece]
    exact State.act_of_piece h.afterBlanks (by decide) (by simp [hpiece])
  have hfirst : Drives (ready c last) 1 ((ready c last).step .dispatch) := Drives.start.step rfl
  have hdispatch : (ready c last).step .dispatch =
      ⟨c.afterBlanks, ⟨[], last, none⟩, .active (stateFor '+' last)⟩ :=
    step_of_handOver (act_dispatch_of_char h ha rfl)
  rw [hdispatch, hlast] at hfirst
  have hsecond := hfirst.step rfl
  rw [step_of_handOver (State.act_number_of_sign h.afterBlanks hnil hpeek rfl)] at hsecond
  have hthird := hsecond.step rfl
  rw [step_of_commit hread Cursor.afterBlanks_start rfl] at hthird
  exact hthird.take

/-- One such sign after the other takes three steps, and the end of the text takes one. -/
theorem drives_of_signs (h : c.Settled) (ha : c.ahead = List.replicate n '+')
    (hlast : stateFor '+' last = .number) :
    ∃ l, Drives (ready c last) (3 * n + 1) l ∧ l.mode = .halted := by
  induction n generalizing c last with
  | zero =>
      have hahead : c.afterBlanks.ahead = [] := by
        rw [Cursor.afterBlanks_ahead, ha]
        rfl
      have hend : (ready c last).step .dispatch = _ :=
        step_of_end (act_dispatch_of_end h hahead) Cursor.afterBlanks_start hahead
      refine ⟨_, Drives.start.step rfl, ?_⟩
      rw [hend]
  | succ n ih =>
      have hahead : c.afterBlanks.ahead = List.replicate (n + 1) '+' := by
        rw [Cursor.afterBlanks_ahead, ha, stretch_signs rfl]
        rfl
      have hrest : (c.afterBlanks.past ['+']).skip.ahead = List.replicate n '+' := by
        simp [Cursor.skip, hahead]
      have hsettled : (c.afterBlanks.past ['+']).skip.Settled := h.afterBlanks.settled.past ['+']
      -- after an operator, too, a sign may start a number
      obtain ⟨l, hdrives, hhalted⟩ := ih hsettled hrest (rfl : stateFor '+' (some .operator) = .number)
      have hall := (drives_of_sign h hahead hlast).trans hdrives
      rw [show 3 + (3 * n + 1) = 3 * (n + 1) + 1 by omega] at hall
      exact ⟨l, hall, hhalted⟩

/-- The bound on the steps is reached, by sources of any length. -/
theorem drives_signs (n : Nat) :
    ∃ l, Drives (ofString (String.ofList (List.replicate n '+'))) (3 * n + 1) l ∧
      l.mode = .halted := by
  refine drives_of_signs (settled_ofString _) ?_ rfl
  simp [Cursor.ofString, Cursor.ofList]

end Formula.Lexer
