import Formula.Proofs.Actions

/-!
# `Formula.Proofs.Steps` — all that one step can do

A step of a state is carried out on a cursor whose token does not start past it, whatever text is
pending and whatever tokens were produced before. It never misuses the cursor, and there are four
things it can do: make a token of its piece, end the run, hand over, or reject the character ahead. The
first happens exactly where there is a piece; a hand-over, which reads nothing, always leaves a
character ahead.

## Contents
- **Entry.** `State.entry`, the cursor before the piece, and `State.category`.
- **Steps.** `State.StepFrom`, and `State.exists_step`: no step does anything else.
-/

namespace Formula.Lexer.State

open Rule Piece Alphabet

variable {st : State} {c d : Cursor} {q : TokenQueue} {p : List Char}

/-! ## Entry -/

/-- The cursor when a state starts to look for its piece: `dispatch` drops blanks first. -/
def entry : State → Cursor → Cursor
  | dispatch, c => c.afterBlanks
  | _, c => c

/-- What a state says was expected when it rejects a character. -/
def category : State → String
  | dispatch => ""
  | number => "number literal"
  | operator => "operator"
  | punctuation => "punctuation"
  | name => "name"

theorem entry_of_ne (h : st ≠ dispatch) : st.entry c = c := by
  cases st with
  | dispatch => exact absurd rfl h
  | _ => rfl

theorem proper_entry (h : c.Proper) : (st.entry c).Proper := by
  by_cases hst : st = dispatch
  · rw [hst]
    exact h.settled.afterBlanks
  · rwa [entry_of_ne hst]

/-! ## Steps -/

/-- What a step can leave, with the cursor `d` before its piece. -/
inductive StepFrom (st : State) (d : Cursor) (q : TokenQueue) : Step → Prop where
  /-- The pending text and the piece are a token. -/
  | commit {s : List Char} (hpending : d.pending? = some s) (hpiece : st.piece d.ahead ≠ []) :
      StepFrom st d q ⟨some dispatch, (d.past (st.piece d.ahead)).skip,
        q.push ⟨st.kind, String.ofList (s ++ st.piece d.ahead)⟩⟩
  /-- The run ends with the text. -/
  | finish (hst : st = dispatch) (hend : d.ahead = []) :
      StepFrom st d q ⟨none, d.next.2, q.push ⟨.endOfInput, ""⟩⟩
  /-- Another state takes over. -/
  | handOver {next : State} (hrank : next.rank < st.rank) (hahead : d.ahead ≠ [])
      (hnil : st.piece d.ahead = []) : StepFrom st d q ⟨some next, d, q⟩
  /-- The character ahead is rejected. -/
  | reject (hst : st ≠ dispatch) (hnil : st.piece d.ahead = []) :
      StepFrom st d q ⟨none, d, q.reject st.category d⟩

theorem exists_step_dispatch (h : c.Proper) :
    ∃ r, dispatch.step c q = .ok r ∧ StepFrom dispatch c.afterBlanks q r := by
  have hproper := h.settled.afterBlanks
  cases hx : c.afterBlanks.ahead with
  | nil =>
      have ha : dispatch.act q.lastKind c = .ok (.commit .endOfInput c.afterBlanks.next.2) :=
        act_dispatch_of_end h.settled hx
      exact ⟨_, step_of_finish ha Cursor.afterBlanks_start hx, .finish rfl hx⟩
  | cons x rest =>
      by_cases hn : newLine.acceptsChar x
      · have hpiece : dispatch.piece c.afterBlanks.ahead = [x] := by
          rw [hx]
          exact initial_cons_of_accepts (by rwa [anyAcceptsChar_singleton])
        have ha : dispatch.act q.lastKind c =
            .ok (.commit .newLine (c.afterBlanks.past (dispatch.piece c.afterBlanks.ahead))) := by
          rw [hpiece]
          exact act_dispatch_of_newLine h.settled hx hn
        obtain ⟨s, hs, hstep⟩ := step_of_commit_piece ha hproper.start_le rfl
        exact ⟨_, hstep, .commit hs (by simp [hpiece])⟩
      · have hpiece : dispatch.piece c.afterBlanks.ahead = [] := by
          rw [hx]
          exact initial_cons_of_not (by rwa [anyAcceptsChar_singleton])
        rw [Bool.not_eq_true] at hn
        have ha : dispatch.act q.lastKind c =
            .ok (.handOver (stateFor x q.lastKind) c.afterBlanks) :=
          act_dispatch_of_char h.settled hx hn
        exact ⟨_, step_of_handOver ha, .handOver (stateFor_rank x _) (by simp [hx]) hpiece⟩

/-- A state that finds no piece hands over or rejects the character. -/
theorem exists_step_of_nil (h : c.Proper) (hst : st ≠ dispatch) (hnil : st.piece c.ahead = []) :
    ∃ r, st.step c q = .ok r ∧ StepFrom st c q r := by
  cases st with
  | dispatch => exact absurd rfl hst
  | number =>
      by_cases hx : ∀ x ∈ c.peek, sign.acceptsChar x = false ∧ point.acceptsChar x = false
      · exact ⟨_, step_of_reject (act_number_of_other h hnil hx), .reject hst hnil⟩
      · push Not at hx
        obtain ⟨x, hpeek, hx⟩ := hx
        have hahead : c.ahead ≠ [] := by
          intro hnil
          simp [Cursor.peek, hnil] at hpeek
        -- a bare sign or point is left to another state
        by_cases hs : sign.acceptsChar x
        · have ha : number.act q.lastKind c = .ok (.handOver operator c) :=
            act_number_of_sign h hnil hpeek hs
          exact ⟨_, step_of_handOver ha, .handOver (by decide) hahead hnil⟩
        · rw [Bool.not_eq_true] at hs
          have hpt : point.acceptsChar x := by simpa using hx hs
          have ha : number.act q.lastKind c = .ok (.handOver punctuation c) :=
            act_number_of_point h hnil hpeek hs hpt
          exact ⟨_, step_of_handOver ha, .handOver (by decide) hahead hnil⟩
  | operator => exact ⟨_, step_of_reject (act_operator_of_nil hnil), .reject hst hnil⟩
  | punctuation =>
      exact ⟨_, step_of_reject (act_punctuation_of_nil h.settled hnil), .reject hst hnil⟩
  | name => exact ⟨_, step_of_reject (act_name_of_nil h.settled hnil), .reject hst hnil⟩

/-- Every step succeeds, and does one of the four things. -/
theorem exists_step (st : State) (q : TokenQueue) (h : c.Proper) :
    ∃ r, st.step c q = .ok r ∧ StepFrom st (st.entry c) q r := by
  by_cases hst : st = dispatch
  · subst hst
    exact exists_step_dispatch h
  rw [entry_of_ne hst]
  by_cases hnil : st.piece c.ahead = []
  · exact exists_step_of_nil h hst hnil
  · have ha : st.act q.lastKind c = .ok (.commit st.kind (c.past (st.piece c.ahead))) :=
      act_of_piece h hst hnil
    obtain ⟨s, hs, hstep⟩ := step_of_commit_piece ha h.start_le st.isTerminal_kind
    exact ⟨_, hstep, .commit hs hnil⟩

end Formula.Lexer.State
