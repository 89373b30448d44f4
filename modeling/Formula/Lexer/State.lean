import Formula.Lexer.Decimal
import Formula.Token.Queue

/-!
# `Formula.Lexer.State` — one step of the lexer

In each state the lexer looks at what lies ahead and acts: it makes a token of what it read, hands
over to another state, or rejects the character ahead. `dispatch` drops blanks and chooses the state
that the next character calls for; every other state reads one token and goes back to `dispatch`.

A sign that follows a number or a name is an operator, and a point that follows a name is
punctuation; elsewhere both may start a number. When no number follows after all, the sign or point
is handed over.

## Contents
- **States.** `State`, with `label` and `rank`: a hand-over always lowers the rank.
- **Actions.** `Action`, `startsNumber`, `State.act`.
- **Steps.** `Step`, `State.step`.
- **Progress.** `act_progress`: an action that does not end the run reads something or lowers the
  rank. `step_progress` says the same of a step, as a measure.
-/

namespace Formula.Lexer

open Alphabet

/-! ## States -/

/-- What the lexer is about to read. -/
inductive State where
  | dispatch
  | number
  | operator
  | punctuation
  | name
deriving DecidableEq, Repr

namespace State

/-- The state as it is listed. -/
def label : State → String
  | dispatch => "Dispatch"
  | number => "Number"
  | operator => "Operator"
  | punctuation => "Punctuation"
  | name => "Name"

/-- How many hand-overs can still follow. -/
def rank : State → Nat
  | dispatch => 2
  | number => 1
  | _ => 0

end State

/-! ## Actions -/

/-- What a state decides to do, with the cursor after its reading. -/
inductive Action where
  /-- The pending text is a token. -/
  | commit (kind : Token.Kind) (cursor : Cursor)
  /-- Another state takes over. -/
  | handOver (next : State) (cursor : Cursor)
  /-- The character ahead does not fit the category. -/
  | reject (category : String) (cursor : Cursor)
deriving Repr

/-- The character may start a number after a token of the given kind. -/
def startsNumber (c : Char) (last : Option Token.Kind) : Bool :=
  digit.acceptsChar c
    || point.acceptsChar c && last != some .name
    || sign.acceptsChar c && !(last == some .number || last == some .name)

/-- The state that a character calls for after a token of the given kind. -/
def stateFor (c : Char) (last : Option Token.Kind) : State :=
  if startsNumber c last then .number
  else if Rule.anyAcceptsChar [letter, underscore] c then .name
  else if punctuation.acceptsChar c then .punctuation
  else .operator

/-- Drops blanks and finds the state for the next character. -/
def readBlanks (last : Option Token.Kind) (c : Cursor) : Action :=
  let c := (c.acceptMany [blank]).2.skip
  match c.peek with
  | none => .commit .endOfInput c.next.2
  | some x =>
      if newLine.acceptsChar x then .commit .newLine c.next.2
      else .handOver (stateFor x last) c

/-- Reads a decimal and an optional exponent, which is a decimal after a letter. -/
def readNumber (c : Cursor) : Except Cursor.Fault Action := do
  match ← c.acceptDecimal with
  | (false, c₁) =>
      match c₁.peek with
      | some x =>
          if sign.acceptsChar x then return .handOver .operator c₁
          else if point.acceptsChar x then return .handOver .punctuation c₁
          else return .reject "number literal" c₁
      | none => return .reject "number literal" c₁
  | (true, c₁) =>
      let c₂ := (c₁.acceptMany [blank]).2
      match c₂.accept [exponent] with
      | (true, c₃) =>
          match ← c₃.acceptDecimal with
          | (true, c₄) => return .commit .number c₄
          | (false, c₄) => return .commit .number (← c₄.restore c₁.mark)
      | (false, c₃) => return .commit .number (← c₃.restore c₁.mark)

/-- Reads the longest operator. -/
def readOperator (c : Cursor) : Action :=
  match c.acceptText [operator] with
  | (true, c₁) => .commit .operator c₁
  | (false, c₁) => .reject "operator" c₁

/-- Reads one punctuation character. -/
def readPunctuation (c : Cursor) : Action :=
  match c.accept [punctuation] with
  | (true, c₁) => .commit .punctuation c₁
  | (false, c₁) => .reject "punctuation" c₁

/-- Reads a letter or underscore and the letters, digits and underscores after it. -/
def readName (c : Cursor) : Action :=
  match c.accept [underscore, letter] with
  | (true, c₁) => .commit .name (c₁.acceptMany [underscore, letter, digit]).2
  | (false, c₁) => .reject "name" c₁

/-- What each state does with what lies ahead, after a token of the given kind. -/
def State.act (s : State) (last : Option Token.Kind) (c : Cursor) : Except Cursor.Fault Action :=
  match s with
  | .dispatch => .ok (readBlanks last c)
  | .number => readNumber c
  | .operator => .ok (readOperator c)
  | .punctuation => .ok (readPunctuation c)
  | .name => .ok (readName c)

/-! ## Steps -/

/-- What a step leaves: the next state, or none at the end of the run, with cursor and tokens. -/
structure Step where
  state : Option State
  cursor : Cursor
  tokens : TokenQueue
deriving Repr

/-- Carries out a state's action. -/
def State.step (s : State) (c : Cursor) (q : TokenQueue) : Except Cursor.Fault Step := do
  match ← s.act q.lastKind c with
  | .commit kind c₁ =>
      let (c₂, q₁) ← q.commit kind c₁
      return ⟨if kind.isTerminal then none else some .dispatch, c₂, q₁⟩
  | .handOver s₁ c₁ => return ⟨some s₁, c₁, q⟩
  | .reject category c₁ => return ⟨none, c₁, q.reject category c₁⟩

/-! ## Progress -/

/-- What an action leaves to be done: less ahead after a token, unless the token ends the run, and a
    lower rank after a hand-over. -/
def Action.Progress (s : State) (c : Cursor) : Action → Prop
  | .commit kind c₁ => kind.isTerminal ∨ c₁.ahead.length < c.ahead.length
  | .handOver s₁ c₁ => c₁.ahead.length ≤ c.ahead.length ∧ s₁.rank < s.rank
  | .reject _ _ => True

theorem stateFor_rank (x : Char) (last : Option Token.Kind) : (stateFor x last).rank < 2 := by
  unfold stateFor
  repeat' split
  all_goals decide

theorem readBlanks_progress (last : Option Token.Kind) (c : Cursor) :
    (readBlanks last c).Progress .dispatch c := by
  have hle := Cursor.acceptMany_length_le [blank] c
  unfold readBlanks
  dsimp only
  split
  · exact Or.inl rfl
  · next x hx =>
      have hahead : (c.acceptMany [blank]).2.skip.ahead = (c.acceptMany [blank]).2.ahead := rfl
      split
      · right
        cases ha : (c.acceptMany [blank]).2.ahead with
        | nil => simp [Cursor.peek, hahead, ha] at hx
        | cons y rest =>
            simp only [Cursor.next, hahead, ha, List.length_cons] at hle ⊢
            omega
      · exact ⟨by rw [hahead]; exact hle, stateFor_rank x last⟩

theorem readNumber_progress {c : Cursor} {a : Action} (h : readNumber c = .ok a) :
    a.Progress .number c := by
  unfold readNumber at h
  obtain ⟨⟨found, c₁⟩, hd, h⟩ := of_bind_ok h
  have hdecimal := Cursor.acceptDecimal_progress hd
  cases found with
  | false =>
      have hle : c₁.ahead.length ≤ c.ahead.length := Nat.le_of_eq (congrArg List.length hdecimal)
      dsimp only at h
      repeat' split at h
      all_goals cases h
      · exact ⟨hle, by decide⟩
      · exact ⟨hle, by decide⟩
      · trivial
      · trivial
  | true =>
      simp only [if_true] at hdecimal
      have hblanks := Cursor.acceptMany_length_le [blank] c₁
      dsimp only at h
      split at h
      · next c₃ hletter =>
          have hletter := Cursor.accept_shorter hletter
          obtain ⟨⟨found, c₄⟩, he, h⟩ := of_bind_ok h
          have hexponent := Cursor.acceptDecimal_progress he
          cases found with
          | true =>
              cases h
              simp only [if_true] at hexponent
              exact Or.inr (by omega)
          | false =>
              obtain ⟨c₅, hr, h⟩ := of_bind_ok h
              cases h
              exact Or.inr (by rw [Cursor.restore_ahead hr]; exact hdecimal)
      · next c₃ hletter =>
          obtain ⟨c₅, hr, h⟩ := of_bind_ok h
          cases h
          exact Or.inr (by rw [Cursor.restore_ahead hr]; exact hdecimal)

/-- An action that does not end the run reads something or lowers the rank. -/
theorem State.act_progress {s : State} {last : Option Token.Kind} {c : Cursor} {a : Action}
    (h : s.act last c = .ok a) : a.Progress s c := by
  cases s with
  | dispatch =>
      cases h
      exact readBlanks_progress last c
  | number => exact readNumber_progress h
  | operator =>
      cases h
      unfold readOperator
      split
      · next c₁ h₁ => exact Or.inr (Cursor.acceptText_shorter h₁)
      · trivial
  | punctuation =>
      cases h
      unfold readPunctuation
      split
      · next c₁ h₁ =>
          have := Cursor.accept_shorter h₁
          exact Or.inr (by omega)
      · trivial
  | name =>
      cases h
      unfold readName
      split
      · next c₁ h₁ =>
          have := Cursor.accept_shorter h₁
          have := Cursor.acceptMany_length_le [underscore, letter, digit] c₁
          exact Or.inr (by omega)
      · trivial

/-- Cutting a token off a cursor leaves what lies ahead, and adds one token. -/
theorem commit_ok {q q' : TokenQueue} {kind : Token.Kind} {c c' : Cursor}
    (h : q.commit kind c = .ok (c', q')) :
    c'.ahead = c.ahead ∧ q'.pending.length = q.pending.length + 1 := by
  unfold TokenQueue.commit at h
  split at h
  · next text c₁ hc =>
      unfold Cursor.cut at hc
      split at hc
      · cases hc
        cases h
        exact ⟨rfl, by simp [TokenQueue.push]⟩
      · cases hc
  · cases h

/-- A step that does not end the run leaves fewer characters ahead, or as many and a lower rank; and
    it adds at most one token. -/
theorem State.step_progress {s : State} {c : Cursor} {q : TokenQueue} {r : Step}
    (h : s.step c q = .ok r) :
    (∀ s', r.state = some s' → 3 * r.cursor.ahead.length + s'.rank < 3 * c.ahead.length + s.rank) ∧
      r.tokens.pending.length ≤ q.pending.length + 1 := by
  unfold State.step at h
  obtain ⟨a, ha, h⟩ := of_bind_ok h
  have haction := State.act_progress ha
  cases a with
  | commit kind c₁ =>
      obtain ⟨⟨c₂, q₁⟩, hc, h⟩ := of_bind_ok h
      obtain ⟨hahead, hlength⟩ := commit_ok hc
      cases h
      refine ⟨?_, by simp [hlength]⟩
      intro s' hs'
      by_cases hterminal : kind.isTerminal
      · simp [hterminal] at hs'
      · simp only [hterminal, Bool.false_eq_true, if_false, Option.some.injEq] at hs'
        subst hs'
        rcases haction with hend | hshorter
        · exact absurd hend hterminal
        · simp only [hahead, State.rank]
          omega
  | handOver s₁ c₁ =>
      cases h
      obtain ⟨hle, hrank⟩ := haction
      refine ⟨?_, Nat.le_succ _⟩
      intro s' hs'
      cases hs'
      show 3 * c₁.ahead.length + s₁.rank < _
      omega
  | reject category c₁ =>
      cases h
      exact ⟨by simp, by simp [TokenQueue.reject, TokenQueue.push]⟩

end Formula.Lexer
