import Formula.Lexer.Basic
import Formula.Proofs.Reading

/-!
# `Formula.Proofs.Actions` — what each state does, in terms of pieces

A reading state looks for its piece. If there is one, the state makes a token of it; if there is none,
it rejects the character ahead, or, for a number that turns out to be a bare sign or point, hands
over. In either case no other part of the cursor changes. `dispatch` drops blanks and then ends the
run, makes a token of a line break, or hands over.

## Contents
- **Reading states.** `State.act_of_piece`; without a piece, `State.act_number_of_sign`,
  `State.act_number_of_point`, `State.act_number_of_other`, and `State.act_operator_of_nil` and the
  like for the other states.
- **Dispatch.** `act_dispatch_of_end`, `act_dispatch_of_newLine`, `act_dispatch_of_char`.
- **Steps.** What an action leads to: `State.step_of_commit_piece`, `State.step_of_finish`,
  `State.step_of_handOver`, `State.step_of_reject`, and the same for a lexer.
-/

namespace Formula.Lexer

open Rule Piece Alphabet

variable {c : Cursor} {p rest : List Char} {last : Option Token.Kind} {st : State} {x : Char}

/-! ## Reading states -/

/-- After its decimal, a number is read on over the exponent, if there is one. -/
theorem readNumber_of_decimal (h : c.Proper) (hm : decimal c.ahead ≠ []) :
    readNumber c = .ok (.commit .number (c.past (numeral c.ahead))) := by
  unfold readNumber numeral
  simp only [Cursor.acceptDecimal_eq h, hm, ne_eq, not_false_eq_true, decide_true, if_false, bind,
    Except.bind]
  rw [← Cursor.past_past, ← Cursor.past_ahead]
  have hd := h.past (decimal c.ahead)
  generalize c.past (decimal c.ahead) = d at hd
  -- whatever was read after the decimal is given back on failure
  have hback (p : List Char) : (d.past p).restore d.mark = .ok d := Cursor.restore_past hd.start_le
  unfold Piece.exponent
  dsimp only
  rw [Cursor.acceptMany_eq hd.settled, Cursor.accept_eq (hd.settled.past _), Cursor.past_past,
    Cursor.past_ahead]
  generalize stretch [blank] d.ahead = b
  generalize initial [Alphabet.exponent] (d.ahead.drop b.length) = e
  by_cases he : e = []
  · simp [he, hback, pure, Except.pure]
  · have hm := Cursor.acceptDecimal_eq (hd.past (b ++ e))
    simp only [Cursor.past_past, Cursor.past_ahead, List.length_append, ← List.drop_drop] at hm
    generalize decimal ((d.ahead.drop b.length).drop e.length) = m at hm
    by_cases hnil : m = []
    · simp [he, hnil, hm, hback, pure, Except.pure]
    · simp [he, hnil, hm, pure, Except.pure]

namespace State

/-- A state that finds its piece makes a token of it. -/
theorem act_of_piece (h : c.Proper) (hst : st ≠ dispatch) (hp : st.piece c.ahead ≠ []) :
    st.act last c = .ok (.commit st.kind (c.past (st.piece c.ahead))) := by
  cases st with
  | dispatch => exact absurd rfl hst
  | number => exact readNumber_of_decimal h fun hm => hp (numeral_eq_nil.2 hm)
  | operator =>
      have hsome : (longest? [Alphabet.operator] c.ahead).isSome := by
        cases hl : longest? [Alphabet.operator] c.ahead with
        | none => simp [piece, Piece.operator, hl] at hp
        | some p => rfl
      simp [act, readOperator, Cursor.acceptText_eq, hsome, kind, piece, Piece.operator]
  | punctuation =>
      have hi : initial [Alphabet.punctuation] c.ahead ≠ [] := hp
      simp [act, readPunctuation, Cursor.accept_eq h.settled, hi, kind, piece]
  | name =>
      have hi : initial [underscore, letter] c.ahead ≠ [] := by
        intro hnil
        simp [piece, Piece.name, hnil] at hp
      simp only [act, readName, Cursor.accept_eq h.settled, hi, ne_eq, not_false_eq_true, decide_true]
      rw [Cursor.acceptMany_eq (h.settled.past _)]
      simp [kind, piece, Piece.name, hi]

/-- A sign that starts no number is left to the operators. -/
theorem act_number_of_sign (h : c.Proper) (hp : numeral c.ahead = []) (hx : c.peek = some x)
    (hs : sign.acceptsChar x) : number.act last c = .ok (.handOver operator c) := by
  have hm := numeral_eq_nil.1 hp
  simp [act, readNumber, Cursor.acceptDecimal_eq h, hm, hx, hs, bind, Except.bind, pure, Except.pure]

/-- A point that starts no number is left to the punctuation. -/
theorem act_number_of_point (h : c.Proper) (hp : numeral c.ahead = []) (hx : c.peek = some x)
    (hs : sign.acceptsChar x = false) (hpt : point.acceptsChar x) :
    number.act last c = .ok (.handOver punctuation c) := by
  have hm := numeral_eq_nil.1 hp
  simp [act, readNumber, Cursor.acceptDecimal_eq h, hm, hx, hs, hpt, bind, Except.bind, pure,
    Except.pure]

/-- Where no number stands and no sign or point either, the character is rejected. -/
theorem act_number_of_other (h : c.Proper) (hp : numeral c.ahead = [])
    (hx : ∀ x ∈ c.peek, sign.acceptsChar x = false ∧ point.acceptsChar x = false) :
    number.act last c = .ok (.reject "number literal" c) := by
  have hm := numeral_eq_nil.1 hp
  cases hpeek : c.peek with
  | none =>
      simp [act, readNumber, Cursor.acceptDecimal_eq h, hm, hpeek, bind, Except.bind, pure,
        Except.pure]
  | some x =>
      obtain ⟨hs, hpt⟩ := hx x hpeek
      simp [act, readNumber, Cursor.acceptDecimal_eq h, hm, hpeek, hs, hpt, bind, Except.bind, pure,
        Except.pure]

/-- Without an operator ahead, the character is rejected. -/
theorem act_operator_of_nil (hp : Piece.operator c.ahead = []) :
    operator.act last c = .ok (.reject "operator" c) := by
  have hnone : longest? [Alphabet.operator] c.ahead = none := by
    cases hl : longest? [Alphabet.operator] c.ahead with
    | none => rfl
    | some p =>
        rw [Piece.operator, hl] at hp
        exact absurd hp (longest?_eq_some hl).2.1
  simp [act, readOperator, Cursor.acceptText_eq, hnone]

/-- Without punctuation ahead, the character is rejected. -/
theorem act_punctuation_of_nil (h : c.Settled) (hp : initial [Alphabet.punctuation] c.ahead = []) :
    punctuation.act last c = .ok (.reject "punctuation" c) := by
  simp [act, readPunctuation, Cursor.accept_eq h, hp]

/-- Without a name ahead, the character is rejected. -/
theorem act_name_of_nil (h : c.Settled) (hp : Piece.name c.ahead = []) :
    name.act last c = .ok (.reject "name" c) := by
  have hi : initial [underscore, letter] c.ahead = [] := by
    by_contra hne
    simp [Piece.name, hne] at hp
  simp [act, readName, Cursor.accept_eq h, hi]

end State

/-! ## Dispatch -/

/-- At the end of the text, the run ends. -/
theorem act_dispatch_of_end (h : c.Settled) (hx : c.afterBlanks.ahead = []) :
    State.dispatch.act last c = .ok (.commit .endOfInput c.afterBlanks.next.2) := by
  have hpeek : (c.past (stretch [blank] c.ahead)).skip.peek = none := by
    rw [Cursor.peek, List.head?_eq_none_iff]
    exact hx
  simp only [State.act, readBlanks, Cursor.acceptMany_eq h, hpeek]
  rfl

/-- A character that breaks a line is a token by itself. -/
theorem act_dispatch_of_newLine (h : c.Settled) (hx : c.afterBlanks.ahead = x :: rest)
    (hn : newLine.acceptsChar x) :
    State.dispatch.act last c = .ok (.commit .newLine (c.afterBlanks.past [x])) := by
  have hpeek : (c.past (stretch [blank] c.ahead)).skip.peek = some x := by
    rw [Cursor.peek, List.head?_eq_some_iff]
    exact ⟨rest, hx⟩
  have hnext : (c.past (stretch [blank] c.ahead)).skip.next = (some x, c.afterBlanks.past [x]) :=
    Cursor.next_of_cons hx
  simp only [State.act, readBlanks, Cursor.acceptMany_eq h, hpeek, hn, hnext, if_true]

/-- Any other character calls for a state. -/
theorem act_dispatch_of_char (h : c.Settled) (hx : c.afterBlanks.ahead = x :: rest)
    (hn : newLine.acceptsChar x = false) :
    State.dispatch.act last c = .ok (.handOver (stateFor x last) c.afterBlanks) := by
  have hpeek : (c.past (stretch [blank] c.ahead)).skip.peek = some x := by
    rw [Cursor.peek, List.head?_eq_some_iff]
    exact ⟨rest, hx⟩
  simp only [State.act, readBlanks, Cursor.acceptMany_eq h, hpeek, hn]
  rfl

/-! ## Steps -/

variable {q : TokenQueue} {k : Token.Kind} {d d' : Cursor} {m : Mode} {st' : State} {cat : String}

namespace State

/-- What is cut off a cursor becomes a token. -/
theorem step_of_cut {s : List Char} (ha : st.act q.lastKind c = .ok (.commit k d))
    (hcut : d.cut = .ok (s, d')) :
    st.step c q = .ok ⟨if k.isTerminal then none else some dispatch, d',
      q.push ⟨k, String.ofList s⟩⟩ := by
  simp [step, ha, bind, Except.bind, TokenQueue.commit, hcut, pure, Except.pure]

/-- A piece that is read becomes part of the pending text, and so of the token. -/
theorem step_of_commit_piece (ha : st.act q.lastKind c = .ok (.commit k (d.past p)))
    (hd : d.start ≤ d.position) (hk : k.isTerminal = false) :
    ∃ s, d.pending? = some s ∧
      st.step c q = .ok ⟨some dispatch, (d.past p).skip, q.push ⟨k, String.ofList (s ++ p)⟩⟩ := by
  have hpending : d.pending? = some (d.behind.take (d.position - d.start)).reverse := if_pos hd
  have hread : (d.past p).pending? = _ := Cursor.pending?_past_of_le hd
  rw [hpending, Option.map_some] at hread
  have hstep := step_of_cut ha (Cursor.cut_eq hread)
  rw [hk] at hstep
  exact ⟨_, hpending, hstep⟩

/-- At the end of the text, the last token is empty. -/
theorem step_of_finish (ha : st.act q.lastKind c = .ok (.commit .endOfInput d.next.2))
    (hd : d.start = d.position) (hnil : d.ahead = []) :
    st.step c q = .ok ⟨none, d.next.2, q.push ⟨.endOfInput, ""⟩⟩ :=
  step_of_cut ha (Cursor.cut_next_of_end hd hnil)

theorem step_of_handOver (ha : st.act q.lastKind c = .ok (.handOver st' d)) :
    st.step c q = .ok ⟨some st', d, q⟩ := by
  rw [step, ha]
  rfl

theorem step_of_reject (ha : st.act q.lastKind c = .ok (.reject cat d)) :
    st.step c q = .ok ⟨none, d, q.reject cat d⟩ := by
  rw [step, ha]
  rfl

end State

/-- The mode in which a step leaves a lexer. -/
def Step.mode (r : Step) : Mode :=
  match r.state with
  | some st => .active st
  | none => .halted

/-- A lexer does what its state does. -/
theorem step_of_ok {r : Step} (h : st.step c q = .ok r) :
    step st ⟨c, q, m⟩ = ⟨r.cursor, r.tokens, r.mode⟩ := by
  simp only [step, h]
  rfl

/-- A piece that is read from the token's start on becomes the token's text. -/
theorem step_of_commit (ha : st.act q.lastKind c = .ok (.commit k (d.past p)))
    (hd : d.start = d.position) (hk : k.isTerminal = false) :
    step st ⟨c, q, m⟩ = ⟨(d.past p).skip, q.push ⟨k, String.ofList p⟩, .active .dispatch⟩ := by
  have hstep := State.step_of_cut ha (Cursor.cut_eq (Cursor.pending?_past hd))
  rw [hk] at hstep
  exact step_of_ok hstep

theorem step_of_end (ha : st.act q.lastKind c = .ok (.commit .endOfInput d.next.2))
    (hd : d.start = d.position) (hnil : d.ahead = []) :
    step st ⟨c, q, m⟩ = ⟨d.next.2, q.push ⟨.endOfInput, ""⟩, .halted⟩ :=
  step_of_ok (State.step_of_finish ha hd hnil)

theorem step_of_handOver (ha : st.act q.lastKind c = .ok (.handOver st' d)) :
    step st ⟨c, q, m⟩ = ⟨d, q, .active st'⟩ :=
  step_of_ok (State.step_of_handOver ha)

theorem step_of_reject (ha : st.act q.lastKind c = .ok (.reject cat d)) :
    step st ⟨c, q, m⟩ = ⟨d, q.reject cat d, .halted⟩ :=
  step_of_ok (State.step_of_reject ha)

end Formula.Lexer
