import Formula.Proofs.Actions
import Formula.Proofs.Alphabet

/-!
# `Formula.Proofs.Lexemes` — the token at the beginning of a text

Between two tokens a lexer is `ready`: its cursor stands somewhere, and all that it remembers is the
kind of the last token. What it hands out next depends on this kind and on the text ahead alone. After
the blanks, one state (`reader`) finds its piece, the `lexeme`, at the beginning of the text; if there
is no piece, the text has ended or its first character is rejected.

## Contents
- **Lexemes.** `reader`, `lexeme`, with `prefix_lexeme` and `of_lexeme_nil`: only operators can be
  missing.
- **Requests.** `Lexer.ready`; `next_of_lexeme`, `next_of_end`, `next_of_rejected`.
-/

namespace Formula.Lexer

open Rule Piece Alphabet

variable {c : Cursor} {last : Option Token.Kind} {s : List Char} {x : Char}

/-! ## Lexemes -/

/-- The state that makes the token at the beginning of a text which follows a token of the given
    kind. A sign or point that starts no number is left to the operators or the punctuation. -/
def reader (last : Option Token.Kind) : List Char → State
  | [] => .dispatch
  | x :: s =>
      if newLine.acceptsChar x then .dispatch
      else if stateFor x last = .number ∧ numeral (x :: s) = [] then
        if sign.acceptsChar x then .operator else .punctuation
      else stateFor x last

/-- The text of the token at the beginning of a text, or nothing. -/
def lexeme (last : Option Token.Kind) (s : List Char) : List Char := (reader last s).piece s

theorem reader_of_newLine (hn : newLine.acceptsChar x) : reader last (x :: s) = .dispatch :=
  if_pos hn

theorem reader_of_sign (hn : newLine.acceptsChar x = false) (hst : stateFor x last = .number)
    (hp : numeral (x :: s) = []) (hx : sign.acceptsChar x) : reader last (x :: s) = .operator := by
  simp [reader, hn, hst, hp, hx]

theorem reader_of_point (hn : newLine.acceptsChar x = false) (hst : stateFor x last = .number)
    (hp : numeral (x :: s) = []) (hx : sign.acceptsChar x = false) :
    reader last (x :: s) = .punctuation := by
  simp [reader, hn, hst, hp, hx]

theorem reader_of_stateFor (hn : newLine.acceptsChar x = false)
    (h : ¬ (stateFor x last = .number ∧ numeral (x :: s) = [])) :
    reader last (x :: s) = stateFor x last := by
  simp [reader, hn, h]

theorem prefix_lexeme (last : Option Token.Kind) (s : List Char) : lexeme last s <+: s :=
  State.prefix_piece _ s

/-- A digit starts a number. -/
theorem numeral_ne_nil_of_digit (hx : digit.acceptsChar x) : numeral (x :: s) ≠ [] := by
  have hsign : ¬ anyAcceptsChar [sign] x := by
    intro hs
    rw [anyAcceptsChar_singleton] at hs
    simp [(symbolic_sign hs).1] at hx
  have hblank : ¬ anyAcceptsChar [blank] x := by
    intro hb
    rw [anyAcceptsChar_singleton] at hb
    simp [(symbolic_blank hb).1] at hx
  have hdigit : anyAcceptsChar [digit] x := by rwa [anyAcceptsChar_singleton]
  rw [ne_eq, numeral_eq_nil]
  simp [decimal, unsigned, initial_cons_of_not hsign, stretch_cons_of_not hblank,
    stretch_cons_of_accepts hdigit]

theorem operator_ne_nil_of_accepts (hx : operator.acceptsText [x]) : Piece.operator (x :: s) ≠ [] := by
  intro hnil
  have hlen := length_le_operator hx (List.prefix_append [x] s)
  rw [List.singleton_append, hnil] at hlen
  cases hlen

theorem initial_ne_nil_of_accepts {rules : List Rule} (hx : anyAcceptsChar rules x) :
    initial rules (x :: s) ≠ [] := by
  simp [initial_cons_of_accepts hx]

theorem startsNumber_of_stateFor (h : stateFor x last = .number) : startsNumber x last := by
  by_contra hs
  unfold stateFor at h
  rw [if_neg hs] at h
  repeat' split at h
  all_goals cases h

/-- A character that calls for a number is a digit, a point or a sign. -/
theorem of_stateFor_number (h : stateFor x last = .number) :
    digit.acceptsChar x ∨ point.acceptsChar x ∨ sign.acceptsChar x := by
  have hs := startsNumber_of_stateFor h
  simp only [startsNumber, Bool.or_eq_true, Bool.and_eq_true] at hs
  rcases hs with (hd | ⟨hp, _⟩) | ⟨hs, _⟩
  · exact Or.inl hd
  · exact Or.inr (Or.inl hp)
  · exact Or.inr (Or.inr hs)

theorem of_stateFor_name (h : stateFor x last = .name) :
    anyAcceptsChar [letter, underscore] x := by
  unfold stateFor at h
  by_contra hn
  rw [if_neg hn] at h
  repeat' split at h
  all_goals cases h

theorem of_stateFor_punctuation (h : stateFor x last = .punctuation) :
    punctuation.acceptsChar x := by
  unfold stateFor at h
  by_contra hn
  rw [if_neg hn] at h
  repeat' split at h
  all_goals cases h

/-- A character that calls for an operator starts no token of another kind. -/
theorem of_stateFor_operator (h : stateFor x last = .operator) :
    digit.acceptsChar x = false ∧ letter.acceptsChar x = false ∧
      underscore.acceptsChar x = false ∧ punctuation.acceptsChar x = false := by
  have hs : startsNumber x last = false := by
    by_contra hs
    rw [Bool.not_eq_false] at hs
    simp [stateFor, hs] at h
  have hn : ¬ anyAcceptsChar [letter, underscore] x := by
    intro hn
    simp [stateFor, hs, hn] at h
  have hp : punctuation.acceptsChar x = false := by
    by_contra hp
    rw [Bool.not_eq_false] at hp
    simp [stateFor, hs, hn, hp] at h
  simp only [startsNumber, Bool.or_eq_false_iff] at hs
  simp only [anyAcceptsChar, List.any_cons, List.any_nil, Bool.or_false, Bool.or_eq_true, not_or,
    Bool.not_eq_true] at hn
  exact ⟨hs.1.1, hn.1, hn.2, hp⟩

theorem stateFor_ne_dispatch : stateFor x last ≠ .dispatch := by
  unfold stateFor
  repeat' split
  all_goals decide

/-- A character that starts no token of another kind calls for an operator. -/
theorem stateFor_of_other (hd : digit.acceptsChar x = false) (hl : letter.acceptsChar x = false)
    (hu : underscore.acceptsChar x = false) (hp : punctuation.acceptsChar x = false)
    (hs : sign.acceptsChar x = false) : stateFor x last = .operator := by
  have hpt : point.acceptsChar x = false := by
    by_contra hpt
    rw [Bool.not_eq_false] at hpt
    simp [punctuation_of_point hpt] at hp
  simp [stateFor, startsNumber, anyAcceptsChar, hd, hl, hu, hp, hs, hpt]

/-- A text that starts as no operator does has no operator at its beginning. -/
theorem operator_eq_nil_of_not (hx : operator.acceptsChar x = false) :
    Piece.operator (x :: s) = [] := by
  by_contra hne
  have hop := acceptsText_operator hne
  obtain ⟨q, hq, _⟩ := (List.prefix_cons_iff.1 (prefix_operator (x :: s))).resolve_left hne
  rw [operator_of_mem hop (by rw [hq]; exact List.mem_cons_self)] at hx
  cases hx

/-- No lexeme starts with a blank. -/
theorem lexeme_of_blank (hx : blank.acceptsChar x) : lexeme last (x :: s) = [] := by
  have hsym := symbolic_blank hx
  have hst : stateFor x last = .operator := by
    apply stateFor_of_other hsym.1 hsym.2
    all_goals rcases blank_iff.1 hx with rfl | rfl <;> decide
  have hn : newLine.acceptsChar x = false := by rcases blank_iff.1 hx with rfl | rfl <;> decide
  have ho : operator.acceptsChar x = false := by rcases blank_iff.1 hx with rfl | rfl <;> decide
  rw [lexeme, reader_of_stateFor hn (by simp [hst]), hst]
  exact operator_eq_nil_of_not ho

/-- The state that a character calls for finds its piece, the operators and bare signs and points
    apart. -/
theorem piece_ne_nil_of_stateFor {st : State} (h : stateFor x last = st) (ho : st ≠ .operator)
    (hnum : st = .number → numeral (x :: s) ≠ []) : st.piece (x :: s) ≠ [] := by
  cases st with
  | dispatch => exact absurd h stateFor_ne_dispatch
  | number => exact hnum rfl
  | operator => exact absurd rfl ho
  | punctuation =>
      apply initial_ne_nil_of_accepts
      rw [anyAcceptsChar_singleton]
      exact of_stateFor_punctuation h
  | name =>
      have hx : anyAcceptsChar [underscore, letter] x := by
        simpa [anyAcceptsChar, Bool.or_comm] using of_stateFor_name h
      simp [State.piece, Piece.name, initial_cons_of_accepts hx]

/-- Where there is no lexeme, an operator was asked for. -/
theorem of_lexeme_nil (h : lexeme last (x :: s) = []) :
    newLine.acceptsChar x = false ∧ stateFor x last = .operator ∧ Piece.operator (x :: s) = [] := by
  unfold lexeme at h
  by_cases hn : newLine.acceptsChar x
  · rw [reader_of_newLine hn] at h
    exact absurd h (initial_ne_nil_of_accepts (by rwa [anyAcceptsChar_singleton]))
  rw [Bool.not_eq_true] at hn
  by_cases hnum : stateFor x last = .number ∧ numeral (x :: s) = []
  · exfalso
    -- a bare sign or point is a token after all
    by_cases hs : sign.acceptsChar x
    · rw [reader_of_sign hn hnum.1 hnum.2 hs] at h
      exact operator_ne_nil_of_accepts (acceptsText_of_sign hs) h
    · rw [reader_of_point hn hnum.1 hnum.2 (by simpa using hs)] at h
      rcases of_stateFor_number hnum.1 with hd | hp | hs'
      · exact numeral_ne_nil_of_digit hd hnum.2
      · have hx := punctuation_of_point hp
        exact initial_ne_nil_of_accepts (by rwa [anyAcceptsChar_singleton]) h
      · exact hs hs'
  · rw [reader_of_stateFor hn hnum] at h
    by_cases ho : stateFor x last = .operator
    · rw [ho] at h
      exact ⟨hn, ho, h⟩
    · exact absurd h (piece_ne_nil_of_stateFor rfl ho fun hst hp => hnum ⟨hst, hp⟩)

/-! ## Requests -/

/-- A lexer between two tokens. -/
def ready (c : Cursor) (last : Option Token.Kind) : Lexer :=
  ⟨c, ⟨[], last, none⟩, .active .dispatch⟩

theorem ofString_eq_ready (source : String) :
    ofString source = ready (Cursor.ofString source) none := rfl

/-- A token that was produced is handed out at once. -/
theorem next_of_pending {l : Lexer} {t : Token} {ts : List Token} (h : l.tokens.pending = t :: ts) :
    l.next = (some t, { l with tokens := { l.tokens with pending := ts } }) := by
  unfold next
  simp [TokenQueue.pop, h]

/-- Without a token to hand out, an active lexer takes a step. -/
theorem next_of_active {l : Lexer} {st : State} (h : l.tokens.pending = []) (hm : l.mode = .active st) :
    l.next = (l.step st).next := by
  rw [next]
  simp only [TokenQueue.pop, h]
  split
  · next st' hst =>
      rw [hm] at hst
      cases hst
      rfl
  · next hst => simp [hm] at hst
  · next hst => simp [hm] at hst

/-- A reading state that finds its piece leads to the token at once. -/
theorem next_of_piece {st : State} (h : c.Proper) (hs : c.start = c.position) (hst : st ≠ .dispatch)
    (hp : st.piece c.ahead ≠ []) :
    next ⟨c, ⟨[], last, none⟩, .active st⟩ =
      (some ⟨st.kind, String.ofList (st.piece c.ahead)⟩,
        ready (c.past (st.piece c.ahead)).skip (some st.kind)) := by
  rw [next_of_active rfl rfl,
    step_of_commit (State.act_of_piece h hst hp) hs st.isTerminal_kind, next_of_pending rfl]
  rfl

/-- A ready lexer with a character ahead goes over to the state that the character calls for. -/
theorem next_ready_of_char (h : c.Settled) (hx : c.afterBlanks.ahead = x :: s)
    (hn : newLine.acceptsChar x = false) :
    (ready c last).next = next ⟨c.afterBlanks, ⟨[], last, none⟩, .active (stateFor x last)⟩ := by
  rw [next_of_active (l := ready c last) rfl rfl]
  exact congrArg next (step_of_handOver (act_dispatch_of_char h hx hn))

/-- The state that a character calls for leads to the lexeme, if there is one. -/
theorem next_of_stateFor (h : c.Proper) (hs : c.start = c.position) (hx : c.ahead = x :: s)
    (hn : newLine.acceptsChar x = false) (hp : lexeme last c.ahead ≠ []) :
    next ⟨c, ⟨[], last, none⟩, .active (stateFor x last)⟩ =
      (some ⟨(reader last c.ahead).kind, String.ofList (lexeme last c.ahead)⟩,
        ready (c.past (lexeme last c.ahead)).skip (some (reader last c.ahead).kind)) := by
  have hreader : reader last c.ahead = reader last (x :: s) := by rw [hx]
  unfold lexeme at hp ⊢
  by_cases hnum : stateFor x last = .number ∧ numeral (x :: s) = []
  · have hnil : numeral c.ahead = [] := by rw [hx]; exact hnum.2
    have hpeek : c.peek = some x := by simp [Cursor.peek, hx]
    rw [hnum.1, next_of_active rfl rfl]
    -- a bare sign or point: the number state hands over once more
    by_cases hsign : sign.acceptsChar x
    · rw [reader_of_sign hn hnum.1 hnum.2 hsign] at hreader
      rw [hreader] at hp ⊢
      rw [step_of_handOver (State.act_number_of_sign h hnil hpeek hsign)]
      exact next_of_piece h hs (by decide) hp
    · rw [Bool.not_eq_true] at hsign
      have hpt : point.acceptsChar x := by
        rcases of_stateFor_number hnum.1 with hd | hpt | hsign'
        · exact absurd hnum.2 (numeral_ne_nil_of_digit hd)
        · exact hpt
        · simp [hsign'] at hsign
      rw [reader_of_point hn hnum.1 hnum.2 hsign] at hreader
      rw [hreader] at hp ⊢
      rw [step_of_handOver (State.act_number_of_point h hnil hpeek hsign hpt)]
      exact next_of_piece h hs (by decide) hp
  · rw [reader_of_stateFor hn hnum] at hreader
    rw [hreader] at hp ⊢
    exact next_of_piece h hs stateFor_ne_dispatch hp

/-- A ready lexer hands out the lexeme after the blanks, and is ready again. -/
theorem next_of_lexeme (h : c.Settled) (hp : lexeme last c.afterBlanks.ahead ≠ []) :
    (ready c last).next =
      (some ⟨(reader last c.afterBlanks.ahead).kind,
          String.ofList (lexeme last c.afterBlanks.ahead)⟩,
        ready (c.afterBlanks.past (lexeme last c.afterBlanks.ahead)).skip
          (some (reader last c.afterBlanks.ahead).kind)) := by
  cases hx : c.afterBlanks.ahead with
  | nil =>
      rw [hx] at hp
      exact absurd rfl hp
  | cons x s =>
      by_cases hn : newLine.acceptsChar x
      · -- a line break is the one token that `dispatch` makes itself
        have hpiece : State.dispatch.piece (x :: s) = [x] :=
          initial_cons_of_accepts (by rwa [anyAcceptsChar_singleton])
        rw [lexeme, reader_of_newLine hn, hpiece, next_of_active (l := ready c last) rfl rfl]
        have hstep := step_of_commit (q := ⟨[], last, none⟩) (m := .active .dispatch)
          (act_dispatch_of_newLine h hx hn) Cursor.afterBlanks_start rfl
        rw [show (ready c last).step .dispatch = _ from hstep, next_of_pending rfl]
        rfl
      · rw [Bool.not_eq_true] at hn
        rw [next_ready_of_char h hx hn, ← hx]
        exact next_of_stateFor h.afterBlanks Cursor.afterBlanks_start hx hn hp

/-- At the end of the text, a ready lexer hands out the last token and halts. -/
theorem next_of_end (h : c.Settled) (hx : c.afterBlanks.ahead = []) :
    (ready c last).next =
      (some ⟨.endOfInput, ""⟩, ⟨c.afterBlanks.next.2, ⟨[], some .endOfInput, none⟩, .halted⟩) := by
  rw [next_of_active (l := ready c last) rfl rfl]
  have hstep := step_of_end (q := ⟨[], last, none⟩) (m := .active .dispatch)
    (act_dispatch_of_end h hx) Cursor.afterBlanks_start hx
  rw [show (ready c last).step .dispatch = _ from hstep, next_of_pending rfl]
  rfl

/-- The error that is reported for the character ahead of a cursor. -/
def rejection (c : Cursor) : LexError :=
  LexError.expected "operator" c.peek (String.ofList c.text) c.offset

/-- At a character that starts no token, a ready lexer reports an error and halts. -/
theorem next_of_rejected (h : c.Settled) (hx : c.afterBlanks.ahead ≠ [])
    (hp : lexeme last c.afterBlanks.ahead = []) :
    (ready c last).next =
      (some ⟨.error, (rejection c.afterBlanks).message⟩,
        ⟨c.afterBlanks, ⟨[], some .error, some (rejection c.afterBlanks)⟩, .halted⟩) := by
  obtain ⟨x, s, hxs⟩ := List.exists_cons_of_ne_nil hx
  rw [hxs] at hp
  obtain ⟨hn, hst, hnil⟩ := of_lexeme_nil hp
  rw [← hxs] at hnil
  rw [next_ready_of_char h hxs hn, hst, next_of_active rfl rfl,
    step_of_reject (State.act_operator_of_nil hnil), next_of_pending rfl]
  rfl

end Formula.Lexer
