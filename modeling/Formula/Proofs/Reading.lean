import Formula.Proofs.Pieces

/-!
# `Formula.Proofs.Reading` — cursor readings are moves over a piece

Every reading of a cursor moves it over the piece that stands ahead, and changes nothing else; a
reading that fails leaves the cursor alone. Two things must hold for this. Requests at the end of the
text that were not undone must lie at the end (`Settled`), for otherwise undoing a character undoes
such a request instead. And the token must not start past the cursor (`Proper`), for otherwise the
cursor may not return to a mark that it has just set.

## Contents
- **Moves.** `past`, with what it does to each field.
- **Conditions.** `Settled`, `Proper`; moves keep them.
- **Simple readings.** `next_of_cons`, `accept_eq`, `acceptMany_eq`, `acceptText_eq`.
- **Marks and cuts.** `restore_past`, `pending?_past_of_le`, `pending?_past`, `cut_eq`,
  `cut_next_of_end`.
- **Blanks.** `afterBlanks`.
- **Decimals.** `acceptFraction_eq`, `acceptDecimal_eq`.
-/

namespace Formula.Cursor

open Rule Piece

variable {c : Cursor} {p q : List Char}

/-! ## Moves -/

/-- The cursor after it has read a piece. -/
def past (c : Cursor) (p : List Char) : Cursor :=
  { c with behind := p.reverse ++ c.behind, ahead := c.ahead.drop p.length }

@[simp] theorem past_nil : c.past [] = c := rfl

@[simp] theorem past_behind : (c.past p).behind = p.reverse ++ c.behind := rfl

@[simp] theorem past_ahead : (c.past p).ahead = c.ahead.drop p.length := rfl

@[simp] theorem past_start : (c.past p).start = c.start := rfl

@[simp] theorem past_overread : (c.past p).overread = c.overread := rfl

@[simp] theorem past_past : (c.past p).past q = c.past (p ++ q) := by
  simp [past, List.drop_drop]

@[simp] theorem past_position : (c.past p).position = c.position + p.length := by
  simp [position, Nat.add_comm]

@[simp] theorem past_offset : (c.past p).offset = c.offset + Text.byteLength p := by
  simp [offset, Nat.add_comm]

/-- Moving over a piece that stands ahead keeps the text. -/
theorem past_text (h : p <+: c.ahead) : (c.past p).text = c.text := by
  obtain ⟨t, ht⟩ := h
  simp [text, ← ht]

/-! ## Conditions -/

/-- Requests that were not undone were made at the end of the text. -/
def Settled (c : Cursor) : Prop := 0 < c.overread → c.ahead = []

/-- The cursor is settled, and the token does not start past it. -/
structure Proper (c : Cursor) : Prop where
  settled : c.Settled
  start_le : c.start ≤ c.position

theorem Settled.past (h : c.Settled) (p : List Char) : (c.past p).Settled := by
  intro hpos
  simp [h hpos]

theorem Proper.past (h : c.Proper) (p : List Char) : (c.past p).Proper := by
  refine ⟨h.settled.past p, ?_⟩
  have := h.start_le
  rw [past_start, past_position]
  omega

theorem Proper.skip (h : c.Settled) : c.skip.Proper :=
  ⟨h, Nat.le_refl _⟩

/-! ## Simple readings -/

/-- Reading the character ahead moves the cursor over it. -/
theorem next_of_cons {x : Char} {rest : List Char} (h : c.ahead = x :: rest) :
    c.next = (some x, c.past [x]) := by
  obtain ⟨behind, ahead, start, overread⟩ := c
  cases h
  rfl

/-- One character is tried: the cursor moves over it or stays. -/
theorem accept_eq (h : c.Settled) (rules : List Rule) :
    c.accept rules = (decide (initial rules c.ahead ≠ []), c.past (initial rules c.ahead)) := by
  obtain ⟨behind, ahead, start, overread⟩ := c
  cases ahead with
  | nil => simp [accept, next, back]
  | cons x rest =>
      have ho : overread = 0 := by
        by_contra hne
        simpa using h (Nat.pos_of_ne_zero hne)
      by_cases hx : anyAcceptsChar rules x
      · simp [accept, next, initial_cons_of_accepts hx, hx, past]
      · simp [accept, next, back, initial_cons_of_not hx, hx, ho]

/-- Greedy reading moves the cursor over the whole stretch. -/
theorem acceptMany_eq (h : c.Settled) (rules : List Rule) :
    c.acceptMany rules = (decide (stretch rules c.ahead ≠ []), c.past (stretch rules c.ahead)) := by
  fun_induction acceptMany rules c with
  | case1 c c' hc ih =>
      rw [accept_eq h] at hc
      simp only [Prod.mk.injEq, decide_eq_true_eq] at hc
      obtain ⟨hne, rfl⟩ := hc
      rw [ih (h.past _)]
      cases ha : c.ahead with
      | nil => simp [ha] at hne
      | cons x rest =>
          have hx : anyAcceptsChar rules x := by
            by_contra hx
            simp [ha, initial_cons_of_not hx] at hne
          simp [ha, initial_cons_of_accepts hx, stretch_cons_of_accepts hx]
  | case2 c c' hc =>
      rw [accept_eq h] at hc
      simp only [Prod.mk.injEq, decide_eq_false_iff_not, not_not] at hc
      obtain ⟨hnil, rfl⟩ := hc
      cases ha : c.ahead with
      | nil => simp
      | cons x rest =>
          have hx : ¬ anyAcceptsChar rules x := by
            intro hx
            simp [ha, initial_cons_of_accepts hx] at hnil
          simp [initial_cons_of_not hx, stretch_cons_of_not hx]

/-- Moving over a number of characters is moving over the piece that they make. -/
theorem advance_eq (n : Nat) (c : Cursor) : c.advance n = c.past (c.ahead.take n) := by
  induction n generalizing c with
  | zero => simp [advance]
  | succ n ih =>
      obtain ⟨behind, ahead, start, overread⟩ := c
      cases ahead with
      | nil => simp [advance]
      | cons x rest => simp [advance, ih, past]

/-- The longest accepted text is read, or nothing. -/
theorem acceptText_eq (rules : List Rule) (c : Cursor) :
    c.acceptText rules =
      ((longest? rules c.ahead).isSome, c.past ((longest? rules c.ahead).getD [])) := by
  unfold acceptText
  cases h : longest? rules c.ahead with
  | none => simp
  | some p =>
      obtain ⟨t, ht⟩ := (longest?_eq_some h).2.2.1
      simp [advance_eq, ← ht]

/-! ## Marks and cuts -/

/-- A mark undoes all that was read since it was set. -/
theorem restore_past (h : c.start ≤ c.position) : (c.past p).restore c.mark = .ok c := by
  have hlt : ¬ c.behind.length < c.start := Nat.not_lt.2 h
  simp [restore, mark, hlt]

/-- What is read is added to the pending text. -/
theorem pending?_past_of_le (h : c.start ≤ c.position) :
    (c.past p).pending? = c.pending?.map (· ++ p) := by
  have hle : c.start ≤ (c.past p).position := by
    rw [past_position]
    exact Nat.le_add_right_of_le h
  have hcount : (c.past p).position - c.start = p.reverse.length + (c.position - c.start) := by
    rw [past_position, List.length_reverse]
    omega
  unfold pending?
  rw [past_start, if_pos hle, if_pos h, hcount, past_behind, List.take_length_add_append]
  simp

/-- The pending text is what was read since the token's start. -/
theorem pending?_past (h : c.start = c.position) : (c.past p).pending? = some p := by
  rw [pending?_past_of_le (Nat.le_of_eq h), pending?, if_pos (Nat.le_of_eq h), h]
  simp

theorem cut_eq {s : List Char} (h : c.pending? = some s) : c.cut = .ok (s, c.skip) := by
  rw [cut, h]
  rfl

/-- The request that meets the end of the text is noted, but adds nothing to the pending text. -/
theorem cut_next_of_end (h : c.start = c.position) (hend : c.ahead = []) :
    c.next.2.cut = .ok ([], c.next.2) := by
  obtain ⟨behind, ahead, start, overread⟩ := c
  subst hend
  simp only [position] at h
  simp [cut, next, pending?, position, h]

/-! ## Blanks -/

/-- The cursor after it has dropped blanks, at the start of a token. -/
def afterBlanks (c : Cursor) : Cursor := (c.past (stretch [Alphabet.blank] c.ahead)).skip

theorem afterBlanks_ahead :
    c.afterBlanks.ahead = c.ahead.drop (stretch [Alphabet.blank] c.ahead).length := rfl

@[simp] theorem afterBlanks_start : c.afterBlanks.start = c.afterBlanks.position := rfl

@[simp] theorem afterBlanks_text : c.afterBlanks.text = c.text := past_text prefix_stretch

theorem afterBlanks_offset :
    c.afterBlanks.offset = c.offset + Text.byteLength (stretch [Alphabet.blank] c.ahead) :=
  past_offset

theorem Settled.afterBlanks (h : c.Settled) : c.afterBlanks.Proper :=
  Proper.skip (h.past _)

/-! ## Decimals -/

/-- A fraction is read, or nothing. -/
theorem acceptFraction_eq (h : c.Proper) :
    c.acceptFraction = .ok (decide (fraction c.ahead ≠ []), c.past (fraction c.ahead)) := by
  have hback (p : List Char) : (c.past p).restore c.mark = .ok c := restore_past h.start_le
  unfold acceptFraction fraction
  rw [accept_eq h.settled]
  by_cases hp : initial [Alphabet.point] c.ahead = []
  · have hc := hback []
    rw [past_nil] at hc
    simp [hp, hc, bind, Except.bind, pure, Except.pure]
  · simp only [ne_eq, hp, not_false_eq_true, decide_true]
    rw [acceptMany_eq (h.settled.past _), past_past, past_ahead]
    by_cases hd : stretch [Alphabet.digit] (c.ahead.drop (initial [Alphabet.point] c.ahead).length) = []
    · simp [hd, hback, bind, Except.bind, pure, Except.pure]
    · simp [hp, hd]

/-- A decimal is read, or nothing. -/
theorem acceptDecimal_eq (h : c.Proper) :
    c.acceptDecimal = .ok (decide (decimal c.ahead ≠ []), c.past (decimal c.ahead)) := by
  have hback (p : List Char) : (c.past p).restore c.mark = .ok c := restore_past h.start_le
  unfold acceptDecimal decimal unsigned
  dsimp only
  rw [accept_eq h.settled, acceptMany_eq (h.settled.past _),
    acceptMany_eq ((h.settled.past _).past _)]
  simp only [past_past, past_ahead, List.length_append, List.drop_drop]
  generalize initial [Alphabet.sign] c.ahead = a
  generalize stretch [Alphabet.blank] (c.ahead.drop a.length) = b
  generalize hd : stretch [Alphabet.digit] (c.ahead.drop (a.length + b.length)) = d
  have hf := acceptFraction_eq (h.past (a ++ (b ++ d)))
  simp only [past_past, past_ahead, List.length_append, List.append_assoc, ← Nat.add_assoc] at hf
  generalize fraction (c.ahead.drop (a.length + b.length + d.length)) = f at hf
  by_cases hnil : d = []
  · -- without digits, all depends on the fraction
    subst hnil
    simp only [List.append_nil, List.nil_append] at hf
    by_cases hfnil : f = []
    · simp [hfnil, hf, hback, bind, Except.bind, pure, Except.pure]
    · simp [hfnil, hf, bind, Except.bind, pure, Except.pure]
  · simp [hnil, hf, bind, Except.bind, pure, Except.pure]

end Formula.Cursor
