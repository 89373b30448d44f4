import Formula.Proofs.Neighbours

/-!
# `Formula.Proofs.Relexing` — a token by itself is read as it was read in its source

In its source a token comes after other tokens and before more text, and both have a say in what is
read: the token before it decides whether a sign or a point may start a number, and the text after it
whether one does. By itself, the token comes first and nothing follows. That it is found again rests on
two facts. A word of a state's language is read to its end where it stands alone. And a character that
may start a number after some token may do so at the start of a source; so another state could take
over only for a sign or a point that was left to the operators or the punctuation, and such a token is
too short for a number.

## Contents
- **Pieces.** `State.piece_self`: a piece by itself is read again.
- **Signs and points.** `bareReader`, the state that they are left to; `reader_of_bare`, and
  `eq_nil_of_bare`: they are the whole token then.
- **Readers.** `startsNumber_none`, `stateFor_none`, and from these `reader_self`: the same state reads
  the token.
- **Tokens.** `tokenize_of_piece`, and `token_relexes_to_itself`.
-/

namespace Formula.Lexer

open Rule Piece Alphabet Grammar

variable {last : Option Token.Kind} {text s p : List Char} {x : Char} {st : State}

/-! ## Pieces -/

/-- What a state reads at the beginning of a text, it reads again where nothing follows. -/
theorem State.piece_self (hne : text ≠ []) (h : st.piece (text ++ s) = text) :
    st.piece text = text := by
  have hst := State.finds_piece st
  have hmem := hst.mem (text ++ s) (by rwa [h])
  rw [h] at hmem
  exact hst.eq_self hmem

/-! ## Signs and points -/

/-- The state that a sign or a point is left to when it starts no number. -/
def bareReader (x : Char) : State := if sign.acceptsChar x then .operator else .punctuation

/-- There are but three such characters. -/
theorem eq_of_bare (hx : sign.acceptsChar x ∨ point.acceptsChar x) : x = '+' ∨ x = '-' ∨ x = '.' := by
  simpa [sign_iff, point_iff, or_assoc] using hx

theorem stateFor_of_bare (hx : sign.acceptsChar x ∨ point.acceptsChar x)
    (h : startsNumber x last = false) : stateFor x last = bareReader x := by
  unfold stateFor
  rw [h, if_neg Bool.false_ne_true]
  rcases eq_of_bare hx with rfl | rfl | rfl
  all_goals decide +kernel

/-- A sign or a point is read as part of a number or left to that state. -/
theorem reader_of_bare (hx : sign.acceptsChar x ∨ point.acceptsChar x)
    (h : reader last (x :: s) ≠ .number) : reader last (x :: s) = bareReader x := by
  have hn : newLine.acceptsChar x = false := by
    rcases eq_of_bare hx with rfl | rfl | rfl
    all_goals decide
  by_cases hst : stateFor x last = .number
  · by_cases hnil : numeral (x :: s) = []
    · simp [reader, hn, hst, hnil, bareReader]
    · rw [reader_of_stateFor hn fun hnum => hnil hnum.2] at h
      exact absurd hst h
  · rw [reader_of_stateFor hn fun hnum => hst hnum.1]
    apply stateFor_of_bare hx
    by_contra hstarts
    exact hst (if_pos (by simpa using hstarts))

/-- An operator that starts with a sign is that sign. -/
theorem eq_nil_of_sign (hop : operator.acceptsText (x :: p)) (hs : sign.acceptsChar x) : p = [] := by
  have hf := check_of_operator (f := fun q => q.head?.all fun y => !sign.acceptsChar y || q == [y])
    hop (by decide +kernel)
  simpa [hs] using hf

/-- A sign or a point that is left to that state is the whole token. -/
theorem eq_nil_of_bare (hx : sign.acceptsChar x ∨ point.acceptsChar x)
    (h : (bareReader x).piece (x :: (p ++ s)) = x :: p) : p = [] := by
  by_cases hs : sign.acceptsChar x
  · have hreader : bareReader x = .operator := if_pos hs
    rw [hreader] at h
    have hop := (State.finds_piece .operator).mem (x :: (p ++ s)) (by simp [h])
    rw [h] at hop
    exact eq_nil_of_sign hop hs
  · have hreader : bareReader x = .punctuation := if_neg hs
    have hpiece : State.punctuation.piece (x :: (p ++ s)) = [x] := by
      apply initial_cons_of_accepts
      rw [anyAcceptsChar_singleton]
      exact punctuation_of_point (hx.resolve_left hs)
    rw [hreader, hpiece] at h
    cases h
    rfl

/-- A sign or a point by itself is no number. -/
theorem reader_singleton_of_bare (hx : sign.acceptsChar x ∨ point.acceptsChar x) :
    reader none [x] ≠ .number := by
  rcases eq_of_bare hx with rfl | rfl | rfl
  all_goals decide +kernel

/-! ## Readers -/

/-- What may start a number after some token may start one at the start of a source. -/
theorem startsNumber_none (h : startsNumber x last) : startsNumber x none := by
  simp only [startsNumber, Bool.or_eq_true, Bool.and_eq_true] at h ⊢
  rcases h with (hd | ⟨hp, -⟩) | ⟨hs, -⟩
  · exact Or.inl (Or.inl hd)
  · exact Or.inl (Or.inr ⟨hp, rfl⟩)
  · exact Or.inr ⟨hs, rfl⟩

/-- The token before matters to signs and points only. -/
theorem stateFor_none (hx : ¬ (sign.acceptsChar x ∨ point.acceptsChar x)) :
    stateFor x none = stateFor x last := by
  rw [not_or, Bool.not_eq_true, Bool.not_eq_true] at hx
  simp [stateFor, startsNumber, hx]

/-- A token by itself is read by the state that read it in its source. -/
theorem reader_self (hne : text ≠ []) (htext : lexeme last (text ++ s) = text) :
    reader none text = reader last (text ++ s) := by
  obtain ⟨x, p, rfl⟩ := List.exists_cons_of_ne_nil hne
  rw [List.cons_append] at htext ⊢
  by_cases hn : newLine.acceptsChar x
  · rw [reader_of_newLine hn, reader_of_newLine hn]
  rw [Bool.not_eq_true] at hn
  by_cases hnum : reader last (x :: (p ++ s)) = .number
  · -- the number is found again, and its first character may start it
    rw [lexeme, hnum] at htext
    have hpiece : State.number.piece (x :: p) = x :: p := State.piece_self hne htext
    have hst : stateFor x none = .number := if_pos (startsNumber_none (startsNumber_of_reader hnum))
    rw [hnum, reader_of_stateFor hn ?_, hst]
    rintro ⟨-, hnil⟩
    rw [show State.number.piece (x :: p) = [] from hnil] at hpiece
    cases hpiece
  by_cases hx : sign.acceptsChar x ∨ point.acceptsChar x
  · have hreader := reader_of_bare hx hnum
    rw [lexeme, hreader] at htext
    obtain rfl := eq_nil_of_bare hx htext
    rw [hreader, reader_of_bare hx (reader_singleton_of_bare hx)]
  · -- neither what comes before the token nor what follows it has a say
    have hst : stateFor x last ≠ .number := by
      intro hst
      rcases of_stateFor_number hst with hd | hp | hs
      · rw [reader_of_stateFor hn fun h => numeral_ne_nil_of_digit hd h.2] at hnum
        exact hnum hst
      · exact hx (Or.inr hp)
      · exact hx (Or.inl hs)
    have hnone : stateFor x none = stateFor x last := stateFor_none hx
    rw [reader_of_stateFor hn fun h => hst h.1, reader_of_stateFor hn fun h => hst (hnone ▸ h.1),
      hnone]

/-! ## Tokens -/

/-- A text that some state reads as a token by itself makes a source of one token. -/
theorem tokenize_of_piece {t : Token} (hne : t.text.toList ≠ [])
    (hreader : reader none t.text.toList = st) (hpiece : st.piece t.text.toList = t.text.toList)
    (hkind : t.kind = st.kind) : tokenize t.text = .ok [t, ⟨.endOfInput, ""⟩] := by
  have hlexes : Lexes none ([] ++ (t.text.toList ++ [])) [⟨[], st.kind, t.text.toList⟩] [] [] := by
    refine Lexes.token_of_reader [] _ [] st nofun hne ?_ ?_ .nil
    · rwa [List.append_nil]
    · rwa [List.append_nil]
  rw [List.nil_append, List.append_nil] at hlexes
  rw [tokenize_ofString hlexes]
  simp [outcome, lastToken, Segment.token, ← hkind]

/-- Whatever comes before a token in a source and whatever follows it, be it an error: if the token ends
    no run, its text by itself is lexed as this token and nothing else. -/
theorem token_relexes_to_itself (source : String) (before after : List Token) (t : Token)
    (h : (ofString source).toList = before ++ t :: after) (ht : t.kind.isTerminal = false) :
    tokenize t.text = .ok [t, ⟨.endOfInput, ""⟩] := by
  obtain ⟨s, _, _, _, _, hread, -⟩ := exists_readAt h ht
  have hreader := reader_self hread.text_ne hread.lexeme_eq
  have hpiece := hread.lexeme_eq
  rw [lexeme] at hpiece
  exact tokenize_of_piece hread.text_ne hreader (State.piece_self hread.text_ne hpiece) hread.kind_eq

/-- The name makes the point a token, and the source ends in an error; the point by itself is the same
    token. -/
theorem point_relexes_to_itself :
    (ofString "a.5 &").toList =
        [⟨.name, "a"⟩, ⟨.punctuation, "."⟩, ⟨.number, "5"⟩,
          ⟨.error, "expected operator, got '&'"⟩] ∧
      tokenize "." = .ok [⟨.punctuation, "."⟩, ⟨.endOfInput, ""⟩] := by
  have hlast : Lexes (some .number) [' ', '&'] [] [' '] ['&'] := by
    have hstop : Lexes (some .number) ([' '] ++ ['&']) [] [' '] ['&'] := by
      refine .stop ?_ ?_ ?_
      all_goals decide +kernel
    exact hstop
  have hnumber : Lexes (some .punctuation) ['5', ' ', '&'] [⟨[], .number, ['5']⟩] [' '] ['&'] := by
    refine Lexes.token_of_reader [] ['5'] [' ', '&'] .number ?_ ?_ ?_ ?_ hlast
    all_goals decide +kernel
  have hpoint : Lexes (some .name) ['.', '5', ' ', '&']
      [⟨[], .punctuation, ['.']⟩, ⟨[], .number, ['5']⟩] [' '] ['&'] := by
    refine Lexes.token_of_reader [] ['.'] ['5', ' ', '&'] .punctuation ?_ ?_ ?_ ?_ hnumber
    all_goals decide +kernel
  have hsource : Lexes none "a.5 &".toList
      [⟨[], .name, ['a']⟩, ⟨[], .punctuation, ['.']⟩, ⟨[], .number, ['5']⟩] [' '] ['&'] := by
    refine Lexes.token_of_reader [] ['a'] ['.', '5', ' ', '&'] .name ?_ ?_ ?_ ?_ hpoint
    all_goals decide +kernel
  have h := toList_ofString hsource
  have hpointed := token_relexes_to_itself "a.5 &" [⟨.name, "a"⟩] _ ⟨.punctuation, "."⟩ h rfl
  refine ⟨h.trans ?_, hpointed⟩
  decide +kernel

end Formula.Lexer
