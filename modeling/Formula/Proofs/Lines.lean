import Formula.Proofs.Grammar
import Formula.Proofs.Location
import Formula.Proofs.Places

/-!
# `Formula.Proofs.Lines` — lines are read one by one

No token but the line break itself has a character in it that breaks a line, and after a line break the
lexer remembers no more than at the start of a source. So a source that a line break divides in two is
read as its first part, the line break, and its second part. If the first part ends in an error, the
whole source ends in the same error; if the second does, so does the whole, further down.

## Contents
- **Pieces.** `State.piece_append_break`, `reader_append_break`, `lexeme_append_break`: what is read
  before a line break does not depend on what follows it.
- **Starts.** `Lexes.after_break`: a line is read as a source is.
- **Runs.** `Lexes.append_break`, `Lexes.append_after_error`.
- **Errors.** `rest_of_ok`, `error_of_rest`, `rest_of_error`: how the end of a run tells of the error.
- **Lines.** `lines_are_independent`.
-/

namespace Formula.Lexer

open Grammar Alphabet Text

variable {last : Option Token.Kind} {s t gap gap' rest : List Char} {gs gs' : List Segment} {x c : Char}

/-! ## Pieces -/

/-- The line breaks stand in no piece, unless they are the piece. -/
theorem State.not_mem_piece {st : State} (hst : st ≠ .dispatch) (hc : newLine.acceptsChar c)
    (u : List Char) : c ∉ st.piece u := by
  intro hmem
  have hrules := State.accepts_of_mem_piece hmem
  have hnot : Rule.anyAcceptsChar st.rules c = false := by
    rcases newLine_iff.1 hc with rfl | rfl
    all_goals
      cases st with
      | dispatch => exact absurd rfl hst
      | _ => decide +kernel
  rw [hnot] at hrules
  cases hrules

theorem State.piece_append_break {st : State} (hst : st ≠ .dispatch) (hc : newLine.acceptsChar c)
    (s t : List Char) : st.piece (s ++ c :: t) = st.piece s :=
  (State.finds_piece st).append_of_not_mem (State.not_mem_piece hst hc) s t

/-- The reader at the beginning of a line depends on that line only. -/
theorem reader_append_break (hc : newLine.acceptsChar c) (hs : s ≠ []) :
    reader last (s ++ c :: t) = reader last s := by
  obtain ⟨x, s, rfl⟩ := List.exists_cons_of_ne_nil hs
  have hnumber : State.number ≠ .dispatch := by decide
  have hnumeral : Piece.numeral (x :: (s ++ c :: t)) = Piece.numeral (x :: s) :=
    State.piece_append_break hnumber hc (x :: s) t
  simp only [List.cons_append, reader, hnumeral]

/-- So does the lexeme. -/
theorem lexeme_append_break (hc : newLine.acceptsChar c) (hs : s ≠ []) :
    lexeme last (s ++ c :: t) = lexeme last s := by
  rw [lexeme, reader_append_break hc hs, lexeme]
  by_cases hst : reader last s = .dispatch
  · -- a line break at the beginning is read by itself
    rw [hst]
    obtain ⟨x, s, rfl⟩ := List.exists_cons_of_ne_nil hs
    rfl
  · exact State.piece_append_break hst hc s t

/-! ## Starts -/

/-- After a line break, every character calls for the state that it calls for at the start. -/
theorem reader_newLine : reader (some .newLine) s = reader none s := by
  cases s with
  | nil => rfl
  | cons x s => rfl

theorem lexeme_newLine : lexeme (some .newLine) s = lexeme none s := by
  rw [lexeme, reader_newLine, lexeme]

/-- A line is read as a source is. -/
theorem Lexes.after_break (h : Lexes none s gs gap rest) : Lexes (some .newLine) s gs gap rest := by
  cases h with
  | stop hgap hrest hnil =>
      rw [← lexeme_newLine] at hnil
      exact .stop hgap hrest hnil
  | token hgap hne htext tail =>
      rw [← lexeme_newLine] at htext
      rw [← reader_newLine] at tail ⊢
      exact .token hgap hne htext tail

/-! ## Runs -/

/-- A run that ends well goes on with a line break and the run of the next line. -/
theorem Lexes.append_break {r : List Char} (h : Lexes last s gs gap r) (hr : r = [])
    (hc : newLine.acceptsChar c) (hnext : Lexes (some .newLine) t gs' gap' rest) :
    Lexes last (s ++ c :: t) (gs ++ ⟨gap, .newLine, [c]⟩ :: gs') gap' rest := by
  induction h with
  | stop hgap _ _ =>
      -- the last gap of the run is the gap before the line break
      subst hr
      rw [List.append_nil]
      have hpiece : State.dispatch.piece ([c] ++ t) = [c] :=
        Piece.initial_cons_of_accepts (by rwa [Piece.anyAcceptsChar_singleton])
      exact Lexes.token_of_reader _ [c] t .dispatch hgap (List.cons_ne_nil c [])
        (reader_of_newLine hc) hpiece hnext
  | @token last _ text s _ _ _ hgap hne htext _ ih =>
      have hne' : text ++ s ≠ [] := List.append_ne_nil_of_left_ne_nil hne s
      rw [← lexeme_append_break (t := t) hc hne', List.append_assoc] at htext
      have htail := ih hr
      rw [← reader_append_break (t := t) hc hne'] at htail ⊢
      simp only [List.append_assoc, List.cons_append] at htail ⊢
      exact .token hgap hne htext htail

/-- A run that ends in an error ends in it whatever lines follow. -/
theorem Lexes.append_after_error (h : Lexes last s gs gap (x :: rest)) (hc : newLine.acceptsChar c) :
    Lexes last (s ++ c :: t) gs gap (x :: (rest ++ c :: t)) := by
  generalize hend : x :: rest = r at h
  induction h with
  | stop hgap hrest hnil =>
      subst hend
      rw [← lexeme_append_break (t := t) hc (List.cons_ne_nil x rest)] at hnil
      rw [List.append_assoc]
      exact .stop hgap hrest hnil
  | @token last _ text s _ _ _ hgap hne htext _ ih =>
      have hne' : text ++ s ≠ [] := List.append_ne_nil_of_left_ne_nil hne s
      rw [← lexeme_append_break (t := t) hc hne', List.append_assoc] at htext
      have htail := ih hend
      rw [← reader_append_break (t := t) hc hne'] at htail ⊢
      simp only [List.append_assoc] at htail ⊢
      exact .token hgap hne htext htail

/-! ## Errors -/

variable {source : String} {e : LexError}

/-- The last token does not say where an error stands. -/
theorem lastToken_outcome (source source' : String) (n n' : Nat) (rest : List Char) :
    lastToken (outcome source n rest) = lastToken (outcome source' n' rest) := by
  cases rest with
  | nil => rfl
  | cons x rest => rfl

/-- A source that ends well ends its run with its last gap. -/
theorem rest_of_ok {ts : List Token} (h : Lexes none source.toList gs gap rest)
    (hok : tokenize source = .ok ts) :
    rest = [] ∧ ts = gs.map Segment.token ++ [⟨.endOfInput, ""⟩] := by
  rw [tokenize_ofString h] at hok
  cases rest with
  | nil => exact ⟨rfl, (Except.ok.inj hok).symm⟩
  | cons x rest => cases hok

/-- The character that is rejected stands where a walk over the run leads to. -/
theorem error_of_rest (h : Lexes none source.toList gs gap (x :: rest)) :
    tokenize source =
      .error ⟨"operator", some x, (layout gs ++ gap).foldl Source.Location.advance .start⟩ := by
  have hsource : source.toList = (layout gs ++ gap) ++ x :: rest := by
    rw [List.append_assoc, h.layout_eq]
  rw [tokenize_ofString h, outcome, LexError.expected, Source.locate_append hsource]

/-- A source that ends in an error ends its run before the character that is rejected. -/
theorem rest_of_error (h : Lexes none source.toList gs gap rest) (herror : tokenize source = .error e) :
    ∃ x t, rest = x :: t ∧
      e = ⟨"operator", some x, (layout gs ++ gap).foldl Source.Location.advance .start⟩ := by
  cases rest with
  | nil =>
      rw [tokenize_ofString h] at herror
      cases herror
  | cons x t =>
      rw [error_of_rest h] at herror
      exact ⟨x, t, rfl, (Except.error.inj herror).symm⟩

/-! ## Lines -/

theorem layout_append_break {k : Token.Kind} :
    layout (gs ++ ⟨gap, k, [c]⟩ :: gs') ++ gap' = (layout gs ++ gap) ++ c :: (layout gs' ++ gap') := by
  simp [layout]

theorem toList_line (a b : String) (c : Char) :
    (a ++ String.singleton c ++ b).toList = a.toList ++ c :: b.toList := by
  simp

/-- A line break divides a source. If the first part ends well, the tokens are those of the first part,
    the line break, and those of the second part, its last token included; an error of the second part
    that a line feed goes before is the error of the whole, as many lines and bytes further down as come
    before it. If the first part ends in an error, the whole ends in the same error, at the same place,
    after the same tokens. -/
theorem lines_are_independent (a b : String) (c : Char) (hc : c = '\n' ∨ c = '\r') :
    (∀ ts, tokenize a = .ok ts →
      ∃ us, ts = us ++ [⟨.endOfInput, ""⟩] ∧
        (ofString (a ++ String.singleton c ++ b)).toList =
          us ++ ⟨.newLine, String.singleton c⟩ :: (ofString b).toList ∧
        (∀ vs, tokenize b = .ok vs →
          tokenize (a ++ String.singleton c ++ b) =
            .ok (us ++ ⟨.newLine, String.singleton c⟩ :: vs)) ∧
        ∀ e, tokenize b = .error e → c = '\n' →
          tokenize (a ++ String.singleton c ++ b) =
            .error ⟨e.category, e.found,
              ⟨e.location.line + 1 + a.toList.count '\n', e.location.column,
                e.location.offset + byteLength a.toList + 1⟩⟩) ∧
    ∀ e, tokenize a = .error e →
      tokenize (a ++ String.singleton c ++ b) = .error e ∧
        (ofString (a ++ String.singleton c ++ b)).toList = (ofString a).toList := by
  have hbreak : newLine.acceptsChar c := newLine_iff.2 hc.symm
  obtain ⟨gs, gap, rest, ha⟩ := exists_lexes none a.toList
  constructor
  · intro ts hts
    obtain ⟨rfl, rfl⟩ := rest_of_ok ha hts
    obtain ⟨gs', gap', rest', hb⟩ := exists_lexes none b.toList
    -- the run of the whole source: the first run, the line break, and the second run
    have hall := ha.append_break rfl hbreak hb.after_break
    rw [← toList_line] at hall
    refine ⟨gs.map Segment.token, rfl, ?_, ?_, ?_⟩
    · rw [toList_ofString hall, toList_ofString hb, List.map_append, List.map_cons, List.append_assoc,
        lastToken_outcome _ b _ (byteLength (layout gs' ++ gap'))]
      rfl
    · intro vs hvs
      obtain ⟨rfl, rfl⟩ := rest_of_ok hb hvs
      rw [tokenize_ofString hall, List.map_append, List.map_cons]
      show Except.ok _ = _
      rw [List.append_assoc]
      rfl
    · intro e he hfeed
      subst hfeed
      obtain ⟨x, t, rfl, rfl⟩ := rest_of_error hb he
      -- what comes before the error of the second part is the first part and the line feed
      have hlayout := ha.layout_eq
      rw [List.append_nil] at hlayout
      rw [error_of_rest hall, layout_append_break, hlayout, Source.Location.foldl_after_lineFeed,
        Source.Location.shift, ← Nat.add_assoc, ← Nat.add_assoc]
  · intro e he
    obtain ⟨x, t, rfl, rfl⟩ := rest_of_error ha he
    have hall := ha.append_after_error (t := b.toList) hbreak
    rw [← toList_line] at hall
    refine ⟨error_of_rest hall, ?_⟩
    rw [toList_ofString hall, toList_ofString ha]
    rfl

/-- An ampersand by itself is rejected on the line where it stands. -/
theorem error_on_second_line :
    tokenize "x" = .ok [⟨.name, "x"⟩, ⟨.endOfInput, ""⟩] ∧
      tokenize "&" = .error ⟨"operator", some '&', ⟨1, 1, 0⟩⟩ ∧
      tokenize ("x" ++ String.singleton '\n' ++ "&") = .error ⟨"operator", some '&', ⟨2, 1, 2⟩⟩ ∧
      tokenize ("&" ++ String.singleton '\r' ++ "x") = .error ⟨"operator", some '&', ⟨1, 1, 0⟩⟩ := by
  have hname : Lexes none "x".toList [⟨[], .name, ['x']⟩] [] [] := by
    refine Lexes.token_of_reader [] ['x'] [] .name ?_ ?_ ?_ ?_ .nil
    all_goals decide +kernel
  have hampersand : Lexes none "&".toList [] [] ['&'] := by
    have hstop : Lexes none ([] ++ ['&']) [] [] ['&'] := by
      refine Lexes.stop ?_ ?_ ?_
      all_goals decide +kernel
    exact hstop
  have hok := tokenize_ofString hname
  have herror := error_of_rest hampersand
  obtain ⟨us, -, -, -, hsecond⟩ := (lines_are_independent "x" "&" '\n' (Or.inl rfl)).1 _ hok
  have hfirst := (lines_are_independent "&" "x" '\r' (Or.inr rfl)).2 _ herror
  exact ⟨hok, herror, hsecond _ herror rfl, hfirst.1⟩

end Formula.Lexer
