import Formula.Proofs.Requests

/-!
# `Formula.Proofs.Runs` — a source as gaps and tokens

`Lexes` says how a text falls apart: gaps of blanks and tokens in turn, each token the lexeme of the
text that follows its gap, and at the end a gap and a rest that starts with no lexeme. Every text falls
apart in this way (`exists_lexes`), and all that a lexer hands out can be read off the parts. The rest
is empty exactly when the run ends well; otherwise its first character is the one that is rejected.

## Contents
- **Blanks.** `Blanks`, `NoBlank`, `stretch_blank_append`.
- **Parts.** `Segment`, `layout`, `Lexes`; `Lexes.layout_eq`, `Lexes.length_le`, `exists_lexes`.
- **Outcomes.** `outcome`, and what a ready lexer makes of the parts: `toList_of_lexes`,
  `collect_of_lexes`, `error_of_lexes`, `reported_of_lexes`.
- **Sources.** The same for a lexer before a source: `toList_ofString`, `tokenize_ofString`,
  `error_ofString`, `reported_ofString`.
-/

namespace Formula.Lexer

open Rule Piece Alphabet Text

variable {last : Option Token.Kind} {s gap rest : List Char} {x : Char}

/-! ## Blanks -/

/-- A text of blanks only. -/
def Blanks (s : List Char) : Prop := ∀ x ∈ s, blank.acceptsChar x

/-- A text that does not start with a blank. -/
def NoBlank (s : List Char) : Prop := ∀ x ∈ s.head?, blank.acceptsChar x = false

instance (s : List Char) : Decidable (Blanks s) :=
  List.decidableBAll (fun x => blank.acceptsChar x) s

instance (s : List Char) : Decidable (NoBlank s) :=
  decidable_of_iff (s.head?.all fun x => !blank.acceptsChar x) (by simp [NoBlank, Option.all_eq_true])

theorem stretch_blank_append (hg : Blanks gap) (hr : NoBlank rest) :
    stretch [blank] (gap ++ rest) = gap := by
  apply stretch_append
  · intro x hx
    rw [anyAcceptsChar_singleton]
    exact hg x hx
  · intro x hx
    rw [anyAcceptsChar_singleton, hr x hx]
    decide

theorem blanks_stretch (s : List Char) : Blanks (stretch [blank] s) := by
  intro x hx
  rw [← anyAcceptsChar_singleton]
  exact accepts_of_mem_stretch hx

theorem noBlank_drop_stretch (s : List Char) : NoBlank (s.drop (stretch [blank] s).length) := by
  intro x hx
  obtain ⟨t, ht⟩ := List.head?_eq_some_iff.1 hx
  have hnot := not_accepts_of_drop_stretch ht
  rw [anyAcceptsChar_singleton] at hnot
  simpa using hnot

/-- No lexeme starts with a blank. -/
theorem noBlank_of_lexeme (h : lexeme last s ≠ []) : NoBlank s := by
  intro x hx
  obtain ⟨t, rfl⟩ := List.head?_eq_some_iff.1 hx
  by_contra hb
  rw [Bool.not_eq_false] at hb
  exact h (lexeme_of_blank hb)

/-! ## Parts -/

/-- A token with the gap before it. -/
structure Segment where
  gap : List Char
  kind : Token.Kind
  text : List Char
deriving Repr

/-- The token of a segment. -/
def Segment.token (g : Segment) : Token := ⟨g.kind, String.ofList g.text⟩

/-- Gaps and tokens in a row. -/
def layout (gs : List Segment) : List Char := gs.flatMap fun g => g.gap ++ g.text

/-- After a token of kind `last`, a text falls apart into segments, a gap, and a rest that starts with
    no lexeme. -/
inductive Lexes : Option Token.Kind → List Char → List Segment → List Char → List Char → Prop where
  | stop {last : Option Token.Kind} {gap rest : List Char} (hgap : Blanks gap)
      (hrest : NoBlank rest) (hnil : lexeme last rest = []) :
      Lexes last (gap ++ rest) [] gap rest
  | token {last : Option Token.Kind} {gap text s gap' rest : List Char} {gs : List Segment}
      (hgap : Blanks gap) (hne : text ≠ [])
      (htext : lexeme last (text ++ s) = text)
      (tail : Lexes (some (reader last (text ++ s)).kind) s gs gap' rest) :
      Lexes last (gap ++ (text ++ s)) (⟨gap, (reader last (text ++ s)).kind, text⟩ :: gs) gap' rest

variable {gs : List Segment}

theorem Lexes.nil : Lexes last [] [] [] [] := by
  have hstop : Lexes last ([] ++ []) [] [] [] := .stop (by decide) (by decide) rfl
  exact hstop

/-- Nothing is lost: the parts in a row are the text. -/
theorem Lexes.layout_eq (h : Lexes last s gs gap rest) : layout gs ++ (gap ++ rest) = s := by
  induction h with
  | stop => rfl
  | token _ _ _ _ ih => simp [layout, ← ih]

/-- No token is empty, so there are no more of them than characters. -/
theorem Lexes.length_le (h : Lexes last s gs gap rest) : gs.length ≤ s.length := by
  induction h with
  | stop => exact Nat.zero_le _
  | token _ hne _ _ ih =>
      have hpos := List.length_pos_iff.2 hne
      simp only [List.length_cons, List.length_append]
      omega

/-- A token whose reader is known. -/
theorem Lexes.token_of_reader {gap' : List Char} (gap text s : List Char) (st : State)
    (hgap : Blanks gap) (hne : text ≠ []) (hst : reader last (text ++ s) = st) (htext : st.piece (text ++ s) = text)
    (tail : Lexes (some st.kind) s gs gap' rest) :
    Lexes last (gap ++ (text ++ s)) (⟨gap, st.kind, text⟩ :: gs) gap' rest := by
  subst hst
  exact .token hgap hne htext tail

/-- Every text falls apart. -/
theorem exists_lexes (last : Option Token.Kind) (s : List Char) :
    ∃ gs gap rest, Lexes last s gs gap rest := by
  induction hn : s.length using Nat.strong_induction_on generalizing last s with
  | _ n ih =>
      -- the gap comes first; what follows it starts with a lexeme or ends the parts
      obtain ⟨r, hr⟩ : stretch [blank] s <+: s := prefix_stretch
      have hgap := blanks_stretch s
      have hrest := noBlank_drop_stretch s
      generalize stretch [blank] s = gap at hr hgap hrest
      subst hr
      rw [List.drop_left] at hrest
      by_cases hnil : lexeme last r = []
      · exact ⟨[], gap, r, .stop hgap hrest hnil⟩
      · obtain ⟨t, ht⟩ := prefix_lexeme last r
        generalize hp : lexeme last r = p at hnil ht
        subst ht
        have hlen : t.length < n := by
          have := List.length_pos_iff.2 hnil
          simp only [← hn, List.length_append]
          omega
        obtain ⟨gs, gap', rest, h⟩ := ih t.length hlen (some (reader last (p ++ t)).kind) t rfl
        exact ⟨_, gap', rest, .token hgap hnil hp h⟩

/-! ## Outcomes -/

/-- The error that a rest gives rise to, at an offset of the source. -/
def outcome (source : String) (offset : Nat) : List Char → Option LexError
  | [] => none
  | x :: _ => some (LexError.expected "operator" (some x) source offset)

/-- The token that ends a run. -/
def lastToken : Option LexError → Token
  | none => ⟨.endOfInput, ""⟩
  | some e => ⟨.error, e.message⟩

theorem isError_of_not_terminal {k : Token.Kind} {text : String} (hk : k.isTerminal = false) :
    Token.isError ⟨k, text⟩ = false := by
  cases k with
  | error => cases hk
  | _ => rfl

variable {c : Cursor} {text : List Char}

/-- Dropping blanks brings the cursor to the end of the gap. -/
theorem afterBlanks_of_gap (ha : c.ahead = gap ++ rest) (hgap : Blanks gap) (hrest : NoBlank rest) :
    c.afterBlanks.ahead = rest ∧ c.afterBlanks.offset = c.offset + byteLength gap := by
  have hs : stretch [blank] c.ahead = gap := by rw [ha, stretch_blank_append hgap hrest]
  rw [Cursor.afterBlanks_ahead, Cursor.afterBlanks_offset, hs, ha, List.drop_left]
  exact ⟨rfl, rfl⟩

/-- A request at a segment hands out its token, and leaves the lexer ready after it. -/
theorem next_of_segment (hc : c.Settled) (ha : c.ahead = gap ++ (text ++ s)) (hgap : Blanks gap)
    (hne : text ≠ []) (htext : lexeme last (text ++ s) = text) :
    ∃ c' : Cursor,
      (ready c last).next =
        (some (Segment.mk gap (reader last (text ++ s)).kind text).token,
          ready c' (some (reader last (text ++ s)).kind)) ∧
      c'.Settled ∧ c'.ahead = s ∧ c'.text = c.text ∧
      c'.offset = c.offset + byteLength (gap ++ text) := by
  have hlexeme : lexeme last (text ++ s) ≠ [] := by rwa [htext]
  obtain ⟨hahead, hoffset⟩ := afterBlanks_of_gap ha hgap (noBlank_of_lexeme hlexeme)
  rw [← hahead] at hlexeme
  have hnext := next_of_lexeme hc hlexeme
  rw [hahead, htext] at hnext
  refine ⟨(c.afterBlanks.past text).skip, hnext, hc.afterBlanks.settled.past text, ?_, ?_, ?_⟩
  · show c.afterBlanks.ahead.drop text.length = s
    rw [hahead, List.drop_left]
  · show (c.afterBlanks.past text).text = c.text
    rw [Cursor.past_text (by rw [hahead]; exact List.prefix_append text s), Cursor.afterBlanks_text]
  · show (c.afterBlanks.past text).offset = _
    rw [Cursor.past_offset, hoffset, byteLength_append, Nat.add_assoc]

/-- A request at the rest hands out the last token. -/
theorem next_of_rest (hc : c.Settled) (ha : c.ahead = gap ++ rest) (hgap : Blanks gap)
    (hrest : NoBlank rest) (hnil : lexeme last rest = []) :
    ∃ l' : Lexer,
      (ready c last).next =
        (some (lastToken (outcome (String.ofList c.text) (c.offset + byteLength gap) rest)), l') ∧
      l'.tokens.pending = [] ∧ l'.mode = .halted ∧
      l'.error = outcome (String.ofList c.text) (c.offset + byteLength gap) rest := by
  obtain ⟨hahead, hoffset⟩ := afterBlanks_of_gap ha hgap hrest
  cases rest with
  | nil => exact ⟨_, next_of_end hc hahead, rfl, rfl, rfl⟩
  | cons x t =>
      have hrej : some (rejection c.afterBlanks)
          = outcome (String.ofList c.text) (c.offset + byteLength gap) (x :: t) := by
        have hpeek : c.afterBlanks.peek = some x := by rw [Cursor.peek, hahead]; rfl
        rw [rejection, hpeek, hoffset, Cursor.afterBlanks_text]
        rfl
      rw [← hahead] at hnil
      have hnext := next_of_rejected hc (by simp [hahead]) hnil
      rw [← hrej]
      exact ⟨_, hnext, rfl, rfl, rfl⟩

/-- What is handed out in all: the tokens of the segments, and the last token. -/
theorem toList_of_lexes (h : Lexes last s gs gap rest) (hc : c.Settled) (ha : c.ahead = s) :
    (ready c last).toList = gs.map Segment.token ++
      [lastToken (outcome (String.ofList c.text) (c.offset + byteLength (layout gs ++ gap)) rest)] := by
  induction h generalizing c with
  | stop hgap hrest hnil =>
      obtain ⟨l', hnext, hp, hm, -⟩ := next_of_rest hc ha hgap hrest hnil
      rw [toList_of_some hnext, toList_of_none (next_of_halted hp hm)]
      rfl
  | token hgap hne htext _ ih =>
      obtain ⟨c', hnext, hc', ha', htext', hoffset⟩ := next_of_segment hc ha hgap hne htext
      rw [toList_of_some hnext, ih hc' ha', htext', hoffset]
      simp [layout, Nat.add_assoc]

/-- All tokens are collected, unless the rest gives rise to an error. -/
theorem collect_of_lexes (h : Lexes last s gs gap rest) (hc : c.Settled) (ha : c.ahead = s) :
    (ready c last).collect =
      match outcome (String.ofList c.text) (c.offset + byteLength (layout gs ++ gap)) rest with
      | none => .ok (gs.map Segment.token ++ [lastToken none])
      | some e => .error e := by
  induction h generalizing c with
  | stop hgap hrest hnil =>
      obtain ⟨l', hnext, hp, hm, herror⟩ := next_of_rest hc ha hgap hrest hnil
      simp only [layout, List.flatMap_nil, List.nil_append, List.map_nil]
      cases ho : outcome (String.ofList c.text) (c.offset + byteLength _) _ with
      | none =>
          rw [ho] at hnext
          rw [collect_of_some hnext rfl, collect_of_none (next_of_halted hp hm)]
          rfl
      | some e =>
          rw [ho] at hnext herror
          exact collect_of_error hnext rfl herror
  | token hgap hne htext _ ih =>
      obtain ⟨c', hnext, hc', ha', htext', hoffset⟩ := next_of_segment hc ha hgap hne htext
      rw [collect_of_some hnext (isError_of_not_terminal (State.isTerminal_kind _)), ih hc' ha',
        htext', hoffset]
      simp only [layout, List.flatMap_cons, List.append_assoc, byteLength_append, ← Nat.add_assoc]
      cases outcome _ _ _ with
      | none => rfl
      | some e => rfl

/-- The recorded error: there is none until all tokens were taken. -/
theorem error_of_lexes (h : Lexes last s gs gap rest) (hc : c.Settled) (ha : c.ahead = s) (k : Nat) :
    (after k (ready c last)).error =
      if gs.length < k then
        outcome (String.ofList c.text) (c.offset + byteLength (layout gs ++ gap)) rest
      else none := by
  induction h generalizing c k with
  | stop hgap hrest hnil =>
      cases k with
      | zero => rfl
      | succ k =>
          obtain ⟨l', hnext, hp, hm, herror⟩ := next_of_rest hc ha hgap hrest hnil
          show (after k (ready c _).next.2).error = _
          rw [hnext, after_of_halted hp hm, herror, if_pos (by simp)]
          rfl
  | token hgap hne htext _ ih =>
      cases k with
      | zero => rfl
      | succ k =>
          obtain ⟨c', hnext, hc', ha', htext', hoffset⟩ := next_of_segment hc ha hgap hne htext
          show (after k (ready c _).next.2).error = _
          rw [hnext, ih hc' ha', htext', hoffset]
          simp [layout, Nat.add_assoc]

/-- An error is recorded exactly when its report is among the answers. -/
theorem reported_of_lexes (h : Lexes last s gs gap rest) (hc : c.Settled) (ha : c.ahead = s) (k : Nat) :
    (after k (ready c last)).error.isSome ↔
      ∃ t, some t ∈ results k (ready c last) ∧ t.isError := by
  induction h generalizing c k with
  | stop hgap hrest hnil =>
      cases k with
      | zero => simp [after, results, ready, error]
      | succ k =>
          obtain ⟨l', hnext, hp, hm, herror⟩ := next_of_rest hc ha hgap hrest hnil
          show (after k (ready c _).next.2).error.isSome ↔
            ∃ t, some t ∈ (ready c _).next.1 :: results k (ready c _).next.2 ∧ t.isError
          rw [hnext, after_of_halted hp hm, results_of_halted hp hm, herror]
          cases outcome _ _ _ with
          | none => simp [lastToken, Token.isError]
          | some e => simp [lastToken, Token.isError]
  | token hgap hne htext _ ih =>
      cases k with
      | zero => simp [after, results, ready, error]
      | succ k =>
          obtain ⟨c', hnext, hc', ha', -, -⟩ := next_of_segment hc ha hgap hne htext
          show (after k (ready c _).next.2).error.isSome ↔
            ∃ t, some t ∈ (ready c _).next.1 :: results k (ready c _).next.2 ∧ t.isError
          rw [hnext, ih hc' ha']
          constructor
          · rintro ⟨t, ht, herror⟩
            exact ⟨t, List.mem_cons_of_mem _ ht, herror⟩
          · rintro ⟨t, ht, herror⟩
            rcases List.mem_cons.1 ht with ht | ht
            · cases ht
              -- the token at the front reports no error
              rw [Segment.token, isError_of_not_terminal (State.isTerminal_kind _)] at herror
              cases herror
            · exact ⟨t, ht, herror⟩

/-! ## Sources -/

variable {source : String}

theorem settled_ofString (source : String) : (Cursor.ofString source).Settled :=
  fun h => absurd h (Nat.lt_irrefl 0)

theorem text_ofString (source : String) :
    String.ofList (Cursor.ofString source).text = source :=
  String.ofList_toList

/-- The tokens of a source whose parts are known. -/
theorem toList_ofString (h : Lexes none source.toList gs gap rest) :
    (ofString source).toList = gs.map Segment.token ++
      [lastToken (outcome source (byteLength (layout gs ++ gap)) rest)] := by
  have hlist := toList_of_lexes h (settled_ofString source) rfl
  rw [text_ofString] at hlist
  rw [ofString_eq_ready, hlist]
  simp [Cursor.ofString, Cursor.ofList, Cursor.offset]

/-- The tokens of a source whose parts are known, or the error of its rest. -/
theorem tokenize_ofString (h : Lexes none source.toList gs gap rest) :
    tokenize source =
      match outcome source (byteLength (layout gs ++ gap)) rest with
      | none => .ok (gs.map Segment.token ++ [lastToken none])
      | some e => .error e := by
  have hcollect := collect_of_lexes h (settled_ofString source) rfl
  rw [text_ofString] at hcollect
  rw [tokenize, ofString_eq_ready, hcollect]
  simp [Cursor.ofString, Cursor.ofList, Cursor.offset]

/-- The error that is recorded after a number of requests. -/
theorem error_ofString (h : Lexes none source.toList gs gap rest) (k : Nat) :
    (after k (ofString source)).error =
      if gs.length < k then outcome source (byteLength (layout gs ++ gap)) rest else none := by
  have herror := error_of_lexes h (settled_ofString source) rfl k
  rw [text_ofString] at herror
  rw [ofString_eq_ready, herror]
  simp [Cursor.ofString, Cursor.ofList, Cursor.offset]

/-- An error that is recorded stays recorded. -/
theorem error_ofString_mono {k n : Nat} {e : LexError} (hle : k ≤ n)
    (he : (after k (ofString source)).error = some e) : (after n (ofString source)).error = some e := by
  obtain ⟨gs, gap, rest, h⟩ := exists_lexes none source.toList
  rw [error_ofString h] at he ⊢
  split at he
  · next hk => rw [if_pos (Nat.lt_of_lt_of_le hk hle), he]
  · cases he

/-- An error is recorded exactly when its report was handed out. -/
theorem reported_ofString (source : String) (k : Nat) :
    (after k (ofString source)).error.isSome ↔
      ∃ t, some t ∈ results k (ofString source) ∧ t.isError := by
  obtain ⟨gs, gap, rest, h⟩ := exists_lexes none source.toList
  exact reported_of_lexes h (settled_ofString source) rfl k

end Formula.Lexer
