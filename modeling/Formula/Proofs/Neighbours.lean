import Formula.Proofs.LongestTokens

/-!
# `Formula.Proofs.Neighbours` — what a sign or a point is, by the tokens around it

A sign or a point may start a number or be a token by itself. The kind of the token before it decides
whether it may start one at all, and what follows decides whether it does. So neighbours exclude each
other: after a number or a name, no number starts with a sign; and where a sign is left as an operator
although a number could have started with it, no unsigned number follows it.

## Contents
- **Readers.** `startsNumber_of_reader`, `numeral_eq_nil_of_reader`: what the choice of a reader says.
- **Words.** `mem_number`, `exists_unsigned_of_number`.
- **Bare signs and points.** `not_unsigned_of_bareSign`, `not_digit_of_barePoint`.
- **Tokens.** `ReadAt.startsNumber`, `ReadAt.numeral_eq_nil`; what they say of numbers after a number or
  a name (`ReadAt.not_sign`, `ReadAt.not_point`) and of what follows a bare sign or point
  (`ReadAt.not_unsigned`, `ReadAt.not_digit`).
- **Neighbours.** `not_digitOrPoint_of_lexes`; `sign_and_point_by_neighbours`.
-/

namespace Formula.Lexer

open Grammar Alphabet
open scoped Computability

variable {last : Option Token.Kind} {s t : List Char} {x : Char}

/-! ## Readers -/

theorem State.eq_number_of_kind {st : State} (h : st.kind = .number) : st = .number := by
  cases st with
  | number => rfl
  | _ => cases h

/-- A number is read only where its first character may start one. -/
theorem startsNumber_of_reader (h : reader last (x :: s) = .number) : startsNumber x last := by
  apply startsNumber_of_stateFor
  simp only [reader] at h
  split at h
  · cases h
  · split at h
    · next hnum => exact hnum.1
    · exact h

/-- Where a number may start and something else is read, no number stands. -/
theorem numeral_eq_nil_of_reader (hn : newLine.acceptsChar x = false) (hx : startsNumber x last)
    (h : reader last (x :: s) ≠ .number) : Piece.numeral (x :: s) = [] := by
  have hst : stateFor x last = .number := if_pos hx
  by_contra hne
  rw [reader_of_stateFor hn fun hnum => hne hnum.2] at h
  exact h hst

/-! ## Words -/

/-- A sign or none, blanks or none, and an unsigned number are a number. -/
theorem mem_number {a b u : List Char} (ha : a ∈ 1 + oneOf [sign]) (hb : b ∈ blanks)
    (hu : u ∈ unsigned) : a ++ (b ++ u) ∈ number := by
  have hdecimal : a ++ (b ++ u) ∈ decimal :=
    Language.mem_mul.2 ⟨a, ha, _, Language.mem_mul.2 ⟨b, hb, u, hu, rfl⟩, rfl⟩
  have hnil : ([] : List Char) ∈ 1 + Grammar.exponent := (Language.mem_add _ _ _).2 (Or.inl rfl)
  exact Language.mem_mul.2 ⟨_, hdecimal, [], hnil, List.append_nil _⟩

/-- A number that starts with a digit or a point starts with an unsigned number. -/
theorem exists_unsigned_of_number (h : x :: s ∈ number) (hx : DigitOrPoint x) :
    ∃ u ∈ unsigned, u <+: x :: s := by
  obtain ⟨m, hm, e, -, hme⟩ := Language.mem_mul.1 h
  obtain ⟨a, b, u, rfl, ha, hb, hu, -⟩ := exists_append_of_decimal hm
  -- neither a sign nor a blank comes first
  have hsign : a = [] := by
    rcases (Language.mem_add _ _ a).1 ha with ha | ha
    · exact (Language.mem_one a).1 ha
    · obtain ⟨y, hy, rfl⟩ := mem_oneOf.1 ha
      cases hme
      rw [Piece.anyAcceptsChar_singleton] at hy
      exact absurd hy (not_sign_of_digitOrPoint hx)
  subst hsign
  have hblank : b = [] := by
    cases b with
    | nil => rfl
    | cons y b =>
        cases hme
        exact absurd (mem_blanks.1 hb x List.mem_cons_self) (not_blank_of_digitOrPoint hx)
  subst hblank
  exact ⟨u, hu, e, hme⟩

theorem unsigned_of_fraction (h : s ∈ fraction) : s ∈ unsigned :=
  (Language.mem_add _ _ s).2 (Or.inr h)

/-! ## Bare signs and points -/

/-- After a sign of which no number is made, no unsigned number follows, with or without blanks. -/
theorem not_unsigned_of_bareSign {gap u : List Char} (hx : sign.acceptsChar x)
    (hnil : Piece.numeral (x :: (gap ++ t)) = []) (hgap : Blanks gap) (hu : u ∈ unsigned) :
    ¬ u <+: t := by
  rintro ⟨v, rfl⟩
  have ha : [x] ∈ 1 + oneOf [sign] :=
    (Language.mem_add _ _ _).2 (Or.inr ⟨x, by simpa using hx, rfl⟩)
  have hword := mem_number ha (mem_blanks.2 hgap) hu
  have hnone := finds_number.eq_nil_of_mem hnil hword ⟨v, by simp⟩
  cases hnone

/-- After a point of which no number is made, no digit follows. -/
theorem not_digit_of_barePoint (hnil : Piece.numeral ('.' :: t) = []) :
    ∀ x ∈ t.head?, digit.acceptsChar x = false := by
  intro x hx
  obtain ⟨v, rfl⟩ := List.head?_eq_some_iff.1 hx
  by_contra hdigit
  rw [Bool.not_eq_false] at hdigit
  have hdigits : [x] ∈ digits := mem_digits.2 ⟨List.cons_ne_nil x [], by simpa using hdigit⟩
  have hfraction : ['.', x] ∈ fraction := mem_oneOf_mul.2 ⟨'.', [x], rfl, by decide, hdigits⟩
  have hword : [] ++ ([] ++ ['.', x]) ∈ number :=
    mem_number ((Language.mem_add _ _ _).2 (Or.inl rfl)) (mem_blanks.2 (by simp))
      (unsigned_of_fraction hfraction)
  have hnone := finds_number.eq_nil_of_mem hnil hword ⟨v, rfl⟩
  cases hnone

/-! ## Tokens -/

/-- A sign may start a number after anything but a number or a name. -/
theorem startsNumber_of_sign (hx : sign.acceptsChar x) :
    startsNumber x last ↔ last ≠ some .number ∧ last ≠ some .name := by
  have hdigit := (symbolic_sign hx).1
  have hpoint : point.acceptsChar x = false := by rcases sign_iff.1 hx with rfl | rfl <;> decide
  simp [startsNumber, hdigit, hpoint, hx]

/-- A point may start a number after anything but a name. -/
theorem startsNumber_of_point : startsNumber '.' last ↔ last ≠ some .name := by
  have hpoint : point.acceptsChar '.' := by decide
  have hsign : sign.acceptsChar '.' = false := by decide
  simp [startsNumber, (symbolic_point hpoint).1, hpoint, hsign]

variable {source : String} {before after : List Token} {tok : Token}

/-- A number starts with a character that may start one after the token before. -/
theorem ReadAt.startsNumber (h : ReadAt source before tok s) (hk : tok.kind = .number)
    (hx : x ∈ tok.text.toList.head?) : startsNumber x (kindBefore before) := by
  have hkind := h.kind_eq
  rw [hk] at hkind
  have hreader := State.eq_number_of_kind hkind.symm
  obtain ⟨v, hv⟩ := List.head?_eq_some_iff.1 hx
  rw [hv] at hreader
  exact startsNumber_of_reader hreader

/-- Where a token that is no number starts with a character that may start one, no number stands. -/
theorem ReadAt.numeral_eq_nil (h : ReadAt source before tok s) (hk : tok.kind ≠ .number)
    (htext : tok.text.toList = [x]) (hn : newLine.acceptsChar x = false)
    (hx : Lexer.startsNumber x (kindBefore before)) : Piece.numeral (x :: s) = [] := by
  apply numeral_eq_nil_of_reader hn hx
  intro hreader
  have hkind := h.kind_eq
  rw [htext, List.singleton_append, hreader] at hkind
  exact hk hkind

/-- A number after a number or a name starts with no sign. -/
theorem ReadAt.not_sign (h : ReadAt source before tok s) (hk : tok.kind = .number)
    (hp : kindBefore before = some .number ∨ kindBefore before = some .name)
    (hx : x ∈ tok.text.toList.head?) : ¬ sign.acceptsChar x := by
  intro hsign
  obtain ⟨hnumber, hname⟩ := (startsNumber_of_sign hsign).1 (h.startsNumber hk hx)
  rcases hp with hp | hp
  · exact hnumber hp
  · exact hname hp

/-- A number after a name starts with no point either. -/
theorem ReadAt.not_point (h : ReadAt source before tok s) (hk : tok.kind = .number)
    (hp : kindBefore before = some .name) (hx : x ∈ tok.text.toList.head?) : x ≠ '.' := by
  rintro rfl
  exact startsNumber_of_point.1 (h.startsNumber hk hx) hp

/-- After a bare sign that could have started a number, no unsigned number follows. -/
theorem ReadAt.not_unsigned (h : ReadAt source before ⟨.operator, String.ofList [x]⟩ s)
    (hx : sign.acceptsChar x) (hnumber : kindBefore before ≠ some .number)
    (hname : kindBefore before ≠ some .name) (gap r : List Char) (hs : s = gap ++ r)
    (hgap : Blanks gap) (w : List Char) (hw : w ∈ unsigned) : ¬ w <+: r := by
  have hn : newLine.acceptsChar x = false := by rcases sign_iff.1 hx with rfl | rfl <;> decide
  have hstarts : Lexer.startsNumber x (kindBefore before) :=
    (startsNumber_of_sign hx).2 ⟨hnumber, hname⟩
  have hnil := h.numeral_eq_nil Token.Kind.noConfusion String.toList_ofList hn hstarts
  rw [hs] at hnil
  exact not_unsigned_of_bareSign hx hnil hgap hw

/-- After a bare point that could have started a number, no digit follows. -/
theorem ReadAt.not_digit (h : ReadAt source before ⟨.punctuation, "."⟩ s)
    (hname : kindBefore before ≠ some .name) : ∀ x ∈ s.head?, digit.acceptsChar x = false := by
  have hn : newLine.acceptsChar '.' = false := by decide
  have hstarts : Lexer.startsNumber '.' (kindBefore before) := startsNumber_of_point.2 hname
  exact not_digit_of_barePoint (h.numeral_eq_nil Token.Kind.noConfusion rfl hn hstarts)

/-! ## Neighbours -/

/-- Where no unsigned number follows, the next token is none, if it is a number at all. -/
theorem not_digitOrPoint_of_lexes {gs : List Segment} {gap rest : List Char} {final u : Token}
    (h : Lexes last s gs gap rest) (hfinal : final.kind.isTerminal)
    (hnone : ∀ gap r, s = gap ++ r → Blanks gap → ∀ w ∈ unsigned, ¬ w <+: r)
    (hu : u ∈ (gs.map Segment.token ++ [final]).head?) (hk : u.kind = .number) :
    ∀ x ∈ u.text.toList.head?, ¬ DigitOrPoint x := by
  intro x hx hchar
  cases h with
  | stop =>
      -- the next token is the last one
      cases hu
      rw [hk] at hfinal
      cases hfinal
  | @token _ gap text s _ _ _ hgap hne htext _ =>
      -- a number that starts so would itself start with an unsigned number
      cases hu
      have hreader := State.eq_number_of_kind hk
      rw [lexeme, hreader] at htext
      have hword := finds_number.mem (text ++ s)
      rw [show Piece.numeral (text ++ s) = text from htext] at hword
      obtain ⟨v, rfl⟩ : ∃ v, text = x :: v := by
        simpa [Segment.token, List.head?_eq_some_iff] using hx
      obtain ⟨w, hw, hbegins⟩ := exists_unsigned_of_number (hword hne) hchar
      exact hnone gap _ rfl hgap w hw (hbegins.trans (List.prefix_append _ s))

/-- A sign or a point, and the tokens around it. After a number or a name, no number starts with a sign,
    and after a name, none starts with a point. Where a sign after anything else is an operator, the
    source does not go on with an unsigned number, be it after blanks, and the next token is none. Where
    a point after anything but a name is punctuation, the next character is no digit. -/
theorem sign_and_point_by_neighbours (source : String) (before after : List Token) (t : Token)
    (h : (ofString source).toList = before ++ t :: after) :
    (kindBefore before = some .number ∨ kindBefore before = some .name → t.kind = .number →
      ∀ x ∈ t.text.toList.head?, x ≠ '+' ∧ x ≠ '-') ∧
    (kindBefore before = some .name → t.kind = .number → ∀ x ∈ t.text.toList.head?, x ≠ '.') ∧
    (t = ⟨.operator, "+"⟩ ∨ t = ⟨.operator, "-"⟩ →
      kindBefore before ≠ some .number → kindBefore before ≠ some .name →
      (∀ u ∈ after.head?, u.kind = .number →
        ∀ x ∈ u.text.toList.head?, Text.isNumeric x = false ∧ x ≠ '.') ∧
      ∃ rest, FollowedBy source before t rest ∧
        ∀ gap r, rest = gap ++ r → (∀ x ∈ gap, x = ' ' ∨ x = '\t') → ∀ w ∈ unsigned, ¬ w <+: r) ∧
    (t = ⟨.punctuation, "."⟩ → kindBefore before ≠ some .name →
      ∃ rest, FollowedBy source before t rest ∧ ∀ x ∈ rest.head?, Text.isNumeric x = false) := by
  refine ⟨?_, ?_, ?_, ?_⟩
  · intro hp hk x hx
    obtain ⟨s, _, _, _, _, hread, -⟩ := exists_readAt h (by rw [hk]; rfl)
    have hnot := hread.not_sign hk hp hx
    rwa [sign_iff, not_or] at hnot
  · intro hp hk x hx
    obtain ⟨s, _, _, _, _, hread, -⟩ := exists_readAt h (by rw [hk]; rfl)
    exact hread.not_point hk hp hx
  · intro ht hnumber hname
    -- both signs are treated alike
    obtain ⟨x, hx, rfl⟩ : ∃ x, sign.acceptsChar x ∧ t = ⟨.operator, String.ofList [x]⟩ := by
      rcases ht with rfl | rfl
      · exact ⟨'+', by decide, rfl⟩
      · exact ⟨'-', by decide, rfl⟩
    obtain ⟨s, gs, gap, rest, final, hread, hlexes, hafter, hfinal⟩ := exists_readAt h rfl
    have hnone := hread.not_unsigned hx hnumber hname
    refine ⟨?_, s, hread.followedBy, ?_⟩
    · intro u hu hk y hy
      rw [hafter] at hu
      have hnot := not_digitOrPoint_of_lexes hlexes hfinal hnone hu hk y hy
      rw [DigitOrPoint, not_or, point_iff, Bool.not_eq_true] at hnot
      exact hnot
    · intro gap r hs hgap
      exact hnone gap r hs fun x hx => blank_iff.2 (hgap x hx)
  · rintro rfl hname
    obtain ⟨s, _, _, _, _, hread, -⟩ := exists_readAt h rfl
    exact ⟨s, hread.followedBy, hread.not_digit hname⟩

/-- A number after a name, a point that starts no number, and a sign that starts none. -/
theorem number_point_sign_after_name :
    (ofString "a 1.-b").toList =
        [⟨.name, "a"⟩, ⟨.number, "1"⟩, ⟨.punctuation, "."⟩, ⟨.operator, "-"⟩, ⟨.name, "b"⟩,
          ⟨.endOfInput, ""⟩] ∧
      (∀ x ∈ "1".toList.head?, x ≠ '+' ∧ x ≠ '-') ∧ (∀ x ∈ "1".toList.head?, x ≠ '.') ∧
      (∃ rest, FollowedBy "a 1.-b" [⟨.name, "a"⟩, ⟨.number, "1"⟩] ⟨.punctuation, "."⟩ rest ∧
        ∀ x ∈ rest.head?, Text.isNumeric x = false) ∧
      ∃ rest, FollowedBy "a 1.-b" [⟨.name, "a"⟩, ⟨.number, "1"⟩, ⟨.punctuation, "."⟩]
          ⟨.operator, "-"⟩ rest ∧
        ∀ gap r, rest = gap ++ r → (∀ x ∈ gap, x = ' ' ∨ x = '\t') → ∀ w ∈ unsigned, ¬ w <+: r := by
  have hlast : Lexes (some .operator) ['b'] [⟨[], .name, ['b']⟩] [] [] := by
    refine Lexes.token_of_reader [] ['b'] [] .name ?_ ?_ ?_ ?_ .nil
    all_goals decide +kernel
  have hsign : Lexes (some .punctuation) ['-', 'b']
      [⟨[], .operator, ['-']⟩, ⟨[], .name, ['b']⟩] [] [] := by
    refine Lexes.token_of_reader [] ['-'] ['b'] .operator ?_ ?_ ?_ ?_ hlast
    all_goals decide +kernel
  have hpoint : Lexes (some .number) ['.', '-', 'b']
      [⟨[], .punctuation, ['.']⟩, ⟨[], .operator, ['-']⟩, ⟨[], .name, ['b']⟩] [] [] := by
    refine Lexes.token_of_reader [] ['.'] ['-', 'b'] .punctuation ?_ ?_ ?_ ?_ hsign
    all_goals decide +kernel
  have hnumber : Lexes (some .name) [' ', '1', '.', '-', 'b'] [⟨[' '], .number, ['1']⟩,
      ⟨[], .punctuation, ['.']⟩, ⟨[], .operator, ['-']⟩, ⟨[], .name, ['b']⟩] [] [] := by
    refine Lexes.token_of_reader [' '] ['1'] ['.', '-', 'b'] .number ?_ ?_ ?_ ?_ hpoint
    all_goals decide +kernel
  have hsource : Lexes none "a 1.-b".toList [⟨[], .name, ['a']⟩, ⟨[' '], .number, ['1']⟩,
      ⟨[], .punctuation, ['.']⟩, ⟨[], .operator, ['-']⟩, ⟨[], .name, ['b']⟩] [] [] := by
    refine Lexes.token_of_reader [] ['a'] [' ', '1', '.', '-', 'b'] .name ?_ ?_ ?_ ?_ hnumber
    all_goals decide +kernel
  have h := toList_ofString hsource
  obtain ⟨hsigned, hpointed, -, -⟩ :=
    sign_and_point_by_neighbours "a 1.-b" [⟨.name, "a"⟩] _ ⟨.number, "1"⟩ h
  obtain ⟨-, -, -, hbarePoint⟩ :=
    sign_and_point_by_neighbours "a 1.-b" [⟨.name, "a"⟩, ⟨.number, "1"⟩] _ ⟨.punctuation, "."⟩ h
  obtain ⟨-, -, hbareSign, -⟩ :=
    sign_and_point_by_neighbours "a 1.-b" [⟨.name, "a"⟩, ⟨.number, "1"⟩, ⟨.punctuation, "."⟩] _
      ⟨.operator, "-"⟩ h
  exact ⟨h, hsigned (Or.inr rfl) rfl, hpointed rfl rfl, hbarePoint rfl (by decide),
    (hbareSign (Or.inr rfl) (by decide) (by decide)).2⟩

end Formula.Lexer
