import Formula.Proofs.Words

/-!
# `Formula.Proofs.Grammar` — the languages of the tokens

The texts that a token may have form a language, made of the character classes by concatenation, choice
and repetition; and each state of a lexer finds the language of its tokens.

The readings are greedy, and take back no more than a whole fraction or exponent. That they find the
longest word all the same rests on the classes: what may follow a part of a number never belongs to
that part.

## Contents
- **Numbers.** `fraction`, `unsigned`, `decimal`, `exponent`, `number`; `finds_number`.
- **All tokens.** `name`, `operator`, and `Lexer.State.language` with `Lexer.State.finds_piece`.
-/

namespace Formula.Grammar

open Rule
open scoped Computability

variable {w t : List Char} {x : Char}

/-! ## Numbers -/

/-- Blanks, or nothing. -/
def blanks : Language Char := (oneOf [Alphabet.blank])∗

/-- Digits, at least one. -/
def digits : Language Char := oneOf [Alphabet.digit] * (oneOf [Alphabet.digit])∗

/-- A point and digits. -/
def fraction : Language Char := oneOf [Alphabet.point] * digits

/-- Digits with or without a fraction, or a fraction alone. -/
def unsigned : Language Char := digits * (1 + fraction) + fraction

/-- A sign or none, blanks or none, and an unsigned number. -/
def decimal : Language Char := (1 + oneOf [Alphabet.sign]) * (blanks * unsigned)

/-- Blanks or none, an exponent letter, and a decimal. -/
def exponent : Language Char := blanks * (oneOf [Alphabet.exponent] * decimal)

/-- A decimal, with or without an exponent. -/
def number : Language Char := decimal * (1 + exponent)

/-- A digit or a point. -/
def DigitOrPoint (x : Char) : Prop := Alphabet.digit.acceptsChar x ∨ Alphabet.point.acceptsChar x

theorem mem_blanks : w ∈ blanks ↔ ∀ x ∈ w, Alphabet.blank.acceptsChar x := by
  simp [blanks, mem_star_oneOf]

theorem mem_digits : w ∈ digits ↔ w ≠ [] ∧ ∀ x ∈ w, Alphabet.digit.acceptsChar x := by
  simp [digits, mem_plus_oneOf]

theorem over_fraction : Over fraction DigitOrPoint := by
  refine (over_oneOf ?_).mul ((over_oneOf ?_).mul (over_star_oneOf ?_))
  · intro x hx
    exact Or.inr (by simpa using hx)
  · intro x hx
    exact Or.inl (by simpa using hx)
  · intro x hx
    exact Or.inl (by simpa using hx)

theorem over_unsigned : Over unsigned DigitOrPoint := by
  have hdigits : Over digits DigitOrPoint := by
    intro w hw x hx
    exact Or.inl ((mem_digits.1 hw).2 x hx)
  exact (hdigits.mul (over_one.add over_fraction)).add over_fraction

theorem exists_cons_of_fraction (h : w ∈ fraction) :
    ∃ x v, w = x :: v ∧ Alphabet.point.acceptsChar x ∧ v ∈ digits := by
  simpa using mem_oneOf_mul.1 h

/-- An unsigned number is digits, possibly none, and a fraction, possibly none. -/
theorem exists_append_of_unsigned (h : w ∈ unsigned) :
    ∃ d f, w = d ++ f ∧ (∀ x ∈ d, Alphabet.digit.acceptsChar x) ∧ (f = [] ∨ f ∈ fraction) := by
  rcases (Language.mem_add _ _ w).1 h with h | h
  · obtain ⟨d, hd, f, hf, rfl⟩ := Language.mem_mul.1 h
    exact ⟨d, f, rfl, (mem_digits.1 hd).2, (Language.mem_add _ _ f).1 hf⟩
  · exact ⟨[], w, rfl, by simp, Or.inr h⟩

/-- An unsigned number starts with a digit or a point. -/
theorem exists_cons_of_unsigned (h : w ∈ unsigned) : ∃ x v, w = x :: v ∧ DigitOrPoint x := by
  cases w with
  | nil =>
      exfalso
      rcases (Language.mem_add _ _ _).1 h with h | h
      · obtain ⟨d, hd, f, -, heq⟩ := Language.mem_mul.1 h
        exact (mem_digits.1 hd).1 (List.append_eq_nil_iff.1 heq).1
      · obtain ⟨x, v, heq, -⟩ := exists_cons_of_fraction h
        cases heq
  | cons x v => exact ⟨x, v, rfl, over_unsigned _ h x List.mem_cons_self⟩

theorem not_blank_of_digitOrPoint (h : DigitOrPoint x) : ¬ Alphabet.blank.acceptsChar x := by
  intro hb
  rcases h with h | h
  · simp [(Alphabet.symbolic_blank hb).1] at h
  · rw [Alphabet.point_iff.1 h] at hb
    exact absurd hb (by decide)

theorem not_sign_of_digitOrPoint (h : DigitOrPoint x) : ¬ Alphabet.sign.acceptsChar x := by
  intro hs
  rcases h with h | h
  · simp [(Alphabet.symbolic_sign hs).1] at h
  · rw [Alphabet.point_iff.1 h] at hs
    exact absurd hs (by decide)

theorem not_digitOrPoint_of_exponent (h : Alphabet.exponent.acceptsChar x) : ¬ DigitOrPoint x := by
  rintro (hd | hp)
  · simp [Alphabet.digit_of_exponent h] at hd
  · rw [Alphabet.point_iff.1 hp] at h
    exact absurd h (by decide)

theorem finds_fraction : Finds fraction Piece.fraction where
  beginning := Piece.prefix_fraction
  mem s h := by
    unfold Piece.fraction at h ⊢
    dsimp only at h ⊢
    split at h
    · exact absurd rfl h
    · next hne =>
        rw [if_neg hne]
        rw [not_or] at hne
        exact Language.mem_mul.2 ⟨_, finds_initial.mem s hne.1, _, finds_stretch.mem _ hne.2, rfl⟩
  longest w t hw := by
    obtain ⟨x, v, rfl, hx, hv⟩ := exists_cons_of_fraction hw
    have hpoint : Piece.initial [Alphabet.point] (x :: (v ++ t)) = [x] :=
      Piece.initial_cons_of_accepts (by rwa [Piece.anyAcceptsChar_singleton])
    have hlen := finds_stretch.longest v t hv
    have hne : Piece.stretch [Alphabet.digit] (v ++ t) ≠ [] :=
      (finds_stretch.word_le hv).ne_nil (mem_digits.1 hv).1
    unfold Piece.fraction
    simp only [List.cons_append, hpoint, List.length_singleton, List.drop_one, List.tail_cons]
    simpa [hne] using hlen

theorem finds_unsigned : Finds unsigned Piece.unsigned where
  beginning := Piece.prefix_unsigned
  mem s h := by
    unfold Piece.unsigned at h ⊢
    dsimp only at h ⊢
    generalize hd : Piece.stretch [Alphabet.digit] s = d at h ⊢
    have hf := finds_fraction.mem (s.drop d.length)
    generalize Piece.fraction (s.drop d.length) = f at h hf ⊢
    by_cases hnil : d = []
    · subst hnil
      exact (Language.mem_add _ _ _).2 (Or.inr (hf h))
    · have hdigits : d ∈ digits := by
        rw [← hd] at hnil ⊢
        exact finds_stretch.mem s hnil
      refine (Language.mem_add _ _ _).2 (Or.inl (Language.mem_mul.2 ⟨d, hdigits, f, ?_, rfl⟩))
      by_cases hfnil : f = []
      · exact (Language.mem_add _ _ _).2 (Or.inl hfnil)
      · exact (Language.mem_add _ _ _).2 (Or.inr (hf hfnil))
  longest w t hw := by
    obtain ⟨d, f, rfl, hd, hf⟩ := exists_append_of_unsigned hw
    have hd' : ∀ x ∈ d, anyAcceptsChar [Alphabet.digit] x := by simpa using hd
    unfold Piece.unsigned
    dsimp only
    -- without a fraction the digits may go on; with one, its point ends them
    rcases hf with rfl | hf
    · have hlen : d.length ≤ (Piece.stretch [Alphabet.digit] (d ++ t)).length := by
        unfold Piece.stretch
        rw [List.takeWhile_append_of_pos hd', List.length_append]
        exact Nat.le_add_right ..
      rw [List.append_nil, List.length_append]
      omega
    · obtain ⟨x, v, rfl, hx, -⟩ := exists_cons_of_fraction hf
      have hstop : Piece.stretch [Alphabet.digit] (d ++ (x :: v ++ t)) = d := by
        apply Piece.stretch_append hd'
        intro y hy
        cases hy
        simp [(Alphabet.symbolic_point hx).1]
      rw [List.append_assoc, hstop, List.drop_left, List.length_append, List.length_append]
      exact Nat.add_le_add_left (finds_fraction.longest _ t hf) _

theorem not_digitOrPoint_of_blank (h : Alphabet.blank.acceptsChar x) : ¬ DigitOrPoint x :=
  fun hx => not_blank_of_digitOrPoint hx h

/-- What is read where a sign or none, blanks or none, and then something else stand. -/
theorem decimal_append {a b r : List Char} (ha : a ∈ 1 + oneOf [Alphabet.sign]) (hb : b ∈ blanks)
    (hr : ∀ x ∈ r.head?, DigitOrPoint x) :
    Piece.decimal (a ++ (b ++ r)) =
      if Piece.unsigned r = [] then [] else a ++ (b ++ Piece.unsigned r) := by
  have hblank : ∀ x ∈ b, anyAcceptsChar [Alphabet.blank] x := by simpa using mem_blanks.1 hb
  have hsign : Piece.initial [Alphabet.sign] (a ++ (b ++ r)) = a := by
    -- without a sign, a blank or the number itself comes first, and neither is a sign
    rcases (Language.mem_add _ _ a).1 ha with rfl | ha
    · refine finds_initial.eq_nil (over_oneOf fun _ hx => hx) ?_
      intro x hx
      rw [List.nil_append, List.head?_append, Option.mem_def, Option.or_eq_some_iff] at hx
      rw [Piece.anyAcceptsChar_singleton]
      rcases hx with hx | ⟨-, hx⟩
      · have hxb := mem_blanks.1 hb x (List.mem_of_head? hx)
        rcases Alphabet.blank_iff.1 hxb with rfl | rfl <;> decide
      · exact not_sign_of_digitOrPoint (hr x hx)
    · obtain ⟨x, hx, rfl⟩ := mem_oneOf.1 ha
      exact Piece.initial_cons_of_accepts hx
  have hstretch : Piece.stretch [Alphabet.blank] (b ++ r) = b := by
    apply Piece.stretch_append hblank
    intro x hx
    rw [Piece.anyAcceptsChar_singleton]
    exact not_blank_of_digitOrPoint (hr x hx)
  unfold Piece.decimal
  simp only [hsign, List.drop_left, hstretch]

/-- A decimal is a sign or none, blanks or none, and a text that starts with a digit or a point. -/
theorem exists_append_of_decimal (h : w ∈ decimal) :
    ∃ a b u, w = a ++ (b ++ u) ∧ a ∈ 1 + oneOf [Alphabet.sign] ∧ b ∈ blanks ∧ u ∈ unsigned ∧
      ∀ t, ∀ x ∈ (u ++ t).head?, DigitOrPoint x := by
  obtain ⟨a, ha, v, hv, rfl⟩ := Language.mem_mul.1 h
  obtain ⟨b, hb, u, hu, rfl⟩ := Language.mem_mul.1 hv
  refine ⟨a, b, u, rfl, ha, hb, hu, ?_⟩
  intro t x hx
  obtain ⟨y, v, rfl, hy⟩ := exists_cons_of_unsigned hu
  cases hx
  exact hy

theorem ne_nil_of_decimal (h : w ∈ decimal) : w ≠ [] := by
  obtain ⟨a, b, u, rfl, -, -, hu, -⟩ := exists_append_of_decimal h
  obtain ⟨x, v, rfl, -⟩ := exists_cons_of_unsigned hu
  simp

theorem finds_decimal : Finds decimal Piece.decimal where
  beginning := Piece.prefix_decimal
  mem s h := by
    unfold Piece.decimal at h ⊢
    dsimp only at h ⊢
    split at h
    · exact absurd rfl h
    · next hne =>
        rw [if_neg hne]
        refine Language.mem_mul.2 ⟨_, ?_, _, Language.mem_mul.2
          ⟨_, ?_, _, finds_unsigned.mem _ hne, rfl⟩, rfl⟩
        · by_cases ha : Piece.initial [Alphabet.sign] s = []
          · exact (Language.mem_add _ _ _).2 (Or.inl ha)
          · exact (Language.mem_add _ _ _).2 (Or.inr (finds_initial.mem s ha))
        · exact mem_star_oneOf.2 fun _ => Piece.accepts_of_mem_stretch
  longest w t hw := by
    obtain ⟨a, b, u, rfl, ha, hb, hu, hhead⟩ := exists_append_of_decimal hw
    have hne : Piece.unsigned (u ++ t) ≠ [] := by
      obtain ⟨x, v, rfl, -⟩ := exists_cons_of_unsigned hu
      exact (finds_unsigned.word_le hu).ne_nil (List.cons_ne_nil x v)
    have hlen := finds_unsigned.longest u t hu
    rw [List.append_assoc, List.append_assoc, decimal_append ha hb (hhead t), if_neg hne]
    simp only [List.length_append]
    omega

/-- A decimal is read to its end where neither digit nor point follows. -/
theorem decimal_eq_of_stop (hw : w ∈ decimal) (ht : ∀ x ∈ t.head?, ¬ DigitOrPoint x) :
    Piece.decimal (w ++ t) = w := by
  obtain ⟨a, b, u, rfl, ha, hb, hu, hhead⟩ := exists_append_of_decimal hw
  have hne : u ≠ [] := by
    obtain ⟨x, v, rfl, -⟩ := exists_cons_of_unsigned hu
    exact List.cons_ne_nil x v
  rw [List.append_assoc, List.append_assoc, decimal_append ha hb (hhead t),
    finds_unsigned.eq_of_stop over_unsigned hu ht, if_neg hne]

theorem finds_exponent : Finds exponent Piece.exponent where
  beginning := Piece.prefix_exponent
  mem s h := by
    unfold Piece.exponent at h ⊢
    dsimp only at h ⊢
    split at h
    · exact absurd rfl h
    · next hne =>
        rw [if_neg hne]
        rw [not_or] at hne
        refine Language.mem_mul.2 ⟨_, ?_, _, Language.mem_mul.2
          ⟨_, finds_initial.mem _ hne.1, _, finds_decimal.mem _ hne.2, rfl⟩, rfl⟩
        exact mem_star_oneOf.2 fun _ => Piece.accepts_of_mem_stretch
  longest w t hw := by
    obtain ⟨b, hb, v, hv, rfl⟩ := Language.mem_mul.1 hw
    obtain ⟨x, m, rfl, hx, hm⟩ := mem_oneOf_mul.1 hv
    have hblank : Piece.stretch [Alphabet.blank] (b ++ (x :: (m ++ t))) = b := by
      apply Piece.stretch_append (mem_star_oneOf.1 hb)
      intro y hy
      cases hy
      rw [Piece.anyAcceptsChar_singleton] at hx ⊢
      rcases Alphabet.exponent_iff.1 hx with rfl | rfl <;> decide
    have hletter : Piece.initial [Alphabet.exponent] (x :: (m ++ t)) = [x] :=
      Piece.initial_cons_of_accepts hx
    have hne := (finds_decimal.word_le (t := t) hm).ne_nil (ne_nil_of_decimal hm)
    have hlen := finds_decimal.longest m t hm
    unfold Piece.exponent
    dsimp only
    rw [List.append_assoc, List.cons_append, hblank, List.drop_left, hletter, List.length_singleton, List.drop_one,
      List.tail_cons, if_neg (by simp [hne])]
    simpa using hlen

/-- An exponent starts with a blank or its letter, and so goes on no decimal. -/
theorem not_digitOrPoint_of_mem_exponent (h : w ∈ exponent) :
    ∀ x ∈ (w ++ t).head?, ¬ DigitOrPoint x := by
  obtain ⟨b, hb, v, hv, rfl⟩ := Language.mem_mul.1 h
  obtain ⟨y, m, rfl, hy, -⟩ := mem_oneOf_mul.1 hv
  intro x hx
  cases b with
  | nil =>
      cases hx
      exact not_digitOrPoint_of_exponent (by simpa using hy)
  | cons z b =>
      cases hx
      exact not_digitOrPoint_of_blank (mem_blanks.1 hb _ List.mem_cons_self)

theorem finds_number : Finds number Piece.numeral where
  beginning := Piece.prefix_numeral
  mem s h := by
    unfold Piece.numeral at h ⊢
    dsimp only at h ⊢
    split at h
    · exact absurd rfl h
    · next hne =>
        rw [if_neg hne]
        refine Language.mem_mul.2 ⟨_, finds_decimal.mem s hne, _, ?_, rfl⟩
        by_cases he : Piece.exponent (s.drop (Piece.decimal s).length) = []
        · exact (Language.mem_add _ _ _).2 (Or.inl he)
        · exact (Language.mem_add _ _ _).2 (Or.inr (finds_exponent.mem _ he))
  longest w t hw := by
    obtain ⟨m, hm, e, he, rfl⟩ := Language.mem_mul.1 hw
    unfold Piece.numeral
    dsimp only
    -- before an exponent, the decimal is read to its end and no further
    rcases (Language.mem_add _ _ e).1 he with he | he
    · rw [(Language.mem_one e).1 he, List.append_nil]
      have hne := (finds_decimal.word_le (t := t) hm).ne_nil (ne_nil_of_decimal hm)
      have hlen := finds_decimal.longest m t hm
      rw [if_neg hne, List.length_append]
      omega
    · have hdecimal : Piece.decimal (m ++ (e ++ t)) = m :=
        decimal_eq_of_stop hm (not_digitOrPoint_of_mem_exponent he)
      have hlen := finds_exponent.longest e t he
      rw [List.append_assoc, hdecimal, if_neg (ne_nil_of_decimal hm), List.drop_left]
      simp only [List.length_append]
      omega

/-! ## All tokens -/

/-- A letter or underscore, and letters, digits and underscores. -/
def name : Language Char :=
  oneOf [Alphabet.underscore, Alphabet.letter] *
    (oneOf [Alphabet.underscore, Alphabet.letter, Alphabet.digit])∗

/-- The operators of the table. -/
def operator : Language Char := {w | Alphabet.operator.acceptsText w}

theorem finds_name : Finds name Piece.name where
  beginning := Piece.prefix_name
  mem s h := by
    unfold Piece.name at h ⊢
    dsimp only at h ⊢
    split at h
    · exact absurd rfl h
    · next hne =>
        rw [if_neg hne]
        refine Language.mem_mul.2 ⟨_, finds_initial.mem s hne, _, ?_, rfl⟩
        exact mem_star_oneOf.2 fun _ => Piece.accepts_of_mem_stretch
  longest w t hw := by
    obtain ⟨x, v, rfl, hx, hv⟩ := mem_oneOf_mul.1 hw
    have hfirst : Piece.initial [Alphabet.underscore, Alphabet.letter] (x :: (v ++ t)) = [x] :=
      Piece.initial_cons_of_accepts hx
    unfold Piece.name
    simp only [List.cons_append, hfirst, List.length_singleton, List.drop_one, List.tail_cons]
    rw [if_neg (List.cons_ne_nil x []), Piece.stretch,
      List.takeWhile_append_of_pos (mem_star_oneOf.1 hv)]
    simp

theorem finds_operator : Finds operator Piece.operator where
  beginning := Piece.prefix_operator
  mem _ h := Piece.acceptsText_operator h
  longest w t hw := Piece.length_le_operator hw (List.prefix_append w t)

end Formula.Grammar

namespace Formula.Lexer.State

open Grammar

/-- The language of the tokens that a state produces. -/
def language : State → Language Char
  | dispatch => oneOf [Alphabet.newLine]
  | number => Grammar.number
  | operator => Grammar.operator
  | punctuation => oneOf [Alphabet.punctuation]
  | name => Grammar.name

/-- Each state finds its language. -/
theorem finds_piece (st : State) : Finds st.language st.piece := by
  cases st with
  | dispatch => exact finds_initial
  | number => exact finds_number
  | operator => exact finds_operator
  | punctuation => exact finds_initial
  | name => exact finds_name

end Formula.Lexer.State
