import Formula.Proofs.Literals

/-!
# `Formula.Proofs.Numerals` — exactly which texts are number literals

A text is taken for a number literal after its blanks are gone. What is left must be a decimal, or a
decimal, an exponent letter and a decimal that denotes a whole number of at most 4096 in size; and a
decimal is a sign or none, and then ASCII digits with a fraction, digits alone, or a fraction alone. The
cuts that reading makes (at the sign, at the first point, at the first exponent letter) agree with this
grammar on every text, for none of the three can stand inside another part.

## Contents
- **Grammar.** `row`, `plain`; `mem_plain`.
- **Values.** `worth`, with `Shape.worth_eq` and `denotes_of_plain`.
- **Cuts.** `splitSign_cases`, `splitPoint_cases`, `splitExponent_cases`.
- **Reading.** `readDecimal_eq_ok_iff`, `readExponent_eq_ok_iff`; `Literal`, with `read_eq_ok_iff` and
  `number_literal_iff`.
-/

namespace Formula.Numeral

open Alphabet Grammar
open scoped Computability

variable {x : Char} {w u a d f m t : List Char} {v : ℚ} {k : ℤ}

/-! ## Grammar -/

/-- One ASCII digit or more. -/
def row : Language Char := {w | w ≠ [] ∧ ∀ x ∈ w, x.isDigit}

/-- A sign or none, and then digits with or without a fraction, or a fraction alone. -/
def plain : Language Char :=
  {[], ['+'], ['-']} * (row * (1 + {['.']} * row) + {['.']} * row)

theorem mem_sign : a ∈ ({[], ['+'], ['-']} : Language Char) ↔ a ∈ 1 + oneOf [Alphabet.sign] := by
  rw [Language.mem_add, Language.mem_one, mem_oneOf]
  simp only [Piece.anyAcceptsChar_singleton, sign_iff]
  constructor
  · rintro (rfl | rfl | rfl)
    · exact Or.inl rfl
    · exact Or.inr ⟨_, Or.inl rfl, rfl⟩
    · exact Or.inr ⟨_, Or.inr rfl, rfl⟩
  · rintro (rfl | ⟨x, rfl | rfl, rfl⟩)
    · exact Or.inl rfl
    · exact Or.inr (Or.inl rfl)
    · exact Or.inr (Or.inr rfl)

theorem mem_pointRow : w ∈ ({['.']} * row : Language Char) ↔ ∃ f ∈ row, w = fractionText f := by
  constructor
  · intro h
    obtain ⟨p, rfl, f, hf, rfl⟩ := Language.mem_mul.1 h
    obtain ⟨y, f, rfl⟩ := List.exists_cons_of_ne_nil hf.1
    exact ⟨_, hf, rfl⟩
  · rintro ⟨f, hf, rfl⟩
    obtain ⟨y, f, rfl⟩ := List.exists_cons_of_ne_nil hf.1
    exact Language.mem_mul.2 ⟨_, rfl, _, hf, rfl⟩

/-- What follows the sign of a decimal is whole digits, possibly none, and fraction digits, possibly
    none. -/
theorem mem_unsignedPlain :
    u ∈ row * (1 + {['.']} * row) + {['.']} * row ↔
      ∃ d f, u = d ++ fractionText f ∧ (∀ x ∈ d ++ f, x.isDigit) ∧ d ++ f ≠ [] := by
  rw [Language.mem_add, Language.mem_mul, mem_pointRow]
  constructor
  · rintro (⟨d, hd, r, hr, rfl⟩ | ⟨f, hf, rfl⟩)
    · rcases (Language.mem_add _ _ r).1 hr with hr | hr
      · rw [(Language.mem_one r).1 hr]
        exact ⟨d, [], rfl, by simpa using hd.2, by simpa using hd.1⟩
      · obtain ⟨f, hf, rfl⟩ := mem_pointRow.1 hr
        refine ⟨d, f, rfl, ?_, by simp [hd.1]⟩
        exact List.forall_mem_append.2 ⟨hd.2, hf.2⟩
    · exact ⟨[], f, rfl, hf.2, hf.1⟩
  · rintro ⟨d, f, rfl, hall, hne⟩
    obtain ⟨hd, hf⟩ := List.forall_mem_append.1 hall
    cases d with
    | nil => exact Or.inr ⟨f, ⟨hne, hf⟩, rfl⟩
    | cons y d =>
        refine Or.inl ⟨y :: d, ⟨List.cons_ne_nil y d, hd⟩, fractionText f, ?_, rfl⟩
        rw [Language.mem_add, Language.mem_one, mem_pointRow]
        cases f with
        | nil => exact Or.inl rfl
        | cons z f => exact Or.inr ⟨z :: f, ⟨List.cons_ne_nil z f, hf⟩, rfl⟩

/-- These decimals are the ones that have a shape without blanks, with ASCII digits only. -/
theorem mem_plain : w ∈ plain ↔ ∃ a d f, Shape w a [] d f ∧ ∀ x ∈ d ++ f, x.isDigit := by
  rw [plain, Language.mem_mul]
  constructor
  · rintro ⟨a, ha, u, hu, rfl⟩
    obtain ⟨d, f, rfl, hall, hne⟩ := mem_unsignedPlain.1 hu
    refine ⟨a, d, f, ⟨rfl, mem_sign.1 ha, mem_blanks.2 nofun, ?_, hne⟩, hall⟩
    intro x hx
    exact (isDigit_iff.1 (hall x hx)).1
  · rintro ⟨a, d, f, hshape, hall⟩
    refine ⟨a, mem_sign.2 hshape.sign_mem, d ++ fractionText f, ?_, hshape.eq_append.symm⟩
    exact mem_unsignedPlain.2 ⟨d, f, rfl, hall, hshape.ne_nil⟩

/-! ## Values -/

/-- What a decimal is worth: all its digits read as one number, over ten for each digit after the point,
    with the sign. -/
def worth (w : List Char) : ℚ :=
  (if w.head? = some '-' then -1 else 1) * placeValue (w.filter Char.isDigit) /
    10 ^ (w.dropWhile (· != '.')).tail.length

theorem not_isDigit_of_sign (h : Alphabet.sign.acceptsChar x) : ¬ x.isDigit := by
  rcases sign_iff.1 h with rfl | rfl <;> decide

theorem filter_fractionText (hf : ∀ x ∈ f, x.isDigit) :
    (fractionText f).filter Char.isDigit = f ∧
      ((fractionText f).dropWhile (· != '.')).tail = f := by
  cases f with
  | nil => exact ⟨rfl, rfl⟩
  | cons y f =>
      have hfilter : (y :: f).filter Char.isDigit = y :: f := List.filter_eq_self.2 hf
      refine ⟨?_, rfl⟩
      show List.filter Char.isDigit ('.' :: y :: f) = y :: f
      rw [List.filter_cons_of_neg (by decide), hfilter]

theorem Shape.head_eq_iff (h : Shape w a [] d f) : w.head? = some '-' ↔ a = ['-'] := by
  rw [h.eq_append, List.nil_append]
  rcases (Language.mem_add _ _ a).1 h.sign_mem with ha | ha
  · -- without a sign, a digit or the point comes first
    rw [(Language.mem_one a).1 ha, List.nil_append]
    constructor
    · intro hhead
      have hfirst := h.digitOrPoint_of_mem (List.mem_of_head? hhead)
      exact absurd (by decide) (not_sign_of_digitOrPoint hfirst)
    · rintro ⟨⟩
  · obtain ⟨x, -, rfl⟩ := mem_oneOf.1 ha
    simp

/-- What a decimal is worth is told by the places of its digits. -/
theorem Shape.worth_eq (h : Shape w a [] d f) (hall : ∀ x ∈ d ++ f, x.isDigit) :
    worth w = signFactor a * (placeValue d + placeValue f / 10 ^ f.length) := by
  obtain ⟨hd, hf⟩ := List.forall_mem_append.1 hall
  obtain ⟨hfilter, htail⟩ := filter_fractionText hf
  have hsigns : ∀ x ∈ a, Alphabet.sign.acceptsChar x := fun x hx => h.sign_of_mem hx
  have hdigits : w.filter Char.isDigit = d ++ f := by
    have ha : a.filter Char.isDigit = [] := by
      apply List.filter_eq_nil_iff.2
      intro x hx
      exact not_isDigit_of_sign (hsigns x hx)
    rw [h.eq_append, List.nil_append, List.filter_append, List.filter_append, ha, hfilter,
      List.filter_eq_self.2 hd, List.nil_append]
  have hpoint : (w.dropWhile (· != '.')).tail = f := by
    have hbefore : ∀ x ∈ a ++ d, (x != '.') = true := by
      intro x hx
      rw [bne_iff_ne]
      rintro rfl
      rcases List.mem_append.1 hx with hx | hx
      · exact absurd (hsigns _ hx) (by decide)
      · exact absurd (hd _ hx) (by decide)
    rw [h.eq_append, List.nil_append, ← List.append_assoc, List.dropWhile_append_of_pos hbefore, htail]
  have hsign : (if w.head? = some '-' then (-1 : ℚ) else 1) = signFactor a := by
    unfold signFactor
    simp only [h.head_eq_iff]
  unfold worth
  rw [hdigits, hpoint, hsign, placeValue_append]
  push_cast
  field_simp

theorem denotes_of_plain (h : w ∈ plain) : Denotes w (worth w) ∧ compact w = w := by
  obtain ⟨a, d, f, hshape, hall⟩ := mem_plain.1 h
  refine ⟨⟨?_, a, [], d, f, hshape, hshape.worth_eq hall⟩, ?_⟩
  · exact hshape.asciiDigits_iff.2 (List.all_eq_true.2 hall)
  · rw [hshape.compact_eq, hshape.eq_append, List.nil_append]

theorem not_exponentMark_of_plain (h : w ∈ plain) : ∀ y ∈ w, isExponentMark y = false := by
  obtain ⟨a, d, f, hshape, -⟩ := mem_plain.1 h
  have hmarks := hshape.not_exponentMark
  rwa [(denotes_of_plain h).2] at hmarks

/-! ## Cuts -/

theorem splitSign_cases (w : List Char) :
    ∃ a, a ∈ 1 + oneOf [Alphabet.sign] ∧ w = a ++ (splitSign w).2 := by
  unfold splitSign
  split
  · exact ⟨['-'], mem_sign.1 (Or.inr (Or.inr rfl)), rfl⟩
  · exact ⟨['+'], mem_sign.1 (Or.inr (Or.inl rfl)), rfl⟩
  · exact ⟨[], mem_sign.1 (Or.inl rfl), rfl⟩

theorem splitPoint_cases (w : List Char) :
    splitPoint w = (w, none) ∨ ∃ d f, splitPoint w = (d, some f) ∧ w = d ++ '.' :: f := by
  unfold splitPoint
  split
  · exact Or.inl rfl
  · next y f hdrop =>
      have hsplit : w.takeWhile (· != '.') ++ w.dropWhile (· != '.') = w :=
        List.takeWhile_append_dropWhile
      have hhead := List.head?_dropWhile_not (· != '.') w
      rw [hdrop] at hhead
      obtain rfl : y = '.' := by simpa using hhead
      rw [hdrop] at hsplit
      exact Or.inr ⟨_, f, rfl, hsplit.symm⟩

theorem splitExponent_cases (w : List Char) :
    splitExponent w = (w, none) ∨
      ∃ m x t, splitExponent w = (m, some t) ∧ w = m ++ x :: t ∧ (x = 'e' ∨ x = 'E') := by
  unfold splitExponent
  split
  · exact Or.inl rfl
  · next x t hdrop =>
      have hsplit : w.takeWhile (!isExponentMark ·) ++ w.dropWhile (!isExponentMark ·) = w :=
        List.takeWhile_append_dropWhile
      have hhead := List.head?_dropWhile_not (!isExponentMark ·) w
      rw [hdrop] at hhead hsplit
      have hmark : isExponentMark x := by simpa using hhead
      exact Or.inr ⟨_, x, t, rfl, hsplit.symm, exponent_iff.1 (isExponentMark_iff.1 hmark)⟩

/-! ## Reading -/

/-- Parts that pass the checks on digits are digits, and there are some. -/
theorem digits_of_checks {r : ℚ}
    (h : (if d.isEmpty && f.isEmpty then Except.error Defect.missingDigits
      else if (d ++ f).all Char.isDigit then .ok r else .error .unsupportedDigit) = .ok v) :
    (∀ x ∈ d ++ f, x.isDigit) ∧ d ++ f ≠ [] := by
  split at h
  · cases h
  · next hne =>
      split at h
      · next hall =>
          refine ⟨List.all_eq_true.1 hall, ?_⟩
          rintro hnil
          obtain ⟨rfl, rfl⟩ := List.append_eq_nil_iff.1 hnil
          exact hne rfl
      · cases h

/-- What is read as a decimal is one. -/
theorem plain_of_readDecimal (h : readDecimal w = .ok v) : w ∈ plain := by
  obtain ⟨a, ha, hw⟩ := splitSign_cases w
  have hparts : ∃ d f, (splitSign w).2 = d ++ fractionText f ∧ (∀ x ∈ d ++ f, x.isDigit) ∧
      d ++ f ≠ [] := by
    unfold readDecimal at h
    dsimp only at h
    generalize (splitSign w).1 = negative at h
    generalize (splitSign w).2 = u at h
    rcases splitPoint_cases u with hu | ⟨d, f, hu, rfl⟩
    · rw [hu] at h
      exact ⟨u, [], (List.append_nil u).symm, digits_of_checks h⟩
    · rw [hu] at h
      cases f with
      | nil => cases h
      | cons y f => exact ⟨d, y :: f, rfl, digits_of_checks h⟩
  rw [plain, Language.mem_mul]
  exact ⟨a, mem_sign.2 ha, _, mem_unsignedPlain.2 hparts, hw.symm⟩

theorem readDecimal_eq_ok_iff : readDecimal w = .ok v ↔ w ∈ plain ∧ v = worth w := by
  have hplain (h : w ∈ plain) : readDecimal w = .ok (worth w) := by
    obtain ⟨hdenotes, hcompact⟩ := denotes_of_plain h
    rw [← readDecimal_of_denotes hdenotes, hcompact]
  constructor
  · intro h
    have hmem := plain_of_readDecimal h
    rw [hplain hmem] at h
    exact ⟨hmem, (Except.ok.inj h).symm⟩
  · rintro ⟨hmem, rfl⟩
    exact hplain hmem

theorem readExponent_eq_ok_iff :
    readExponent w = .ok k ↔ w ∈ plain ∧ worth w = k ∧ |k| ≤ 4096 := by
  have hsize (u : ℚ) : ¬ maxExponent < u.num.natAbs ↔ |u.num| ≤ 4096 := by
    rw [Int.abs_eq_natAbs, Nat.not_lt]
    exact_mod_cast Iff.rfl
  by_cases hmem : w ∈ plain
  · obtain ⟨hdenotes, hcompact⟩ := denotes_of_plain hmem
    have hread := readExponent_of_denotes hdenotes
    rw [hcompact] at hread
    rw [hread]
    constructor
    · intro h
      split at h
      · cases h
      · next hden =>
          split at h
          · cases h
          · next hle =>
              cases h
              have hwhole := (Rat.den_eq_one_iff _).1 (not_not.1 hden)
              exact ⟨hmem, hwhole.symm, (hsize _).1 hle⟩
    · rintro ⟨-, hk, hle⟩
      rw [hk, if_neg (not_not.2 (Rat.den_intCast k)), if_neg ((hsize k).2 hle)]
      rfl
  · -- what is no decimal is not read as one, and so not as an exponent either
    constructor
    · intro h
      obtain ⟨v, hv, -⟩ := of_bind_ok h
      exact absurd (plain_of_readDecimal hv) hmem
    · rintro ⟨hplain, -⟩
      exact absurd hplain hmem

/-- The exponent moves the point. -/
theorem scale_eq (v : ℚ) (k : ℤ) : scale v k = v * 10 ^ k := by
  unfold scale
  split
  · next hpos =>
      obtain ⟨n, rfl⟩ := Int.eq_ofNat_of_zero_le hpos
      show v * ((10 ^ n : ℕ) : ℚ) = v * 10 ^ (n : ℤ)
      rw [zpow_natCast]
      push_cast
      rfl
  · next hneg =>
      obtain ⟨n, hn⟩ := Int.eq_ofNat_of_zero_le (Int.neg_nonneg.2 (Int.le_of_lt (Int.not_le.1 hneg)))
      obtain rfl : k = -(n : ℤ) := by omega
      rw [Int.natAbs_neg]
      show v / ((10 ^ n : ℕ) : ℚ) = v * 10 ^ (-(n : ℤ))
      rw [zpow_neg, zpow_natCast, div_eq_mul_inv]
      push_cast
      rfl

/-- The text, from which blanks are gone, is a number literal with this value. -/
inductive Literal : List Char → ℚ → Prop where
  | decimal {m : List Char} (hm : m ∈ plain) : Literal m (worth m)
  | scaled {m t : List Char} {x : Char} {k : ℤ} (hm : m ∈ plain) (hx : x = 'e' ∨ x = 'E')
      (ht : t ∈ plain) (hk : worth t = k) (hle : |k| ≤ 4096) :
      Literal (m ++ x :: t) (worth m * 10 ^ k)

theorem read_eq_ok_iff (text : String) :
    read text = .ok v ↔ Literal (compact text.toList) v := by
  unfold read
  generalize compact text.toList = w
  constructor
  · intro h
    rcases splitExponent_cases w with hw | ⟨m, x, t, hw, rfl, hx⟩
    · rewrite [hw] at h
      obtain ⟨v', hv', h⟩ := of_bind_ok h
      obtain ⟨hm, rfl⟩ := readDecimal_eq_ok_iff.1 hv'
      cases h
      exact .decimal hm
    · rewrite [hw] at h
      obtain ⟨v', hv', h⟩ := of_bind_ok h
      obtain ⟨hm, rfl⟩ := readDecimal_eq_ok_iff.1 hv'
      obtain ⟨k, hk, h⟩ := of_bind_ok h
      obtain ⟨ht, hworth, hle⟩ := readExponent_eq_ok_iff.1 hk
      cases h
      rw [scale_eq]
      exact .scaled hm hx ht hworth hle
  · intro h
    cases h with
    | decimal hm =>
        rewrite [splitExponent_of_not_mem (not_exponentMark_of_plain hm)]
        show (readDecimal w >>= fun value => pure value) = _
        rw [readDecimal_eq_ok_iff.2 ⟨hm, rfl⟩]
        rfl
    | @scaled m t x k hm hx ht hk hle =>
        have hmark : isExponentMark x := isExponentMark_iff.2 (exponent_iff.2 hx)
        rewrite [splitExponent_append (not_exponentMark_of_plain hm) hmark]
        show (readDecimal m >>= fun value => do return scale value (← readExponent t)) = _
        rw [readDecimal_eq_ok_iff.2 ⟨hm, rfl⟩, readExponent_eq_ok_iff.2 ⟨ht, hk, hle⟩, ← scale_eq]
        rfl

/-- A text is read as a number exactly when it is a literal once its blanks are gone, and then the number
    is what the literal denotes. Any other text is refused with an error that holds it as it is. So texts
    that differ in blanks alone are read alike, or refused for the same defect. -/
theorem number_literal_iff (text : String) :
    (∀ v, EvalError.readNumber text = .ok v ↔ Literal (compact text.toList) v) ∧
      ((¬ ∃ v, Literal (compact text.toList) v) ↔
        ∃ d, EvalError.readNumber text = .error (.invalidNumber text d)) ∧
      ∀ other : String, compact other.toList = compact text.toList →
        (∀ v, EvalError.readNumber other = .ok v ↔ EvalError.readNumber text = .ok v) ∧
        ∀ d, EvalError.readNumber other = .error (.invalidNumber other d) ↔
          EvalError.readNumber text = .error (.invalidNumber text d) := by
  have hok (text : String) (v : ℚ) :
      EvalError.readNumber text = .ok v ↔ Literal (compact text.toList) v :=
    readNumber_eq_ok_iff.trans (read_eq_ok_iff text)
  have herror (text : String) (d : Defect) :
      EvalError.readNumber text = .error (.invalidNumber text d) ↔ read text = .error d := by
    rw [readNumber_eq_error_iff]
    constructor
    · rintro ⟨d', hread, heq⟩
      cases heq
      exact hread
    · intro hread
      exact ⟨d, hread, rfl⟩
  refine ⟨hok text, ?_, ?_⟩
  · simp only [herror, ← read_eq_ok_iff]
    cases read text with
    | ok v => simp
    | error d => simp
  · intro other hcompact
    have hread : read other = read text := by
      unfold read
      rw [hcompact]
    refine ⟨?_, ?_⟩
    · intro v
      rw [hok, hok, hcompact]
    · intro d
      rw [herror, herror, hread]

/-- Blanks stand after both signs and before the letter, and the exponent is written with a fraction. -/
theorem number_literal_with_blanks :
    compact "- 1.5 E- 2.0".toList = compact "-1.5E-2.0".toList ∧
      EvalError.readNumber "- 1.5 E- 2.0" = .ok (-3 / 200) := by
  have hcompact : compact "- 1.5 E- 2.0".toList = compact "-1.5E-2.0".toList := by decide
  have hdecimal (x y : Char) (hx : x.isDigit) (hy : y.isDigit) : ['-', x, '.', y] ∈ plain := by
    refine Language.mem_mul.2 ⟨['-'], Or.inr (Or.inr rfl), [x, '.', y], ?_, rfl⟩
    refine mem_unsignedPlain.2 ⟨[x], [y], rfl, ?_, List.cons_ne_nil _ _⟩
    simp [hx, hy]
  have hmantissa : worth ['-', '1', '.', '5'] = -3 / 2 := by
    show (-1 : ℚ) * ((15 : ℕ) : ℚ) / 10 ^ 1 = -3 / 2
    norm_num
  have hexponent : worth ['-', '2', '.', '0'] = (-2 : ℤ) := by
    show (-1 : ℚ) * ((20 : ℕ) : ℚ) / 10 ^ 1 = (-2 : ℤ)
    norm_num
  have hvalue : (-3 / 2 : ℚ) * 10 ^ (-2 : ℤ) = -3 / 200 := by norm_num
  have hliteral : Literal (compact "-1.5E-2.0".toList) (-3 / 200) := by
    have h := Literal.scaled (hdecimal '1' '5' rfl rfl) (Or.inr rfl) (hdecimal '2' '0' rfl rfl)
      hexponent (by decide)
    rw [hmantissa, hvalue] at h
    exact h
  obtain ⟨hok, -, hother⟩ := number_literal_iff "-1.5E-2.0"
  exact ⟨hcompact, ((hother _ hcompact).1 _).2 ((hok _).2 hliteral)⟩

end Formula.Numeral
