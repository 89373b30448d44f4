import Formula.Expr.Basic
import Formula.Proofs.Decimals
import Formula.Proofs.LongestTokens

/-!
# `Formula.Proofs.Literals` — which number tokens are number literals

The lexer finds a number where the grammar has one; the conversion to a fraction first drops all blanks
and then cuts at the first exponent letter and at the first point. Both take a number apart at the same
places, and so every number token can be converted, but for two reasons: its digits may be of another
script than ASCII, and its exponent may be no whole number, or too great.

## Contents
- **Parts.** `Parts`: a number is a decimal with or without an exponent; `exists_parts`.
- **Cuts.** `splitExponent_append`, and `Parts.splitExponent_eq`.
- **Verdicts.** `Verdict`, what becomes of a number by its digits and its exponent; `exponent_cases`, and
  `Parts.verdict`: this is what reading makes of it; `Verdict.eq_error`.
- **Tokens.** `Rejects`, with `rejects_iff`, and `number_token_converts`.
-/

namespace Formula.Numeral

open Alphabet Grammar
open scoped Computability

variable {x : Char} {w m u s : List Char} {e : Option (List Char)} {v : ℚ} {text : String}

/-! ## Parts -/

/-- The number `w` is the decimal `m`, and `e` is its exponent: a decimal after a letter, with blanks or
    none before the letter. -/
inductive Parts : List Char → List Char → Option (List Char) → Prop where
  | plain {m : List Char} (hm : m ∈ decimal) : Parts m m none
  | scaled {m b t : List Char} {x : Char} (hm : m ∈ decimal) (hb : b ∈ blanks)
      (hx : Alphabet.exponent.acceptsChar x) (ht : t ∈ decimal) :
      Parts (m ++ (b ++ x :: t)) m (some t)

theorem exists_parts (h : w ∈ number) : ∃ m e, Parts w m e := by
  obtain ⟨m, hm, t, ht, rfl⟩ := Language.mem_mul.1 h
  rcases (Language.mem_add _ _ t).1 ht with ht | ht
  · rw [(Language.mem_one t).1 ht, List.append_nil]
    exact ⟨m, none, .plain hm⟩
  · obtain ⟨b, hb, u, hu, rfl⟩ := Language.mem_mul.1 ht
    obtain ⟨x, t, rfl, hx, ht⟩ := mem_oneOf_mul.1 hu
    rw [Piece.anyAcceptsChar_singleton] at hx
    exact ⟨m, some t, .scaled hm hb hx ht⟩

/-- Exponent letters and blanks are no digits. -/
theorem Parts.asciiDigits_iff (h : Parts w m e) :
    AsciiDigits w ↔ AsciiDigits m ∧ ∀ t ∈ e, AsciiDigits t := by
  cases h with
  | plain => simp
  | @scaled m b t x hm hb hx ht =>
      have hblanks : AsciiDigits b := by
        intro y hy hdigit
        rw [(symbolic_blank (mem_blanks.1 hb y hy)).1] at hdigit
        cases hdigit
      have hletter : AsciiDigits [x] := by
        intro y hy hdigit
        rw [List.mem_singleton.1 hy, digit_of_exponent hx] at hdigit
        cases hdigit
      rw [asciiDigits_append, asciiDigits_append, ← List.singleton_append, asciiDigits_append]
      simp [hblanks, hletter]

/-! ## Cuts -/

theorem isExponentMark_iff : isExponentMark x ↔ Alphabet.exponent.acceptsChar x := by
  rw [exponent_iff]
  simp [isExponentMark]

/-- No exponent letter stands in a decimal. -/
theorem Shape.not_exponentMark {a b d f : List Char} (h : Shape w a b d f) :
    ∀ y ∈ compact w, isExponentMark y = false := by
  rw [h.compact_eq]
  intro y hy
  by_contra hmark
  rw [Bool.not_eq_false, isExponentMark_iff] at hmark
  rcases List.mem_append.1 hy with hy | hy
  · have hsign := h.sign_of_mem hy
    rcases exponent_iff.1 hmark with rfl | rfl
    all_goals exact absurd hsign (by decide)
  · exact not_digitOrPoint_of_exponent hmark (h.digitOrPoint_of_mem hy)

theorem not_exponentMark_of_decimal (h : w ∈ decimal) :
    ∀ y ∈ compact w, isExponentMark y = false := by
  obtain ⟨a, b, d, f, hshape⟩ := exists_shape h
  exact hshape.not_exponentMark

theorem splitExponent_of_not_mem (hu : ∀ y ∈ u, isExponentMark y = false) :
    splitExponent u = (u, none) := by
  have hall : ∀ y ∈ u, (!isExponentMark y) = true := by simpa using hu
  have hnil : u.dropWhile (!isExponentMark ·) = [] := List.dropWhile_eq_nil_iff.2 hall
  rw [splitExponent, hnil]

theorem splitExponent_append (hu : ∀ y ∈ u, isExponentMark y = false) (hx : isExponentMark x) :
    splitExponent (u ++ x :: s) = (u, some s) := by
  have hall : ∀ y ∈ u, (!isExponentMark y) = true := by simpa using hu
  have hdrop : (u ++ x :: s).dropWhile (!isExponentMark ·) = x :: s := by
    rw [List.dropWhile_append_of_pos hall]
    simp [hx]
  have htake : (u ++ x :: s).takeWhile (!isExponentMark ·) = u := by
    rw [List.takeWhile_append_of_pos hall]
    simp [hx]
  rw [splitExponent, hdrop, htake]

/-- The conversion cuts a number where the grammar does. -/
theorem Parts.splitExponent_eq (h : Parts w m e) :
    splitExponent (compact w) = (compact m, e.map compact) := by
  cases h with
  | plain hm => exact splitExponent_of_not_mem (not_exponentMark_of_decimal hm)
  | @scaled m b t x hm hb hx ht =>
      have hletter : compact [x] = [x] := by
        rcases exponent_iff.1 hx with rfl | rfl <;> rfl
      rw [← List.singleton_append, compact_append, compact_append, compact_append,
        compact_of_blanks hb, hletter]
      exact splitExponent_append (not_exponentMark_of_decimal hm) (isExponentMark_iff.2 hx)

/-! ## Verdicts -/

/-- What becomes of a number with such an exponent. Digits that are not ASCII count before a fractional
    exponent, and this before an exponent that is too great. -/
inductive Verdict (w : List Char) (e : Option (List Char)) : Except Defect ℚ → Prop where
  | unsupported (hnot : ¬ AsciiDigits w) : Verdict w e (.error .unsupportedDigit)
  | fractional {t : List Char} {v : ℚ} (hascii : AsciiDigits w) (ht : t ∈ e) (hv : Denotes t v)
      (hfrac : ∀ k : ℤ, v ≠ k) : Verdict w e (.error .fractionalExponent)
  | outOfRange {t : List Char} {k : ℤ} (hascii : AsciiDigits w) (ht : t ∈ e) (hk : Denotes t k)
      (hgreat : 4096 < |k|) : Verdict w e (.error .exponentOutOfRange)
  | converted {v : ℚ} (hascii : AsciiDigits w)
      (he : ∀ t ∈ e, ∃ k : ℤ, Denotes t k ∧ |k| ≤ 4096) : Verdict w e (.ok v)

theorem Parts.mem_decimal (h : Parts w m e) : m ∈ decimal := by
  cases h with
  | plain hm => exact hm
  | scaled hm => exact hm

theorem Parts.read_eq (h : Parts w m e) (hw : text.toList = w) :
    read text = do
      let value ← readDecimal (compact m)
      match e.map compact with
      | none => return value
      | some t => return scale value (← readExponent t) := by
  unfold read
  rewrite [hw, h.splitExponent_eq]
  rfl

variable {t : List Char}

theorem readExponent_of_denotes (h : Denotes t v) :
    readExponent (compact t) =
      if v.den ≠ 1 then .error .fractionalExponent
      else if maxExponent < v.num.natAbs then .error .exponentOutOfRange
      else .ok v.num := by
  unfold readExponent
  rw [readDecimal_of_denotes h]
  show (if v.den ≠ 1 then _ else _) = _
  split
  · rfl
  · show (if maxExponent < v.num.natAbs then _ else _) = _
    split
    · rfl
    · rfl

/-- An exponent has foreign digits, or is no whole number, or is too great, or is read. -/
theorem exponent_cases (h : t ∈ decimal) :
    (¬ AsciiDigits t ∧ readExponent (compact t) = .error .unsupportedDigit) ∨
      (∃ u, Denotes t u ∧ (∀ k : ℤ, u ≠ k) ∧
        readExponent (compact t) = .error .fractionalExponent) ∨
      (∃ k : ℤ, Denotes t k ∧ 4096 < |k| ∧
        readExponent (compact t) = .error .exponentOutOfRange) ∨
      ∃ k : ℤ, Denotes t k ∧ |k| ≤ 4096 ∧ readExponent (compact t) = .ok k := by
  by_cases hascii : AsciiDigits t
  · obtain ⟨u, hu⟩ := exists_denotes h hascii
    have hread := readExponent_of_denotes hu
    by_cases hden : u.den = 1
    · rw [if_neg (not_not.2 hden)] at hread
      have hnum : Denotes t u.num := by rwa [(Rat.den_eq_one_iff u).1 hden]
      by_cases hgreat : maxExponent < u.num.natAbs
      · rw [if_pos hgreat] at hread
        have hlt : 4096 < |u.num| := by
          rw [Int.abs_eq_natAbs]
          exact_mod_cast hgreat
        exact Or.inr (Or.inr (Or.inl ⟨u.num, hnum, hlt, hread⟩))
      · rw [if_neg hgreat] at hread
        have hle : |u.num| ≤ 4096 := by
          rw [Int.abs_eq_natAbs]
          exact_mod_cast Nat.not_lt.1 hgreat
        exact Or.inr (Or.inr (Or.inr ⟨u.num, hnum, hle, hread⟩))
    · rw [if_pos hden] at hread
      refine Or.inr (Or.inl ⟨u, hu, ?_, hread⟩)
      rintro k rfl
      exact hden rfl
  · refine Or.inl ⟨hascii, ?_⟩
    unfold readExponent
    rw [readDecimal_of_foreign h hascii]
    rfl

/-- Reading a number gives the verdict on it. -/
theorem Parts.verdict (h : Parts w m e) (hw : text.toList = w) : Verdict w e (read text) := by
  have hread := h.read_eq hw
  have hparts := h.asciiDigits_iff
  by_cases hm : AsciiDigits m
  · obtain ⟨v, hv⟩ := exists_denotes h.mem_decimal hm
    rw [readDecimal_of_denotes hv] at hread
    cases h with
    | plain =>
        rw [hread]
        exact .converted hm nofun
    | @scaled m b t x _ _ _ ht =>
        -- the exponent is read, or its defect is that of the number
        have hscaled : read text = (do return scale v (← readExponent (compact t))) := hread
        rcases exponent_cases ht with ⟨hnot, he⟩ | ⟨u, hu, hfrac, he⟩ | ⟨k, hk, hgreat, he⟩ |
          ⟨k, hk, hle, he⟩
        all_goals rw [hscaled, he]
        · exact .unsupported fun hascii => hnot ((hparts.1 hascii).2 t rfl)
        · have hascii := hparts.2 ⟨hm, by simpa using hu.1⟩
          exact .fractional hascii rfl hu hfrac
        · have hascii := hparts.2 ⟨hm, by simpa using hk.1⟩
          exact .outOfRange hascii rfl hk hgreat
        · have hascii := hparts.2 ⟨hm, by simpa using hk.1⟩
          refine .converted hascii ?_
          rintro _ ⟨⟩
          exact ⟨k, hk, hle⟩
  · rw [readDecimal_of_foreign h.mem_decimal hm] at hread
    rw [hread]
    exact .unsupported fun hascii => hm (hparts.1 hascii).1

theorem denotes_unique {u : ℚ} (h : Denotes w u) (h' : Denotes w v) : u = v := by
  have heq := readDecimal_of_denotes h
  rw [readDecimal_of_denotes h'] at heq
  exact (Except.ok.inj heq).symm

variable {r r' : Except Defect ℚ}

/-- A verdict that names a defect is the only one: of two defects, the one that counts first excludes the
    other, and an exponent denotes one fraction only. -/
theorem Verdict.eq_error {d : Defect} (h : Verdict w e r) (hd : Verdict w e (.error d)) :
    r = .error d := by
  cases hd with
  | unsupported hnot =>
      cases h with
      | unsupported => rfl
      | fractional hascii => exact absurd hascii hnot
      | outOfRange hascii => exact absurd hascii hnot
      | converted hascii => exact absurd hascii hnot
  | fractional hascii ht hv hfrac =>
      cases h with
      | unsupported hnot => exact absurd hascii hnot
      | fractional => rfl
      | outOfRange _ ht' hk =>
          rw [Option.mem_unique ht' ht] at hk
          exact absurd (denotes_unique hv hk) (hfrac _)
      | converted _ he =>
          obtain ⟨k, hk, -⟩ := he _ ht
          exact absurd (denotes_unique hv hk) (hfrac k)
  | outOfRange hascii ht hk hgreat =>
      cases h with
      | unsupported hnot => exact absurd hascii hnot
      | fractional _ ht' hv hfrac =>
          rw [Option.mem_unique ht' ht] at hv
          exact absurd (denotes_unique hv hk) (hfrac _)
      | outOfRange => rfl
      | converted _ he =>
          obtain ⟨k, hk', hle⟩ := he _ ht
          rw [Int.cast_injective (denotes_unique hk' hk)] at hle
          exact absurd hgreat (Int.not_lt.2 hle)

theorem Verdict.unsupported_iff (h : Verdict w e r) :
    r = .error .unsupportedDigit ↔ ¬ AsciiDigits w := by
  constructor
  · rintro rfl
    cases h with
    | unsupported hnot => exact hnot
  · intro hnot
    exact h.eq_error (.unsupported hnot)

theorem Verdict.fractional_iff (h : Verdict w e r) :
    r = .error .fractionalExponent ↔
      AsciiDigits w ∧ ∃ t ∈ e, ∃ v, Denotes t v ∧ ∀ k : ℤ, v ≠ k := by
  constructor
  · rintro rfl
    cases h with
    | fractional hascii ht hv hfrac => exact ⟨hascii, _, ht, _, hv, hfrac⟩
  · rintro ⟨hascii, t, ht, v, hv, hfrac⟩
    exact h.eq_error (.fractional hascii ht hv hfrac)

theorem Verdict.outOfRange_iff (h : Verdict w e r) :
    r = .error .exponentOutOfRange ↔
      AsciiDigits w ∧ ∃ t ∈ e, ∃ k : ℤ, Denotes t k ∧ 4096 < |k| := by
  constructor
  · rintro rfl
    cases h with
    | outOfRange hascii ht hk hgreat => exact ⟨hascii, _, ht, _, hk, hgreat⟩
  · rintro ⟨hascii, t, ht, k, hk, hgreat⟩
    exact h.eq_error (.outOfRange hascii ht hk hgreat)

theorem Verdict.converted_iff (h : Verdict w e r) :
    (∃ v, r = .ok v) ↔ AsciiDigits w ∧ ∀ t ∈ e, ∃ k : ℤ, Denotes t k ∧ |k| ≤ 4096 := by
  constructor
  · rintro ⟨v, rfl⟩
    cases h with
    | converted hascii he => exact ⟨hascii, he⟩
  · rintro ⟨hascii, he⟩
    cases r with
    | ok v => exact ⟨v, rfl⟩
    | error d =>
        have hconverted : Verdict w e (.ok 0) := .converted hascii he
        cases hconverted.eq_error h

/-- No number lacks digits, after its point or at all. -/
theorem Verdict.ne_missing (h : Verdict w e r) :
    r ≠ .error .missingDigits ∧ r ≠ .error .missingFraction := by
  cases h with
  | _ => exact ⟨nofun, nofun⟩

/-! ## Tokens -/

/-- The text is refused as a number literal for this reason, and the error has the text as it is. -/
def Rejects (text reason : String) : Prop :=
  ∃ d, EvalError.readNumber text = .error (.invalidNumber text d) ∧ d.reason = reason

theorem reason_injective : Function.Injective Defect.reason := by
  intro d d' heq
  cases d <;> cases d' <;> first | rfl | exact absurd heq (by decide)

/-- Every error of a number literal has its text and a defect. -/
theorem readNumber_eq_error_iff {err : EvalError} :
    EvalError.readNumber text = .error err ↔
      ∃ d, read text = .error d ∧ err = .invalidNumber text d := by
  unfold EvalError.readNumber
  cases read text with
  | ok v => simp [Except.mapError]
  | error d => simp [Except.mapError, eq_comm]

theorem readNumber_eq_ok_iff : EvalError.readNumber text = .ok v ↔ read text = .ok v := by
  unfold EvalError.readNumber
  cases read text with
  | ok v => simp [Except.mapError]
  | error d => simp [Except.mapError]

theorem rejects_iff (text : String) (d : Defect) :
    Rejects text d.reason ↔ read text = .error d := by
  constructor
  · rintro ⟨d', herror, hreason⟩
    rw [reason_injective hreason] at herror
    obtain ⟨d'', hread, heq⟩ := readNumber_eq_error_iff.1 herror
    cases heq
    exact hread
  · intro hread
    exact ⟨d, readNumber_eq_error_iff.2 ⟨d, hread, rfl⟩, rfl⟩

end Formula.Numeral

namespace Formula.Lexer

open Numeral

/-- Every number token can be taken apart into a decimal and an exponent or none. It converts exactly
    if all its digits are ASCII and the exponent is a whole number of at most 4096 in size. Otherwise the
    error has the text of the token, and the first reason that applies: a digit that is not ASCII, an
    exponent that is no whole number, an exponent that is too great. Digits are never missing. -/
theorem number_token_converts (source : String) (before after : List Token) (t : Token)
    (h : (ofString source).toList = before ++ t :: after) (hkind : t.kind = .number) :
    (∃ m e, Parts t.text.toList m e) ∧ ∀ m e, Parts t.text.toList m e →
      ((∃ v, EvalError.readNumber t.text = .ok v) ↔
        AsciiDigits t.text.toList ∧ ∀ x ∈ e, ∃ k : ℤ, Denotes x k ∧ |k| ≤ 4096) ∧
      (Rejects t.text "unsupported digit" ↔ ¬ AsciiDigits t.text.toList) ∧
      (Rejects t.text "fractional exponent" ↔
        AsciiDigits t.text.toList ∧ ∃ x ∈ e, ∃ v, Denotes x v ∧ ∀ k : ℤ, v ≠ k) ∧
      (Rejects t.text "exponent out of range" ↔
        AsciiDigits t.text.toList ∧ ∃ x ∈ e, ∃ k : ℤ, Denotes x k ∧ 4096 < |k|) ∧
      ¬ Rejects t.text "missing digits" ∧
      ¬ Rejects t.text "missing digits after decimal point" ∧
      ∀ err, EvalError.readNumber t.text = .error err → ∃ d, err = .invalidNumber t.text d := by
  have hterminal : t.kind.isTerminal = false := by rw [hkind]; rfl
  obtain ⟨s, _, _, _, _, hread, -⟩ := exists_readAt h hterminal
  have hmem := (longestWord_of_readAt hread).mem
  rw [hkind] at hmem
  refine ⟨exists_parts hmem, ?_⟩
  intro m e hparts
  have hverdict := hparts.verdict rfl
  obtain ⟨hdigits, hfraction⟩ := hverdict.ne_missing
  refine ⟨?_, ?_, ?_, ?_, ?_, ?_, ?_⟩
  · rw [← hverdict.converted_iff]
    exact exists_congr fun v => readNumber_eq_ok_iff
  · exact (rejects_iff _ .unsupportedDigit).trans hverdict.unsupported_iff
  · exact (rejects_iff _ .fractionalExponent).trans hverdict.fractional_iff
  · exact (rejects_iff _ .exponentOutOfRange).trans hverdict.outOfRange_iff
  · intro hrejects
    exact hdigits ((rejects_iff _ .missingDigits).1 hrejects)
  · intro hrejects
    exact hfraction ((rejects_iff _ .missingFraction).1 hrejects)
  · intro err herror
    obtain ⟨d, -, heq⟩ := readNumber_eq_error_iff.1 herror
    exact ⟨d, heq⟩

/-- A point that comes first is part of the exponent, which is one half, and so the number is refused. -/
theorem fractional_exponent_rejected :
    (ofString "1e.5").toList = [⟨.number, "1e.5"⟩, ⟨.endOfInput, ""⟩] ∧
      Rejects "1e.5" "fractional exponent" := by
  have hsource : Lexes none "1e.5".toList [⟨[], .number, ['1', 'e', '.', '5']⟩] [] [] := by
    refine Lexes.token_of_reader [] ['1', 'e', '.', '5'] [] .number ?_ ?_ ?_ ?_ .nil
    all_goals decide +kernel
  have hlist : (ofString "1e.5").toList = [⟨.number, "1e.5"⟩, ⟨.endOfInput, ""⟩] :=
    toList_ofString hsource
  have hone : ['1'] ∈ Grammar.decimal := Grammar.finds_decimal.mem ['1'] (by decide +kernel)
  have hhalf : ['.', '5'] ∈ Grammar.decimal :=
    Grammar.finds_decimal.mem ['.', '5'] (by decide +kernel)
  have hblanks : [] ∈ Grammar.blanks := Grammar.mem_blanks.2 (by simp)
  have hletter : Alphabet.exponent.acceptsChar 'e' := by decide
  have hparts : Parts "1e.5".toList ['1'] (some ['.', '5']) := .scaled hone hblanks hletter hhalf
  have hascii : AsciiDigits ['1', 'e', '.', '5'] := by simp [AsciiDigits]
  have hshape : Shape ['.', '5'] [] [] [] ['5'] := by
    refine ⟨rfl, Or.inl rfl, hblanks, List.forall_mem_singleton.2 ?_, by simp⟩
    decide +kernel
  have hdenotes : Denotes ['.', '5'] (1 / 2) := by
    refine ⟨by simp [AsciiDigits], [], [], [], ['5'], hshape, ?_⟩
    have hfive : placeValue ['5'] = 5 := by simp [placeValue, digitValue]
    have hnone : placeValue [] = 0 := rfl
    rw [hfive, hnone, signFactor, if_neg (by decide)]
    norm_num
  have hfrac : ∀ k : ℤ, (1 / 2 : ℚ) ≠ k := by
    intro k hk
    have hone : (1 : ℤ) = k * 2 := by exact_mod_cast (div_eq_iff (by norm_num)).1 hk
    omega
  obtain ⟨-, hverdict⟩ := number_token_converts "1e.5" [] _ ⟨.number, "1e.5"⟩ hlist rfl
  obtain ⟨-, -, hfractional, -⟩ := hverdict _ _ hparts
  exact ⟨hlist, hfractional.2 ⟨hascii, _, rfl, _, hdenotes, hfrac⟩⟩

end Formula.Lexer
