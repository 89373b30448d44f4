import Mathlib.Data.Nat.Digits.Defs
import Mathlib.Tactic.FieldSimp
import Mathlib.Tactic.Ring
import Formula.Numeral
import Formula.Proofs.Grammar

/-!
# `Formula.Proofs.Decimals` — which fraction a decimal denotes

In a decimal, blanks may stand after the sign, and the digits may be of any script. What a decimal
denotes is told by the places of its digits: the whole digits count ones, tens and so on, the digits
after the point count tenths, hundredths and so on. This is what reading gives once the blanks are gone,
if the digits are ASCII; a digit of any other script is the only thing about a decimal that can keep it
from being read.

## Contents
- **Digits.** `isDigit_iff`; `placeValue`, with `digitsValue_eq` and `placeValue_append`.
- **Shapes.** `Shape`, a decimal in its parts; `exists_shape`.
- **Values.** `AsciiDigits`; `Denotes`, with `exists_denotes`.
- **Compact texts.** `compact_append`, `compact_of_blanks`, `compact_of_solid`, and
  `Shape.compact_eq`, what is left of a decimal without its blanks.
- **Reading.** `splitSign_append`, `splitPoint_append`; `Shape.readDecimal_eq`, and from it
  `readDecimal_of_denotes` and `readDecimal_of_foreign`.
-/

namespace Formula.Numeral

open Alphabet Grammar
open scoped Computability

variable {x : Char} {w a b d f u : List Char} {v : ℚ}

/-! ## Digits -/

/-- Of all digits, the ten of ASCII are those below 128. -/
theorem isDigit_iff : x.isDigit ↔ digit.acceptsChar x ∧ x.toNat < 128 := by
  have hrange : digit.acceptsChar x ↔ ∃ r ∈ Text.numericRanges, r.1 ≤ x.toNat ∧ x.toNat ≤ r.2 :=
    Text.isNumeric_iff
  have hdigit : x.isDigit ↔ 0x30 ≤ x.toNat ∧ x.toNat ≤ 0x39 := by
    simp only [Char.isDigit, Bool.and_eq_true, decide_eq_true_eq, ge_iff_le, UInt32.le_iff_toNat_le]
    exact Iff.rfl
  -- no other range of the table begins below 128
  have hfirst : ∀ r ∈ Text.numericRanges, r.1 < 128 → r = (0x30, 0x39) := by decide +kernel
  rw [hrange, hdigit]
  constructor
  · intro h
    exact ⟨⟨(0x30, 0x39), List.mem_cons_self, h⟩, by omega⟩
  · rintro ⟨⟨r, hr, hle, hge⟩, hlt⟩
    have hr := hfirst r hr (Nat.lt_of_le_of_lt hle hlt)
    rw [hr] at hle hge
    exact ⟨hle, hge⟩

/-- What a digit counts. -/
def digitValue (x : Char) : ℕ := x.toNat - '0'.toNat

/-- What a row of digits denotes: the last of them counts ones, the one before it tens, and so on. -/
def placeValue (digits : List Char) : ℕ := Nat.ofDigits 10 (digits.reverse.map digitValue)

theorem digitsValue_eq (digits : List Char) : digitsValue digits = placeValue digits := by
  induction digits using List.reverseRecOn with
  | nil => rfl
  | append_singleton digits x ih =>
      have hleft : digitsValue (digits ++ [x]) = 10 * digitsValue digits + digitValue x := by
        simp [digitsValue, digitValue]
      have hright : placeValue (digits ++ [x]) = digitValue x + 10 * placeValue digits := by
        simp [placeValue, Nat.ofDigits_cons]
      rw [hleft, hright, ih, Nat.add_comm]

/-- Digits in front of others count as many places more. -/
theorem placeValue_append (d f : List Char) :
    placeValue (d ++ f) = placeValue d * 10 ^ f.length + placeValue f := by
  simp only [placeValue, List.reverse_append, List.map_append, Nat.ofDigits_append, List.length_map,
    List.length_reverse]
  ring

/-! ## Shapes -/

/-- A point and the digits after it; without digits, there is no point either. -/
def fractionText : List Char → List Char
  | [] => []
  | x :: f => '.' :: x :: f

/-- The decimal is made of a sign `a` or none, blanks `b` or none, whole digits `d` and digits `f` after
    the point. -/
structure Shape (w a b d f : List Char) : Prop where
  eq_append : w = a ++ (b ++ (d ++ fractionText f))
  sign_mem : a ∈ 1 + oneOf [sign]
  blanks_mem : b ∈ blanks
  digit_of_mem : ∀ x ∈ d ++ f, digit.acceptsChar x
  ne_nil : d ++ f ≠ []

theorem exists_shape (h : w ∈ decimal) : ∃ a b d f, Shape w a b d f := by
  obtain ⟨a, b, u, rfl, ha, hb, hu, -⟩ := exists_append_of_decimal h
  obtain ⟨d, t, rfl, hd, ht⟩ := exists_append_of_unsigned hu
  rcases ht with rfl | ht
  · refine ⟨a, b, d, [], rfl, ha, hb, by simpa using hd, ?_⟩
    obtain ⟨x, v, hxv, -⟩ := exists_cons_of_unsigned hu
    rw [hxv]
    exact List.cons_ne_nil x v
  · obtain ⟨x, f, rfl, hx, hf⟩ := exists_cons_of_fraction ht
    obtain ⟨hne, hdigits⟩ := mem_digits.1 hf
    obtain ⟨y, f, rfl⟩ := List.exists_cons_of_ne_nil hne
    refine ⟨a, b, d, y :: f, ?_, ha, hb, ?_, by simp⟩
    · rw [point_iff.1 hx]
      rfl
    · intro z hz
      rcases List.mem_append.1 hz with hz | hz
      · exact hd z hz
      · exact hdigits z hz

theorem mem_fractionText (h : x ∈ fractionText f) : x = '.' ∨ x ∈ f := by
  cases f with
  | nil => cases h
  | cons y f => exact List.mem_cons.1 h

theorem Shape.digitOrPoint_of_mem (h : Shape w a b d f) (hx : x ∈ d ++ fractionText f) :
    DigitOrPoint x := by
  rcases List.mem_append.1 hx with hx | hx
  · exact Or.inl (h.digit_of_mem x (List.mem_append_left f hx))
  · rcases mem_fractionText hx with rfl | hx
    · exact Or.inr (point_iff.2 rfl)
    · exact Or.inl (h.digit_of_mem x (List.mem_append_right d hx))

theorem Shape.sign_of_mem (h : Shape w a b d f) (hx : x ∈ a) : sign.acceptsChar x := by
  rcases (Language.mem_add _ _ a).1 h.sign_mem with ha | ha
  · rw [(Language.mem_one a).1 ha] at hx
    cases hx
  · obtain ⟨y, hy, rfl⟩ := mem_oneOf.1 ha
    rw [List.mem_singleton.1 hx]
    rwa [Piece.anyAcceptsChar_singleton] at hy

/-- The digits of a decimal are those before and after the point, and no others. -/
theorem Shape.mem_iff (h : Shape w a b d f) : x ∈ d ++ f ↔ x ∈ w ∧ digit.acceptsChar x := by
  rw [h.eq_append]
  constructor
  · intro hx
    refine ⟨?_, h.digit_of_mem x hx⟩
    rcases List.mem_append.1 hx with hx | hx
    · simp [hx]
    · cases f with
      | nil => cases hx
      | cons y f => simp [fractionText, List.mem_cons.1 hx]
  · rintro ⟨hx, hdigit⟩
    rcases List.mem_append.1 hx with hx | hx
    · simp [(symbolic_sign (h.sign_of_mem hx)).1] at hdigit
    · rcases List.mem_append.1 hx with hx | hx
      · simp [(symbolic_blank (mem_blanks.1 h.blanks_mem x hx)).1] at hdigit
      · rcases List.mem_append.1 hx with hx | hx
        · exact List.mem_append_left f hx
        · rcases mem_fractionText hx with rfl | hx
          · simp [(symbolic_point (point_iff.2 rfl)).1] at hdigit
          · exact List.mem_append_right d hx

/-! ## Values -/

/-- All digits in the text are ASCII. -/
def AsciiDigits (w : List Char) : Prop := ∀ x ∈ w, digit.acceptsChar x → x.toNat < 128

theorem asciiDigits_append : AsciiDigits (w ++ u) ↔ AsciiDigits w ∧ AsciiDigits u := by
  simp only [AsciiDigits, List.forall_mem_append]

theorem Shape.asciiDigits_iff (h : Shape w a b d f) :
    AsciiDigits w ↔ (d ++ f).all Char.isDigit := by
  rw [List.all_eq_true]
  constructor
  · intro hascii x hx
    obtain ⟨hmem, hdigit⟩ := h.mem_iff.1 hx
    exact isDigit_iff.2 ⟨hdigit, hascii x hmem hdigit⟩
  · intro hall x hx hdigit
    exact (isDigit_iff.1 (hall x (h.mem_iff.2 ⟨hx, hdigit⟩))).2

/-- What a sign makes of the number after it. -/
def signFactor (a : List Char) : ℚ := if a = ['-'] then -1 else 1

/-- The decimal, all of whose digits are ASCII, denotes this fraction. -/
def Denotes (w : List Char) (v : ℚ) : Prop :=
  AsciiDigits w ∧ ∃ a b d f, Shape w a b d f ∧
    v = signFactor a * (placeValue d + placeValue f / 10 ^ f.length)

theorem exists_denotes (h : w ∈ decimal) (hascii : AsciiDigits w) : ∃ v, Denotes w v := by
  obtain ⟨a, b, d, f, hshape⟩ := exists_shape h
  exact ⟨_, hascii, a, b, d, f, hshape, rfl⟩

/-! ## Compact texts -/

theorem compact_append (w u : List Char) : compact (w ++ u) = compact w ++ compact u :=
  List.filter_append w u

theorem compact_of_blanks (h : b ∈ blanks) : compact b = [] := by
  rw [List.eq_nil_iff_forall_not_mem]
  intro x hx
  obtain ⟨hmem, hspace, htab⟩ := mem_compact.1 hx
  rcases blank_iff.1 (mem_blanks.1 h x hmem) with rfl | rfl
  · exact hspace rfl
  · exact htab rfl

theorem compact_of_solid (h : ∀ x ∈ w, ¬ blank.acceptsChar x) : compact w = w := by
  rw [compact_eq_filter, List.filter_eq_self]
  intro x hx
  have hnot := h x hx
  rw [blank_iff, not_or] at hnot
  exact decide_eq_true hnot

theorem not_blank_of_sign (h : sign.acceptsChar x) : ¬ blank.acceptsChar x := by
  rcases sign_iff.1 h with rfl | rfl <;> decide

/-- Signs, digits and points are all that is left of a decimal without its blanks. -/
theorem Shape.compact_eq (h : Shape w a b d f) : compact w = a ++ (d ++ fractionText f) := by
  have ha : compact a = a := by
    apply compact_of_solid
    intro x hx
    exact not_blank_of_sign (h.sign_of_mem hx)
  have hu : compact (d ++ fractionText f) = d ++ fractionText f := by
    apply compact_of_solid
    intro x hx
    exact not_blank_of_digitOrPoint (h.digitOrPoint_of_mem hx)
  rw [h.eq_append, compact_append, compact_append, compact_of_blanks h.blanks_mem, ha, hu,
    List.nil_append]

/-! ## Reading -/

theorem splitSign_append (ha : a ∈ 1 + oneOf [sign]) (hu : ∀ x ∈ u.head?, ¬ sign.acceptsChar x) :
    splitSign (a ++ u) = (decide (a = ['-']), u) := by
  rcases (Language.mem_add _ _ a).1 ha with ha | ha
  · rw [(Language.mem_one a).1 ha, List.nil_append]
    unfold splitSign
    split
    · exact absurd (by decide) (hu '-' rfl)
    · exact absurd (by decide) (hu '+' rfl)
    · rfl
  · obtain ⟨x, hx, rfl⟩ := mem_oneOf.1 ha
    rw [Piece.anyAcceptsChar_singleton, sign_iff] at hx
    rcases hx with rfl | rfl
    · rfl
    · rfl

theorem splitPoint_append (hd : ∀ x ∈ d, x ≠ '.') :
    splitPoint (d ++ fractionText f) = (d, if f = [] then none else some f) := by
  have hall : ∀ x ∈ d, (x != '.') = true := by simpa using hd
  unfold splitPoint
  cases f with
  | nil =>
      have hnil : d.dropWhile (· != '.') = [] := List.dropWhile_eq_nil_iff.2 hall
      rw [fractionText, List.append_nil, hnil]
      rfl
  | cons x f =>
      have hdrop : (d ++ '.' :: x :: f).dropWhile (· != '.') = '.' :: x :: f := by
        rw [List.dropWhile_append_of_pos hall]
        rfl
      have htake : (d ++ '.' :: x :: f).takeWhile (· != '.') = d := by
        rw [List.takeWhile_append_of_pos hall]
        simp
      rw [fractionText, hdrop, htake]
      rfl

theorem decimalValue_eq (a d f : List Char) :
    decimalValue (decide (a = ['-'])) d f =
      signFactor a * (placeValue d + placeValue f / 10 ^ f.length) := by
  have hplaces : ((placeValue d * 10 ^ f.length + placeValue f : ℕ) : ℚ) / (10 ^ f.length : ℕ) =
      placeValue d + placeValue f / 10 ^ f.length := by
    push_cast
    field_simp
  unfold decimalValue signFactor
  rw [Rat.mkRat_eq_div, digitsValue_eq, placeValue_append, ← hplaces]
  by_cases ha : a = ['-']
  · rw [if_pos ha, decide_eq_true ha, if_pos rfl, neg_one_mul, ← neg_div, Int.cast_neg]
    rfl
  · rw [if_neg ha, decide_eq_false ha, if_neg Bool.false_ne_true, one_mul]
    rfl

/-- A decimal that is read without its blanks has a value if its digits are ASCII. -/
theorem Shape.readDecimal_eq (h : Shape w a b d f) :
    readDecimal (compact w) =
      if (d ++ f).all Char.isDigit then
        .ok (signFactor a * (placeValue d + placeValue f / 10 ^ f.length))
      else .error .unsupportedDigit := by
  have hsign : splitSign (a ++ (d ++ fractionText f)) =
      (decide (a = ['-']), d ++ fractionText f) := by
    apply splitSign_append h.sign_mem
    intro x hx
    exact not_sign_of_digitOrPoint (h.digitOrPoint_of_mem (List.mem_of_head? hx))
  have hpoint : splitPoint (d ++ fractionText f) = (d, if f = [] then none else some f) := by
    apply splitPoint_append
    rintro x hx rfl
    have hdigit := h.digit_of_mem '.' (List.mem_append_left f hx)
    rw [(symbolic_point (point_iff.2 rfl)).1] at hdigit
    cases hdigit
  rw [h.compact_eq, ← decimalValue_eq]
  unfold readDecimal
  rw [hsign]
  dsimp only
  rw [hpoint]
  have hempty : (d.isEmpty && f.isEmpty) = false := by
    have hne := h.ne_nil
    rw [ne_eq, List.append_eq_nil_iff] at hne
    simpa using hne
  cases f with
  | nil =>
      show (if (d.isEmpty && ([] : List Char).isEmpty) = true then _ else _) = _
      rw [hempty]
      rfl
  | cons x f =>
      show (if (d.isEmpty && (x :: f).isEmpty) = true then _ else _) = _
      rw [hempty]
      rfl

/-- The fraction that a decimal denotes is what reading gives. -/
theorem readDecimal_of_denotes (h : Denotes w v) : readDecimal (compact w) = .ok v := by
  obtain ⟨hascii, a, b, d, f, hshape, rfl⟩ := h
  rw [hshape.readDecimal_eq, if_pos (hshape.asciiDigits_iff.1 hascii)]

/-- A digit that is not ASCII keeps a decimal from being read, and it is named as the reason. -/
theorem readDecimal_of_foreign (h : w ∈ decimal) (hnot : ¬ AsciiDigits w) :
    readDecimal (compact w) = .error .unsupportedDigit := by
  obtain ⟨a, b, d, f, hshape⟩ := exists_shape h
  rw [hshape.asciiDigits_iff] at hnot
  rw [hshape.readDecimal_eq, if_neg hnot]

end Formula.Numeral
