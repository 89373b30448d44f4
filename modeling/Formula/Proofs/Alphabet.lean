import Formula.Rule.Alphabet

/-!
# `Formula.Proofs.Alphabet` — how the character classes overlap

Digits and letters are large classes, and they share some characters. Every other class lists its
characters one by one: none of these is a digit, and none but the underscore and the exponent letters
may stand in a name.

## Contents
- **Members.** `blank_iff`, `sign_iff` and so on: the characters of the classes that list them.
- **Operators.** `operator_iff`, `operator_of_mem`, and `acceptsText_of_operator`: every character that
  starts an operator is one by itself, except the ampersand (`eq_of_ampersand_mem`).
- **Symbols.** `Symbolic`: neither digits nor letters are in the class.
-/

namespace Formula.Alphabet

open Rule

variable {c : Char} {p : List Char}

/-! ## Members -/

theorem underscore_iff : underscore.acceptsChar c ↔ c = '_' := by
  simp [underscore, acceptsChar]

theorem sign_iff : sign.acceptsChar c ↔ c = '+' ∨ c = '-' := by
  simp [sign, acceptsChar]

theorem blank_iff : blank.acceptsChar c ↔ c = ' ' ∨ c = '\t' := by
  simp [blank, acceptsChar]

theorem newLine_iff : newLine.acceptsChar c ↔ c = '\r' ∨ c = '\n' := by
  simp [newLine, acceptsChar]

theorem exponent_iff : exponent.acceptsChar c ↔ c = 'e' ∨ c = 'E' := by
  simp [exponent, acceptsChar]

theorem point_iff : point.acceptsChar c ↔ c = '.' := by
  simp [point, acceptsChar]

theorem punctuation_iff :
    punctuation.acceptsChar c ↔ c ∈ ['(', ')', '\x7b', '\x7d', ',', '.', '[', ']'] := by
  simp [punctuation, acceptsChar]

/-! ## Operators -/

/-- A character starts an operator exactly when some operator has it as its first character. -/
theorem operator_iff :
    operator.acceptsChar c ↔ ∃ p, operator.acceptsText p ∧ p.head? = some c := by
  simp only [operator, acceptsChar, acceptsText, List.any_eq_true, beq_iff_eq]
  constructor
  · rintro ⟨m, hm, hc⟩
    exact ⟨m.toList, ⟨m, hm, rfl⟩, hc⟩
  · rintro ⟨_, ⟨m, hm, rfl⟩, hc⟩
    exact ⟨m, hm, hc⟩

/-- The operators as lists of characters. -/
def operatorTexts : List (List Char) :=
  match operator with
  | .strings members => members.map String.toList
  | _ => []

theorem acceptsText_operator_iff : operator.acceptsText p ↔ p ∈ operatorTexts := by
  simp only [operator, operatorTexts, acceptsText, List.any_eq_true, List.mem_map, beq_iff_eq]

/-- What a check finds in the table of operators holds of every operator. -/
theorem check_of_operator {f : List Char → Bool} (hp : operator.acceptsText p)
    (hf : operatorTexts.all f = true) : f p = true :=
  List.all_eq_true.1 hf p (acceptsText_operator_iff.1 hp)

/-- Every character of an operator starts some operator. -/
theorem operator_of_mem (hp : operator.acceptsText p) (hc : c ∈ p) : operator.acceptsChar c := by
  have h := check_of_operator (f := fun q => q.all operator.acceptsChar) hp (by decide +kernel)
  exact List.all_eq_true.1 h c hc

/-- Only the double ampersand has ampersands in it. -/
theorem eq_of_ampersand_mem (hp : operator.acceptsText p) (h : '&' ∈ p) : p = ['&', '&'] := by
  have hf := check_of_operator (f := fun q => !q.contains '&' || q == ['&', '&']) hp
    (by decide +kernel)
  simpa [h] using hf

/-- What starts an operator is one by itself, the ampersand excepted. -/
theorem acceptsText_of_operator (hc : operator.acceptsChar c) (h : c ≠ '&') :
    operator.acceptsText [c] := by
  obtain ⟨p, hp, hhead⟩ := operator_iff.1 hc
  have hf := check_of_operator
    (f := fun q => q.head?.all fun x => x == '&' || operator.acceptsText [x]) hp (by decide +kernel)
  simpa [hhead, h] using hf

/-! ## Symbols -/

/-- The rule accepts neither digits nor letters. -/
def Symbolic (r : Rule) : Prop :=
  ∀ ⦃c⦄, r.acceptsChar c → digit.acceptsChar c = false ∧ letter.acceptsChar c = false

/-- A listed class is symbolic when the characters of its list are. -/
theorem symbolic_of_chars {set : String}
    (h : set.toList.all (fun c => !digit.acceptsChar c && !letter.acceptsChar c) = true) :
    Symbolic (.chars set) := by
  intro c hc
  have hmem : c ∈ set.toList := by simpa [acceptsChar] using hc
  simpa using List.all_eq_true.1 h c hmem

theorem symbolic_sign : Symbolic sign := symbolic_of_chars (by decide +kernel)

theorem symbolic_blank : Symbolic blank := symbolic_of_chars (by decide +kernel)

theorem symbolic_punctuation : Symbolic punctuation := symbolic_of_chars (by decide +kernel)

/-- The point is among the punctuation. -/
theorem punctuation_of_point (hc : point.acceptsChar c) : punctuation.acceptsChar c := by
  rw [point_iff.1 hc]
  decide

/-- A sign is an operator. -/
theorem acceptsText_of_sign (hc : sign.acceptsChar c) : operator.acceptsText [c] := by
  rcases sign_iff.1 hc with rfl | rfl <;> decide

theorem symbolic_point : Symbolic point := by
  intro c hc
  exact symbolic_punctuation (punctuation_of_point hc)

/-- An exponent letter is no digit. -/
theorem digit_of_exponent (hc : exponent.acceptsChar c) : digit.acceptsChar c = false := by
  rcases exponent_iff.1 hc with rfl | rfl <;> decide

end Formula.Alphabet
