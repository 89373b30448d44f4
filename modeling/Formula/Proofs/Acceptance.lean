import Mathlib.Order.Bounds.Basic
import Formula.Proofs.Location
import Formula.Proofs.Pairing
import Formula.Proofs.Runs

/-!
# `Formula.Proofs.Acceptance` — which sources can be read

A source can be read to its end exactly when each of its characters has a place in the notation and
its ampersands stand in even runs. What was read before the first failure is a text of this form; so
the failure is at the first character without a place, or at the end of the first odd run, whichever
comes first.

## Contents
- **Characters.** `Admissible`, with `admissible_of_accepts` for the characters of tokens.
- **What was read.** `admissible_of_lexes`, `paired_of_lexes`, and `of_lexes_cons` for the first
  character of the rest.
- **Failures.** `foreignOffsets`, `oddRunOffsets`; `isLeast_of_lexes`.
- **Acceptance.** `Readable`, `tokenize_accepts_iff_readable`.
-/

namespace Formula.Lexer

open Rule Piece Alphabet Text

variable {last : Option Token.Kind} {s gap rest : List Char} {gs : List Segment} {x : Char}

/-! ## Characters -/

/-- The character has a place in some token, or between tokens. -/
def Admissible (x : Char) : Prop :=
  isNumeric x ∨ isAlphabetic x ∨
    x ∈ ['_', ' ', '\t', '\r', '\n', '(', ')', '\x7b', '\x7d', ',', '.', '[', ']'] ∨
    ∃ p, operator.acceptsText p ∧ p.head? = some x

theorem admissible_of_symbol
    (h : x ∈ ['_', ' ', '\t', '\r', '\n', '(', ')', '\x7b', '\x7d', ',', '.', '[', ']']) :
    Admissible x :=
  Or.inr (Or.inr (Or.inl h))

/-- Each symbol is in one of these classes. -/
theorem symbols_checked :
    ['_', ' ', '\t', '\r', '\n', '(', ')', '\x7b', '\x7d', ',', '.', '[', ']'].all (fun x =>
      underscore.acceptsChar x || blank.acceptsChar x || newLine.acceptsChar x ||
        punctuation.acceptsChar x) = true := by
  decide

theorem admissible_of_operator (h : operator.acceptsChar x) : Admissible x :=
  Or.inr (Or.inr (Or.inr (operator_iff.1 h)))

theorem admissible_of_blank (h : blank.acceptsChar x) : Admissible x := by
  apply admissible_of_symbol
  rcases blank_iff.1 h with rfl | rfl <;> decide

theorem admissible_of_newLine (h : newLine.acceptsChar x) : Admissible x := by
  apply admissible_of_symbol
  rcases newLine_iff.1 h with rfl | rfl <;> decide

theorem admissible_of_punctuation (h : punctuation.acceptsChar x) : Admissible x := by
  have hx := punctuation_iff.1 h
  apply admissible_of_symbol
  simp only [List.mem_cons, List.not_mem_nil, or_false] at hx ⊢
  tauto

theorem admissible_of_underscore (h : underscore.acceptsChar x) : Admissible x := by
  apply admissible_of_symbol
  rw [underscore_iff.1 h]
  decide

theorem admissible_of_sign (h : sign.acceptsChar x) : Admissible x :=
  admissible_of_operator (operator_of_mem (acceptsText_of_sign h) List.mem_cons_self)

theorem admissible_of_exponent (h : exponent.acceptsChar x) : Admissible x := by
  refine Or.inr (Or.inl ?_)
  rcases exponent_iff.1 h with rfl | rfl <;> decide

/-- The characters of every token are admissible. -/
theorem admissible_of_accepts {st : State} (h : anyAcceptsChar st.rules x) : Admissible x := by
  obtain ⟨r, hr, hx⟩ := List.any_eq_true.1 h
  cases st with
  | dispatch =>
      rw [List.mem_singleton.1 hr] at hx
      exact admissible_of_newLine hx
  | number =>
      simp only [State.rules, numericRules, List.mem_cons, List.not_mem_nil, or_false] at hr
      rcases hr with rfl | rfl | rfl | rfl | rfl
      · exact admissible_of_sign hx
      · exact admissible_of_blank hx
      · exact Or.inl hx
      · exact admissible_of_punctuation (punctuation_of_point hx)
      · exact admissible_of_exponent hx
  | operator =>
      rw [List.mem_singleton.1 hr] at hx
      exact admissible_of_operator hx
  | punctuation =>
      rw [List.mem_singleton.1 hr] at hx
      exact admissible_of_punctuation hx
  | name =>
      simp only [State.rules, List.mem_cons, List.not_mem_nil, or_false] at hr
      rcases hr with rfl | rfl | rfl
      · exact admissible_of_underscore hx
      · exact Or.inr (Or.inl hx)
      · exact Or.inl hx

/-- The ampersands of a token stand two by two. -/
theorem paired_piece (st : State) (s : List Char) : Paired (st.piece s) := by
  by_cases hst : st = .operator
  · subst hst
    by_cases hnil : Piece.operator s = []
    · rw [State.piece, hnil]
      exact .nil
    · exact .of_operator (acceptsText_operator hnil)
  · apply Paired.of_not_mem
    intro hmem
    have hacc := State.accepts_of_mem_piece hmem
    cases st with
    | operator => exact hst rfl
    | _ => exact absurd hacc (by decide)

/-! ## What was read -/

theorem admissible_of_lexes (h : Lexes last s gs gap rest) :
    ∀ x ∈ layout gs ++ gap, Admissible x := by
  induction h with
  | stop hgap _ _ =>
      intro x hx
      exact admissible_of_blank (hgap x hx)
  | token hgap _ htext _ ih =>
      intro x hx
      simp only [layout, List.flatMap_cons, List.append_assoc, List.mem_append] at hx ih
      rcases hx with hx | hx | hx
      · exact admissible_of_blank (hgap x hx)
      · rw [← htext] at hx
        exact admissible_of_accepts (State.accepts_of_mem_piece hx)
      · exact ih x hx

theorem paired_of_blanks (h : Blanks gap) : Paired gap := by
  apply Paired.of_not_mem
  intro hmem
  exact absurd (h _ hmem) (by decide)

theorem paired_of_lexes (h : Lexes last s gs gap rest) : Paired (layout gs ++ gap) := by
  induction h with
  | stop hgap _ _ => exact paired_of_blanks hgap
  | @token last _ text s _ _ _ hgap _ htext _ ih =>
      have htoken : Paired text := htext ▸ paired_piece (reader last (text ++ s)) (text ++ s)
      simp only [layout, List.flatMap_cons, List.append_assoc]
      exact (paired_of_blanks hgap).append (htoken.append ih)

/-- A character that starts no lexeme and is no blank is foreign, or an ampersand that stands
    alone. -/
theorem of_lexeme_nil_of_not_blank (h : lexeme last (x :: s) = [])
    (hb : blank.acceptsChar x = false) : ¬ Admissible x ∨ x = '&' ∧ s.head? ≠ some '&' := by
  rw [or_iff_not_imp_left, not_not]
  intro hadm
  obtain ⟨hn, hst, hnil⟩ := of_lexeme_nil h
  obtain ⟨hd, hl, hu, hp⟩ := of_stateFor_operator hst
  have hop : operator.acceptsChar x := by
    rcases hadm with hx | hx | hx | hx
    · exact absurd hx (Bool.eq_false_iff.1 hd)
    · exact absurd hx (Bool.eq_false_iff.1 hl)
    · have hsymbol := List.all_eq_true.1 symbols_checked x hx
      simp [hb, hn, hu, hp] at hsymbol
    · exact operator_iff.2 hx
  -- every other character that starts an operator is one by itself
  have hamp : x = '&' := by
    by_contra hne
    exact operator_ne_nil_of_accepts (acceptsText_of_operator hop hne) hnil
  refine ⟨hamp, ?_⟩
  intro hhead
  obtain ⟨t, rfl⟩ := List.head?_eq_some_iff.1 hhead
  have hlen := length_le_operator (q := ['&', '&']) (s := x :: '&' :: t) (by decide)
    ⟨t, by rw [hamp]; rfl⟩
  rw [hnil] at hlen
  cases hlen

theorem of_lexes_cons (h : Lexes last s gs gap rest) :
    ∀ x t, rest = x :: t → ¬ Admissible x ∨ x = '&' ∧ t.head? ≠ some '&' := by
  induction h with
  | stop _ hrest hnil =>
      rintro x t rfl
      exact of_lexeme_nil_of_not_blank hnil (hrest x rfl)
  | token _ _ _ _ ih => exact ih

/-! ## Failures -/

/-- Where the characters stand that have no place in the notation. -/
def foreignOffsets (s : List Char) : Set Nat :=
  {o | ∃ u x v, s = u ++ x :: v ∧ ¬ Admissible x ∧ o = byteLength u}

/-- Where the last ampersands of the odd runs stand. -/
def oddRunOffsets (s : List Char) : Set Nat :=
  {o | ∃ u n v, AmpersandRun s u n v ∧ ¬ Even n ∧ o = byteLength (u ++ List.replicate (n - 1) '&')}

/-- What is least in two sets together is the smaller of the two least members. -/
theorem isLeast_of_union {a b : Set Nat} {o : Nat} (h : IsLeast (a ∪ b) o) :
    IsLeast {m | IsLeast a m ∨ IsLeast b m} o := by
  obtain ⟨hmem, hlow⟩ := h
  constructor
  · rcases hmem with hmem | hmem
    · left
      refine ⟨hmem, ?_⟩
      intro m hm
      exact hlow (Or.inl hm)
    · right
      refine ⟨hmem, ?_⟩
      intro m hm
      exact hlow (Or.inr hm)
  · rintro m (hm | hm)
    · exact hlow (Or.inl hm.1)
    · exact hlow (Or.inr hm.1)

/-- A foreign character does not stand in a part of the text that has none. -/
theorem le_of_foreign {p t : List Char} (hp : ∀ x ∈ p, Admissible x) {o : Nat}
    (ho : o ∈ foreignOffsets (p ++ t)) : byteLength p ≤ o := by
  obtain ⟨u, x, v, heq, hx, rfl⟩ := ho
  rcases List.append_eq_append_iff.1 heq with ⟨w, rfl, -⟩ | ⟨w, rfl, hw⟩
  · rw [byteLength_append]
    exact Nat.le_add_right ..
  · cases w with
    | nil => simp
    | cons y w =>
        rw [List.cons_append, List.cons.injEq] at hw
        rw [hw.1] at hx
        exact absurd (hp y (by simp)) hx

/-- Where a run stops is the first failure of the text. -/
theorem isLeast_of_lexes {t : List Char} (h : Lexes last s gs gap (x :: t)) :
    IsLeast (foreignOffsets s ∪ oddRunOffsets s) (byteLength (layout gs ++ gap)) := by
  have hs : s = (layout gs ++ gap) ++ x :: t := by rw [List.append_assoc, h.layout_eq]
  have hpaired := paired_of_lexes h
  rw [hs]
  constructor
  -- the run stops at a failure, and there is none in what was read
  · rcases of_lexes_cons h x t rfl with hx | ⟨rfl, ht⟩
    · exact Or.inl ⟨_, x, t, rfl, hx, rfl⟩
    · obtain ⟨u, n, hrun, hodd, heq⟩ := hpaired.exists_odd_run ht
      exact Or.inr ⟨u, n, t, hrun, hodd, by rw [heq]⟩
  · rintro o (ho | ⟨u, n, v, hrun, hodd, rfl⟩)
    · exact le_of_foreign (admissible_of_lexes h) ho
    · exact hpaired.le_of_odd_run hrun hodd

/-! ## Acceptance -/

/-- All characters have a place in the notation, and all runs of ampersands are even. -/
def Readable (s : List Char) : Prop :=
  (∀ x ∈ s, Admissible x) ∧ ∀ u n v, AmpersandRun s u n v → Even n

theorem not_readable_of_failure {o : Nat} (h : o ∈ foreignOffsets s ∪ oddRunOffsets s) :
    ¬ Readable s := by
  rintro ⟨hadm, heven⟩
  rcases h with ⟨u, x, v, rfl, hx, -⟩ | ⟨u, n, v, hrun, hodd, -⟩
  · exact hx (hadm x (by simp))
  · exact hodd (heven u n v hrun)

/-- A source has its tokens exactly when it is readable. Otherwise the error is that an operator was
    expected at the first foreign character or at the last ampersand of the first odd run, whichever
    comes first. No other error is ever recorded. -/
theorem tokenize_accepts_iff_readable (source : String) :
    ((∃ ts, tokenize source = .ok ts) ↔ Readable source.toList) ∧
      (¬ Readable source.toList →
        ∃ e, tokenize source = .error e ∧ e.category = "operator" ∧
          IsLeast {o | IsLeast (foreignOffsets source.toList) o ∨
            IsLeast (oddRunOffsets source.toList) o} e.location.offset ∧
          ∃ u x v, source.toList = u ++ x :: v ∧ e.location.offset = byteLength u ∧
            e.found = some x) ∧
      ∀ k, ∀ e ∈ (after k (ofString source)).error, e.category = "operator" ∧ e.found.isSome := by
  obtain ⟨gs, gap, rest, h⟩ := exists_lexes none source.toList
  have hsource : source.toList = (layout gs ++ gap) ++ rest := by
    rw [List.append_assoc, h.layout_eq]
  have htokenize := tokenize_ofString h
  cases rest with
  | nil =>
      rw [List.append_nil] at hsource
      have hread : Readable source.toList := by
        rw [hsource]
        exact ⟨admissible_of_lexes h, fun u n v hrun => (paired_of_lexes h).even_of_run hrun⟩
      refine ⟨⟨fun _ => hread, fun _ => ⟨_, htokenize⟩⟩, fun hnot => absurd hread hnot, ?_⟩
      intro k e he
      rw [error_ofString h] at he
      split at he <;> cases he
  | cons x t =>
      have hleast := isLeast_of_lexes h
      have hnot := not_readable_of_failure hleast.1
      have hoffset : (LexError.expected "operator" (some x) source
          (byteLength (layout gs ++ gap))).location.offset = byteLength (layout gs ++ gap) :=
        Source.locate_append_offset hsource
      refine ⟨⟨?_, fun hread => absurd hread hnot⟩, ?_, ?_⟩
      · rintro ⟨ts, hts⟩
        rw [htokenize] at hts
        cases hts
      · intro _
        refine ⟨_, htokenize, rfl, ?_, _, x, t, hsource, hoffset, rfl⟩
        rw [hoffset]
        exact isLeast_of_union hleast
      · intro k e he
        rw [error_ofString h] at he
        split at he
        · cases he
          exact ⟨rfl, rfl⟩
        · cases he

end Formula.Lexer
