import Formula.Proofs.Runs

/-!
# `Formula.Proofs.Spacing` — tokens with gaps around them

A source can be written by spacing out its tokens: a gap, a token, a gap, and so on up to a last gap.

## Contents
- **Spacing.** `spaced`, and `Gaps`: gaps of spaces and tabs, one more than there are tokens;
  `spaced_append_inj`, `gaps_unique`.
- **Segments.** `spaced_segments`, `gaps_of_lexes`: the gaps of a run; `token_of_lexes`: its tokens.
-/

namespace Formula.Lexer

open Alphabet

variable {last : Option Token.Kind} {s gap rest : List Char} {gs : List Segment}

/-! ## Spacing -/

/-- The texts of tokens, each after its gap, and the last gap. -/
def spaced : List (List Char) → List Token → List Char
  | [], _ => []
  | gap :: _, [] => gap
  | gap :: gaps, t :: ts => gap ++ (t.text.toList ++ spaced gaps ts)

/-- The gaps are made of spaces and tabs, and there is one before, between and after the tokens. -/
structure Gaps (ts : List Token) (gaps : List (List Char)) : Prop where
  length_eq : gaps.length = ts.length + 1
  blank : ∀ gap ∈ gaps, ∀ x ∈ gap, x = ' ' ∨ x = '\t'

variable {t : Token} {ts : List Token} {gaps gaps' : List (List Char)}

theorem Gaps.nil (h : Gaps [] gaps) : ∃ gap, gaps = [gap] ∧ Blanks gap := by
  obtain ⟨gap, rfl⟩ := List.length_eq_one_iff.1 h.length_eq
  refine ⟨gap, rfl, ?_⟩
  intro x hx
  exact blank_iff.2 (h.blank gap (List.mem_singleton_self gap) x hx)

theorem Gaps.cons (h : Gaps (t :: ts) gaps) :
    ∃ gap gaps', gaps = gap :: gaps' ∧ Blanks gap ∧ Gaps ts gaps' := by
  obtain ⟨gap, gaps', rfl⟩ := List.exists_cons_of_length_eq_add_one h.length_eq
  refine ⟨gap, gaps', rfl, ?_, ?_, ?_⟩
  · intro x hx
    exact blank_iff.2 (h.blank gap List.mem_cons_self x hx)
  · exact Nat.succ.inj h.length_eq
  · intro g hg
    exact h.blank g (List.mem_cons_of_mem gap hg)

/-- Where no token starts with a blank, and what follows the last gap does not either, a text is spaced
    out in one way only. -/
theorem spaced_append_inj {rest' : List Char}
    (hts : ∀ t ∈ ts, t.text ≠ "" ∧ NoBlank t.text.toList) (h : Gaps ts gaps) (h' : Gaps ts gaps')
    (hr : NoBlank rest) (hr' : NoBlank rest')
    (heq : spaced gaps ts ++ rest = spaced gaps' ts ++ rest') : gaps = gaps' ∧ rest = rest' := by
  -- the first gap is all the blanks at the front
  have hfirst {gap gap' u u' : List Char} (hgap : Blanks gap) (hgap' : Blanks gap') (hu : NoBlank u)
      (hu' : NoBlank u') (heq : gap ++ u = gap' ++ u') : gap = gap' ∧ u = u' := by
    have hcut := congrArg (Piece.stretch [blank]) heq
    rw [stretch_blank_append hgap hu, stretch_blank_append hgap' hu'] at hcut
    subst hcut
    exact ⟨rfl, List.append_cancel_left heq⟩
  induction ts generalizing gaps gaps' with
  | nil =>
      obtain ⟨gap, rfl, hgap⟩ := h.nil
      obtain ⟨gap', rfl, hgap'⟩ := h'.nil
      obtain ⟨rfl, hrest⟩ := hfirst hgap hgap' hr hr' heq
      exact ⟨rfl, hrest⟩
  | cons t ts ih =>
      obtain ⟨gap, gaps, rfl, hgap, hgaps⟩ := h.cons
      obtain ⟨gap', gaps', rfl, hgap', hgaps'⟩ := h'.cons
      obtain ⟨hne, hnb⟩ := hts t List.mem_cons_self
      have hnext (r : List Char) : NoBlank (t.text.toList ++ r) := by
        intro x hx
        apply hnb x
        rwa [List.head?_append_of_ne_nil _ (by simpa using hne)] at hx
      simp only [spaced, List.append_assoc] at heq
      obtain ⟨rfl, htail⟩ := hfirst hgap hgap' (hnext _) (hnext _) heq
      have hspaced := List.append_cancel_left htail
      obtain ⟨rfl, hrest⟩ := ih (fun u hu => hts u (List.mem_cons_of_mem t hu)) hgaps hgaps' hspaced
      exact ⟨rfl, hrest⟩

/-- No more than one choice of gaps gives the same text, when no token starts with a blank. -/
theorem gaps_unique (hts : ∀ t ∈ ts, t.text ≠ "" ∧ NoBlank t.text.toList) (h : Gaps ts gaps)
    (h' : Gaps ts gaps') (heq : spaced gaps ts = spaced gaps' ts) : gaps = gaps' := by
  have hnil : NoBlank [] := nofun
  apply (spaced_append_inj hts h h' hnil hnil ?_).1
  rw [heq]

/-! ## Segments -/

/-- The gaps of a run. -/
def gapsOf (gs : List Segment) (gap : List Char) : List (List Char) :=
  gs.map Segment.gap ++ [gap]

theorem spaced_segments (gs : List Segment) (gap : List Char) :
    spaced (gapsOf gs gap) (gs.map Segment.token) = layout gs ++ gap := by
  induction gs with
  | nil => rfl
  | cons g gs ih =>
      show g.gap ++ (g.token.text.toList ++ spaced (gapsOf gs gap) (gs.map Segment.token)) = _
      rw [ih]
      simp [Segment.token, layout]

theorem gaps_of_lexes (h : Lexes last s gs gap rest) :
    Gaps (gs.map Segment.token) (gapsOf gs gap) := by
  refine ⟨by simp [gapsOf], ?_⟩
  induction h with
  | stop hgap _ _ =>
      intro g hg x hx
      rw [List.mem_singleton.1 hg] at hx
      exact blank_iff.1 (hgap x hx)
  | token hgap _ _ _ ih =>
      intro g hg x hx
      rcases List.mem_cons.1 hg with rfl | hg
      · exact blank_iff.1 (hgap x hx)
      · exact ih g hg x hx

/-- The tokens of a run, up to the last, are not empty, start with no blank, and end no run. -/
theorem token_of_lexes (h : Lexes last s gs gap rest) {t : Token}
    (ht : t ∈ gs.map Segment.token) :
    t.kind.isTerminal = false ∧ t.text ≠ "" ∧ NoBlank t.text.toList := by
  induction h with
  | stop => cases ht
  | @token last _ text s _ _ _ _ hne htext _ ih =>
      rcases List.mem_cons.1 ht with rfl | ht
      · have hlexeme : lexeme last (text ++ s) ≠ [] := by rwa [htext]
        have hnb := noBlank_of_lexeme hlexeme
        refine ⟨State.isTerminal_kind _, by simpa [Segment.token] using hne, ?_⟩
        intro x hx
        apply hnb x
        rw [List.head?_append_of_ne_nil _ hne]
        simpa [Segment.token] using hx
      · exact ih ht

end Formula.Lexer
