import Formula.Proofs.Loosening
import Formula.Proofs.Spacing

/-!
# `Formula.Proofs.Respacing` — the gaps between tokens do not matter

The tokens of a source can be written down again with other gaps. As long as tokens that were apart
stay apart, the same tokens are found: nothing in a text that was loosened is longer than the token that
was found before.

## Contents
- **Gaps.** `KeepsApart`; `loosens_layout`, the source and the text with other gaps.
- **Lexemes.** `reader_of_loosens`, `lexeme_of_loosens`.
- **Runs.** `lexes_of_keepsApart`, and `tokenize_respaced`.
-/

namespace Formula.Lexer

open Rule Piece Alphabet Grammar

variable {last : Option Token.Kind} {s s' gap g text rest : List Char} {gs : List Segment}
variable {gaps : List (List Char)}

/-! ## Gaps -/

/-- Tokens that the segments keep apart from what stands before them are kept apart by other gaps. -/
def KeepsApart : List Segment → List (List Char) → Prop
  | g :: gs, gap :: gaps => (gap = [] → g.gap = []) ∧ KeepsApart gs gaps
  | _, _ => True

theorem keepsApart_nil : KeepsApart gs [] := by
  cases gs with
  | nil => trivial
  | cons => trivial

theorem KeepsApart.tail (h : KeepsApart gs gaps) : KeepsApart gs.tail gaps.tail := by
  cases gs with
  | nil => trivial
  | cons g gs =>
      cases gaps with
      | nil => exact keepsApart_nil
      | cons p gaps => exact h.2

theorem keepsApart_of_getElem? (gap : List Char)
    (h : ∀ i, i < gs.length → gaps[i]? = some [] → (gapsOf gs gap)[i]? = some []) :
    KeepsApart gs gaps := by
  induction gs generalizing gaps with
  | nil => trivial
  | cons g gs ih =>
      cases gaps with
      | nil => trivial
      | cons p gaps =>
          refine ⟨?_, ih ?_⟩
          · rintro rfl
            simpa [gapsOf] using h 0 (Nat.succ_pos _) rfl
          · intro i hi hgap
            exact h (i + 1) (Nat.succ_lt_succ hi) hgap

/-- With other gaps, the text is looser. -/
theorem loosens_layout (h : Lexes last s gs gap rest)
    (hgaps : Gaps (gs.map Segment.token) gaps) (hapart : KeepsApart gs gaps) :
    Loosens (layout gs ++ gap) (spaced gaps (gs.map Segment.token) ++ gap) := by
  induction h generalizing gaps with
  | @stop _ gap _ _ _ _ =>
      obtain ⟨p, rfl, hp⟩ := hgaps.nil
      exact .widen_all hp (.refl gap)
  | token hgap _ _ _ ih =>
      obtain ⟨p, gaps, rfl, hp, hgaps⟩ := hgaps.cons
      have htail := ih hgaps hapart.2
      rw [List.map_cons, spaced, layout, List.flatMap_cons]
      simp only [List.append_assoc, Segment.token, String.toList_ofList]
      exact (Loosens.gap hgap hp hapart.1).append ((Loosens.refl _).append htail)

/-! ## Lexemes -/

/-- A number stays a number, and what starts no number still starts none. -/
theorem numeral_of_loosens (text : List Char) (h : Loosens s (s' ++ g)) (htext : numeral (text ++ s) = text) :
    numeral (text ++ s') = text :=
  finds_number.of_loosens tight_number trim_number htext h

theorem numeral_nil_of_loosens (text : List Char) (h : Loosens s (s' ++ g)) (hnil : numeral (text ++ s) = []) :
    numeral (text ++ s') = [] := by
  have hl : Loosens (text ++ s) ((text ++ s') ++ g) := by
    rw [List.append_assoc]
    exact (Loosens.refl text).append h
  exact numeral_of_loosens [] hl hnil

/-- The same state reads the token. -/
theorem reader_of_loosens (h : Loosens s (s' ++ g)) (hne : text ≠ [])
    (htext : lexeme last (text ++ s) = text) :
    reader last (text ++ s') = reader last (text ++ s) := by
  obtain ⟨x, p, rfl⟩ := List.exists_cons_of_ne_nil hne
  simp only [List.cons_append] at htext ⊢
  by_cases hn : newLine.acceptsChar x
  · rw [reader_of_newLine hn, reader_of_newLine hn]
  rw [Bool.not_eq_true] at hn
  -- the state depends on what follows only where a sign or point may start a number
  by_cases hst : stateFor x last = .number
  · by_cases hnil : numeral (x :: (p ++ s)) = []
    · have hnil' : numeral (x :: (p ++ s')) = [] :=
        numeral_nil_of_loosens (x :: p) h hnil
      simp [reader, hn, hst, hnil, hnil']
    · have hreader : reader last (x :: (p ++ s)) = .number := by
        rw [reader_of_stateFor hn fun hnum => hnil hnum.2, hst]
      rw [lexeme, hreader] at htext
      have hnumeral : numeral (x :: (p ++ s')) = x :: p :=
        numeral_of_loosens (x :: p) h htext
      rw [hreader, reader_of_stateFor hn fun hnum => ?_, hst]
      rw [hnumeral] at hnum
      cases hnum.2
  · rw [reader_of_stateFor hn fun hnum => hst hnum.1, reader_of_stateFor hn fun hnum => hst hnum.1]

/-- The same token is read. -/
theorem lexeme_of_loosens (h : Loosens s (s' ++ g)) (hne : text ≠ [])
    (htext : lexeme last (text ++ s) = text) : lexeme last (text ++ s') = text := by
  rw [lexeme, reader_of_loosens h hne htext]
  have hst := State.finds_piece (reader last (text ++ s))
  exact hst.of_loosens (State.tight_language _) (State.trim_language _) htext h

/-! ## Runs -/

/-- The text with other gaps falls apart into the same tokens. -/
theorem lexes_of_keepsApart (h : Lexes last s gs gap []) (hgaps : Gaps (gs.map Segment.token) gaps)
    (hapart : KeepsApart gs.tail gaps.tail) :
    ∃ gs' gap', Lexes last (spaced gaps (gs.map Segment.token)) gs' gap' [] ∧
      gs'.map Segment.token = gs.map Segment.token := by
  generalize hrest : [] = rest at h
  induction h generalizing gaps with
  | stop _ hnb hnil =>
      subst hrest
      obtain ⟨p, rfl, hp⟩ := hgaps.nil
      have hstop := Lexes.stop hp hnb hnil
      rw [List.append_nil] at hstop
      exact ⟨[], p, hstop, rfl⟩
  | @token last _ text s gap' rest gs hgap hne htext tail ih =>
      subst hrest
      obtain ⟨p, gaps, rfl, hp, hgaps⟩ := hgaps.cons
      -- what follows the token is looser than before, so the token is found again
      have hloose := loosens_layout tail hgaps hapart
      rw [show layout gs ++ gap' = s by simpa using tail.layout_eq] at hloose
      obtain ⟨gs', gap'', hlexes, htokens⟩ := ih hgaps hapart.tail rfl
      have hreader := reader_of_loosens hloose hne htext
      rw [← hreader] at hlexes
      have htoken := Lexes.token hp hne (lexeme_of_loosens hloose hne htext) hlexes
      rw [hreader] at htoken
      refine ⟨⟨p, (reader last (text ++ s)).kind, text⟩ :: gs', gap'', ?_, ?_⟩
      · simpa [spaced, Segment.token] using htoken
      · rw [List.map_cons, List.map_cons, htokens]
        rfl

/-- The tokens of a source are found again when other gaps are put around them, as long as no two
    tokens that stood apart are joined. -/
theorem tokenize_respaced (source : String) (out : List Token) (h : tokenize source = .ok out) :
    ∃ ts G, out = ts ++ [⟨.endOfInput, ""⟩] ∧ Gaps ts G ∧ source.toList = spaced G ts ∧
      (∀ G', Gaps ts G' → source.toList = spaced G' ts → G' = G) ∧
      ∀ gaps, Gaps ts gaps →
        (∀ i, 0 < i → i < ts.length → gaps[i]? = some [] → G[i]? = some []) →
        tokenize (String.ofList (spaced gaps ts)) = .ok out := by
  obtain ⟨gs, gap, rest, hlexes⟩ := exists_lexes none source.toList
  rw [tokenize_ofString hlexes] at h
  cases rest with
  | cons x rest => cases h
  | nil =>
      obtain rfl := Except.ok.inj h
      have hG := gaps_of_lexes hlexes
      have hsource : source.toList = spaced (gapsOf gs gap) (gs.map Segment.token) := by
        rw [spaced_segments, ← hlexes.layout_eq, List.append_nil]
      refine ⟨gs.map Segment.token, gapsOf gs gap, rfl, hG, hsource, ?_, ?_⟩
      · intro G' hG' hsource'
        refine gaps_unique (fun t ht => (token_of_lexes hlexes ht).2) hG' hG ?_
        rw [← hsource, hsource']
      · intro gaps hgaps hkeep
        have hapart : KeepsApart gs.tail gaps.tail := by
          cases gs with
          | nil => trivial
          | cons g gs =>
              obtain ⟨p, gaps, rfl, -, -⟩ := hgaps.cons
              apply keepsApart_of_getElem? gap
              intro i hi hgap
              exact hkeep (i + 1) (Nat.succ_pos i) (by simpa using hi) hgap
        obtain ⟨gs', gap', hlexes', htokens⟩ := lexes_of_keepsApart hlexes hgaps hapart
        have htoList : (String.ofList (spaced gaps (gs.map Segment.token))).toList =
            spaced gaps (gs.map Segment.token) := String.toList_ofList
        rw [← htoList] at hlexes'
        rw [tokenize_ofString hlexes', htokens]
        rfl

/-- A gap before the exponent belongs to the number; the gap after the operator is new. -/
theorem tokenize_respaced_exponent :
    tokenize "1 e5-x" = .ok
        [⟨.number, "1 e5"⟩, ⟨.operator, "-"⟩, ⟨.name, "x"⟩, ⟨.endOfInput, ""⟩] ∧
      tokenize "\t1 e5- x" = .ok
        [⟨.number, "1 e5"⟩, ⟨.operator, "-"⟩, ⟨.name, "x"⟩, ⟨.endOfInput, ""⟩] := by
  have hname : Lexes (some .operator) ['x'] [⟨[], .name, ['x']⟩] [] [] := by
    have hstop : Lexes (some .name) ([] ++ []) [] [] [] := .stop nofun nofun rfl
    refine Lexes.token_of_reader [] ['x'] [] .name nofun nofun ?_ ?_ hstop
    all_goals decide +kernel
  have hsign : Lexes (some .number) ['-', 'x']
      [⟨[], .operator, ['-']⟩, ⟨[], .name, ['x']⟩] [] [] := by
    refine Lexes.token_of_reader [] ['-'] ['x'] .operator nofun nofun ?_ ?_ hname
    all_goals decide +kernel
  have hsource : Lexes none "1 e5-x".toList
      [⟨[], .number, ['1', ' ', 'e', '5']⟩, ⟨[], .operator, ['-']⟩, ⟨[], .name, ['x']⟩] [] [] := by
    refine Lexes.token_of_reader [] ['1', ' ', 'e', '5'] ['-', 'x'] .number nofun nofun ?_ ?_ hsign
    all_goals decide +kernel
  have h := tokenize_ofString hsource
  obtain ⟨ts, G, hout, hG, -, hunique, hall⟩ := tokenize_respaced "1 e5-x" _ h
  obtain rfl := List.append_cancel_right hout
  have hgaps : G = [[], [], [], []] :=
    (hunique [[], [], [], []] ⟨rfl, by simp⟩ (by decide)).symm
  refine ⟨h, hall [['\t'], [], [' '], []] ⟨rfl, by simp⟩ ?_⟩
  intro i _ hi hgap
  rw [hgaps]
  match i, hi with
  | 0, _ => rfl
  | 1, _ => rfl
  | 2, _ => cases hgap

end Formula.Lexer
