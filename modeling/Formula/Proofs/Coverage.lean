import Formula.Proofs.Location
import Formula.Proofs.Spacing

/-!
# `Formula.Proofs.Coverage` — no part of a source is lost

The tokens of a source, with gaps of blanks around them, are the source again: nothing is left out,
repeated or moved. Where the run ends in an error, this holds up to the character that is rejected, and
the error says which character that is and where it stands.

## Contents
- **Coverage.** `toList_covers_source`.
-/

namespace Formula.Lexer

open Text

/-! ## Coverage -/

/-- The source is made of its tokens with gaps of spaces and tabs around them, up to its end or up to
    the character that is rejected. In the second case the error that is recorded, once the tokens were
    taken, names this character and the number of bytes before it. -/
theorem toList_covers_source (source : String) :
    ∃ (ts : List Token) (final : Token) (gaps : List (List Char)),
      (ofString source).toList = ts ++ [final] ∧
      (∀ t ∈ ts, t.kind.isTerminal = false ∧ t.text ≠ "") ∧ Gaps ts gaps ∧
      ((final = ⟨.endOfInput, ""⟩ ∧ source.toList = spaced gaps ts) ∨
        ∃ (x : Char) (rest : List Char) (e : LexError),
          final = ⟨.error, e.message⟩ ∧ source.toList = spaced gaps ts ++ x :: rest ∧
          (∀ k, ts.length < k → (after k (ofString source)).error = some e) ∧
          e.location.offset = byteLength (spaced gaps ts) ∧ e.found = some x) := by
  obtain ⟨gs, gap, rest, h⟩ := exists_lexes none source.toList
  have hlist := toList_ofString h
  have hsource : source.toList = spaced (gapsOf gs gap) (gs.map Segment.token) ++ rest := by
    rw [spaced_segments, List.append_assoc, h.layout_eq]
  refine ⟨gs.map Segment.token, _, gapsOf gs gap, hlist, ?_, gaps_of_lexes h, ?_⟩
  · intro t ht
    obtain ⟨hterminal, hne, -⟩ := token_of_lexes h ht
    exact ⟨hterminal, hne⟩
  rw [← spaced_segments]
  cases rest with
  | nil =>
      left
      exact ⟨rfl, by rw [hsource, List.append_nil]⟩
  | cons x rest =>
      right
      refine ⟨x, rest, _, rfl, hsource, ?_, Source.locate_append_offset hsource, rfl⟩
      intro k hk
      rw [spaced_segments, error_ofString h, if_pos (by simpa using hk)]
      rfl

end Formula.Lexer
