import Mathlib.Data.List.Induction
import Formula.Proofs.Spacing

/-!
# `Formula.Proofs.Places` — where the tokens of a source stand

A token stands in its source after the tokens before it, with gaps around these. It is the lexeme of
all that follows from there on, read after a token of the kind of the one before it. So a law about one
token, or about neighbours, is a law about lexemes.

## Contents
- **Neighbours.** `kindBefore`, the kind of the token before a place.
- **Places.** `StartsAfter`; `ReadAt`, what a token says about the text from its start on;
  `FollowedBy`.
- **Runs.** `Lexes.split`, a run cut before one of its tokens; `exists_readAt`, every token of a source
  that ends no run; `ReadAt.unique`, `ReadAt.followedBy`.
-/

namespace Formula.Lexer

open Alphabet

variable {last : Option Token.Kind} {s gap rest : List Char} {g : Segment} {gs gs₁ gs₂ : List Segment}

/-! ## Neighbours -/

/-- The kind of the last of some tokens, or of none. -/
def kindBefore (ts : List Token) : Option Token.Kind := ts.getLast?.map Token.kind

/-- The kind that is remembered after some segments of a run. -/
def lastKind (last : Option Token.Kind) (gs : List Segment) : Option Token.Kind :=
  gs.foldl (fun _ g => some g.kind) last

theorem lastKind_none (gs : List Segment) : lastKind none gs = kindBefore (gs.map Segment.token) := by
  cases gs using List.reverseRecOn with
  | nil => rfl
  | append_singleton gs g => simp [lastKind, kindBefore, Segment.token]

/-! ## Places -/

/-- The source is made of the given tokens, with gaps before, between and after them, and of the text
    `rest` after them. -/
def StartsAfter (source : String) (before : List Token) (rest : List Char) : Prop :=
  ∃ gaps, Gaps before gaps ∧ source.toList = spaced gaps before ++ rest

/-- After the tokens `before`, the source goes on with the token, which is read there, and then with
    the text `s`. -/
structure ReadAt (source : String) (before : List Token) (t : Token) (s : List Char) : Prop where
  starts : StartsAfter source before (t.text.toList ++ s)
  text_ne : t.text.toList ≠ []
  lexeme_eq : lexeme (kindBefore before) (t.text.toList ++ s) = t.text.toList
  kind_eq : t.kind = (reader (kindBefore before) (t.text.toList ++ s)).kind
  before_tokens : ∀ u ∈ before, u.text ≠ "" ∧ NoBlank u.text.toList

/-- The text that stands directly after the token is `rest` and no other. -/
def FollowedBy (source : String) (before : List Token) (t : Token) (rest : List Char) : Prop :=
  ∀ r, StartsAfter source before (t.text.toList ++ r) ↔ r = rest

/-! ## Runs -/

/-- A run cut before one of its segments: the segment is read after the kind that is remembered. -/
theorem Lexes.split (h : Lexes last s (gs₁ ++ g :: gs₂) gap rest) :
    ∃ t, s = layout gs₁ ++ (g.gap ++ (g.text ++ t)) ∧ Blanks g.gap ∧ g.text ≠ [] ∧
      lexeme (lastKind last gs₁) (g.text ++ t) = g.text ∧
      g.kind = (reader (lastKind last gs₁) (g.text ++ t)).kind ∧
      Lexes (some g.kind) t gs₂ gap rest := by
  induction gs₁ generalizing last s with
  | nil =>
      cases h with
      | token hgap hne htext tail => exact ⟨_, rfl, hgap, hne, htext, rfl, tail⟩
  | cons g₁ gs₁ ih =>
      cases h with
      | token hgap hne htext tail =>
          obtain ⟨t, rfl, hcut⟩ := ih tail
          exact ⟨t, by simp [layout], hcut⟩

/-- The segments before a place are a run of their own, with the gap at its end. -/
theorem startsAfter_of_lexes {source : String} (h : Lexes none source.toList (gs₁ ++ g :: gs₂) gap rest)
    {t : List Char} (hs : source.toList = layout gs₁ ++ (g.gap ++ t)) :
    StartsAfter source (gs₁.map Segment.token) t := by
  have hgaps := gaps_of_lexes h
  refine ⟨gapsOf gs₁ g.gap, ⟨by simp [gapsOf], ?_⟩, ?_⟩
  · intro p hp
    apply hgaps.blank p
    simp only [gapsOf, List.mem_append, List.mem_map, List.mem_singleton] at hp
    rcases hp with ⟨g', hg', rfl⟩ | rfl
    · simp only [gapsOf, List.mem_append, List.mem_map]
      exact Or.inl ⟨g', Or.inl hg', rfl⟩
    · simp [gapsOf]
  · rw [spaced_segments, hs, List.append_assoc]

/-- A token that ends no run is the token of a segment, and the segments after it lead up to the last
    token. -/
theorem exists_segment {ts before after : List Token} {final t : Token} (hfinal : final.kind.isTerminal)
    (h : ts ++ [final] = before ++ t :: after) (ht : t.kind.isTerminal = false) :
    ∃ mid, ts = before ++ t :: mid ∧ after = mid ++ [final] := by
  -- the last of all tokens is the one that ends the run
  cases after using List.reverseRecOn with
  | nil =>
      have hlast := (List.append_inj' h rfl).2
      cases hlast
      rw [ht] at hfinal
      cases hfinal
  | append_singleton mid u =>
      have heq : ts ++ [final] = (before ++ t :: mid) ++ [u] := by simpa using h
      obtain ⟨rfl, hu⟩ := List.append_inj' heq rfl
      cases hu
      exact ⟨mid, rfl, rfl⟩

theorem isTerminal_lastToken (e : Option LexError) : (lastToken e).kind.isTerminal := by
  cases e <;> rfl

variable {source : String} {before after : List Token} {t : Token}

/-- Every token of a source that ends no run is read where it stands, and the run goes on after it. -/
theorem exists_readAt (h : (ofString source).toList = before ++ t :: after)
    (ht : t.kind.isTerminal = false) :
    ∃ s gs gap rest final, ReadAt source before t s ∧ Lexes (some t.kind) s gs gap rest ∧
      after = gs.map Segment.token ++ [final] ∧ final.kind.isTerminal := by
  obtain ⟨gs, gap, rest, hlexes⟩ := exists_lexes none source.toList
  have hfinal := isTerminal_lastToken (outcome source (Text.byteLength (layout gs ++ gap)) rest)
  rw [toList_ofString hlexes] at h
  -- the token is no last token, so the run has a segment for it
  obtain ⟨mid, hts, hafter⟩ := exists_segment hfinal h ht
  have htokens (u : Token) (hu : u ∈ before) : u.text ≠ "" ∧ NoBlank u.text.toList := by
    apply (token_of_lexes hlexes _).2
    rw [hts]
    exact List.mem_append_left _ hu
  obtain ⟨gs₁, gs', rfl, rfl, hgs'⟩ := List.map_eq_append_iff.1 hts
  obtain ⟨g, gs₂, rfl, rfl, rfl⟩ := List.map_eq_cons_iff.1 hgs'
  obtain ⟨s, hs, -, hne, htext, hkind, htail⟩ := hlexes.split
  have hstarts := startsAfter_of_lexes hlexes hs
  rw [lastKind_none] at htext hkind
  refine ⟨s, gs₂, gap, rest, _, ⟨?_, ?_, ?_, ?_, htokens⟩, htail, hafter, hfinal⟩
  all_goals simpa [Segment.token]

variable {r : List Char}

/-- No token starts with a blank. -/
theorem ReadAt.noBlank (h : ReadAt source before t s) : NoBlank (t.text.toList ++ s) := by
  have hne : lexeme (kindBefore before) (t.text.toList ++ s) ≠ [] := by
    rw [h.lexeme_eq]
    exact h.text_ne
  exact noBlank_of_lexeme hne

/-- There is no other place after the same tokens where the token could stand. -/
theorem ReadAt.unique (h : ReadAt source before t s) (hr : StartsAfter source before r)
    (ht : t.text.toList <+: r) : r = t.text.toList ++ s := by
  obtain ⟨gaps, hgaps, hsource⟩ := h.starts
  obtain ⟨gaps', hgaps', hsource'⟩ := hr
  obtain ⟨u, rfl⟩ := ht
  have hnoBlank : NoBlank (t.text.toList ++ u) := by
    intro x hx
    apply h.noBlank x
    rwa [List.head?_append_of_ne_nil _ h.text_ne] at hx ⊢
  rw [hsource] at hsource'
  exact ((spaced_append_inj h.before_tokens hgaps hgaps' h.noBlank hnoBlank hsource').2).symm

theorem ReadAt.followedBy (h : ReadAt source before t s) : FollowedBy source before t s := by
  intro r
  constructor
  · intro hr
    have heq := h.unique hr (List.prefix_append _ r)
    exact List.append_cancel_left heq
  · rintro rfl
    exact h.starts

end Formula.Lexer
