import Formula.Proofs.Rewinding
import Formula.Proofs.Searching

/-!
# `Formula.Proofs.Greedy` — greedy reading takes all there is, and ends

A greedy reading is a loop: the same reading is tried again as long as it succeeds. Read by characters, it
takes all characters up to the first that no rule accepts, and the attempt that ends it has to undo itself.
Where requests that were not undone lie at the end of the text, it does; anywhere else it would take back
such a request instead, and leave the character read. Read by texts, it takes one longest match after the
other, until there is none. A match is never empty, whatever the rules are like, so this ends too.

## Contents
- **Loops.** `Repeats`, with `Repeats.loop_eq`; the greedy readings are loops, `acceptMany_of_repeats` and
  `acceptTexts_of_repeats`.
- **Characters.** `repeats_accept`, with `prefix_stretch_of_accepts`.
- **Texts.** `Dissects`, with `exists_repeats_acceptText`.
- **Main result.** `greedy_reading_takes_all`.
-/

namespace Formula.Cursor

open Rule Piece Text

variable {c d : Cursor} {rules : List Rule} {s p q : List Char} {x : Char} {n : Nat}

/-! ## Loops -/

/-- A reading that is tried as long as it succeeds does so a number of times, and then fails and leaves a
    cursor behind. -/
inductive Repeats (read : Cursor → Bool × Cursor) : Nat → Cursor → Cursor → Prop where
  | fails {c d : Cursor} (h : read c = (false, d)) : Repeats read 0 c d
  | reads {n : Nat} {c c' d : Cursor} (h : read c = (true, c')) (hrest : Repeats read n c' d) :
      Repeats read (n + 1) c d

/-- A loop over a reading tells whether it succeeded at all, and leaves the cursor where it failed. -/
theorem Repeats.loop_eq {read loop : Cursor → Bool × Cursor}
    (hfails : ∀ c d, read c = (false, d) → loop c = (false, d))
    (hreads : ∀ c c', read c = (true, c') → loop c = (true, (loop c').2)) (h : Repeats read n c d) :
    loop c = (decide (n ≠ 0), d) := by
  induction h with
  | fails hread => exact hfails _ _ hread
  | reads hread _ ih =>
      rw [hreads _ _ hread, ih]
      rfl

theorem acceptMany_of_repeats (h : Repeats (accept rules) n c d) :
    c.acceptMany rules = (decide (n ≠ 0), d) := by
  refine h.loop_eq ?_ ?_
  · intro c d hread
    rw [acceptMany, hread]
  · intro c c' hread
    rw [acceptMany, hread]

theorem acceptTexts_of_repeats (h : Repeats (acceptText rules) n c d) :
    c.acceptTexts rules = (decide (n ≠ 0), d) := by
  refine h.loop_eq ?_ ?_
  · intro c d hread
    rw [acceptTexts, hread]
  · intro c c' hread
    rw [acceptTexts, hread]

/-! ## Characters -/

theorem accept_of_accepts (ha : c.ahead = x :: s) (hx : anyAcceptsChar rules x) :
    c.accept rules = (true, c.past [x]) := by
  simp [accept, next_of_cons ha, hx]

/-- An attempt that fails makes a request and undoes it. -/
theorem accept_of_not (h : ∀ x ∈ c.ahead.head?, ¬ anyAcceptsChar rules x) :
    c.accept rules = (false, c.next.2.back) := by
  cases ha : c.ahead with
  | nil => simp [accept, next, ha]
  | cons x s =>
      have hx : ¬ anyAcceptsChar rules x := h x (by simp [ha])
      simp [accept, next_of_cons ha, hx]

/-- Characters are read up to the first that no rule accepts, wherever there are requests to be undone. -/
theorem repeats_accept (rules : List Rule) (c : Cursor) :
    Repeats (accept rules) (stretch rules c.ahead).length c
      (c.past (stretch rules c.ahead)).next.2.back := by
  generalize hs : c.ahead = s
  induction s generalizing c with
  | nil =>
      refine .fails (accept_of_not ?_)
      simp [hs]
  | cons x s ih =>
      by_cases hx : anyAcceptsChar rules x
      · rw [stretch_cons_of_accepts hx]
        have hrest := ih (c.past [x]) (by simp [hs])
        rw [past_past] at hrest
        exact .reads (accept_of_accepts hs hx) hrest
      · rw [stretch_cons_of_not hx]
        refine .fails (accept_of_not ?_)
        simpa [hs] using hx

/-- No beginning of accepted characters goes on after the stretch. -/
theorem prefix_stretch_of_accepts (hq : q <+: s) (h : ∀ x ∈ q, anyAcceptsChar rules x) :
    q <+: stretch rules s := by
  obtain ⟨t, rfl⟩ := hq
  rw [stretch, List.takeWhile_append_of_pos h]
  exact List.prefix_append q _

/-! ## Texts -/

/-- The pieces stand in a text one after the other from an offset on. Each is the longest match at its own
    offset, and behind them there is no match. -/
structure Dissects (rules : List Rule) (text : List Char) (offset : Nat) (pieces : List (List Char)) :
    Prop where
  ne_nil : ∀ p ∈ pieces, p ≠ []
  longest : ∀ before p after, pieces = before ++ p :: after →
    LongestAt rules text (offset + byteLength before.flatten) (byteLength p)
  ends : LongestAt rules text (offset + byteLength pieces.flatten) 0

theorem Dissects.cons {text : List Char} {offset : Nat} {pieces : List (List Char)} (hne : p ≠ [])
    (hp : LongestAt rules text offset (byteLength p))
    (h : Dissects rules text (offset + byteLength p) pieces) :
    Dissects rules text offset (p :: pieces) := by
  refine ⟨?_, ?_, ?_⟩
  · rintro q hq
    rcases List.mem_cons.1 hq with rfl | hq
    · exact hne
    · exact h.ne_nil q hq
  · intro before q after hsplit
    cases before with
    | nil =>
        obtain ⟨rfl, -⟩ := List.cons.inj hsplit
        exact hp
    | cons b before =>
        obtain ⟨rfl, hrest⟩ := List.cons.inj hsplit
        have hq := h.longest before q after hrest
        rwa [List.flatten_cons, byteLength_append, ← Nat.add_assoc]
  · rw [List.flatten_cons, byteLength_append, ← Nat.add_assoc]
    exact h.ends

/-- Pieces that are longest matches have bytes, unless there are none of them. -/
theorem Dissects.byteLength_flatten_eq_zero_iff {text : List Char} {offset : Nat}
    {pieces : List (List Char)} (h : Dissects rules text offset pieces) :
    byteLength pieces.flatten = 0 ↔ pieces = [] := by
  rw [byteLength_eq_zero_iff, List.flatten_eq_nil_iff]
  constructor
  · intro hall
    rw [List.eq_nil_iff_forall_not_mem]
    intro p hp
    exact h.ne_nil p hp (hall p hp)
  · rintro rfl p hp
    cases hp

/-- What is read as one text is the longest match at the offset of the cursor. -/
theorem longestAt_offset (rules : List Rule) (c : Cursor) :
    LongestAt rules c.text c.offset (longestBytes rules c.ahead) := by
  have h := longestAt_longestBytes rules c.behind.reverse c.ahead
  rwa [byteLength_reverse] at h

/-- Texts are read one longest match after the other, until there is none. -/
theorem exists_repeats_acceptText (rules : List Rule) (c : Cursor) :
    ∃ pieces : List (List Char), Repeats (acceptText rules) pieces.length c (c.past pieces.flatten) ∧
      pieces.flatten <+: c.ahead ∧ Dissects rules c.text c.offset pieces := by
  fun_induction acceptTexts rules c with
  | case1 c c' hc ih =>
      obtain ⟨pieces, hrepeats, hprefix, hdissects⟩ := ih
      have hlongest := longestAt_offset rules c
      have hread := hc
      rw [acceptText_eq] at hc
      obtain ⟨hsome, rfl⟩ := Prod.mk.inj hc
      obtain ⟨p, hp⟩ := Option.isSome_iff_exists.1 hsome
      obtain ⟨-, hne, hahead, -⟩ := longest?_eq_some hp
      rw [longestBytes, hp] at hlongest
      rw [hp, Option.getD_some] at hread hrepeats hprefix hdissects
      rw [past_text hahead, past_offset] at hdissects
      rw [past_past] at hrepeats
      exact ⟨p :: pieces, .reads hread hrepeats, prefix_append hahead hprefix, hdissects.cons hne hlongest⟩
  | case2 c c' hc =>
      have hlongest := longestAt_offset rules c
      have hread := hc
      rw [acceptText_eq] at hc
      obtain ⟨hnone, rfl⟩ := Prod.mk.inj hc
      rw [Option.isSome_eq_false_iff, Option.isNone_iff_eq_none] at hnone
      rw [longestBytes, hnone] at hlongest
      rw [hnone] at hread
      refine ⟨[], .fails hread, List.nil_prefix, ?_, ?_, hlongest⟩
      · intro p hp
        cases hp
      · simp

/-! ## Main result -/

/-- Whatever the cursor and the rules are like. Read by characters, a greedy reading ends after as many
    attempts as there are characters in the longest beginning of what is ahead that the rules accept
    throughout, and one that fails; it succeeds exactly if this beginning is not empty. Where requests that
    were not undone lie at the end of the text, the cursor has moved over just this beginning, and nothing
    else has changed; in any case the failed attempt is undone by one step back, and the token's start stays
    where it was. Read by texts, it ends after one longest match after the other, where there is no match
    any more. The cursor has moved over just these, and nothing else has changed; it succeeds exactly if
    the cursor has moved. -/
theorem greedy_reading_takes_all (c : Cursor) (rules : List Rule) :
    (∃ p, p <+: c.ahead ∧ (∀ x ∈ p, anyAcceptsChar rules x) ∧
        (∀ q, q <+: c.ahead → (∀ x ∈ q, anyAcceptsChar rules x) → q <+: p) ∧
        Repeats (accept rules) p.length c (c.acceptMany rules).2 ∧
        c.acceptMany rules = (decide (p ≠ []), (c.past p).next.2.back) ∧
        (c.acceptMany rules).2.start = c.start ∧
        (c.Settled → c.acceptMany rules = (decide (p ≠ []), c.past p))) ∧
      ∃ pieces : List (List Char), pieces.flatten <+: c.ahead ∧ Dissects rules c.text c.offset pieces ∧
        Repeats (acceptText rules) pieces.length c (c.acceptTexts rules).2 ∧
        (c.acceptTexts rules).2 = c.past pieces.flatten ∧
        ((c.acceptTexts rules).1 = true ↔ (c.acceptTexts rules).2.offset ≠ c.offset) := by
  constructor
  · have hrepeats := repeats_accept rules c
    have hmany := acceptMany_of_repeats hrepeats
    simp only [ne_eq, List.length_eq_zero_iff] at hmany
    refine ⟨stretch rules c.ahead, prefix_stretch, fun x hx => accepts_of_mem_stretch hx,
      fun q hq hall => prefix_stretch_of_accepts hq hall, ?_, hmany, ?_, ?_⟩
    · rwa [hmany]
    · rw [hmany, back_start, next_start, past_start]
    · intro hsettled
      rw [hmany, (hsettled.past _).back_next]
  · obtain ⟨pieces, hrepeats, hprefix, hdissects⟩ := exists_repeats_acceptText rules c
    have htexts := acceptTexts_of_repeats hrepeats
    refine ⟨pieces, hprefix, hdissects, ?_, ?_, ?_⟩
    · rwa [htexts]
    · rw [htexts]
    · rw [htexts, past_offset, decide_eq_true_eq, Ne, List.length_eq_zero_iff,
        ← hdissects.byteLength_flatten_eq_zero_iff]
      omega

/-- One rule accepts a quantifier of two characters, and the empty text. Character by character, only the
    first of them is accepted, as nothing that the rule accepts starts with the second. -/
theorem quantifier_read_by_characters :
    Settled ⟨['a'], ['∃', '!', '∃', '1'], 1, 0⟩ ∧
      acceptMany [.strings ["", "∃!"]] ⟨['a'], ['∃', '!', '∃', '1'], 1, 0⟩ =
        (true, ⟨['∃', 'a'], ['!', '∃', '1'], 1, 0⟩) := by
  have hsettled : Settled ⟨['a'], ['∃', '!', '∃', '1'], 1, 0⟩ := fun h => absurd h (Nat.lt_irrefl 0)
  obtain ⟨⟨p, hp, hall, hmax, -, -, -, hread⟩, -⟩ :=
    greedy_reading_takes_all ⟨['a'], ['∃', '!', '∃', '1'], 1, 0⟩ [.strings ["", "∃!"]]
  -- the longest beginning that is accepted throughout is the first character
  have hfirst : anyAcceptsChar [.strings ["", "∃!"]] '∃' := by decide
  obtain ⟨t, rfl⟩ := hmax ['∃'] ⟨['!', '∃', '1'], rfl⟩ (List.forall_mem_singleton.2 hfirst)
  have ht : t <+: ['!', '∃', '1'] := (List.prefix_cons_inj '∃').1 hp
  rcases List.prefix_cons_iff.1 ht with rfl | ⟨u, rfl, -⟩
  · exact ⟨hsettled, hread hsettled⟩
  · have hmark : anyAcceptsChar [.strings ["", "∃!"]] '!' := hall '!' (by simp)
    exact absurd hmark (by decide)

end Formula.Cursor
