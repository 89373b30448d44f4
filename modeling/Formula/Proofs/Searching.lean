import Mathlib.Order.Bounds.Basic
import Formula.Proofs.Boundaries
import Formula.Proofs.Longest
import Formula.Rule.Alphabet
import Formula.Rule.Bounds

/-!
# `Formula.Proofs.Searching` — the search by lengths finds the longest match

The search tries no length above the bounds that are kept for its rules, and passes over lengths that end
inside a character. Neither hides a match. A kept bound may have been worked out for another rule that
counts as the same, but rules that count as the same have the same bound. So it does not matter what was
asked for before: the search at a boundary always answers, with the greatest length of all parts of the
text at this offset that some rule accepts, and with zero if there is none. This is also the length of the
longest accepted beginning, which the cursor reads.

## Contents
- **Kept bounds.** `maxBytes_eq_of_beq`; `Bounds.Sound`, kept by every request, with `Bounds.sound_after`.
- **Matches.** `MatchesAt`, `LongestAt`, with `longestAt_longestBytes` and `acceptsChar_of_acceptsText`.
- **Search.** `longestAt_searchDown`, `searchDown_of_not_boundary`; `longestBytesAt_after`.
- **Main result.** `search_finds_longest_match`.
-/

namespace Formula.Rule

open Text

variable {rules : List Rule} {r : Rule} {text rest p u : List Char} {offset len n m : Nat} {c : Char}

/-! ## Kept bounds -/

/-- Rules that count as the same have the same bound, also predicates that only share their name. -/
theorem maxBytes_eq_of_beq {r r' : Rule} (h : r == r') : r.maxBytes = r'.maxBytes := by
  cases r with
  | chars set =>
      cases r' with
      | chars set' =>
          have hset : set == set' := h
          rw [beq_iff_eq.1 hset]
      | predicate test' => cases h
      | strings members' => cases h
  | predicate test =>
      cases r' with
      | chars set' => cases h
      | predicate test' => rfl
      | strings members' => cases h
  | strings members =>
      cases r' with
      | chars set' => cases h
      | predicate test' => cases h
      | strings members' =>
          have hmembers : members == members' := h
          rw [beq_iff_eq.1 hmembers]

namespace Bounds

variable {b : Bounds}

/-- Every kept bound is the bound of the rule that it was worked out for. -/
def Sound (b : Bounds) : Prop := ∀ entry ∈ b.entries, entry.2 = entry.1.maxBytes

theorem sound_empty : Sound empty := by
  intro entry hentry
  cases hentry

/-- What is found for a rule is its bound, whichever rule it was worked out for. -/
theorem Sound.find (h : b.Sound) (hfind : b.find? r = some n) : n = r.maxBytes := by
  obtain ⟨entry, hentry, rfl⟩ := Option.map_eq_some_iff.1 hfind
  have hsame : entry.1 == r := List.find?_some (p := fun entry : Rule × Nat => entry.1 == r) hentry
  rw [h entry (List.mem_of_find?_eq_some hentry)]
  exact maxBytes_eq_of_beq hsame

/-- One request is answered with the bound of the rule, and keeps bounds sound. -/
theorem Sound.ask (h : b.Sound) (r : Rule) : (b.ask r).1 = r.maxBytes ∧ (b.ask r).2.Sound := by
  unfold Bounds.ask
  split
  · next n hfind => exact ⟨h.find hfind, h⟩
  · next hfind =>
      refine ⟨rfl, ?_⟩
      intro entry hentry
      rcases List.mem_cons.1 hentry with rfl | hentry
      · rfl
      · exact h entry hentry

/-- Requests in a row are answered with the bounds of their rules. -/
theorem Sound.askAll (h : b.Sound) (rules : List Rule) :
    (b.askAll rules).1 = rules.map maxBytes ∧ (b.askAll rules).2.Sound := by
  induction rules generalizing b with
  | nil => exact ⟨rfl, h⟩
  | cons r rules ih =>
      obtain ⟨hbound, hsound⟩ := h.ask r
      obtain ⟨hbounds, hrest⟩ := ih hsound
      refine ⟨?_, hrest⟩
      show (b.ask r).1 :: ((b.ask r).2.askAll rules).1 = r.maxBytes :: rules.map maxBytes
      rw [hbound, hbounds]

theorem sound_after (asked : List Rule) : (after asked).Sound := (sound_empty.askAll asked).2

/-- More requests are requests in a row. -/
theorem after_append (asked rules : List Rule) :
    ((after asked).askAll rules).2 = after (asked ++ rules) := by
  unfold after
  generalize empty = b
  induction asked generalizing b with
  | nil => rfl
  | cons r asked ih => exact ih (b.ask r).2

/-- The greatest bound that the search takes is the greatest of its rules. -/
theorem greatest_askAll (asked rules : List Rule) :
    greatest ((after asked).askAll rules).1 = anyMaxBytes rules := by
  rw [((sound_after asked).askAll rules).1, anyMaxBytes]

end Bounds

/-! ## Matches -/

/-- At an offset of the text there is a part of this length, in bytes, that some rule accepts; it has at
    least one byte. -/
def MatchesAt (rules : List Rule) (text : List Char) (offset n : Nat) : Prop :=
  1 ≤ n ∧ ∃ p, Between text offset (offset + n) p ∧ anyAcceptsText rules p

/-- The greatest length of such a part, or zero if there is none. -/
def LongestAt (rules : List Rule) (text : List Char) (offset len : Nat) : Prop :=
  IsGreatest {n | MatchesAt rules text offset n} len ∨
    len = 0 ∧ ∀ n, ¬ MatchesAt rules text offset n

/-- At a boundary, the parts are the beginnings of what follows. -/
theorem matchesAt_append :
    MatchesAt rules (u ++ rest) (byteLength u) n ↔
      ∃ p, p ≠ [] ∧ p <+: rest ∧ byteLength p = n ∧ anyAcceptsText rules p := by
  constructor
  · rintro ⟨hpos, p, ⟨before, after, hsplit, hbefore, hp⟩, haccepts⟩
    obtain ⟨rfl, rfl⟩ := append_inj_of_byteLength hsplit hbefore.symm
    rw [byteLength_append, Nat.add_left_cancel_iff] at hp
    refine ⟨p, ?_, List.prefix_append p after, hp, haccepts⟩
    rintro rfl
    rw [← hp] at hpos
    cases hpos
  · rintro ⟨p, hne, ⟨after, rfl⟩, rfl, haccepts⟩
    refine ⟨?_, p, ⟨u, after, rfl, rfl, byteLength_append u p⟩, haccepts⟩
    exact Nat.le_trans (List.length_pos_iff.2 hne) (length_le_byteLength p)

/-- No match is longer than the bound of the rules or than what follows the offset. -/
theorem MatchesAt.le (h : MatchesAt rules text offset n) :
    n ≤ anyMaxBytes rules ∧ n ≤ byteLength text - offset := by
  obtain ⟨-, p, ⟨before, after, rfl, rfl, hp⟩, haccepts⟩ := h
  rw [byteLength_append, Nat.add_left_cancel_iff] at hp
  rw [byteLength_append, byteLength_append, Nat.add_sub_cancel_left, ← hp]
  exact ⟨byteLength_le_anyMaxBytes haccepts, Nat.le_add_right ..⟩

theorem LongestAt.unique (h : LongestAt rules text offset len) (h' : LongestAt rules text offset m) :
    len = m := by
  rcases h with hgreatest | ⟨rfl, hnone⟩
  · rcases h' with hgreatest' | ⟨rfl, hnone⟩
    · exact hgreatest.unique hgreatest'
    · exact absurd hgreatest.1 (hnone len)
  · rcases h' with hgreatest' | ⟨rfl, -⟩
    · exact absurd hgreatest'.1 (hnone m)
    · rfl

/-- The longest accepted beginning of what follows a boundary is the longest match there. -/
theorem longestAt_longestBytes (rules : List Rule) (u rest : List Char) :
    LongestAt rules (u ++ rest) (byteLength u) (longestBytes rules rest) := by
  unfold longestBytes
  cases hlongest : longest? rules rest with
  | none =>
      refine Or.inr ⟨rfl, ?_⟩
      intro n hmatch
      obtain ⟨p, hne, hp, -, haccepts⟩ := matchesAt_append.1 hmatch
      exact hne (longest?_eq_none hlongest haccepts hp)
  | some p =>
      obtain ⟨haccepts, hne, hp, hmax⟩ := longest?_eq_some hlongest
      refine Or.inl ⟨matchesAt_append.2 ⟨p, hne, hp, rfl, haccepts⟩, ?_⟩
      intro n hmatch
      obtain ⟨q, -, hq, rfl, hq'⟩ := matchesAt_append.1 hmatch
      -- the shorter of two beginnings begins the longer
      obtain ⟨t, rfl⟩ := List.prefix_of_prefix_length_le hq hp (hmax q hq' hq)
      show byteLength q ≤ byteLength (q ++ t)
      rw [byteLength_append]
      exact Nat.le_add_right ..

/-- A rule that accepts a text accepts the character that the text starts with. -/
theorem acceptsChar_of_acceptsText (h : r.acceptsText (c :: p)) : r.acceptsChar c := by
  cases r with
  | chars set =>
      cases p with
      | nil => exact h
      | cons d p => cases h
  | predicate test =>
      cases p with
      | nil => exact h
      | cons d p => cases h
  | strings members =>
      obtain ⟨member, hmember, heq⟩ := List.any_eq_true.1 h
      refine List.any_eq_true.2 ⟨member, hmember, ?_⟩
      rw [beq_iff_eq.1 heq]
      exact beq_self_eq_true (some c)

theorem anyAcceptsChar_of_anyAcceptsText (h : anyAcceptsText rules (c :: p)) :
    anyAcceptsChar rules c := by
  obtain ⟨r, hr, haccepts⟩ := List.any_eq_true.1 h
  exact List.any_eq_true.2 ⟨r, hr, acceptsChar_of_acceptsText haccepts⟩

/-- Where there is a match, the rules accept the character that follows the offset. -/
theorem MatchesAt.exists_cons (h : MatchesAt rules text offset n) :
    ∃ c rest, dropBytes? offset text = some (c :: rest) ∧ anyAcceptsChar rules c := by
  obtain ⟨hpos, p, ⟨before, after, rfl, rfl, hp⟩, haccepts⟩ := h
  cases p with
  | nil =>
      rw [List.append_nil] at hp
      omega
  | cons c p =>
      exact ⟨c, p ++ after, dropBytes?_append _ _, anyAcceptsChar_of_anyAcceptsText haccepts⟩

/-! ## Search -/

/-- At a boundary, the search down from a bound answers with the longest match within this bound. -/
theorem exists_searchDown_eq (h : isBoundary text offset) (rules : List Rule) (bound : Nat) :
    ∃ len, searchDown rules text offset bound = .ok len ∧
      (len = 0 ∨ MatchesAt rules text offset len) ∧
      ∀ n, n ≤ bound → MatchesAt rules text offset n → n ≤ len := by
  induction bound with
  | zero => exact ⟨0, rfl, Or.inl rfl, fun n hn _ => hn⟩
  | succ bound ih =>
      obtain ⟨len, hlen, hmatch, hmax⟩ := ih
      -- where there is no match of the length that is tried, the shorter lengths decide
      have hskip : ¬ MatchesAt rules text offset (bound + 1) →
          ∀ n, n ≤ bound + 1 → MatchesAt rules text offset n → n ≤ len := by
        intro hnot n hn hmatches
        rcases Nat.lt_or_eq_of_le hn with hlt | rfl
        · exact hmax n (Nat.le_of_lt_succ hlt) hmatches
        · exact absurd hmatches hnot
      unfold searchDown
      split
      · next hlast =>
          obtain ⟨p, hp⟩ := exists_part h hlast (Nat.le_add_right ..)
          rw [slice?_eq_some_iff.2 hp]
          by_cases haccepts : anyAcceptsText rules p
          · refine ⟨bound + 1, if_pos haccepts, Or.inr ⟨Nat.le_add_left .., p, hp, haccepts⟩, ?_⟩
            intro n hn _
            exact hn
          · refine ⟨len, (if_neg haccepts).trans hlen, hmatch, hskip ?_⟩
            rintro ⟨-, q, hq, hq'⟩
            rw [hq.unique hp] at hq'
            exact haccepts hq'
      · next hinside =>
          refine ⟨len, hlen, hmatch, hskip ?_⟩
          rintro ⟨-, p, hp, -⟩
          exact hinside hp.isBoundary.2

/-- Inside a character, a search fails as soon as it comes to a length that ends at a boundary. -/
theorem searchDown_of_not_boundary (h : ¬ isBoundary text offset) (bound : Nat) :
    searchDown rules text offset bound =
      if (List.range bound).any fun n => isBoundary text (offset + (n + 1)) then .error ⟨offset⟩
      else .ok 0 := by
  induction bound with
  | zero => rfl
  | succ bound ih =>
      have hslice : slice? offset (offset + (bound + 1)) text = none := by
        rw [Option.eq_none_iff_forall_not_mem]
        intro p hp
        exact h (slice?_eq_some_iff.1 hp).isBoundary.1
      rw [searchDown, hslice, List.range_succ, List.any_append, ih]
      by_cases hlast : isBoundary text (offset + (bound + 1))
      · simp [hlast]
      · simp [hlast]

/-- The search, with what is kept after any requests, answers with the longest match at a boundary. -/
theorem longestAt_of_after (h : isBoundary text offset) (asked rules : List Rule) :
    ∃ len, ((Bounds.after asked).longestBytesAt rules text offset).1 = .ok len ∧
      LongestAt rules text offset len := by
  obtain ⟨len, hlen, hmatch, hmax⟩ :=
    exists_searchDown_eq h rules (min (anyMaxBytes rules) (byteLength text - offset))
  have hall : ∀ n, MatchesAt rules text offset n → n ≤ len := by
    intro n hn
    exact hmax n (Nat.le_min.2 hn.le) hn
  refine ⟨len, ?_, ?_⟩
  · rw [← hlen, ← Bounds.greatest_askAll asked rules]
    rfl
  · rcases hmatch with rfl | hmatch
    · refine Or.inr ⟨rfl, ?_⟩
      intro n hn
      have hpos := hn.1
      have hle := hall n hn
      omega
    · exact Or.inl ⟨hmatch, hall⟩

/-- What was asked for before makes no difference to the search, at any offset. -/
theorem longestBytesAt_after (asked rules : List Rule) (text : List Char) (offset : Nat) :
    ((Bounds.after asked).longestBytesAt rules text offset).1 = longestBytesAt rules text offset := by
  unfold longestBytesAt
  cases hdrop : dropBytes? offset text with
  | none =>
      have hinside : ¬ isBoundary text offset := by simp [isBoundary, hdrop]
      rw [← searchDown_of_not_boundary hinside, ← Bounds.greatest_askAll asked rules]
      rfl
  | some rest =>
      obtain ⟨u, rfl, rfl⟩ := dropBytes?_eq_some_iff.1 hdrop
      obtain ⟨len, hlen, hlongest⟩ := longestAt_of_after (isBoundary_append u rest) asked rules
      rw [hlen, hlongest.unique (longestAt_longestBytes rules u rest)]

/-! ## Main result -/

/-- Whatever was asked for before, and whatever the rules are like: the search at a boundary answers with
    the greatest length of all parts of the text at this offset that some rule accepts, and with zero if
    there is none. No match is longer than the bounds that are kept. If there is a match, then the rules
    accept the first character that remains. What is kept afterwards are the bounds of these rules, beside
    those that were kept before. -/
theorem search_finds_longest_match (text : List Char) (offset : Nat) (h : isBoundary text offset)
    (asked rules : List Rule) :
    ∃ len, ((Bounds.after asked).longestBytesAt rules text offset).1 = .ok len ∧
      (IsGreatest {n | MatchesAt rules text offset n} len ∨
        len = 0 ∧ ∀ n, ¬ MatchesAt rules text offset n) ∧
      (∀ n, MatchesAt rules text offset n → n ≤ greatest ((Bounds.after asked).askAll rules).1) ∧
      (len ≠ 0 → ∃ c rest, dropBytes? offset text = some (c :: rest) ∧ anyAcceptsChar rules c) ∧
      longestBytesAt rules text offset = .ok len ∧
      ((Bounds.after asked).longestBytesAt rules text offset).2 = Bounds.after (asked ++ rules) := by
  obtain ⟨len, hlen, hlongest⟩ := longestAt_of_after h asked rules
  refine ⟨len, hlen, hlongest, ?_, ?_, ?_, Bounds.after_append asked rules⟩
  · intro n hn
    rw [Bounds.greatest_askAll]
    exact hn.le.1
  · intro hne
    rcases hlongest with hgreatest | ⟨hzero, -⟩
    · exact hgreatest.1.exists_cons
    · exact absurd hzero hne
  · rw [← longestBytesAt_after asked, hlen]

/-- The second character of a text and the one after it make one member of a set of strings. A predicate
    with the name of one of the rules was asked for before. -/
theorem search_finds_quantifier :
    isBoundary "é∃!".toList 2 ∧
      ((Bounds.after [.predicate ⟨"letter", fun _ => false⟩]).longestBytesAt
        [.chars "", .strings [], .strings ["", "∃", "∃!"], Alphabet.letter] "é∃!".toList 2).1 = .ok 4 ∧
      IsGreatest {n | MatchesAt [.chars "", .strings [], .strings ["", "∃", "∃!"], Alphabet.letter]
        "é∃!".toList 2 n} 4 := by
  have hboundary : isBoundary "é∃!".toList 2 := by decide
  obtain ⟨len, hlen, hlongest, -⟩ := search_finds_longest_match "é∃!".toList 2 hboundary
    [.predicate ⟨"letter", fun _ => false⟩]
    [.chars "", .strings [], .strings ["", "∃", "∃!"], Alphabet.letter]
  have hfour : ((Bounds.after [.predicate ⟨"letter", fun _ => false⟩]).longestBytesAt
      [.chars "", .strings [], .strings ["", "∃", "∃!"], Alphabet.letter] "é∃!".toList 2).1 = .ok 4 := by
    rfl
  obtain rfl : len = 4 := Except.ok.inj (hlen.symm.trans hfour)
  refine ⟨hboundary, hfour, ?_⟩
  rcases hlongest with hgreatest | ⟨hzero, -⟩
  · exact hgreatest
  · cases hzero

end Formula.Rule
