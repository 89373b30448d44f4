import Formula.Rule.Basic

/-!
# `Formula.Rule.Longest` — the longest text that a list of rules accepts

Where several texts fit, the longest wins, so that a two-character operator is not taken for the
operator it starts with. Candidates are the beginnings of the text that remains, cut between
characters and no longer than the longest member of any rule.

## Contents
- **Candidates.** `beginnings`: longest first, within a bound of bytes.
- **Choice.** `longest?`, and `longestBytes` for its length.
- **Any offset.** `longestBytesAt`, which also answers for offsets that are no boundary.
-/

namespace Formula.Rule

open Text

/-! ## Candidates -/

/-- The non-empty beginnings of a text that have at most `bound` bytes, longest first. -/
def beginnings (bound : Nat) : List Char → List (List Char)
  | [] => []
  | c :: rest =>
      if c.utf8Size ≤ bound then
        (beginnings (bound - c.utf8Size) rest).map (c :: ·) ++ [[c]]
      else []

/-- A beginning is never empty, and the text goes on after it. -/
theorem exists_append_of_mem_beginnings {bound : Nat} {s p : List Char}
    (h : p ∈ beginnings bound s) : p ≠ [] ∧ ∃ t, s = p ++ t := by
  induction s generalizing bound p with
  | nil => simp [beginnings] at h
  | cons c s ih =>
      unfold beginnings at h
      split at h
      · simp only [List.mem_append, List.mem_map, List.mem_singleton] at h
        rcases h with ⟨q, hq, rfl⟩ | rfl
        · obtain ⟨_, t, rfl⟩ := ih hq
          exact ⟨by simp, t, rfl⟩
        · exact ⟨by simp, s, rfl⟩
      · simp at h

/-! ## Choice -/

/-- The most bytes that a text accepted by any rule of the list can have. -/
def anyMaxBytes (rules : List Rule) : Nat := greatest (rules.map maxBytes)

/-- The longest beginning of a text that some rule accepts. -/
def longest? (rules : List Rule) (text : List Char) : Option (List Char) :=
  (beginnings (anyMaxBytes rules) text).find? (anyAcceptsText rules)

/-- The length of the longest accepted beginning, or zero. -/
def longestBytes (rules : List Rule) (text : List Char) : Nat :=
  ((longest? rules text).map byteLength).getD 0

/-- An accepted beginning is never empty, and the text goes on after it. -/
theorem exists_append_of_longest? {rules : List Rule} {s p : List Char}
    (h : longest? rules s = some p) : p ≠ [] ∧ ∃ t, s = p ++ t :=
  exists_append_of_mem_beginnings (List.mem_of_find?_eq_some h)

/-! ## Any offset -/

/-- An offset was used as a cut although it falls inside a character. -/
structure MidCharacter where
  offset : Nat
deriving DecidableEq, Repr

/-- The length of the longest accepted beginning of the text after an offset. An offset past the end
    matches nothing. At an offset inside a character there is nothing to cut, unless no length
    within the bound ends at a boundary, for then no cut is tried. -/
def longestBytesAt (rules : List Rule) (text : List Char) (offset : Nat) :
    Except MidCharacter Nat :=
  match dropBytes? offset text with
  | some rest => .ok (longestBytes rules rest)
  | none =>
      let bound := min (anyMaxBytes rules) (byteLength text - offset)
      if (List.range bound).any fun n => isBoundary text (offset + (n + 1)) then
        .error ⟨offset⟩
      else .ok 0

end Formula.Rule
