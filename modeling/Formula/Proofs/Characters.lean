import Formula.Proofs.Reading
import Formula.Proofs.Safety
import Formula.Proofs.Searching

/-!
# `Formula.Proofs.Characters` — single characters are read either way

A rule without strings accepts single characters only. Such rules can be given to a cursor in two ways: it
reads a character and gives it back when no rule takes it, or it looks for the longest text that fits, by
its length in bytes. Both come to the same, also at the end of the text, where the first way makes a request
and undoes it, and where the bound of the rules is larger than the character that is there. With strings
among the rules the second way reads more than the first, but only where the rules accept the next character.

## Contents
- **Rules.** `Rule.OneCharacter`, with `Rule.acceptsText_singleton` and
  `Rule.longest?_eq_of_oneCharacter`.
- **Readings.** `accept_eq_acceptText`, `acceptMany_eq_acceptTexts`.
- **Search.** `acceptText_of_search`: the text that is read is the one that the search finds.
- **Main result.** `characters_read_either_way`.
-/

namespace Formula.Rule

open Piece

variable {rules : List Rule} {r : Rule} {s p : List Char} {x : Char}

/-! ## Rules -/

/-- The rule is a set of characters or a predicate, so that it accepts one character at a time. -/
def OneCharacter : Rule → Prop
  | .chars _ => True
  | .predicate _ => True
  | .strings _ => False

theorem acceptsText_singleton (hr : r.OneCharacter) : r.acceptsText [x] = r.acceptsChar x := by
  cases r with
  | chars set => rfl
  | predicate test => rfl
  | strings members => cases hr

theorem exists_eq_singleton (hr : r.OneCharacter) (h : r.acceptsText p) : ∃ x, p = [x] := by
  cases r with
  | chars set =>
      simp only [acceptsText] at h
      split at h
      · exact ⟨_, rfl⟩
      · cases h
  | predicate test =>
      simp only [acceptsText] at h
      split at h
      · exact ⟨_, rfl⟩
      · cases h
  | strings members => cases hr

/-- The longest text that such rules accept is the first character, if they accept it. -/
theorem longest?_eq_of_oneCharacter (hrules : ∀ r ∈ rules, r.OneCharacter) (s : List Char) :
    longest? rules s = if initial rules s = [] then none else some (initial rules s) := by
  cases hlongest : longest? rules s with
  | none =>
      cases s with
      | nil => rfl
      | cons x rest =>
          have hx : ¬ anyAcceptsChar rules x := by
            intro hx
            obtain ⟨r, hr, haccepts⟩ := List.any_eq_true.1 hx
            have htext : anyAcceptsText rules [x] := by
              refine List.any_eq_true.2 ⟨r, hr, ?_⟩
              rw [acceptsText_singleton (hrules r hr), haccepts]
            cases longest?_eq_none hlongest htext (List.prefix_append [x] rest)
          rw [initial_cons_of_not hx, if_pos rfl]
  | some p =>
      obtain ⟨haccepts, -, ⟨rest, rfl⟩, -⟩ := longest?_eq_some hlongest
      obtain ⟨r, hr, hp⟩ := List.any_eq_true.1 haccepts
      obtain ⟨x, rfl⟩ := exists_eq_singleton (hrules r hr) hp
      have hx : anyAcceptsChar rules x := anyAcceptsChar_of_anyAcceptsText haccepts
      rw [List.singleton_append, initial_cons_of_accepts hx, if_neg (List.cons_ne_nil x [])]

end Formula.Rule

namespace Formula.Cursor

open Rule Piece Text

variable {c : Cursor} {rules : List Rule}

/-! ## Readings -/

/-- One character is tried, or one text is looked for. -/
theorem accept_eq_acceptText (h : c.Settled) (hrules : ∀ r ∈ rules, r.OneCharacter) :
    c.accept rules = c.acceptText rules := by
  rw [accept_eq h, acceptText_eq, longest?_eq_of_oneCharacter hrules]
  by_cases hnil : initial rules c.ahead = []
  · simp [hnil]
  · simp [hnil]

/-- Characters are tried as long as it succeeds, or texts are looked for. -/
theorem acceptMany_eq_acceptTexts (h : c.Settled) (hrules : ∀ r ∈ rules, r.OneCharacter) :
    c.acceptMany rules = c.acceptTexts rules := by
  fun_induction acceptMany rules c with
  | case1 c c' hc ih =>
      have htext := (accept_eq_acceptText h hrules).symm.trans hc
      have hc' : c'.Settled := by
        rw [accept_eq h] at hc
        obtain rfl := (Prod.mk.inj hc).2
        exact h.past _
      rw [acceptTexts, htext, ih hc']
  | case2 c c' hc =>
      have htext := (accept_eq_acceptText h hrules).symm.trans hc
      rw [acceptTexts, htext]

/-! ## Search -/

/-- The text that is read is the one that the search by lengths finds at the offset of the cursor, whatever
    was asked for before. -/
theorem acceptText_of_search (c : Cursor) (rules asked : List Rule) :
    ∃ len, ((Bounds.after asked).longestBytesAt rules c.text c.offset).1 = .ok len ∧
      (c.acceptText rules).1 = decide (len ≠ 0) ∧
      (c.acceptText rules).2.offset = c.offset + len := by
  refine ⟨longestBytes rules c.ahead, ?_, ?_, ?_⟩
  · rw [longestBytesAt_after, longestBytesAt, dropBytes_offset]
  · rw [acceptText_eq, longestBytes]
    cases hlongest : longest? rules c.ahead with
    | none => rfl
    | some p =>
        have hne : byteLength p ≠ 0 := mt byteLength_eq_zero_iff.1 (longest?_eq_some hlongest).2.1
        simp [hne]
  · rw [acceptText_eq, past_offset, longestBytes]
    cases longest? rules c.ahead with
    | none => rfl
    | some p => rfl

/-- Where a text is read, the rules accept the character that it starts with. -/
theorem exists_peek_of_acceptText (h : (c.acceptText rules).1 = true) :
    ∃ x, c.peek = some x ∧ anyAcceptsChar rules x := by
  rw [acceptText_eq, Option.isSome_iff_exists] at h
  obtain ⟨p, hlongest⟩ := h
  obtain ⟨haccepts, hne, ⟨rest, hahead⟩, -⟩ := longest?_eq_some hlongest
  obtain ⟨x, p, rfl⟩ := List.exists_cons_of_ne_nil hne
  refine ⟨x, ?_, anyAcceptsChar_of_anyAcceptsText haccepts⟩
  rw [peek, ← hahead]
  rfl

/-! ## Main result -/

/-- Where requests that were not undone lie at the end of the text, rules without strings are read either
    way with the same answer and the same cursor afterwards, once or as long as it succeeds. Whatever the
    rules and the cursor are like, a text is read only where the rules accept the next character, and it is
    the text that the search by lengths finds with any bounds that are kept. -/
theorem characters_read_either_way (c : Cursor) (rules asked : List Rule) :
    (c.Settled → (∀ r ∈ rules, r.OneCharacter) →
      c.accept rules = c.acceptText rules ∧ c.acceptMany rules = c.acceptTexts rules) ∧
    ((c.acceptText rules).1 = true → ∃ x, c.peek = some x ∧ anyAcceptsChar rules x) ∧
    ∃ len, ((Bounds.after asked).longestBytesAt rules c.text c.offset).1 = .ok len ∧
      (c.acceptText rules).1 = decide (len ≠ 0) ∧
      (c.acceptText rules).2.offset = c.offset + len := by
  refine ⟨?_, exists_peek_of_acceptText, acceptText_of_search c rules asked⟩
  intro h hrules
  exact ⟨accept_eq_acceptText h hrules, acceptMany_eq_acceptTexts h hrules⟩

/-- A letter of two bytes and a digit stand before a sign. The bound of the digits is four bytes, and an
    empty set is among the rules. -/
theorem letter_and_digit_read_either_way :
    Settled ⟨['x'], ['é', '1', '+'], 0, 0⟩ ∧
      (∀ r ∈ [.chars "", .chars "aé", Alphabet.digit], r.OneCharacter) ∧
      accept [.chars "", .chars "aé", Alphabet.digit] ⟨['x'], ['é', '1', '+'], 0, 0⟩ =
        (true, ⟨['é', 'x'], ['1', '+'], 0, 0⟩) ∧
      acceptText [.chars "", .chars "aé", Alphabet.digit] ⟨['x'], ['é', '1', '+'], 0, 0⟩ =
        (true, ⟨['é', 'x'], ['1', '+'], 0, 0⟩) ∧
      acceptMany [.chars "", .chars "aé", Alphabet.digit] ⟨['x'], ['é', '1', '+'], 0, 0⟩ =
        acceptTexts [.chars "", .chars "aé", Alphabet.digit] ⟨['x'], ['é', '1', '+'], 0, 0⟩ := by
  have hsettled : Settled ⟨['x'], ['é', '1', '+'], 0, 0⟩ := fun h => absurd h (Nat.lt_irrefl 0)
  have hrules : ∀ r ∈ [.chars "", .chars "aé", Alphabet.digit], r.OneCharacter := by
    intro r hr
    simp only [List.mem_cons, List.not_mem_nil, or_false] at hr
    rcases hr with rfl | rfl | rfl <;> trivial
  obtain ⟨hone, hmany⟩ := (characters_read_either_way ⟨['x'], ['é', '1', '+'], 0, 0⟩
    [.chars "", .chars "aé", Alphabet.digit] []).1 hsettled hrules
  have haccept : accept [.chars "", .chars "aé", Alphabet.digit] ⟨['x'], ['é', '1', '+'], 0, 0⟩ =
      (true, ⟨['é', 'x'], ['1', '+'], 0, 0⟩) := by
    decide
  exact ⟨hsettled, hrules, haccept, hone.symm.trans haccept, hmany⟩

end Formula.Cursor
