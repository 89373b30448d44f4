import Mathlib.Data.List.Basic
import Formula.Rule.Longest

/-!
# `Formula.Proofs.Longest` — the longest accepted beginning, without the bound

`longest?` looks only at beginnings that are not longer than the longest member of any rule. This
bound hides nothing: a text that some rule accepts is never longer. So what is found is the longest of
all accepted beginnings, and nothing is found only where there is none.

## Contents
- **The bound.** `byteLength_le_maxBytes`, `byteLength_le_anyMaxBytes`.
- **Candidates.** `mem_beginnings`, and `beginnings_pairwise`: longest first.
- **The choice.** `longest?_eq_some`, `longest?_eq_none`.
-/

namespace Formula.Rule

open Text

variable {rules : List Rule} {s p q : List Char}

/-! ## The bound -/

/-- A member of a list of numbers is at most the greatest. -/
theorem le_greatest {sizes : List Nat} {n : Nat} (h : n ∈ sizes) : n ≤ greatest sizes := by
  unfold greatest
  cases hmax : sizes.max? with
  | none =>
      rw [List.max?_eq_none_iff] at hmax
      simp [hmax] at h
  | some m => exact (List.max?_eq_some_iff.1 hmax).2 n h

/-- A text that a rule accepts has at most as many bytes as the rule's bound. -/
theorem byteLength_le_maxBytes {r : Rule} (h : r.acceptsText p) : byteLength p ≤ r.maxBytes := by
  cases r with
  | chars set =>
      simp only [acceptsText] at h
      split at h
      · next c =>
          have hc : c ∈ set.toList := by simpa using h
          simpa [maxBytes] using le_greatest (List.mem_map_of_mem hc)
      · cases h
  | predicate test =>
      simp only [acceptsText] at h
      split at h
      · next c => simpa [maxBytes] using c.utf8Size_le_four
      · cases h
  | strings members =>
      simp only [acceptsText, List.any_eq_true, beq_iff_eq] at h
      obtain ⟨m, hm, rfl⟩ := h
      exact le_greatest (List.mem_map_of_mem (f := fun m => byteLength m.toList) hm)

/-- The same for a list of rules. -/
theorem byteLength_le_anyMaxBytes (h : anyAcceptsText rules p) :
    byteLength p ≤ anyMaxBytes rules := by
  obtain ⟨r, hr, hp⟩ := List.any_eq_true.1 h
  exact Nat.le_trans (byteLength_le_maxBytes hp) (le_greatest (List.mem_map_of_mem hr))

/-! ## Candidates -/

/-- The candidates are exactly the non-empty beginnings within the bound. -/
theorem mem_beginnings {bound : Nat} :
    p ∈ beginnings bound s ↔ p ≠ [] ∧ p <+: s ∧ byteLength p ≤ bound := by
  induction s generalizing bound p with
  | nil =>
      simp only [beginnings, List.not_mem_nil, List.prefix_nil, false_iff]
      rintro ⟨hne, hp, _⟩
      exact hne hp
  | cons c s ih =>
      have hc := c.utf8Size_pos
      unfold beginnings
      split
      · next hle =>
          simp only [List.mem_append, List.mem_map, List.mem_singleton, ih]
          constructor
          · rintro (⟨q, ⟨_, hq, hb⟩, rfl⟩ | rfl)
            · refine ⟨by simp, by simpa using hq, ?_⟩
              rw [byteLength_cons]
              omega
            · exact ⟨by simp, by simp, by simpa using hle⟩
          · rintro ⟨hne, hp, hb⟩
            obtain ⟨q, rfl, hq⟩ := (List.prefix_cons_iff.1 hp).resolve_left hne
            by_cases hnil : q = []
            · exact Or.inr (by rw [hnil])
            · rw [byteLength_cons] at hb
              exact Or.inl ⟨q, ⟨hnil, hq, by omega⟩, rfl⟩
      · next hgt =>
          simp only [List.not_mem_nil, false_iff]
          rintro ⟨hne, hp, hb⟩
          obtain ⟨q, rfl, _⟩ := (List.prefix_cons_iff.1 hp).resolve_left hne
          rw [byteLength_cons] at hb
          omega

/-- A longer candidate comes before a shorter one. -/
theorem beginnings_pairwise (bound : Nat) (s : List Char) :
    (beginnings bound s).Pairwise fun p q => q.length < p.length := by
  induction s generalizing bound with
  | nil => simp [beginnings]
  | cons c s ih =>
      unfold beginnings
      split
      · refine List.pairwise_append.2 ⟨?_, by simp, ?_⟩
        · refine List.pairwise_map.2 ((ih _).imp ?_)
          intro p q hlt
          simpa using hlt
        · intro p hp q hq
          obtain ⟨p', hp', rfl⟩ := List.mem_map.1 hp
          rw [List.mem_singleton.1 hq]
          simpa [List.length_pos_iff] using (mem_beginnings.1 hp').1
      · exact List.Pairwise.nil

/-! ## The choice -/

/-- What is found is accepted, and no accepted beginning is longer. -/
theorem longest?_eq_some (h : longest? rules s = some p) :
    anyAcceptsText rules p ∧ p ≠ [] ∧ p <+: s ∧
      ∀ q, anyAcceptsText rules q → q <+: s → q.length ≤ p.length := by
  obtain ⟨hacc, before, after, hsplit, hbefore⟩ := List.find?_eq_some_iff_append.1 h
  have hmem : p ∈ beginnings (anyMaxBytes rules) s := by simp [hsplit]
  obtain ⟨hne, hp, _⟩ := mem_beginnings.1 hmem
  refine ⟨hacc, hne, hp, ?_⟩
  intro q hq hqs
  by_cases hnil : q = []
  · simp [hnil]
  · have hcand := mem_beginnings.2 ⟨hnil, hqs, byteLength_le_anyMaxBytes hq⟩
    rw [hsplit] at hcand
    have hsorted := beginnings_pairwise (anyMaxBytes rules) s
    rw [hsplit, List.pairwise_append] at hsorted
    rcases List.mem_append.1 hcand with hlt | hge
    · exact absurd hq (by simpa using hbefore q hlt)
    · rcases List.mem_cons.1 hge with rfl | hafter
      · exact Nat.le_refl _
      · exact Nat.le_of_lt ((List.pairwise_cons.1 hsorted.2.1).1 q hafter)

/-- Nothing is found only where no non-empty beginning is accepted. -/
theorem longest?_eq_none (h : longest? rules s = none) (hq : anyAcceptsText rules q)
    (hqs : q <+: s) : q = [] := by
  by_contra hnil
  have hcand := mem_beginnings.2 ⟨hnil, hqs, byteLength_le_anyMaxBytes hq⟩
  exact absurd hq (List.find?_eq_none.1 h q hcand)

end Formula.Rule
