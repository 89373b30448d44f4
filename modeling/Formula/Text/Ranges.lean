/-!
# `Formula.Text.Ranges` — sets of code points as ascending ranges

A property of characters is given by a table of closed ranges of code points. The ranges ascend and
do not touch, so a look-up stops at the first range that ends at or after the code point.

## Contents
- **Membership.** `inRanges`, with `inRanges_iff` for tables in order.
- **Order.** `AscendingFrom`: each range is non-empty and starts after the one before it ends.
-/

namespace Formula.Text

/-! ## Membership -/

/-- The code point `n` lies in one of the ranges; the look-up gives up at the first range above `n`. -/
def inRanges : List (Nat × Nat) → Nat → Bool
  | [], _ => false
  | (first, last) :: rest, n => if n < first then false else n ≤ last || inRanges rest n

/-! ## Order -/

/-- The ranges are non-empty, ascend, and start above `bound`. -/
def AscendingFrom : Nat → List (Nat × Nat) → Bool
  | _, [] => true
  | bound, (first, last) :: rest => bound ≤ first && first ≤ last && AscendingFrom (last + 1) rest

/-- In an ascending table, the early stop of `inRanges` misses nothing: a code point is found exactly
    when some range of the table holds it. -/
theorem inRanges_iff {table : List (Nat × Nat)} {bound n : Nat} (h : AscendingFrom bound table) :
    inRanges table n ↔ ∃ r ∈ table, r.1 ≤ n ∧ n ≤ r.2 := by
  induction table generalizing bound with
  | nil => simp [inRanges]
  | cons r rest ih =>
      obtain ⟨first, last⟩ := r
      simp only [AscendingFrom, Bool.and_eq_true, decide_eq_true_eq] at h
      have above : ∀ (b : Nat) (t : List (Nat × Nat)), AscendingFrom b t → ∀ q ∈ t, b ≤ q.1 := by
        intro b t
        induction t generalizing b with
        | nil => simp
        | cons q t iht =>
            intro hq p hp
            simp only [AscendingFrom, Bool.and_eq_true, decide_eq_true_eq] at hq
            rcases List.mem_cons.1 hp with rfl | hp
            · exact hq.1.1
            · have := iht (q.2 + 1) hq.2 p hp
              omega
      by_cases hn : n < first
      · have none_above : ¬ ∃ q ∈ rest, q.1 ≤ n ∧ n ≤ q.2 := by
          rintro ⟨q, hq, hle, _⟩
          have := above _ _ h.2 q hq
          omega
        simp only [inRanges, hn, if_true, List.mem_cons, exists_eq_or_imp]
        constructor
        · intro hf
          exact absurd hf (by decide)
        · rintro (⟨hle, _⟩ | hex)
          · omega
          · exact absurd hex none_above
      · simp only [inRanges, hn, if_false, Bool.or_eq_true, decide_eq_true_eq, List.mem_cons,
          exists_eq_or_imp, ih h.2]
        constructor
        · rintro (hle | hex)
          · exact Or.inl ⟨by omega, hle⟩
          · exact Or.inr hex
        · rintro (⟨_, hle⟩ | hex)
          · exact Or.inl hle
          · exact Or.inr hex

end Formula.Text
