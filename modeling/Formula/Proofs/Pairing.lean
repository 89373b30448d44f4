import Mathlib.Algebra.Ring.Parity
import Mathlib.Data.List.Induction
import Formula.Proofs.Alphabet

/-!
# `Formula.Proofs.Pairing` — runs of ampersands

The ampersand is the one character that starts an operator and is none by itself. So ampersands are
read two by two, and a run of them can be read to its end exactly when it is even.

## Contents
- **Runs.** `AmpersandRun`: as many ampersands in a row as there are.
- **Pairs.** `Paired`: ampersands stand two by two; `Paired.append`, `Paired.of_operator`.
- **Parity.** `Paired.even_of_run`, `Paired.le_of_odd_run`: up to the end of a paired text no run is
  odd; `exists_trailing_run`.
-/

namespace Formula.Alphabet

open Text

variable {s t u v : List Char} {x : Char} {n : Nat}

/-! ## Runs -/

/-- In the text, `n` ampersands follow `u`, with no ampersand before or after them. -/
structure AmpersandRun (s u : List Char) (n : Nat) (v : List Char) : Prop where
  eq : s = u ++ (List.replicate n '&' ++ v)
  pos : 0 < n
  before : u.getLast? ≠ some '&'
  behind : v.head? ≠ some '&'

/-- The run is still there when the text before it is shortened. -/
theorem AmpersandRun.drop (h : AmpersandRun (s ++ t) (s ++ u) n v) : AmpersandRun t u n v := by
  refine ⟨?_, h.pos, ?_, h.behind⟩
  · have heq := h.eq
    rw [List.append_assoc] at heq
    exact List.append_cancel_left heq
  · intro hu
    apply h.before
    rw [List.getLast?_append, hu]
    rfl

/-- A run that ends within the first part of a text is a run of that part. -/
theorem AmpersandRun.of_append (h : AmpersandRun (s ++ t) u n v) (hle : u.length + n ≤ s.length) :
    ∃ w, AmpersandRun s u n w := by
  have heq := h.eq
  rw [← List.append_assoc] at heq
  have hrun : u ++ List.replicate n '&' <+: s ++ t := ⟨v, heq.symm⟩
  obtain ⟨w, hw⟩ : u ++ List.replicate n '&' <+: s := by
    apply List.prefix_of_prefix_length_le hrun (List.prefix_append s t)
    simpa using hle
  refine ⟨w, ⟨by rw [← hw, List.append_assoc], h.pos, h.before, ?_⟩⟩
  intro hhead
  rw [← hw, List.append_assoc] at heq
  have hv := List.append_cancel_left heq
  apply h.behind
  rw [← hv, List.head?_append, hhead]
  rfl

/-- A run with nothing before it starts the text. -/
theorem AmpersandRun.eq_cons (h : AmpersandRun s [] (n + 1) v) :
    s = '&' :: (List.replicate n '&' ++ v) := by
  rw [h.eq, List.nil_append, List.replicate_succ, List.cons_append]

/-! ## Pairs -/

/-- Ampersands stand two by two. -/
inductive Paired : List Char → Prop where
  | nil : Paired []
  | cons {x : Char} {s : List Char} (hx : x ≠ '&') (hs : Paired s) : Paired (x :: s)
  | pair {s : List Char} (hs : Paired s) : Paired ('&' :: '&' :: s)

theorem Paired.append (hs : Paired s) (ht : Paired t) : Paired (s ++ t) := by
  induction hs with
  | nil => exact ht
  | cons hx _ ih => exact .cons hx ih
  | pair _ ih => exact .pair ih

theorem Paired.of_not_mem (h : '&' ∉ s) : Paired s := by
  induction s with
  | nil => exact .nil
  | cons x s ih =>
      rw [List.mem_cons, not_or] at h
      exact .cons (Ne.symm h.1) (ih h.2)

theorem Paired.of_operator (h : operator.acceptsText s) : Paired s := by
  by_cases hm : '&' ∈ s
  · rw [eq_of_ampersand_mem h hm]
    exact .pair .nil
  · exact .of_not_mem hm

/-! ## Parity -/

/-- The runs of a paired text are even. -/
theorem Paired.even_of_run (hs : Paired s) (h : AmpersandRun s u n v) : Even n := by
  induction hs generalizing u n with
  | nil =>
      have heq := congrArg List.length h.eq
      have hpos := h.pos
      simp only [List.length_append, List.length_replicate, List.length_nil] at heq
      omega
  | @cons x s hx hs ih =>
      cases u with
      | nil =>
          obtain ⟨m, rfl⟩ := Nat.exists_eq_add_of_le' h.pos
          exact absurd (List.cons.inj h.eq_cons).1 hx
      | cons y u =>
          have heq := h.eq
          rw [List.cons_append, List.cons.injEq] at heq
          obtain ⟨rfl, -⟩ := heq
          exact ih (AmpersandRun.drop (s := [x]) h)
  | @pair s hs ih =>
      match u, h with
      | [], h =>
          obtain ⟨m, rfl⟩ := Nat.exists_eq_add_of_le' h.pos
          have heq := (List.cons.inj h.eq_cons).2
          cases m with
          | zero =>
              refine absurd ?_ h.behind
              rw [show v = '&' :: s from heq.symm]
              rfl
          | succ m =>
              rw [List.replicate_succ, List.cons_append, List.cons.injEq] at heq
              -- the rest of the run, if there is one, starts the text after the pair
              rcases Nat.eq_zero_or_pos m with rfl | hm
              · exact even_two
              · have hrun : AmpersandRun s [] m v := ⟨heq.2, hm, by simp, h.behind⟩
                exact (ih hrun).add even_two
      | [y], h =>
          have heq := h.eq
          rw [List.cons_append, List.cons.injEq] at heq
          obtain ⟨rfl, -⟩ := heq
          exact absurd rfl h.before
      | y :: z :: u, h =>
          have heq := h.eq
          rw [List.cons_append, List.cons.injEq, List.cons_append, List.cons.injEq] at heq
          obtain ⟨rfl, rfl, -⟩ := heq
          exact ih (AmpersandRun.drop (s := ['&', '&']) h)

/-- An odd run does not end before a paired part of the text does. -/
theorem Paired.le_of_odd_run (hs : Paired s) (h : AmpersandRun (s ++ t) u n v) (hn : ¬ Even n) :
    byteLength s ≤ byteLength (u ++ List.replicate (n - 1) '&') := by
  -- a run that ends within the paired part would be a run of that part
  have hlt : s.length < u.length + n := by
    by_contra hle
    obtain ⟨w, hw⟩ := h.of_append (Nat.not_lt.1 hle)
    exact hn (hs.even_of_run hw)
  have hrun : List.replicate n '&' = List.replicate (n - 1) '&' ++ ['&'] := by
    rw [← List.replicate_succ', Nat.sub_add_cancel h.pos]
  have heq := h.eq
  rw [hrun, List.append_assoc, ← List.append_assoc] at heq
  obtain ⟨w, hw⟩ : s <+: u ++ List.replicate (n - 1) '&' := by
    refine List.prefix_of_prefix_length_le ⟨t, rfl⟩ ⟨_, heq.symm⟩ ?_
    simp only [List.length_append, List.length_replicate]
    omega
  rw [← hw, byteLength_append]
  exact Nat.le_add_right ..

/-- A text ends in a number of ampersands, with none before them. -/
theorem exists_trailing_run (s : List Char) :
    ∃ u n, s = u ++ List.replicate n '&' ∧ u.getLast? ≠ some '&' := by
  induction s using List.reverseRecOn with
  | nil => exact ⟨[], 0, rfl, by simp⟩
  | append_singleton s x ih =>
      by_cases hx : x = '&'
      · obtain ⟨u, n, rfl, hu⟩ := ih
        refine ⟨u, n + 1, ?_, hu⟩
        rw [hx, List.replicate_succ', List.append_assoc]
      · exact ⟨s ++ [x], 0, by simp, by simpa using hx⟩

/-- An ampersand that stands alone after a paired text ends an odd run. -/
theorem Paired.exists_odd_run (hs : Paired s) (ht : t.head? ≠ some '&') :
    ∃ u n, AmpersandRun (s ++ '&' :: t) u n t ∧ ¬ Even n ∧ u ++ List.replicate (n - 1) '&' = s := by
  obtain ⟨u, n, rfl, hu⟩ := exists_trailing_run s
  refine ⟨u, n + 1, ⟨?_, Nat.succ_pos n, hu, ht⟩, ?_, rfl⟩
  · rw [List.replicate_succ', List.append_assoc, List.append_assoc]
    rfl
  · rw [Nat.even_add_one, not_not]
    rcases Nat.eq_zero_or_pos n with rfl | hn
    · exact Even.zero
    · exact hs.even_of_run (v := []) ⟨by rw [List.append_nil], hn, hu, by simp⟩

end Formula.Alphabet
