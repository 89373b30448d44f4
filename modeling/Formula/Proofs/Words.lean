import Mathlib.Computability.Language
import Formula.Proofs.Pieces

/-!
# `Formula.Proofs.Words` — languages, and readings that find their words

A reading *finds* a language when what it reads at the beginning of a text is the longest word of the
language that stands there, and nothing where no word does.

## Contents
- **Words.** `oneOf`, with `mem_oneOf_mul`, `mem_star_oneOf` and `mem_plus_oneOf`.
- **Characters.** `Over`: every word is made of such characters.
- **Finding.** `Finds`; `Finds.eq_of_stop`, `Finds.eq_nil` and `Finds.append_of_not_mem`, where the text
  goes on with a character of no word; `Finds.eq_self`, where it does not go on; `finds_initial`,
  `finds_stretch`.
-/

namespace Formula.Grammar

open Rule
open scoped Computability

variable {rules : List Rule} {L M : Language Char} {P : Char → Prop} {w t : List Char} {x : Char}

/-! ## Words -/

/-- The words of one character that some rule accepts. -/
def oneOf (rules : List Rule) : Language Char :=
  {w | ∃ x, anyAcceptsChar rules x ∧ w = [x]}

theorem mem_oneOf : w ∈ oneOf rules ↔ ∃ x, anyAcceptsChar rules x ∧ w = [x] := Iff.rfl

theorem mem_oneOf_mul :
    w ∈ oneOf rules * L ↔ ∃ x v, w = x :: v ∧ anyAcceptsChar rules x ∧ v ∈ L := by
  rw [Language.mem_mul]
  constructor
  · rintro ⟨u, hu, v, hv, rfl⟩
    obtain ⟨x, hx, rfl⟩ := mem_oneOf.1 hu
    exact ⟨x, v, rfl, hx, hv⟩
  · rintro ⟨x, v, rfl, hx, hv⟩
    exact ⟨[x], ⟨x, hx, rfl⟩, v, hv, rfl⟩

theorem mem_star_oneOf : w ∈ (oneOf rules)∗ ↔ ∀ x ∈ w, anyAcceptsChar rules x := by
  rw [Language.mem_kstar]
  constructor
  · rintro ⟨ws, rfl, hws⟩ x hx
    obtain ⟨v, hv, hx⟩ := List.mem_flatten.1 hx
    obtain ⟨y, hy, rfl⟩ := mem_oneOf.1 (hws v hv)
    rwa [List.mem_singleton.1 hx]
  · intro h
    refine ⟨w.map fun x => [x], ?_, ?_⟩
    · induction w with
      | nil => rfl
      | cons x w ih =>
          rw [List.map_cons, List.flatten_cons, ← ih fun y hy => h y (List.mem_cons_of_mem x hy)]
          rfl
    · intro v hv
      obtain ⟨x, hx, rfl⟩ := List.mem_map.1 hv
      exact ⟨x, h x hx, rfl⟩

theorem mem_plus_oneOf :
    w ∈ oneOf rules * (oneOf rules)∗ ↔ w ≠ [] ∧ ∀ x ∈ w, anyAcceptsChar rules x := by
  rw [mem_oneOf_mul]
  constructor
  · rintro ⟨x, v, rfl, hx, hv⟩
    refine ⟨List.cons_ne_nil x v, ?_⟩
    intro y hy
    rcases List.mem_cons.1 hy with rfl | hy
    · exact hx
    · exact mem_star_oneOf.1 hv y hy
  · rintro ⟨hne, hw⟩
    obtain ⟨x, v, rfl⟩ := List.exists_cons_of_ne_nil hne
    refine ⟨x, v, rfl, hw x List.mem_cons_self, ?_⟩
    exact mem_star_oneOf.2 fun y hy => hw y (List.mem_cons_of_mem x hy)

/-! ## Characters -/

/-- The words of the language are made of such characters. -/
def Over (L : Language Char) (P : Char → Prop) : Prop := ∀ w ∈ L, ∀ x ∈ w, P x

theorem Over.mul (hL : Over L P) (hM : Over M P) : Over (L * M) P := by
  intro w hw x hx
  obtain ⟨u, hu, v, hv, rfl⟩ := Language.mem_mul.1 hw
  rcases List.mem_append.1 hx with hx | hx
  · exact hL u hu x hx
  · exact hM v hv x hx

theorem Over.add (hL : Over L P) (hM : Over M P) : Over (L + M) P := by
  intro w hw
  rcases (Language.mem_add L M w).1 hw with hw | hw
  · exact hL w hw
  · exact hM w hw

theorem over_one : Over 1 P := by
  intro w hw x hx
  rw [(Language.mem_one w).1 hw] at hx
  cases hx

theorem over_oneOf (h : ∀ x, anyAcceptsChar rules x → P x) : Over (oneOf rules) P := by
  intro w hw y hy
  obtain ⟨x, hx, rfl⟩ := mem_oneOf.1 hw
  rw [List.mem_singleton.1 hy]
  exact h x hx

theorem over_star_oneOf (h : ∀ x, anyAcceptsChar rules x → P x) : Over (oneOf rules)∗ P := by
  intro w hw x hx
  exact h x (mem_star_oneOf.1 hw x hx)

/-! ## Finding -/

/-- The reading finds the longest word of the language at the beginning of a text, or nothing. -/
structure Finds (L : Language Char) (f : List Char → List Char) : Prop where
  beginning : ∀ s, f s <+: s
  mem : ∀ s, f s ≠ [] → f s ∈ L
  longest : ∀ w t, w ∈ L → w.length ≤ (f (w ++ t)).length

variable {f : List Char → List Char}

/-- A word of the language at the beginning of a text is a beginning of what is found. -/
theorem Finds.word_le (h : Finds L f) (hw : w ∈ L) : w <+: f (w ++ t) :=
  List.prefix_of_prefix_length_le (List.prefix_append w t) (h.beginning _) (h.longest w t hw)

/-- A word is found as it is where the text goes on with a character that stands in no word. -/
theorem Finds.eq_of_stop (h : Finds L f) (hL : Over L P) (hw : w ∈ L) (ht : ∀ x ∈ t.head?, ¬ P x) :
    f (w ++ t) = w := by
  obtain ⟨v, hv⟩ := h.word_le (t := t) hw
  have hbeginning := h.beginning (w ++ t)
  rw [← hv, List.prefix_append_right_inj] at hbeginning
  cases v with
  | nil => rw [← hv, List.append_nil]
  | cons x v =>
      have hne : f (w ++ t) ≠ [] := by simp [← hv]
      have hx : P x := hL _ (h.mem _ hne) x (by simp [← hv])
      obtain ⟨r, rfl⟩ := hbeginning
      exact absurd hx (ht x rfl)

/-- A word by itself is found to its end. -/
theorem Finds.eq_self (h : Finds L f) (hw : w ∈ L) : f w = w := by
  have hlen := h.longest w [] hw
  rw [List.append_nil] at hlen
  exact (h.beginning w).eq_of_length (Nat.le_antisymm (h.beginning w).length_le hlen)

/-- What is found in an empty or foreign text is nothing. -/
theorem Finds.eq_nil (h : Finds L f) (hL : Over L P) (ht : ∀ x ∈ t.head?, ¬ P x) : f t = [] := by
  by_contra hne
  have hmem := h.mem t hne
  obtain ⟨x, w, hw⟩ := List.exists_cons_of_ne_nil hne
  have hx : P x := hL _ hmem x (by simp [hw])
  obtain ⟨r, hr⟩ := h.beginning t
  rw [hw] at hr
  exact ht x (by simp [← hr]) hx

/-- A beginning that a character does not stand in ends before it. -/
theorem prefix_of_not_mem {s : List Char} (h : w <+: s ++ x :: t) (hx : x ∉ w) : w <+: s := by
  rcases List.prefix_or_prefix_of_prefix h (List.prefix_append s _) with hs | ⟨v, rfl⟩
  · exact hs
  · rw [List.prefix_append_right_inj] at h
    cases v with
    | nil => rw [List.append_nil]
    | cons y v =>
        obtain ⟨rfl, -⟩ := List.cons_prefix_cons.1 h
        exact absurd (List.mem_append_right s List.mem_cons_self) hx

/-- What is found does not change where the text goes on with a character that is never read. -/
theorem Finds.append_of_not_mem (h : Finds L f) (hx : ∀ u, x ∉ f u) (s t : List Char) :
    f (s ++ x :: t) = f s := by
  have hbeginning := prefix_of_not_mem (h.beginning (s ++ x :: t)) (hx _)
  have hle : (f (s ++ x :: t)).length ≤ (f s).length := by
    by_cases hne : f (s ++ x :: t) = []
    · simp [hne]
    · obtain ⟨r, hr⟩ := hbeginning
      have hlen := h.longest _ r (h.mem _ hne)
      rwa [hr] at hlen
  have hge : (f s).length ≤ (f (s ++ x :: t)).length := by
    by_cases hne : f s = []
    · simp [hne]
    · obtain ⟨r, hr⟩ := h.beginning s
      have hlen := h.longest _ (r ++ x :: t) (h.mem _ hne)
      rwa [← List.append_assoc, hr] at hlen
  have hprefix := List.prefix_of_prefix_length_le hbeginning (h.beginning s) hle
  exact hprefix.eq_of_length (Nat.le_antisymm hle hge)

theorem finds_initial : Finds (oneOf rules) (Piece.initial rules) where
  beginning _ := Piece.prefix_initial
  mem s h := by
    cases s with
    | nil => exact absurd rfl h
    | cons x s =>
        by_cases hx : anyAcceptsChar rules x
        · exact ⟨x, hx, Piece.initial_cons_of_accepts hx⟩
        · exact absurd (Piece.initial_cons_of_not hx) h
  longest w t hw := by
    obtain ⟨x, hx, rfl⟩ := mem_oneOf.1 hw
    rw [List.singleton_append, Piece.initial_cons_of_accepts hx]

theorem finds_stretch : Finds (oneOf rules * (oneOf rules)∗) (Piece.stretch rules) where
  beginning _ := Piece.prefix_stretch
  mem s h := mem_plus_oneOf.2 ⟨h, fun _ => Piece.accepts_of_mem_stretch⟩
  longest w t hw := by
    unfold Piece.stretch
    rw [List.takeWhile_append_of_pos (mem_plus_oneOf.1 hw).2, List.length_append]
    exact Nat.le_add_right ..

end Formula.Grammar
