import Mathlib.Data.List.Basic
import Formula.Text.Bytes

/-!
# `Formula.Proofs.Boundaries` — where a text can be cut

A boundary of a text is the number of bytes of one of its beginnings. So a text is cut at a boundary in
one way only, and what stands between two boundaries is one part of it.

## Contents
- **Cuts.** `dropBytes?_eq_some_iff`, `isBoundary_iff`, `isBoundary_append`.
- **Order.** `eq_nil_of_byteLength_append_le`, `prefix_of_byteLength_le`, `append_inj_of_byteLength`.
- **Parts.** `Between`, with `exists_part`, `takeBytes?_eq_some_iff` and `slice?_eq_some_iff`.
-/

namespace Formula.Text

variable {s t u v w p : List Char} {n first last : Nat}

/-! ## Cuts -/

/-- Only a text without characters has no bytes. -/
theorem byteLength_eq_zero_iff : byteLength s = 0 ↔ s = [] := by
  constructor
  · intro hzero
    have hlength := length_le_byteLength s
    exact List.length_eq_zero_iff.1 (by omega)
  · rintro rfl
    rfl

/-- What follows a cut is what remains when a beginning with so many bytes is left out. -/
theorem dropBytes?_eq_some_iff : dropBytes? n s = some t ↔ ∃ u, s = u ++ t ∧ byteLength u = n := by
  constructor
  · intro h
    fun_induction dropBytes? n s with
    | case1 s =>
        cases h
        exact ⟨[], rfl, rfl⟩
    | case2 => cases h
    | case3 n c rest hle ih =>
        obtain ⟨u, rfl, hu⟩ := ih h
        refine ⟨c :: u, rfl, ?_⟩
        rw [byteLength_cons, hu]
        omega
    | case4 => cases h
  · rintro ⟨u, rfl, rfl⟩
    exact dropBytes?_append u t

/-- A boundary is where some beginning of the text ends. -/
theorem isBoundary_iff : isBoundary s n ↔ ∃ u v, s = u ++ v ∧ byteLength u = n := by
  rw [isBoundary, Option.isSome_iff_exists]
  constructor
  · rintro ⟨v, hv⟩
    obtain ⟨u, hsplit, hu⟩ := dropBytes?_eq_some_iff.1 hv
    exact ⟨u, v, hsplit, hu⟩
  · rintro ⟨u, v, hsplit, hu⟩
    exact ⟨v, dropBytes?_eq_some_iff.2 ⟨u, hsplit, hu⟩⟩

theorem isBoundary_append (u v : List Char) : isBoundary (u ++ v) (byteLength u) :=
  isBoundary_iff.2 ⟨u, v, rfl, rfl⟩

/-! ## Order -/

/-- What adds no bytes to a text has no characters. -/
theorem eq_nil_of_byteLength_append_le (h : byteLength (s ++ w) ≤ byteLength s) : w = [] := by
  rw [byteLength_append] at h
  exact byteLength_eq_zero_iff.1 (by omega)

/-- A beginning with no more bytes than another begins it. -/
theorem prefix_of_byteLength_le (h : u ++ v = s ++ t) (hle : byteLength u ≤ byteLength s) : u <+: s := by
  rcases List.append_eq_append_iff.1 h with ⟨w, rfl, -⟩ | ⟨w, rfl, -⟩
  · exact List.prefix_append u w
  · -- the first is the longer one, and still has no more bytes
    obtain rfl := eq_nil_of_byteLength_append_le hle
    exact ⟨[], by rw [List.append_nil, List.append_nil]⟩

/-- A text is cut at a boundary in one way only. -/
theorem append_inj_of_byteLength (h : u ++ v = s ++ t) (hbytes : byteLength u = byteLength s) :
    u = s ∧ v = t := by
  obtain ⟨w, rfl⟩ := prefix_of_byteLength_le h (Nat.le_of_eq hbytes)
  obtain rfl := eq_nil_of_byteLength_append_le (Nat.le_of_eq hbytes.symm)
  rw [List.append_nil] at h ⊢
  exact ⟨rfl, List.append_cancel_left h⟩

/-! ## Parts -/

/-- The piece is the part of the text from one offset to another. -/
def Between (text : List Char) (first last : Nat) (p : List Char) : Prop :=
  ∃ before after, text = before ++ (p ++ after) ∧ byteLength before = first ∧
    byteLength (before ++ p) = last

theorem Between.isBoundary (h : Between s first last p) : isBoundary s first ∧ isBoundary s last := by
  obtain ⟨u, v, rfl, rfl, rfl⟩ := h
  refine ⟨isBoundary_append u (p ++ v), ?_⟩
  rw [← List.append_assoc]
  exact isBoundary_append (u ++ p) v

/-- There is a part of the text from each boundary to each later one. -/
theorem exists_part (hfirst : isBoundary s first) (hlast : isBoundary s last) (h : first ≤ last) :
    ∃ p, Between s first last p := by
  obtain ⟨u, v, rfl, rfl⟩ := isBoundary_iff.1 hfirst
  obtain ⟨w, t, hsplit, rfl⟩ := isBoundary_iff.1 hlast
  obtain ⟨p, rfl⟩ := prefix_of_byteLength_le hsplit h
  rw [List.append_assoc, List.append_right_inj] at hsplit
  exact ⟨p, u, t, by rw [hsplit], rfl, rfl⟩

/-- What is taken is a beginning with so many bytes. -/
theorem takeBytes?_eq_some_iff : takeBytes? n s = some p ↔ p <+: s ∧ byteLength p = n := by
  constructor
  · intro h
    fun_induction takeBytes? n s generalizing p with
    | case1 s =>
        cases h
        exact ⟨List.nil_prefix, rfl⟩
    | case2 => cases h
    | case3 n c rest hle ih =>
        obtain ⟨q, hq, rfl⟩ := Option.map_eq_some_iff.1 h
        obtain ⟨hbegins, hbytes⟩ := ih hq
        refine ⟨(List.prefix_cons_inj c).2 hbegins, ?_⟩
        rw [byteLength_cons, hbytes]
        omega
    | case4 => cases h
  · rintro ⟨⟨t, rfl⟩, rfl⟩
    induction p with
    | nil => rw [byteLength_nil, takeBytes?]
    | cons c p ih =>
        have hc := c.utf8Size_pos
        obtain ⟨n, hn⟩ : ∃ n, c.utf8Size + byteLength p = n + 1 :=
          ⟨_, (Nat.succ_pred (by omega)).symm⟩
        have hsub : n + 1 - c.utf8Size = byteLength p := by omega
        rw [byteLength_cons, hn, List.cons_append, takeBytes?, if_pos (by omega), hsub, ih]
        rfl

/-- A slice is the part of the text between its offsets. -/
theorem slice?_eq_some_iff : slice? first last s = some p ↔ Between s first last p := by
  unfold slice? Between
  split
  · next hle =>
      rw [Option.bind_eq_some_iff]
      constructor
      · rintro ⟨rest, hdrop, htake⟩
        obtain ⟨u, rfl, hu⟩ := dropBytes?_eq_some_iff.1 hdrop
        obtain ⟨⟨v, rfl⟩, hp⟩ := takeBytes?_eq_some_iff.1 htake
        refine ⟨u, v, rfl, hu, ?_⟩
        rw [byteLength_append, hu, hp]
        omega
      · rintro ⟨u, v, rfl, hu, hp⟩
        rw [byteLength_append, hu] at hp
        refine ⟨p ++ v, dropBytes?_eq_some_iff.2 ⟨u, rfl, hu⟩, takeBytes?_eq_some_iff.2 ?_⟩
        exact ⟨List.prefix_append p v, by omega⟩
  · next hlt =>
      constructor
      · intro h
        cases h
      · rintro ⟨u, v, rfl, hu, hp⟩
        rw [byteLength_append, hu] at hp
        omega

/-- There is only one part of a text between two offsets. -/
theorem Between.unique {q : List Char} (h : Between s first last p) (h' : Between s first last q) :
    p = q := by
  have heq := (slice?_eq_some_iff.2 h).symm.trans (slice?_eq_some_iff.2 h')
  exact Option.some.inj heq

end Formula.Text
