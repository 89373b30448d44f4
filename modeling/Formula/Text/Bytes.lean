/-!
# `Formula.Text.Bytes` — lengths and offsets counted in bytes

Offsets and lengths count the bytes of a text in UTF-8. An offset is a *boundary* when it falls
between two characters, or at either end.

## Contents
- **Length.** `byteLength`, additive over `++`.
- **Cutting.** `dropBytes?` cuts at a boundary and refuses any other offset; `isBoundary`.
- **Slices.** `takeBytes?`, and `slice?` between two offsets.
-/

namespace Formula.Text

/-! ## Length -/

/-- The number of bytes of a text. -/
def byteLength : List Char → Nat
  | [] => 0
  | c :: rest => c.utf8Size + byteLength rest

@[simp] theorem byteLength_nil : byteLength [] = 0 := rfl

@[simp] theorem byteLength_cons (c : Char) (rest : List Char) :
    byteLength (c :: rest) = c.utf8Size + byteLength rest := rfl

@[simp] theorem byteLength_append (s t : List Char) :
    byteLength (s ++ t) = byteLength s + byteLength t := by
  induction s with
  | nil => simp
  | cons c s ih => simp [ih, Nat.add_assoc]

@[simp] theorem byteLength_reverse (s : List Char) : byteLength s.reverse = byteLength s := by
  induction s with
  | nil => rfl
  | cons c s ih => simp [ih, Nat.add_comm]

/-- A text has at least as many bytes as characters. -/
theorem length_le_byteLength (s : List Char) : s.length ≤ byteLength s := by
  induction s with
  | nil => simp
  | cons c s ih =>
      have := c.utf8Size_pos
      simp only [List.length_cons, byteLength_cons]
      omega

/-! ## Cutting -/

/-- The text from the given offset on, or nothing when the offset falls inside a character or past
    the end. -/
def dropBytes? : Nat → List Char → Option (List Char)
  | 0, s => some s
  | _ + 1, [] => none
  | n + 1, c :: rest => if c.utf8Size ≤ n + 1 then dropBytes? (n + 1 - c.utf8Size) rest else none

/-- The offset falls between two characters of the text, or at one of its ends. -/
def isBoundary (s : List Char) (offset : Nat) : Bool := (dropBytes? offset s).isSome

/-- The offset after a first part cuts off exactly that part. -/
theorem dropBytes?_append (s t : List Char) : dropBytes? (byteLength s) (s ++ t) = some t := by
  induction s with
  | nil => simp [dropBytes?]
  | cons c s ih =>
      have hc := c.utf8Size_pos
      obtain ⟨n, hn⟩ : ∃ n, c.utf8Size + byteLength s = n + 1 := ⟨_, (Nat.succ_pred (by omega)).symm⟩
      have hle : c.utf8Size ≤ n + 1 := by omega
      have hsub : n + 1 - c.utf8Size = byteLength s := by omega
      simp [byteLength_cons, hn, dropBytes?, hle, hsub, ih]

/-! ## Slices -/

/-- The first part of a text that has so many bytes, or nothing when it would end inside a character
    or past the end. -/
def takeBytes? : Nat → List Char → Option (List Char)
  | 0, _ => some []
  | _ + 1, [] => none
  | n + 1, c :: rest =>
      if c.utf8Size ≤ n + 1 then (takeBytes? (n + 1 - c.utf8Size) rest).map (c :: ·) else none

/-- The part of a text from one offset to another, or nothing when one of them is no boundary or when
    they are not in order. -/
def slice? (first last : Nat) (s : List Char) : Option (List Char) :=
  if first ≤ last then (dropBytes? first s).bind (takeBytes? (last - first)) else none

end Formula.Text
