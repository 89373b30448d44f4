/-!
# `Formula.Room` — what memory can hold

A table or a text lies in one block of memory, and a block has no more bytes than a signed word of 64
bits can count. Whatever would need a larger block is refused before any of it is built. Blocks up to
that size are taken to be available.

## Contents
- **Refusal.** `NoRoom`.
- **Blocks.** `blockLimit`, `requireRoom`, with `requireRoom_eq_ok_iff`.
-/

namespace Formula

/-! ## Refusal -/

/-- A block is larger than any block can be. -/
structure NoRoom where
  /-- How many bytes were asked for. -/
  bytes : Nat
deriving DecidableEq, Repr

/-! ## Blocks -/

/-- The most bytes of one block. -/
def blockLimit : Nat := Nat.pow 2 63 - 1

/-- Asks for a block of so many places with so many bytes each. -/
def requireRoom (places placeBytes : Nat) : Except NoRoom Unit :=
  if places * placeBytes ≤ blockLimit then .ok () else .error ⟨places * placeBytes⟩

/-- A block is granted exactly when its bytes are within the limit. -/
theorem requireRoom_eq_ok_iff {places placeBytes : Nat} :
    requireRoom places placeBytes = .ok () ↔ places * placeBytes ≤ blockLimit := by
  unfold requireRoom
  split
  · next fits => exact ⟨fun _ => fits, fun _ => rfl⟩
  · next large =>
      constructor
      · intro granted
        cases granted
      · intro fits
        exact absurd fits large

end Formula
