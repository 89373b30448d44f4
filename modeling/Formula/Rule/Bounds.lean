import Formula.Rule.Longest

/-!
# `Formula.Rule.Bounds` — bounds that are worked out once, and the search that uses them

The bound of a rule is worked out when the rule is asked for first, and kept for the next request. Rules
that count as the same share what is kept: predicates of one name do, whatever they test. The search for
the longest text that a list of rules accepts takes its bound from there. It tries one length in bytes
after the other, longest first, and passes over lengths that end inside a character.

## Contents
- **Kept bounds.** `Bounds`, `Bounds.ask`, `Bounds.askAll`; `Bounds.after` some requests.
- **Search.** `searchDown`, `Bounds.longestBytesAt`.
-/

namespace Formula.Rule

open Text

/-! ## Kept bounds -/

/-- The bounds of the rules that were asked for so far. -/
structure Bounds where
  /-- Each rule with its bound, the last that was asked for first. -/
  entries : List (Rule × Nat)

namespace Bounds

/-- Nothing was asked for yet. -/
def empty : Bounds := ⟨[]⟩

/-- The bound that is kept for a rule, or for one that counts as the same. -/
def find? (b : Bounds) (r : Rule) : Option Nat :=
  (b.entries.find? fun entry => entry.1 == r).map (·.2)

/-- The bound of a rule; if none is kept, it is worked out and kept from then on. -/
def ask (b : Bounds) (r : Rule) : Nat × Bounds :=
  match b.find? r with
  | some n => (n, b)
  | none => (r.maxBytes, ⟨(r, r.maxBytes) :: b.entries⟩)

/-- The bounds of rules that are asked for one after the other. -/
def askAll (b : Bounds) : List Rule → List Nat × Bounds
  | [] => ([], b)
  | r :: rest =>
      let (n, b₁) := b.ask r
      let (ns, b₂) := b₁.askAll rest
      (n :: ns, b₂)

/-- What is kept after some rules were asked for. -/
def after (asked : List Rule) : Bounds := (empty.askAll asked).2

end Bounds

/-! ## Search -/

/-- The length of the longest accepted text at an offset, among those of at most so many bytes, or zero.
    An offset inside a character makes every cut fail that is tried. -/
def searchDown (rules : List Rule) (text : List Char) (offset : Nat) : Nat → Except MidCharacter Nat
  | 0 => .ok 0
  | n + 1 =>
      if isBoundary text (offset + (n + 1)) then
        match slice? offset (offset + (n + 1)) text with
        | none => .error ⟨offset⟩
        | some piece =>
            if anyAcceptsText rules piece then .ok (n + 1) else searchDown rules text offset n
      else searchDown rules text offset n

/-- The length of the longest accepted text at an offset, and the bounds that are kept afterwards. -/
def Bounds.longestBytesAt (b : Bounds) (rules : List Rule) (text : List Char) (offset : Nat) :
    Except MidCharacter Nat × Bounds :=
  let (sizes, b') := b.askAll rules
  (searchDown rules text offset (min (greatest sizes) (byteLength text - offset)), b')

end Formula.Rule
