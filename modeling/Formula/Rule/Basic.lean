import Formula.Text.Quoted
import Formula.Text.Bytes

/-!
# `Formula.Rule.Basic` — rules that accept characters and short texts

A rule is a set of characters, a named predicate on characters, or a set of strings. A set of
strings accepts a character when one of its members starts with it, and a text when it is a member.

## Contents
- **Rules.** `Predicate`, compared by name; `Rule`; the checked constructors `Rule.ofChars` and
  `Rule.ofStrings`, which refuse sets that could never match.
- **Matching.** `Rule.acceptsChar`, `Rule.acceptsText`, and the same for a list of rules.
- **Bound.** `Rule.maxBytes`: no accepted text is longer.
- **Listing.** `Rule.describe`.
-/

namespace Formula

/-! ## Rules -/

/-- A test on characters that is known by its name. -/
structure Predicate where
  name : String
  test : Char → Bool

/-- Predicates are the same when their names are. -/
instance : BEq Predicate where
  beq p q := p.name == q.name

/-- A predicate is listed by its name alone. -/
def Predicate.describe (p : Predicate) : String := s!"Predicate({p.name})"

/-- What a cursor can be asked to accept. -/
inductive Rule where
  /-- Any one character of a set. -/
  | chars (set : String)
  /-- Any one character that passes a test. -/
  | predicate (test : Predicate)
  /-- Any member of a set of strings. -/
  | strings (members : List String)
deriving BEq

namespace Rule

/-- Why a set is refused as a rule. -/
inductive Defect where
  | emptyCharacterSet
  | emptyStringSet
  | emptyMember
deriving DecidableEq, Repr

/-- The wording of a refusal. -/
def Defect.message : Defect → String
  | .emptyCharacterSet => "character set rule must not be empty"
  | .emptyStringSet => "string set rule must not be empty"
  | .emptyMember => "string set rule must not contain an empty string"

/-- A set of characters as a rule; it must have a member. -/
def ofChars (set : String) : Except Defect Rule :=
  if set.isEmpty then .error .emptyCharacterSet else .ok (.chars set)

/-- A set of strings as a rule; it must have a member, and no empty one. -/
def ofStrings (members : List String) : Except Defect Rule :=
  if members.isEmpty then .error .emptyStringSet
  else if members.any String.isEmpty then .error .emptyMember
  else .ok (.strings members)

/-! ## Matching -/

/-- The rule accepts a character. -/
def acceptsChar (c : Char) : Rule → Bool
  | .chars set => set.toList.contains c
  | .predicate p => p.test c
  | .strings members => members.any fun m => m.toList.head? == some c

/-- The rule accepts exactly this text. -/
def acceptsText (text : List Char) : Rule → Bool
  | .chars set =>
      match text with
      | [c] => set.toList.contains c
      | _ => false
  | .predicate p =>
      match text with
      | [c] => p.test c
      | _ => false
  | .strings members => members.any fun m => m.toList == text

/-- Some rule of the list accepts the character. -/
def anyAcceptsChar (rules : List Rule) (c : Char) : Bool :=
  rules.any (acceptsChar c)

/-- Some rule of the list accepts exactly this text. -/
def anyAcceptsText (rules : List Rule) (text : List Char) : Bool :=
  rules.any (acceptsText text)

/-! ## Bound -/

/-- The greatest number of a list, or zero. -/
def greatest (sizes : List Nat) : Nat := sizes.max?.getD 0

/-- The most bytes that a text accepted by the rule can have. -/
def maxBytes : Rule → Nat
  | .chars set => greatest (set.toList.map Char.utf8Size)
  | .predicate _ => 4
  | .strings members => greatest (members.map fun m => Text.byteLength m.toList)

/-! ## Listing -/

/-- The rule as it is listed in diagnostics: its form, around what it is made of. -/
def describe : Rule → String
  | .chars set => s!"Chars({Text.quote set})"
  | .predicate p => s!"Predicate({p.describe})"
  | .strings members => "Strings([" ++ ", ".intercalate (members.map Text.quote) ++ "])"

end Rule

end Formula
