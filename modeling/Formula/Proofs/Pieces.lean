import Mathlib.Data.List.TakeWhile
import Formula.Lexer.State
import Formula.Proofs.Alphabet
import Formula.Proofs.Longest

/-!
# `Formula.Proofs.Pieces` — what stands at the beginning of a text

Each reading that a cursor can do is described by the piece of text that it reads: a beginning of what
lies ahead, empty when the reading fails. These functions know nothing of cursors, undo or marks.

## Contents
- **Beginnings.** `prefix_append`: pieces read one after the other are a beginning again.
- **Simple pieces.** `initial`, `stretch`.
- **Numbers.** `fraction`, `unsigned`, `decimal`, `exponent`, `numeral`.
- **Other tokens.** `name`, `operator`.
- **What a state reads.** `Lexer.State.piece`, of the kind `Lexer.State.kind`; `Lexer.State.prefix_piece`.
-/

namespace Formula.Piece

open Rule

variable {rules : List Rule} {s p q : List Char} {c : Char}

/-! ## Beginnings -/

/-- A piece, and a piece of what follows it. -/
theorem prefix_append (hp : p <+: s) (hq : q <+: s.drop p.length) : p ++ q <+: s := by
  obtain ⟨t, rfl⟩ := hp
  rw [List.drop_left] at hq
  exact (List.prefix_append_right_inj p).2 hq

/-! ## Simple pieces -/

@[simp] theorem anyAcceptsChar_singleton {r : Rule} :
    anyAcceptsChar [r] c = r.acceptsChar c := by
  simp [anyAcceptsChar]

/-- More rules accept no less. -/
theorem anyAcceptsChar_of_subset {rules' : List Rule} (hsub : rules ⊆ rules')
    (h : anyAcceptsChar rules c) : anyAcceptsChar rules' c := by
  obtain ⟨r, hr, hc⟩ := List.any_eq_true.1 h
  exact List.any_eq_true.2 ⟨r, hsub hr, hc⟩

/-- The first character, if some rule accepts it. -/
def initial (rules : List Rule) (s : List Char) : List Char :=
  (s.take 1).takeWhile (anyAcceptsChar rules)

/-- The characters up to the first that no rule accepts. -/
def stretch (rules : List Rule) (s : List Char) : List Char :=
  s.takeWhile (anyAcceptsChar rules)

theorem prefix_initial : initial rules s <+: s :=
  (List.takeWhile_prefix _).trans (List.take_prefix 1 s)

theorem prefix_stretch : stretch rules s <+: s :=
  List.takeWhile_prefix _

@[simp] theorem initial_nil : initial rules [] = [] := rfl

@[simp] theorem stretch_nil : stretch rules [] = [] := rfl

theorem initial_cons_of_accepts (h : anyAcceptsChar rules c) : initial rules (c :: s) = [c] := by
  simp [initial, h]

theorem initial_cons_of_not (h : ¬ anyAcceptsChar rules c) : initial rules (c :: s) = [] := by
  simp [initial, h]

theorem stretch_cons_of_accepts (h : anyAcceptsChar rules c) :
    stretch rules (c :: s) = c :: stretch rules s := by
  simp [stretch, h]

theorem stretch_cons_of_not (h : ¬ anyAcceptsChar rules c) : stretch rules (c :: s) = [] := by
  simp [stretch, h]

theorem accepts_of_mem_stretch (h : c ∈ stretch rules s) : anyAcceptsChar rules c :=
  List.mem_takeWhile_imp h

theorem accepts_of_mem_initial (h : c ∈ initial rules s) : anyAcceptsChar rules c :=
  List.mem_takeWhile_imp h

/-- What follows a stretch does not go on with an accepted character. -/
theorem not_accepts_of_drop_stretch (h : s.drop (stretch rules s).length = c :: p) :
    ¬ anyAcceptsChar rules c := by
  have hdrop : s.drop (stretch rules s).length = s.dropWhile (anyAcceptsChar rules) := by
    have hsplit : stretch rules s ++ s.dropWhile (anyAcceptsChar rules) = s :=
      List.takeWhile_append_dropWhile
    have hcut := congrArg (List.drop (stretch rules s).length) hsplit
    rw [List.drop_left] at hcut
    exact hcut.symm
  have hhead := List.head?_dropWhile_not (anyAcceptsChar rules) s
  rw [hdrop] at h
  rw [h] at hhead
  simpa using hhead

/-- A stretch ends where the first character is not accepted. -/
theorem stretch_append (hp : ∀ x ∈ p, anyAcceptsChar rules x)
    (hs : ∀ x ∈ s.head?, ¬ anyAcceptsChar rules x) : stretch rules (p ++ s) = p := by
  unfold stretch
  rw [List.takeWhile_append_of_pos hp]
  cases s with
  | nil => simp
  | cons x s => simp [hs x rfl]

/-! ## Numbers -/

/-- A point and at least one digit. -/
def fraction (s : List Char) : List Char :=
  let p := initial [Alphabet.point] s
  let d := stretch [Alphabet.digit] (s.drop p.length)
  if p = [] ∨ d = [] then [] else p ++ d

/-- Digits with a fraction, or one of them alone. -/
def unsigned (s : List Char) : List Char :=
  let d := stretch [Alphabet.digit] s
  d ++ fraction (s.drop d.length)

/-- A sign and blanks before an unsigned number. -/
def decimal (s : List Char) : List Char :=
  let a := initial [Alphabet.sign] s
  let b := stretch [Alphabet.blank] (s.drop a.length)
  let u := unsigned ((s.drop a.length).drop b.length)
  if u = [] then [] else a ++ (b ++ u)

/-- Blanks, an exponent letter and a decimal. -/
def exponent (s : List Char) : List Char :=
  let b := stretch [Alphabet.blank] s
  let x := initial [Alphabet.exponent] (s.drop b.length)
  let m := decimal ((s.drop b.length).drop x.length)
  if x = [] ∨ m = [] then [] else b ++ (x ++ m)

/-- A decimal and the exponent after it, if there is one. -/
def numeral (s : List Char) : List Char :=
  let m := decimal s
  if m = [] then [] else m ++ exponent (s.drop m.length)

theorem prefix_fraction (s : List Char) : fraction s <+: s := by
  unfold fraction
  dsimp only
  split
  · exact List.nil_prefix
  · exact prefix_append prefix_initial prefix_stretch

theorem prefix_unsigned (s : List Char) : unsigned s <+: s :=
  prefix_append prefix_stretch (prefix_fraction _)

theorem prefix_decimal (s : List Char) : decimal s <+: s := by
  unfold decimal
  dsimp only
  split
  · exact List.nil_prefix
  · exact prefix_append prefix_initial (prefix_append prefix_stretch (prefix_unsigned _))

theorem prefix_exponent (s : List Char) : exponent s <+: s := by
  unfold exponent
  dsimp only
  split
  · exact List.nil_prefix
  · exact prefix_append prefix_stretch (prefix_append prefix_initial (prefix_decimal _))

theorem prefix_numeral (s : List Char) : numeral s <+: s := by
  unfold numeral
  dsimp only
  split
  · exact List.nil_prefix
  · exact prefix_append (prefix_decimal s) (prefix_exponent _)

theorem numeral_eq_nil : numeral s = [] ↔ decimal s = [] := by
  unfold numeral
  dsimp only
  split
  · next h => simp [h]
  · next h => simp [h]

/-- The rules for the characters of a number. -/
def numericRules : List Rule :=
  [Alphabet.sign, Alphabet.blank, Alphabet.digit, Alphabet.point, Alphabet.exponent]

theorem accepts_of_mem_fraction (h : c ∈ fraction s) : anyAcceptsChar numericRules c := by
  unfold fraction at h
  dsimp only at h
  split at h
  · cases h
  · rcases List.mem_append.1 h with h | h
    · exact anyAcceptsChar_of_subset (by simp [numericRules]) (accepts_of_mem_initial h)
    · exact anyAcceptsChar_of_subset (by simp [numericRules]) (accepts_of_mem_stretch h)

theorem accepts_of_mem_unsigned (h : c ∈ unsigned s) : anyAcceptsChar numericRules c := by
  rcases List.mem_append.1 h with h | h
  · exact anyAcceptsChar_of_subset (by simp [numericRules]) (accepts_of_mem_stretch h)
  · exact accepts_of_mem_fraction h

theorem accepts_of_mem_decimal (h : c ∈ decimal s) : anyAcceptsChar numericRules c := by
  unfold decimal at h
  dsimp only at h
  split at h
  · cases h
  · rcases List.mem_append.1 h with h | h
    · exact anyAcceptsChar_of_subset (by simp [numericRules]) (accepts_of_mem_initial h)
    rcases List.mem_append.1 h with h | h
    · exact anyAcceptsChar_of_subset (by simp [numericRules]) (accepts_of_mem_stretch h)
    · exact accepts_of_mem_unsigned h

theorem accepts_of_mem_exponent (h : c ∈ exponent s) : anyAcceptsChar numericRules c := by
  unfold exponent at h
  dsimp only at h
  split at h
  · cases h
  · rcases List.mem_append.1 h with h | h
    · exact anyAcceptsChar_of_subset (by simp [numericRules]) (accepts_of_mem_stretch h)
    rcases List.mem_append.1 h with h | h
    · exact anyAcceptsChar_of_subset (by simp [numericRules]) (accepts_of_mem_initial h)
    · exact accepts_of_mem_decimal h

/-- Every character of a number is accepted by one of these rules. -/
theorem accepts_of_mem_numeral (h : c ∈ numeral s) : anyAcceptsChar numericRules c := by
  unfold numeral at h
  dsimp only at h
  split at h
  · cases h
  · rcases List.mem_append.1 h with h | h
    · exact accepts_of_mem_decimal h
    · exact accepts_of_mem_exponent h

/-! ## Other tokens -/

/-- A letter or underscore, and the letters, digits and underscores after it. -/
def name (s : List Char) : List Char :=
  let x := initial [Alphabet.underscore, Alphabet.letter] s
  if x = [] then []
  else x ++ stretch [Alphabet.underscore, Alphabet.letter, Alphabet.digit] (s.drop x.length)

/-- The longest operator. -/
def operator (s : List Char) : List Char :=
  (longest? [Alphabet.operator] s).getD []

theorem prefix_name (s : List Char) : name s <+: s := by
  unfold name
  dsimp only
  split
  · exact List.nil_prefix
  · exact prefix_append prefix_initial prefix_stretch

theorem accepts_of_mem_name (h : c ∈ name s) :
    anyAcceptsChar [Alphabet.underscore, Alphabet.letter, Alphabet.digit] c := by
  unfold name at h
  dsimp only at h
  split at h
  · cases h
  · rcases List.mem_append.1 h with h | h
    · exact anyAcceptsChar_of_subset (by simp) (accepts_of_mem_initial h)
    · exact accepts_of_mem_stretch h

/-- An operator that is found is one. -/
theorem acceptsText_operator (h : operator s ≠ []) : Alphabet.operator.acceptsText (operator s) := by
  unfold operator at h ⊢
  cases hl : longest? [Alphabet.operator] s with
  | none =>
      rw [hl] at h
      exact absurd rfl h
  | some p => simpa [anyAcceptsText] using (longest?_eq_some hl).1

/-- No operator at the beginning of the text is longer. -/
theorem length_le_operator (hq : Alphabet.operator.acceptsText q) (hqs : q <+: s) :
    q.length ≤ (operator s).length := by
  have hacc : anyAcceptsText [Alphabet.operator] q := by simpa [anyAcceptsText] using hq
  unfold operator
  cases hl : longest? [Alphabet.operator] s with
  | none =>
      rw [longest?_eq_none hl hacc hqs]
      exact Nat.zero_le _
  | some p => exact (longest?_eq_some hl).2.2.2 q hacc hqs

theorem prefix_operator (s : List Char) : operator s <+: s := by
  unfold operator
  cases h : longest? [Alphabet.operator] s with
  | none => exact List.nil_prefix
  | some p => exact (longest?_eq_some h).2.2.1

end Formula.Piece

namespace Formula.Lexer.State

open Piece

/-! ## What a state reads -/

/-- The kind of the tokens that a state produces while the source goes on. -/
def kind : State → Token.Kind
  | dispatch => .newLine
  | number => .number
  | operator => .operator
  | punctuation => .punctuation
  | name => .name

theorem isTerminal_kind (st : State) : st.kind.isTerminal = false := by
  cases st <;> rfl

/-- The piece that a state makes a token of, when no blanks stand before it. -/
def piece : State → List Char → List Char
  | dispatch => initial [Alphabet.newLine]
  | number => numeral
  | operator => Piece.operator
  | punctuation => initial [Alphabet.punctuation]
  | name => Piece.name

/-- The rules for the characters of a state's piece. -/
def rules : State → List Rule
  | dispatch => [Alphabet.newLine]
  | number => numericRules
  | operator => [Alphabet.operator]
  | punctuation => [Alphabet.punctuation]
  | name => [Alphabet.underscore, Alphabet.letter, Alphabet.digit]

theorem accepts_of_mem_piece {st : State} {s : List Char} {c : Char} (h : c ∈ st.piece s) :
    Rule.anyAcceptsChar st.rules c := by
  cases st with
  | dispatch => exact accepts_of_mem_initial h
  | number => exact accepts_of_mem_numeral h
  | operator =>
      have hop := acceptsText_operator (List.ne_nil_of_mem h)
      exact anyAcceptsChar_singleton.trans (Alphabet.operator_of_mem hop h)
  | punctuation => exact accepts_of_mem_initial h
  | name => exact accepts_of_mem_name h

theorem prefix_piece (st : State) (s : List Char) : st.piece s <+: s := by
  cases st with
  | dispatch => exact prefix_initial
  | number => exact prefix_numeral s
  | operator => exact prefix_operator s
  | punctuation => exact prefix_initial
  | name => exact prefix_name s

end Formula.Lexer.State
