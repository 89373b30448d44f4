/-!
# `Formula.Json.Lexeme` — the smallest parts of a JSON text

JSON consists of brackets, colons, commas, texts, numbers and three words, with blanks between them.
Blanks are space, tab, line feed and carriage return.

A text may hold characters written by their number in the sixteen-bit code of characters; those
beyond the sixteen bits are written as a pair. Half a pair alone is well-formed as a part of JSON,
but the text then denotes no characters.

## Contents
- **Lexemes.** `Number`, `Lexeme`.
- **Texts.** `Piece`, `scanText`, `joinPieces`.
- **Numbers.** `scanNumber`.
- **Whole inputs.** `Lexeme.ofChars?`.
-/

namespace Formula.Json

/-! ## Lexemes -/

/-- A number, as far as it matters. -/
inductive Number where
  /-- Digits only. -/
  | natural (value : Nat)
  /-- With a sign, a fraction or an exponent. -/
  | other
deriving DecidableEq, Repr

/-- The smallest parts of a JSON text. -/
inductive Lexeme where
  | openArray
  | closeArray
  | openObject
  | closeObject
  | colon
  | comma
  | null
  | boolean (value : Bool)
  | number (value : Number)
  /-- A text, or nothing when half a pair stands in it alone. -/
  | text (value : Option String)
deriving DecidableEq, Repr

/-! ## Texts -/

/-- A part of a text: a character, or sixteen bits given by their number. -/
inductive Piece where
  | char (value : Char)
  | unit (value : Nat)
deriving DecidableEq, Repr

/-- The value of a digit in base sixteen, of either case. -/
def hexValue? (c : Char) : Option Nat :=
  if c.isDigit then some (c.toNat - '0'.toNat)
  else if 'a' ≤ c ∧ c ≤ 'f' then some (c.toNat - 'a'.toNat + 10)
  else if 'A' ≤ c ∧ c ≤ 'F' then some (c.toNat - 'A'.toNat + 10)
  else none

/-- The value of four digits in base sixteen. -/
def hexUnit? (a b c d : Char) : Option Nat := do
  return (((← hexValue? a) * 16 + (← hexValue? b)) * 16 + (← hexValue? c)) * 16 + (← hexValue? d)

/-- The character that a short escape stands for. -/
def shortEscape? (c : Char) : Option Char :=
  if c = '"' ∨ c = '\\' ∨ c = '/' then some c
  else if c = 'b' then some '\x08'
  else if c = 'f' then some '\x0c'
  else if c = 'n' then some '\n'
  else if c = 'r' then some '\r'
  else if c = 't' then some '\t'
  else none

/-- The pieces of a text up to its closing quote, and what follows it. -/
def scanText : List Char → Option (List Piece × List Char)
  | [] => none
  | '"' :: rest => some ([], rest)
  | '\\' :: 'u' :: a :: b :: c :: d :: rest => do
      let n ← hexUnit? a b c d
      let (pieces, rest) ← scanText rest
      return (.unit n :: pieces, rest)
  | '\\' :: c :: rest => do
      let x ← shortEscape? c
      let (pieces, rest) ← scanText rest
      return (.char x :: pieces, rest)
  | c :: rest =>
      if c.toNat < 0x20 then none
      else do
        let (pieces, rest) ← scanText rest
        return (.char c :: pieces, rest)

/-- The sixteen bits are the first half of a pair. -/
def isHighHalf (n : Nat) : Bool := 0xD800 ≤ n && n ≤ 0xDBFF

/-- The sixteen bits are the second half of a pair. -/
def isLowHalf (n : Nat) : Bool := 0xDC00 ≤ n && n ≤ 0xDFFF

/-- The characters of a text, unless half a pair stands in it alone. -/
def joinPieces : List Piece → Option (List Char)
  | [] => some []
  | .char c :: rest => (joinPieces rest).map (c :: ·)
  | .unit high :: .unit low :: rest =>
      if isHighHalf high then
        if isLowHalf low then
          (joinPieces rest).map
            (Char.ofNat (0x10000 + (high - 0xD800) * 0x400 + (low - 0xDC00)) :: ·)
        else none
      else if isLowHalf high then none
      else (joinPieces (.unit low :: rest)).map (Char.ofNat high :: ·)
  | .unit n :: rest =>
      if isHighHalf n || isLowHalf n then none
      else (joinPieces rest).map (Char.ofNat n :: ·)

/-! ## Numbers -/

/-- What follows a digit and all digits after it. -/
def scanDigits (text : List Char) : Option (List Char) :=
  match text with
  | c :: rest => if c.isDigit then some (rest.dropWhile Char.isDigit) else none
  | [] => none

/-- What follows an optional fraction; a point must be followed by a digit. -/
def scanFraction : List Char → Option (List Char)
  | '.' :: rest => scanDigits rest
  | text => some text

/-- What follows an optional exponent; its mark must be followed by a digit, after a sign if any. -/
def scanExponent : List Char → Option (List Char)
  | c :: rest =>
      if c = 'e' ∨ c = 'E' then
        match rest with
        | '+' :: digits => scanDigits digits
        | '-' :: digits => scanDigits digits
        | digits => scanDigits digits
      else some (c :: rest)
  | [] => some []

/-- The whole digits of a number: a zero alone, or digits that do not start with zero. -/
def scanWhole : List Char → Option (Nat × List Char)
  | '0' :: rest => some (0, rest)
  | c :: rest =>
      if c.isDigit then
        let digits := c :: rest.takeWhile Char.isDigit
        some (digits.foldl (fun n d => 10 * n + (d.toNat - '0'.toNat)) 0,
          rest.dropWhile Char.isDigit)
      else none
  | [] => none

/-- A number at the start of a text, and what follows it. It is natural when it has no sign and
    nothing was read after its whole digits. -/
def scanNumber (text : List Char) : Option (Number × List Char) :=
  match text with
  | '-' :: rest => do
      let (_, rest) ← scanWhole rest
      return (.other, ← scanExponent (← scanFraction rest))
  | _ => do
      let (n, rest) ← scanWhole text
      let last ← scanExponent (← scanFraction rest)
      return (if last.length = rest.length then .natural n else .other, last)

/-! ## Progress -/

theorem dropWhile_length_le (p : Char → Bool) (s : List Char) :
    (s.dropWhile p).length ≤ s.length :=
  (List.dropWhile_sublist p).length_le

/-- What follows a text is shorter than the text with its closing quote. -/
theorem scanText_shorter {s rest : List Char} {pieces : List Piece}
    (h : scanText s = some (pieces, rest)) : rest.length < s.length := by
  fun_induction scanText s generalizing pieces rest with
  | case1 => cases h
  | case2 => cases h; simp
  | case3 a b c d s ih =>
      simp only [Option.bind_eq_bind, Option.bind_eq_some_iff, Option.pure_def,
        Option.some.injEq, Prod.exists, Prod.mk.injEq] at h
      obtain ⟨_, _, _, _, hs, _, rfl⟩ := h
      have := ih hs
      simp only [List.length_cons]
      omega
  | case4 c s _ ih =>
      simp only [Option.bind_eq_bind, Option.bind_eq_some_iff, Option.pure_def,
        Option.some.injEq, Prod.exists, Prod.mk.injEq] at h
      obtain ⟨_, _, _, _, hs, _, rfl⟩ := h
      have := ih hs
      simp only [List.length_cons]
      omega
  | case5 => cases h
  | case6 c s _ _ _ _ ih =>
      simp only [Option.bind_eq_bind, Option.bind_eq_some_iff, Option.pure_def,
        Option.some.injEq, Prod.exists, Prod.mk.injEq] at h
      obtain ⟨_, _, hs, _, rfl⟩ := h
      have := ih hs
      simp only [List.length_cons]
      omega

theorem scanDigits_length_le {s rest : List Char} (h : scanDigits s = some rest) :
    rest.length ≤ s.length := by
  unfold scanDigits at h
  split at h
  · next c t =>
      split at h
      · cases h
        have := dropWhile_length_le Char.isDigit t
        simp only [List.length_cons]
        omega
      · cases h
  · cases h

theorem scanFraction_length_le {s rest : List Char} (h : scanFraction s = some rest) :
    rest.length ≤ s.length := by
  unfold scanFraction at h
  split at h
  · have := scanDigits_length_le h
    simp only [List.length_cons]
    omega
  · cases h
    exact Nat.le_refl _

theorem scanExponent_length_le {s rest : List Char} (h : scanExponent s = some rest) :
    rest.length ≤ s.length := by
  unfold scanExponent at h
  split at h
  · split at h
    · split at h
      all_goals
        have := scanDigits_length_le h
        simp only [List.length_cons] at *
        omega
    · cases h
      exact Nat.le_refl _
  · cases h
    exact Nat.le_refl _

theorem scanWhole_shorter {s rest : List Char} {n : Nat} (h : scanWhole s = some (n, rest)) :
    rest.length < s.length := by
  unfold scanWhole at h
  split at h
  · cases h
    simp
  · next c t _ =>
      split at h
      · cases h
        have := dropWhile_length_le Char.isDigit t
        simp only [List.length_cons]
        omega
      · cases h
  · cases h

/-- What follows a number is shorter than the text with the number. -/
theorem scanNumber_shorter {s rest : List Char} {n : Number}
    (h : scanNumber s = some (n, rest)) : rest.length < s.length := by
  unfold scanNumber at h
  split at h
  all_goals
    simp only [Option.bind_eq_bind, Option.bind_eq_some_iff, Option.pure_def,
      Option.some.injEq, Prod.exists, Prod.mk.injEq] at h
    obtain ⟨_, _, hw, _, hf, _, he, _, rfl⟩ := h
    have hwhole := scanWhole_shorter hw
    have hfraction := scanFraction_length_le hf
    have hexponent := scanExponent_length_le he
  · simp only [List.length_cons]
    omega
  · omega

/-! ## Whole inputs -/

/-- The character is a blank between lexemes. -/
def isBlank (c : Char) : Bool := c == ' ' || c == '\t' || c == '\n' || c == '\r'

/-- The bracket, colon or comma that a character is. -/
def mark? (c : Char) : Option Lexeme :=
  if c = '[' then some .openArray
  else if c = ']' then some .closeArray
  else if c = '{' then some .openObject
  else if c = '}' then some .closeObject
  else if c = ':' then some .colon
  else if c = ',' then some .comma
  else none

/-- The lexemes of a JSON text, or nothing when some part of it is none. -/
def Lexeme.ofChars? (text : List Char) : Option (List Lexeme) :=
  match text with
  | [] => some []
  | 'n' :: 'u' :: 'l' :: 'l' :: rest => return .null :: (← ofChars? rest)
  | 't' :: 'r' :: 'u' :: 'e' :: rest => return .boolean true :: (← ofChars? rest)
  | 'f' :: 'a' :: 'l' :: 's' :: 'e' :: rest => return .boolean false :: (← ofChars? rest)
  | c :: rest =>
      if isBlank c then ofChars? rest
      else
        match mark? c with
        | some mark => return mark :: (← ofChars? rest)
        | none =>
            if c = '"' then
              match _h : scanText rest with
              | some (pieces, after) =>
                  return .text ((joinPieces pieces).map String.ofList) :: (← ofChars? after)
              | none => none
            else
              match _h : scanNumber (c :: rest) with
              | some (n, after) => return .number n :: (← ofChars? after)
              | none => none
termination_by text.length
decreasing_by
  all_goals simp only [List.length_cons]
  all_goals try omega
  · have := scanText_shorter _h
    omega
  · exact scanNumber_shorter _h

end Formula.Json
