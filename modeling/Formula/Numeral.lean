/-!
# `Formula.Numeral` — number literals as exact fractions

A number literal is a decimal and, after the letter `e` or `E`, an optional exponent, which is a
decimal too but must be a whole number of at most `maxExponent` in size. Blanks anywhere in the
literal are ignored. A decimal is an optional sign, then digits with an optional fraction, or a
fraction alone; its digits are the ten ASCII digits.

## Contents
- **Defects.** `Numeral.Defect`: what keeps a text from being a literal.
- **Decimals.** `digitsValue`, `readDecimal`.
- **Literals.** `compact`, with `compact_eq_filter` and `mem_compact`; `splitExponent`, `scale`, `read`.
- **Writing.** `render`: a fraction in lowest terms.
-/

namespace Formula.Numeral

/-! ## Defects -/

/-- What keeps a text from being a number literal. -/
inductive Defect where
  | missingFraction
  | missingDigits
  | unsupportedDigit
  | fractionalExponent
  | exponentOutOfRange
deriving DecidableEq, Repr

/-- The wording of a defect. -/
def Defect.reason : Defect → String
  | .missingFraction => "missing digits after decimal point"
  | .missingDigits => "missing digits"
  | .unsupportedDigit => "unsupported digit"
  | .fractionalExponent => "fractional exponent"
  | .exponentOutOfRange => "exponent out of range"

/-! ## Decimals -/

/-- The number that a row of ASCII digits denotes. -/
def digitsValue (digits : List Char) : Nat :=
  digits.foldl (fun n c => 10 * n + (c.toNat - '0'.toNat)) 0

/-- The sign of a decimal, as "is negative", and what follows it. -/
def splitSign : List Char → Bool × List Char
  | '-' :: rest => (true, rest)
  | '+' :: rest => (false, rest)
  | text => (false, text)

/-- The digits before the first point, and those after it when there is a point. -/
def splitPoint (text : List Char) : List Char × Option (List Char) :=
  match text.dropWhile (· != '.') with
  | [] => (text, none)
  | _ :: fraction => (text.takeWhile (· != '.'), some fraction)

/-- The value of a sign, whole digits and fraction digits. -/
def decimalValue (negative : Bool) (whole fraction : List Char) : Rat :=
  let n : Int := digitsValue (whole ++ fraction)
  mkRat (if negative then -n else n) (Nat.pow 10 fraction.length)

/-- Reads a decimal. A point without digits after it counts before missing digits, and these before
    a character that is no digit. -/
def readDecimal (text : List Char) : Except Defect Rat :=
  let (negative, unsigned) := splitSign text
  match splitPoint unsigned with
  | (_, some []) => .error .missingFraction
  | (whole, fraction?) =>
      let fraction := fraction?.getD []
      if whole.isEmpty && fraction.isEmpty then .error .missingDigits
      else if (whole ++ fraction).all Char.isDigit then .ok (decimalValue negative whole fraction)
      else .error .unsupportedDigit

/-! ## Literals -/

/-- The greatest exponent, in size. -/
def maxExponent : Nat := 4096

/-- The text without its blanks. -/
def compact (text : List Char) : List Char :=
  text.filter fun c => !(c == ' ' || c == '\t')

/-- All characters but spaces and tabs stay, in their order. -/
theorem compact_eq_filter (text : List Char) :
    compact text = text.filter fun c => c ≠ ' ' ∧ c ≠ '\t' := by
  apply List.filter_congr
  intro c _
  rw [Bool.eq_iff_iff]
  simp

theorem mem_compact {c : Char} {text : List Char} :
    c ∈ compact text ↔ c ∈ text ∧ c ≠ ' ' ∧ c ≠ '\t' := by
  rw [compact_eq_filter, List.mem_filter, decide_eq_true_eq]

/-- The character separates a decimal from its exponent. -/
def isExponentMark (c : Char) : Bool := c == 'e' || c == 'E'

/-- What stands before the first exponent mark, and what after it when there is one. -/
def splitExponent (text : List Char) : List Char × Option (List Char) :=
  match text.dropWhile (!isExponentMark ·) with
  | [] => (text, none)
  | _ :: exponent => (text.takeWhile (!isExponentMark ·), some exponent)

/-- A fraction times a power of ten. -/
def scale (value : Rat) (exponent : Int) : Rat :=
  if 0 ≤ exponent then value * (Nat.pow 10 exponent.natAbs : Nat)
  else value / (Nat.pow 10 exponent.natAbs : Nat)

/-- Reads an exponent. -/
def readExponent (text : List Char) : Except Defect Int := do
  let value ← readDecimal text
  if value.den ≠ 1 then throw .fractionalExponent
  if maxExponent < value.num.natAbs then throw .exponentOutOfRange
  return value.num

/-- Reads a number literal; a defect of the decimal counts before one of the exponent. -/
def read (text : String) : Except Defect Rat := do
  let (mantissa, exponent?) := splitExponent (compact text.toList)
  let value ← readDecimal mantissa
  match exponent? with
  | none => return value
  | some exponent => return scale value (← readExponent exponent)

/-! ## Writing -/

/-- A fraction in lowest terms; a whole number stands alone. -/
def render (value : Rat) : String :=
  if value.den = 1 then toString value.num else s!"{value.num}/{value.den}"

end Formula.Numeral
