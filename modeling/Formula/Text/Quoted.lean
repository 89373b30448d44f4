import Formula.Text.Extending
import Formula.Text.Printable

/-!
# `Formula.Text.Quoted` — characters and texts between quotes, with escapes

Messages and token listings show text between quotes. Five characters have short escapes, the
enclosing quote is escaped, and whatever would not be visible on its own is written by its number in
hexadecimal; all else stands as it is.

## Contents
- **Visibility.** `isBlankLetter`, `isSoundMark`: the characters whose class says the wrong thing about
  how they look; `isHidden`: not visible on its own.
- **Escapes.** `hexDigits`, `escape`: one character inside a given quote.
- **Quotation.** `quoteChar` between single quotes, `quote` between double quotes.
-/

namespace Formula.Text

/-! ## Visibility -/

/-- The four Hangul fillers: letters by their category, drawn as nothing. They are the characters with
    the property Default_Ignorable_Code_Point that are printable and extend no grapheme. -/
def isBlankLetter (c : Char) : Bool :=
  c = '\u115f' || c = '\u1160' || c = '\u3164' || c = '\uffa0'

/-- The two halfwidth sound marks of Katakana: they extend a grapheme, yet fill a cell of their own. -/
def isSoundMark (c : Char) : Bool :=
  c = '\uff9e' || c = '\uff9f'

/-- A character is hidden when a reader would not see it standing alone: it is drawn on the one
    before it, it has no form that can be shown, or its form is blank. -/
def isHidden (c : Char) : Bool :=
  extendsGrapheme c && !isSoundMark c || isUnprintable c || isBlankLetter c

/-! ## Escapes -/

/-- The digits of a number in base sixteen, lower case, without leading zeros. -/
def hexDigits (n : Nat) : List Char := Nat.toDigits 16 n

/-- The written form of a character between the given quotes. -/
def escape (delimiter c : Char) : List Char :=
  if c = '\x00' then ['\\', '0']
  else if c = '\t' then ['\\', 't']
  else if c = '\r' then ['\\', 'r']
  else if c = '\n' then ['\\', 'n']
  else if c = '\\' then ['\\', '\\']
  else if c = delimiter then ['\\', c]
  else if isHidden c then ['\\', 'u', '{'] ++ hexDigits c.toNat ++ ['}']
  else [c]

/-! ## Quotation -/

/-- A character between single quotes. -/
def quoteChar (c : Char) : String :=
  String.ofList ('\'' :: escape '\'' c ++ ['\''])

/-- A text between double quotes. -/
def quote (s : String) : String :=
  String.ofList ('"' :: s.toList.flatMap (escape '"') ++ ['"'])

end Formula.Text
