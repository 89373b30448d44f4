import Mathlib.Data.List.Chain
import Formula.Json.Lexeme
import Formula.Proofs.Numerals

/-!
# `Formula.Proofs.Spelling` — how the lexemes of JSON are spelled

Marks and words are spelled in one way. A number is spelled by digits, and in a text every character can
stand as it is, by a short escape if it has one, or by its number in the code of sixteen bits; a character
beyond the sixteen bits then takes two numbers. Whatever is spelled is read off, and the reading goes on
with what follows. Only a number has to end there: it would go on with a digit, a point or an exponent.

## Contents
- **Units.** `units`, with `units_cases` and `units_append_inj`; `joinPieces_eq_some_iff`.
- **Texts.** `HexDigit`, `Piece.Spelled`, `textSpellings`, with `scanText_of_mem`.
- **Numbers.** `whole`, `numbers`, `Number.spellings`; `Ends`, with `scanNumber_unsigned` and
  `scanNumber_append`.
- **Lexemes.** `Lexeme.spellings`, with `ofChars?_append`.
- **Lexemes in a row.** `Spaced`, `Apart`, with `ofChars?_of_spaced`.
-/

namespace Formula.Json

open Numeral (row)
open scoped Computability

variable {c d : Char} {n high low : Nat} {u v w rest cs : List Char} {ps : List Piece} {us vs : List Nat}

/-! ## Units -/

/-- The character in the code of sixteen bits: as it is, or as a pair of halves. -/
def units (c : Char) : List Nat :=
  if c.toNat < 0x10000 then [c.toNat]
  else [0xD800 + (c.toNat - 0x10000) / 0x400, 0xDC00 + (c.toNat - 0x10000) % 0x400]

/-- A piece of a text in the code of sixteen bits. -/
def Piece.units : Piece → List Nat
  | .char c => Json.units c
  | .unit n => [n]

theorem isHighHalf_iff : isHighHalf n ↔ 0xD800 ≤ n ∧ n ≤ 0xDBFF := by simp [isHighHalf]

theorem isLowHalf_iff : isLowHalf n ↔ 0xDC00 ≤ n ∧ n ≤ 0xDFFF := by simp [isLowHalf]

theorem toNat_ofNat (h : n.isValidChar) : (Char.ofNat n).toNat = n := by
  unfold Char.ofNat
  rw [dif_pos h]
  rfl

/-- A unit that is no half is a character. -/
theorem units_single (hn : n < 0x10000) (hhigh : ¬ isHighHalf n) (hlow : ¬ isLowHalf n) :
    units (Char.ofNat n) = [n] := by
  rw [isHighHalf_iff] at hhigh
  rw [isLowHalf_iff] at hlow
  have hvalid : n.isValidChar := by
    show n < 55296 ∨ 57343 < n ∧ n < 1114112
    omega
  rw [units, toNat_ofNat hvalid, if_pos hn]

/-- Two halves that belong together are a character. -/
theorem units_pair (hhigh : isHighHalf high) (hlow : isLowHalf low) :
    units (Char.ofNat (0x10000 + (high - 0xD800) * 0x400 + (low - 0xDC00))) = [high, low] := by
  rw [isHighHalf_iff] at hhigh
  rw [isLowHalf_iff] at hlow
  have hvalid : (0x10000 + (high - 0xD800) * 0x400 + (low - 0xDC00)).isValidChar := by
    show _ < 55296 ∨ 57343 < _ ∧ _ < 1114112
    omega
  rw [units, toNat_ofNat hvalid, if_neg (by omega), List.cons.injEq, List.cons.injEq]
  exact ⟨by omega, by omega, rfl⟩

/-- Every character is a unit that is no half, or a pair of halves. -/
theorem units_cases (c : Char) :
    (units c = [c.toNat] ∧ ¬ isHighHalf c.toNat ∧ ¬ isLowHalf c.toNat) ∨
      ∃ high low, units c = [high, low] ∧ isHighHalf high ∧ isLowHalf low := by
  have hvalid : c.toNat < 55296 ∨ 57343 < c.toNat ∧ c.toNat < 1114112 := c.valid
  unfold units
  split
  · refine Or.inl ⟨rfl, ?_, ?_⟩
    · rw [isHighHalf_iff]
      omega
    · rw [isLowHalf_iff]
      omega
  · refine Or.inr ⟨_, _, rfl, ?_, ?_⟩
    · rw [isHighHalf_iff]
      omega
    · rw [isLowHalf_iff]
      omega

theorem units_ne_nil (c : Char) : units c ≠ [] := by
  unfold units
  split
  · exact List.cons_ne_nil _ _
  · exact List.cons_ne_nil _ _

theorem flatMap_units_eq_nil_iff : cs.flatMap units = [] ↔ cs = [] := by
  rw [List.flatMap_eq_nil_iff]
  constructor
  · intro h
    refine List.eq_nil_iff_forall_not_mem.2 ?_
    intro c hc
    exact units_ne_nil c (h c hc)
  · rintro rfl
    exact nofun

theorem units_injective (h : units c = units d) : c = d := by
  rw [← Char.toNat_inj]
  unfold units at h
  split at h
  · split at h
    · simpa using h
    · simp at h
  · split at h
    · simp at h
    · simp only [List.cons.injEq] at h
      omega

/-- A row of units is cut into characters in one way only. -/
theorem units_append_inj (h : units c ++ us = units d ++ vs) : c = d ∧ us = vs := by
  have hlength : (units c).length = (units d).length := by
    rcases units_cases c with ⟨hc, hchigh, -⟩ | ⟨_, _, hc, hchigh, -⟩ <;>
    rcases units_cases d with ⟨hd, hdhigh, -⟩ | ⟨_, _, hd, hdhigh, -⟩ <;>
    rw [hc, hd] at h ⊢
    · rfl
    · simp only [List.cons_append, List.cons.injEq] at h
      exact absurd (h.1 ▸ hdhigh) hchigh
    · simp only [List.cons_append, List.cons.injEq] at h
      exact absurd (h.1 ▸ hchigh) hdhigh
    · rfl
  obtain ⟨hunits, hrest⟩ := List.append_inj h hlength
  exact ⟨units_injective hunits, hrest⟩

theorem flatMap_units_append_iff :
    cs.flatMap units = units c ++ us ↔ ∃ rest, cs = c :: rest ∧ rest.flatMap units = us := by
  constructor
  · intro h
    cases cs with
    | nil => exact absurd (List.append_eq_nil_iff.1 h.symm).1 (units_ne_nil c)
    | cons x rest =>
        obtain ⟨rfl, hrest⟩ := units_append_inj h
        exact ⟨rest, rfl, hrest⟩
  · rintro ⟨rest, rfl, rfl⟩
    rfl

/-- No character begins with the second half of a pair. -/
theorem not_isLowHalf_of_units (h : units c ++ us = n :: vs) : ¬ isLowHalf n := by
  rcases units_cases c with ⟨hc, -, hlow⟩ | ⟨high, low, hc, hhigh, -⟩
  · rw [hc] at h
    obtain ⟨rfl, -⟩ := List.cons.inj h
    exact hlow
  · rw [hc] at h
    obtain ⟨rfl, -⟩ := List.cons.inj h
    rw [isHighHalf_iff] at hhigh
    rw [isLowHalf_iff]
    omega

theorem not_isLowHalf_of_flatMap (h : cs.flatMap units = n :: us) : ¬ isLowHalf n := by
  cases cs with
  | nil => cases h
  | cons c rest => exact not_isLowHalf_of_units h

/-- The first half of a pair is followed by the second. -/
theorem isLowHalf_of_flatMap (h : cs.flatMap units = n :: us) (hhigh : isHighHalf n) :
    ∃ low vs, us = low :: vs ∧ isLowHalf low := by
  cases cs with
  | nil => cases h
  | cons c rest =>
      rw [List.flatMap_cons] at h
      rcases units_cases c with ⟨hc, hnot, -⟩ | ⟨high, low, hc, -, hlow⟩
      · rw [hc] at h
        obtain ⟨rfl, -⟩ := List.cons.inj h
        exact absurd hhigh hnot
      · rw [hc] at h
        obtain ⟨-, rfl⟩ := List.cons.inj h
        exact ⟨low, _, rfl, hlow⟩

/-- A unit has sixteen bits. -/
def Piece.Small : Piece → Prop
  | .char _ => True
  | .unit n => n < 0x10000

/-- A character in front stands for its units in front. -/
theorem map_joinPieces_iff
    (ih : ∀ cs, joinPieces ps = some cs ↔ cs.flatMap units = ps.flatMap Piece.units) :
    (joinPieces ps).map (c :: ·) = some cs ↔ cs.flatMap units = units c ++ ps.flatMap Piece.units := by
  rw [flatMap_units_append_iff, Option.map_eq_some_iff]
  simp only [ih, eq_comm, and_comm]

/-- Pieces make up exactly the characters that have the same units. -/
theorem joinPieces_eq_some_iff (hsmall : ∀ q ∈ ps, q.Small) :
    joinPieces ps = some cs ↔ cs.flatMap units = ps.flatMap Piece.units := by
  have hnone (us : List Nat) (cs : List Char) (h : cs.flatMap units ≠ us) :
      none = some cs ↔ cs.flatMap units = us := by
    constructor
    · rintro ⟨⟩
    · intro heq
      exact absurd heq h
  fun_induction joinPieces ps generalizing cs with
  | case1 => rw [Option.some.injEq, List.flatMap_nil, flatMap_units_eq_nil_iff, eq_comm]
  | case2 c rest ih =>
      obtain ⟨-, hrest⟩ := List.forall_mem_cons.1 hsmall
      exact map_joinPieces_iff fun cs => ih hrest
  | case3 high low rest hhigh hlow ih =>
      obtain ⟨-, htail⟩ := List.forall_mem_cons.1 hsmall
      obtain ⟨-, hrest⟩ := List.forall_mem_cons.1 htail
      rw [map_joinPieces_iff fun cs => ih hrest, units_pair hhigh hlow]
      rfl
  | case4 high low rest hhigh hnot =>
      refine hnone _ _ ?_
      intro h
      obtain ⟨low', us, heq, hlow⟩ := isLowHalf_of_flatMap h hhigh
      obtain ⟨rfl, -⟩ := List.cons.inj heq
      exact hnot hlow
  | case5 high low rest hnot hlow =>
      refine hnone _ _ ?_
      intro h
      exact not_isLowHalf_of_flatMap h hlow
  | case6 n low rest hhigh hlow ih =>
      obtain ⟨hn, hrest⟩ := List.forall_mem_cons.1 hsmall
      rw [map_joinPieces_iff fun cs => ih hrest, units_single hn hhigh hlow]
      rfl
  | case7 n rest hlast hhalf =>
      refine hnone _ _ ?_
      intro h
      have hlow := not_isLowHalf_of_flatMap h
      have hhigh : isHighHalf n := by simpa [hlow] using hhalf
      obtain ⟨low, us, heq, hlow⟩ := isLowHalf_of_flatMap h hhigh
      cases rest with
      | nil => cases heq
      | cons q rest =>
          cases q with
          | unit m => exact hlast m rest rfl
          | char c =>
              exact not_isLowHalf_of_units (heq : units c ++ rest.flatMap Piece.units = low :: us) hlow
  | case8 n rest hlast hwhole ih =>
      obtain ⟨hn, hrest⟩ := List.forall_mem_cons.1 hsmall
      simp only [Bool.or_eq_true, not_or] at hwhole
      rw [map_joinPieces_iff fun cs => ih hrest, units_single hn hwhole.1 hwhole.2]
      rfl

/-! ## Texts -/

/-- The character is a digit in base sixteen, of either case, and counts this much. -/
def HexDigit (c : Char) (n : Nat) : Prop := n < 16 ∧ c.toLower = Nat.digitChar n

theorem hexDigit_digitChar (h : n < 16) : HexDigit (Nat.digitChar n) n := by
  have hall : ∀ n < 16, (Nat.digitChar n).toLower = Nat.digitChar n := by decide
  exact ⟨h, hall n h⟩

theorem hexValue?_of_hexDigit (h : HexDigit c n) : hexValue? c = some n := by
  obtain ⟨hn, hc⟩ := h
  have hascii : c.toNat < 128 := by
    by_contra hlarge
    have hsame : c.toLower = c := by
      unfold Char.toLower
      rw [dif_neg]
      rintro ⟨-, hle⟩
      have hle : c.toNat ≤ 'Z'.toNat := hle
      exact absurd hle (by simp; omega)
    have hdigits : ∀ n < 16, (Nat.digitChar n).toNat < 128 := by decide
    rw [hsame] at hc
    rw [hc] at hlarge
    exact hlarge (hdigits n hn)
  -- the ASCII characters are gone through one by one
  have hall : ∀ k < 128, ∀ n < 16, (Char.ofNat k).toLower = Nat.digitChar n →
      hexValue? (Char.ofNat k) = some n := by decide +kernel
  have h := hall c.toNat hascii n hn
  rw [Char.ofNat_toNat] at h
  exact h hc

/-- The characters that have a short escape, each with the letter of it. -/
def shortEscapes : List (Char × Char) :=
  [('"', '"'), ('\\', '\\'), ('/', '/'), ('\x08', 'b'), ('\x0c', 'f'), ('\n', 'n'), ('\r', 'r'),
    ('\t', 't')]

/-- A piece of a text is spelled so. -/
inductive Piece.Spelled : Piece → List Char → Prop where
  /-- As it is. -/
  | plain {c : Char} (hcontrol : 0x20 ≤ c.toNat) (hquote : c ≠ '"') (hescape : c ≠ '\\') :
      Spelled (.char c) [c]
  /-- By a short escape. -/
  | short {c x : Char} (h : (c, x) ∈ shortEscapes) : Spelled (.char c) ['\\', x]
  /-- By the number of a unit. -/
  | unit {a b c d : Char} {i j k l : Nat} (ha : HexDigit a i) (hb : HexDigit b j)
      (hc : HexDigit c k) (hd : HexDigit d l) :
      Spelled (.unit (((i * 16 + j) * 16 + k) * 16 + l)) ['\\', 'u', a, b, c, d]

theorem Piece.Spelled.small {q : Piece} (h : q.Spelled w) : q.Small := by
  cases h with
  | plain => trivial
  | short => trivial
  | unit ha hb hc hd =>
      obtain ⟨ha, -⟩ := ha
      obtain ⟨hb, -⟩ := hb
      obtain ⟨hc, -⟩ := hc
      obtain ⟨hd, -⟩ := hd
      show _ < 0x10000
      omega

/-- A piece in front is scanned off. -/
theorem scanText_append {q : Piece} (h : q.Spelled w) (rest : List Char) :
    scanText (w ++ rest) = (scanText rest).map fun r => (q :: r.1, r.2) := by
  cases h with
  | @plain c hcontrol hquote hescape =>
      show scanText (c :: rest) = _
      rw [scanText]
      · rw [if_neg (by omega)]
        cases scanText rest with
        | none => rfl
        | some r => rfl
      · exact hquote
      · exact fun _ _ _ _ _ heq _ => hescape heq
      · exact fun _ _ heq _ => hescape heq
  | @short c x hx =>
      have hletter : ∀ p ∈ shortEscapes, p.2 ≠ 'u' ∧ shortEscape? p.2 = some p.1 := by decide
      obtain ⟨hu, hvalue⟩ := hletter _ hx
      show scanText ('\\' :: x :: rest) = _
      rw [scanText]
      · rw [hvalue]
        cases scanText rest with
        | none => rfl
        | some r => rfl
      · exact fun _ _ _ _ _ heq _ => hu heq
  | @unit a b c d i j k l ha hb hc hd =>
      have hunit : hexUnit? a b c d = some (((i * 16 + j) * 16 + k) * 16 + l) := by
        rw [hexUnit?, hexValue?_of_hexDigit ha, hexValue?_of_hexDigit hb, hexValue?_of_hexDigit hc,
          hexValue?_of_hexDigit hd]
        rfl
      show scanText ('\\' :: 'u' :: a :: b :: c :: d :: rest) = _
      rw [scanText, hunit]
      cases scanText rest with
      | none => rfl
      | some r => rfl

theorem scanText_spelled {qs : List (Piece × List Char)} (h : ∀ q ∈ qs, q.1.Spelled q.2)
    (rest : List Char) :
    scanText (qs.flatMap Prod.snd ++ '"' :: rest) = some (qs.map Prod.fst, rest) := by
  induction qs with
  | nil => rw [List.flatMap_nil, List.nil_append, scanText, List.map_nil]
  | cons q qs ih =>
      obtain ⟨hq, hqs⟩ := List.forall_mem_cons.1 h
      rw [List.flatMap_cons, List.append_assoc, scanText_append hq, ih hqs]
      rfl

/-- Spelled pieces between quotes, which make up the characters of the text, or make up no characters if
    the text denotes none. -/
def textSpellings (value : Option String) : Language Char :=
  {w | ∃ qs : List (Piece × List Char), (∀ q ∈ qs, q.1.Spelled q.2) ∧
    w = '"' :: qs.flatMap Prod.snd ++ ['"'] ∧
    ∀ cs, value.map String.toList = some cs ↔ cs.flatMap units = (qs.map Prod.fst).flatMap Piece.units}

/-- Half a pair alone is a text that denotes no characters. -/
theorem half_mem : ['"', '\\', 'u', 'd', '8', '0', '0', '"'] ∈ textSpellings none := by
  have hd : HexDigit 'd' 13 := hexDigit_digitChar (by decide)
  have height : HexDigit '8' 8 := hexDigit_digitChar (by decide)
  have hzero : HexDigit '0' 0 := hexDigit_digitChar (by decide)
  refine ⟨[(.unit 0xD800, ['\\', 'u', 'd', '8', '0', '0'])], ?_, rfl, ?_⟩
  · intro q hq
    obtain rfl := List.mem_singleton.1 hq
    exact .unit hd height hzero hzero
  · intro cs
    constructor
    · rintro ⟨⟩
    · intro h
      obtain ⟨low, us, heq, -⟩ := isLowHalf_of_flatMap h (by decide)
      cases heq

theorem scanText_of_mem {value : Option String} (h : w ∈ textSpellings value) (rest : List Char) :
    ∃ u pieces, w = '"' :: u ∧ scanText (u ++ rest) = some (pieces, rest) ∧
      (joinPieces pieces).map String.ofList = value := by
  obtain ⟨qs, hspelled, rfl, hvalue⟩ := h
  refine ⟨_, qs.map Prod.fst, rfl, ?_, ?_⟩
  · show scanText ((qs.flatMap Prod.snd ++ ['"']) ++ rest) = _
    rw [List.append_assoc]
    exact scanText_spelled hspelled rest
  · have hsmall : ∀ q ∈ qs.map Prod.fst, q.Small := by
      intro q hq
      obtain ⟨p, hp, rfl⟩ := List.mem_map.1 hq
      exact (hspelled p hp).small
    have hjoin : joinPieces (qs.map Prod.fst) = value.map String.toList := by
      apply Option.ext
      intro cs
      rw [joinPieces_eq_some_iff hsmall, hvalue]
    rw [hjoin, Option.map_map]
    simp

/-! ## Numbers -/

/-- Whole digits: a zero alone, or digits that do not start with zero. -/
def whole : Language Char := {w | w ∈ row ∧ (w.head? = some '0' → w = ['0'])}

/-- A fraction or none. -/
def fractions : Language Char := 1 + {['.']} * row

/-- An exponent or none. -/
def exponents : Language Char := 1 + {['e'], ['E']} * {[], ['+'], ['-']} * row

/-- A number. -/
def numbers : Language Char := {[], ['-']} * whole * fractions * exponents

/-- The ways in which a number is spelled. -/
def Number.spellings : Number → Language Char
  | .natural n => {w | w ∈ whole ∧ Numeral.placeValue w = n}
  | .other => {w | w ∈ numbers ∧ w ∉ whole}

/-- A number would go on with this character. -/
def Continues (c : Char) : Prop := c.isDigit ∨ c = '.' ∨ c = 'e' ∨ c = 'E'

/-- A number ends before this text. -/
def Ends (rest : List Char) : Prop := ∀ c ∈ rest.head?, ¬ Continues c

theorem exists_cons_of_row (hw : w ∈ row) : ∃ c u, w = c :: u ∧ c.isDigit := by
  obtain ⟨c, u, rfl⟩ := List.exists_cons_of_ne_nil hw.1
  exact ⟨c, u, rfl, hw.2 c List.mem_cons_self⟩

/-- Digits go on up to a character that is none. -/
theorem span_isDigit (hu : ∀ c ∈ u, c.isDigit) (hrest : ∀ c ∈ rest.head?, ¬ c.isDigit) :
    (u ++ rest).takeWhile Char.isDigit = u ∧ (u ++ rest).dropWhile Char.isDigit = rest := by
  rw [List.takeWhile_append_of_pos hu, List.dropWhile_append_of_pos hu]
  cases rest with
  | nil => simp
  | cons c rest =>
      have hc : ¬ c.isDigit := hrest c rfl
      simp [hc]

theorem scanDigits_append (hw : w ∈ row) (hrest : ∀ c ∈ rest.head?, ¬ c.isDigit) :
    scanDigits (w ++ rest) = some rest := by
  obtain ⟨hne, hdigits⟩ := hw
  obtain ⟨c, u, rfl⟩ := List.exists_cons_of_ne_nil hne
  obtain ⟨hc, hu⟩ := List.forall_mem_cons.1 hdigits
  show (if c.isDigit then some ((u ++ rest).dropWhile Char.isDigit) else none) = some rest
  rw [if_pos hc, (span_isDigit hu hrest).2]

theorem scanFraction_append (hw : w ∈ fractions) (hrest : ∀ c ∈ rest.head?, ¬ c.isDigit ∧ c ≠ '.') :
    scanFraction (w ++ rest) = some rest := by
  rcases (Language.mem_add _ _ w).1 hw with hw | hw
  · rw [(Language.mem_one w).1 hw, List.nil_append]
    unfold scanFraction
    split
    · next u => exact absurd rfl (hrest '.' rfl).2
    · rfl
  · obtain ⟨_, rfl, f, hf, rfl⟩ := Language.mem_mul.1 hw
    exact scanDigits_append hf fun c hc => (hrest c hc).1

/-- After the mark of an exponent, a sign is left out if there is one. -/
theorem scanExponent_signed {m s : List Char} (hm : m ∈ ({['e'], ['E']} : Language Char))
    (hs : s ∈ ({[], ['+'], ['-']} : Language Char)) (hu : ∀ c ∈ u.head?, c ≠ '+' ∧ c ≠ '-') :
    scanExponent (m ++ (s ++ u)) = scanDigits u := by
  have hmarked : ∀ c, c = 'e' ∨ c = 'E' → scanExponent (c :: (s ++ u)) = scanDigits u := by
    intro c hc
    unfold scanExponent
    show (if c = 'e' ∨ c = 'E' then _ else _) = _
    rw [if_pos hc]
    rcases hs with rfl | rfl | rfl
    · rw [List.nil_append]
      split
      · exact absurd rfl (hu '+' rfl).1
      · exact absurd rfl (hu '-' rfl).2
      · rfl
    · rfl
    · rfl
  rcases hm with rfl | rfl
  · exact hmarked 'e' (Or.inl rfl)
  · exact hmarked 'E' (Or.inr rfl)

theorem scanExponent_append (hw : w ∈ exponents) (hrest : Ends rest) :
    scanExponent (w ++ rest) = some rest := by
  rcases (Language.mem_add _ _ w).1 hw with hw | hw
  · rw [(Language.mem_one w).1 hw, List.nil_append]
    unfold scanExponent
    split
    · next c u =>
        have hnot := hrest c rfl
        rw [if_neg]
        rintro hmark
        exact hnot (Or.inr (Or.inr hmark))
    · rfl
  · obtain ⟨_, hmarked, d, hd, rfl⟩ := Language.mem_mul.1 hw
    obtain ⟨m, hm, s, hs, rfl⟩ := Language.mem_mul.1 hmarked
    have hsign : ∀ c ∈ (d ++ rest).head?, c ≠ '+' ∧ c ≠ '-' := by
      -- a digit is no sign
      obtain ⟨c, u, rfl, hc⟩ := exists_cons_of_row hd
      rintro _ ⟨⟩
      refine ⟨?_, ?_⟩
      all_goals
        rintro rfl
        exact absurd hc (by decide)
    rw [List.append_assoc, List.append_assoc, scanExponent_signed hm hs hsign]
    exact scanDigits_append hd fun c hc hdigit => hrest c hc (Or.inl hdigit)

theorem scanWhole_append (hw : w ∈ whole) (hrest : ∀ c ∈ rest.head?, ¬ c.isDigit) :
    scanWhole (w ++ rest) = some (Numeral.placeValue w, rest) := by
  obtain ⟨⟨hne, hdigits⟩, hzero⟩ := hw
  obtain ⟨c, u, rfl⟩ := List.exists_cons_of_ne_nil hne
  obtain ⟨hc, hu⟩ := List.forall_mem_cons.1 hdigits
  show scanWhole (c :: (u ++ rest)) = _
  unfold scanWhole
  split
  · next v heq =>
      obtain ⟨rfl, rfl⟩ := List.cons.inj heq
      obtain ⟨-, rfl⟩ := List.cons.inj (hzero rfl)
      rfl
  · next v heq =>
      obtain ⟨rfl, rfl⟩ := List.cons.inj heq
      obtain ⟨htake, hdrop⟩ := span_isDigit hu hrest
      rw [if_pos hc, htake, hdrop, ← Numeral.digitsValue_eq]
      rfl
  · next heq => cases heq

/-- The first part of a fraction or an exponent is no digit, and the first part of an exponent is no
    point. -/
theorem head_of_exponents (hw : w ∈ exponents) (hrest : Ends rest) :
    ∀ c ∈ (w ++ rest).head?, ¬ c.isDigit ∧ c ≠ '.' := by
  rcases (Language.mem_add _ _ w).1 hw with hw | hw
  · rw [(Language.mem_one w).1 hw, List.nil_append]
    intro c hc
    refine ⟨?_, ?_⟩
    · intro hdigit
      exact hrest c hc (Or.inl hdigit)
    · intro hpoint
      exact hrest c hc (Or.inr (Or.inl hpoint))
  · obtain ⟨_, hmarked, d, hd, rfl⟩ := Language.mem_mul.1 hw
    obtain ⟨m, hm, s, hs, rfl⟩ := Language.mem_mul.1 hmarked
    rcases hm with rfl | rfl
    all_goals
      rintro c ⟨⟩
      decide

theorem head_of_fractions (hw : w ∈ fractions) (hrest : ∀ c ∈ rest.head?, ¬ c.isDigit ∧ c ≠ '.') :
    ∀ c ∈ (w ++ rest).head?, ¬ c.isDigit := by
  rcases (Language.mem_add _ _ w).1 hw with hw | hw
  · rw [(Language.mem_one w).1 hw, List.nil_append]
    intro c hc
    exact (hrest c hc).1
  · obtain ⟨_, rfl, f, hf, rfl⟩ := Language.mem_mul.1 hw
    rintro c ⟨⟩
    decide

/-- An unsigned number in front is scanned off, part by part. -/
theorem scan_unsigned {d f e : List Char} (hd : d ∈ whole) (hf : f ∈ fractions) (he : e ∈ exponents)
    (hrest : Ends rest) :
    scanWhole (d ++ (f ++ (e ++ rest))) = some (Numeral.placeValue d, f ++ (e ++ rest)) ∧
      scanFraction (f ++ (e ++ rest)) = some (e ++ rest) ∧ scanExponent (e ++ rest) = some rest := by
  have hexponent := head_of_exponents he hrest
  exact ⟨scanWhole_append hd (head_of_fractions hf hexponent), scanFraction_append hf hexponent,
    scanExponent_append he hrest⟩

/-- An unsigned number is natural if nothing comes after its whole digits. -/
theorem scanNumber_unsigned {d f e : List Char} (hd : d ∈ whole) (hf : f ∈ fractions)
    (he : e ∈ exponents) (hrest : Ends rest) :
    scanNumber (d ++ (f ++ (e ++ rest))) =
      some (if f ++ e = [] then .natural (Numeral.placeValue d) else .other, rest) := by
  obtain ⟨hwhole, hfraction, hexponent⟩ := scan_unsigned hd hf he hrest
  unfold scanNumber
  split
  · next u heq =>
      -- a digit comes first
      obtain ⟨c, v, rfl, hc⟩ := exists_cons_of_row hd.1
      obtain ⟨rfl, -⟩ := List.cons.inj heq
      exact absurd hc (by decide)
  · rw [hwhole]
    show (scanFraction (f ++ (e ++ rest)) >>= fun r => _) = _
    rw [hfraction]
    show (scanExponent (e ++ rest) >>= fun r => _) = _
    rw [hexponent]
    have hlength : rest.length = (f ++ (e ++ rest)).length ↔ f ++ e = [] := by
      simp only [List.length_append, ← List.length_eq_zero_iff]
      omega
    show some (if rest.length = (f ++ (e ++ rest)).length then _ else _, rest) = _
    simp only [hlength]

/-- A number in front is scanned off, if it ends there. -/
theorem scanNumber_append {n : Number} (hw : w ∈ n.spellings) (hrest : Ends rest) :
    scanNumber (w ++ rest) = some (n, rest) := by
  cases n with
  | natural n =>
      obtain ⟨hwhole, rfl⟩ := hw
      exact scanNumber_unsigned hwhole (Or.inl rfl) (Or.inl rfl) hrest
  | other =>
      obtain ⟨hnumber, hnot⟩ := hw
      obtain ⟨_, hrow, e, he, rfl⟩ := Language.mem_mul.1 hnumber
      obtain ⟨_, hsigned, f, hf, rfl⟩ := Language.mem_mul.1 hrow
      obtain ⟨s, hs, d, hd, rfl⟩ := Language.mem_mul.1 hsigned
      rw [List.append_assoc, List.append_assoc, List.append_assoc]
      rcases hs with rfl | rfl
      · -- without a sign, something must follow the whole digits
        have hne : f ++ e ≠ [] := by
          intro hnil
          obtain ⟨rfl, rfl⟩ := List.append_eq_nil_iff.1 hnil
          simp only [List.nil_append, List.append_nil] at hnot
          exact hnot hd
        have h := scanNumber_unsigned hd hf he hrest
        rw [if_neg hne] at h
        exact h
      · obtain ⟨hwhole, hfraction, hexponent⟩ := scan_unsigned hd hf he hrest
        show (scanWhole (d ++ (f ++ (e ++ rest))) >>= fun r => _) = _
        rw [hwhole]
        show (scanFraction (f ++ (e ++ rest)) >>= fun r => _) = _
        rw [hfraction]
        show (scanExponent (e ++ rest) >>= fun r => _) = _
        rw [hexponent]
        rfl

/-! ## Lexemes -/

/-- The ways in which a lexeme is spelled. -/
def Lexeme.spellings : Lexeme → Language Char
  | .openArray => {['[']}
  | .closeArray => {[']']}
  | .openObject => {['{']}
  | .closeObject => {['}']}
  | .colon => {[':']}
  | .comma => {[',']}
  | .null => {['n', 'u', 'l', 'l']}
  | .boolean true => {['t', 'r', 'u', 'e']}
  | .boolean false => {['f', 'a', 'l', 's', 'e']}
  | .number n => n.spellings
  | .text value => textSpellings value

/-- The lexeme is a number. -/
def Lexeme.isNumber : Lexeme → Bool
  | .number _ => true
  | _ => false

theorem ofChars?_blank (hc : isBlank c) (rest : List Char) :
    Lexeme.ofChars? (c :: rest) = Lexeme.ofChars? rest := by
  have hne : ∀ x, ¬ isBlank x → c ≠ x := by
    rintro x hx rfl
    exact hx hc
  rw [Lexeme.ofChars?, if_pos hc]
  · exact fun _ heq _ => hne 'n' (by decide) heq
  · exact fun _ heq _ => hne 't' (by decide) heq
  · exact fun _ heq _ => hne 'f' (by decide) heq

theorem ofChars?_blanks (hu : ∀ c ∈ u, isBlank c) (rest : List Char) :
    Lexeme.ofChars? (u ++ rest) = Lexeme.ofChars? rest := by
  induction u with
  | nil => rfl
  | cons c u ih =>
      obtain ⟨hc, hu⟩ := List.forall_mem_cons.1 hu
      rw [List.cons_append, ofChars?_blank hc, ih hu]

theorem bind_cons_eq_map (l : Lexeme) (o : Option (List Lexeme)) :
    (do return l :: (← o)) = o.map (l :: ·) := by
  cases o with
  | none => rfl
  | some ls => rfl

theorem ofChars?_mark {l : Lexeme} (hc : mark? c = some l) (rest : List Char) :
    Lexeme.ofChars? (c :: rest) = (Lexeme.ofChars? rest).map (l :: ·) := by
  have hne : ∀ x, mark? x = none → c ≠ x := by
    rintro x hx rfl
    rw [hx] at hc
    cases hc
  have hblank : ¬ isBlank c := by
    simp [isBlank, hne ' ' rfl, hne '\t' rfl, hne '\n' rfl, hne '\r' rfl]
  rw [Lexeme.ofChars?, if_neg hblank, hc]
  · exact bind_cons_eq_map l _
  · exact fun _ heq _ => hne 'n' rfl heq
  · exact fun _ heq _ => hne 't' rfl heq
  · exact fun _ heq _ => hne 'f' rfl heq

theorem ofChars?_quote {pieces : List Piece} (h : scanText u = some (pieces, rest)) :
    Lexeme.ofChars? ('"' :: u) =
      (Lexeme.ofChars? rest).map (.text ((joinPieces pieces).map String.ofList) :: ·) := by
  have hblank : ¬ isBlank '"' := by decide
  have hmark : mark? '"' = none := rfl
  rw [Lexeme.ofChars?, if_neg hblank, hmark]
  · show (if '"' = '"' then _ else _) = _
    rw [if_pos rfl]
    split
    · next heq =>
        rw [h] at heq
        cases heq
        exact bind_cons_eq_map _ _
    · next heq =>
        rw [h] at heq
        cases heq
  all_goals
    rintro _ ⟨⟩

/-- A digit or a minus sign begins a number, whatever follows. -/
theorem ofChars?_numeric (hc : c.isDigit ∨ c = '-') (u : List Char) :
    Lexeme.ofChars? (c :: u) =
      (scanNumber (c :: u)).bind fun r => (Lexeme.ofChars? r.2).map (.number r.1 :: ·) := by
  have hne : ∀ x, ¬ (x.isDigit ∨ x = '-') → c ≠ x := by
    rintro x hx rfl
    exact hx hc
  have hblank : ¬ isBlank c := by
    simp [isBlank, hne ' ' (by decide), hne '\t' (by decide), hne '\n' (by decide),
      hne '\r' (by decide)]
  have hmark : mark? c = none := by
    simp [mark?, hne '[' (by decide), hne ']' (by decide), hne '{' (by decide), hne '}' (by decide),
      hne ':' (by decide), hne ',' (by decide)]
  rw [Lexeme.ofChars?, if_neg hblank, hmark]
  · show (if c = '"' then _ else _) = _
    rw [if_neg (hne '"' (by decide))]
    split
    · next n after heq =>
        rw [heq]
        exact bind_cons_eq_map _ _
    · next heq => rw [heq, Option.bind_none]
  · exact fun _ heq _ => hne 'n' (by decide) heq
  · exact fun _ heq _ => hne 't' (by decide) heq
  · exact fun _ heq _ => hne 'f' (by decide) heq

theorem exists_cons_of_number {n : Number} (hw : w ∈ n.spellings) :
    ∃ c u, w = c :: u ∧ (c.isDigit ∨ c = '-') := by
  cases n with
  | natural n =>
      obtain ⟨c, u, rfl, hc⟩ := exists_cons_of_row hw.1.1
      exact ⟨c, u, rfl, Or.inl hc⟩
  | other =>
      obtain ⟨_, hrow, e, -, rfl⟩ := Language.mem_mul.1 hw.1
      obtain ⟨_, hsigned, f, -, rfl⟩ := Language.mem_mul.1 hrow
      obtain ⟨s, hs, d, hd, rfl⟩ := Language.mem_mul.1 hsigned
      rcases hs with rfl | rfl
      · obtain ⟨c, u, rfl, hc⟩ := exists_cons_of_row hd.1
        exact ⟨c, _, rfl, Or.inl hc⟩
      · exact ⟨'-', _, rfl, Or.inr rfl⟩

/-- A lexeme in front is read off; a number, if it ends there. -/
theorem ofChars?_append {l : Lexeme} (hw : w ∈ l.spellings) (hends : l.isNumber → Ends rest) :
    Lexeme.ofChars? (w ++ rest) = (Lexeme.ofChars? rest).map (l :: ·) := by
  cases l with
  | openArray | closeArray | openObject | closeObject | colon | comma =>
      obtain rfl := hw
      exact ofChars?_mark rfl rest
  | null =>
      obtain rfl := hw
      show Lexeme.ofChars? ('n' :: 'u' :: 'l' :: 'l' :: rest) = _
      rw [Lexeme.ofChars?]
      exact bind_cons_eq_map _ _
  | boolean b =>
      cases b with
      | true =>
          obtain rfl := hw
          show Lexeme.ofChars? ('t' :: 'r' :: 'u' :: 'e' :: rest) = _
          rw [Lexeme.ofChars?]
          exact bind_cons_eq_map _ _
      | false =>
          obtain rfl := hw
          show Lexeme.ofChars? ('f' :: 'a' :: 'l' :: 's' :: 'e' :: rest) = _
          rw [Lexeme.ofChars?]
          exact bind_cons_eq_map _ _
  | number n =>
      obtain ⟨c, u, rfl, hc⟩ := exists_cons_of_number hw
      have hscan : scanNumber (c :: (u ++ rest)) = some (n, rest) := scanNumber_append hw (hends rfl)
      rw [List.cons_append, ofChars?_numeric hc, hscan]
      rfl
  | text value =>
      obtain ⟨u, pieces, rfl, hscan, rfl⟩ := scanText_of_mem hw rest
      exact ofChars?_quote hscan

/-! ## Lexemes in a row -/

/-- Lexemes are spelled one after the other, with any blanks before, between and after them. -/
inductive Spaced : List Lexeme → List Char → Prop where
  | nil {gap : List Char} (hgap : ∀ c ∈ gap, isBlank c) : Spaced [] gap
  | cons {l : Lexeme} {ls : List Lexeme} {gap w rest : List Char} (hgap : ∀ c ∈ gap, isBlank c)
      (hw : w ∈ l.spellings) (tail : Spaced ls rest) : Spaced (l :: ls) (gap ++ (w ++ rest))

theorem ends_cons (hc : ¬ Continues c) (rest : List Char) : Ends (c :: rest) := by
  rintro _ ⟨⟩
  exact hc

theorem not_continues_of_isBlank (hc : isBlank c) : ¬ Continues c := by
  have hcases : c = ' ' ∨ c = '\t' ∨ c = '\n' ∨ c = '\r' := by simpa [isBlank, or_assoc] using hc
  unfold Continues
  rcases hcases with rfl | rfl | rfl | rfl
  all_goals decide

/-- A number ends before any other lexeme. -/
theorem ends_of_spelled {l : Lexeme} (hw : w ∈ l.spellings) (hl : ¬ l.isNumber) (rest : List Char) :
    Ends (w ++ rest) := by
  have hmarks : ∀ c ∈ ['[', ']', '{', '}', ':', ',', 'n', 't', 'f', '"'], ¬ Continues c := by
    unfold Continues
    simp only [List.forall_mem_cons, List.not_mem_nil, false_implies, implies_true, and_true]
    decide
  cases l with
  | openArray | closeArray | openObject | closeObject | colon | comma | null =>
      obtain rfl := hw
      exact ends_cons (hmarks _ (by decide)) _
  | boolean b =>
      cases b with
      | true | false =>
          obtain rfl := hw
          exact ends_cons (hmarks _ (by decide)) _
  | number n => exact absurd rfl hl
  | text value =>
      obtain ⟨u, -, rfl, -, -⟩ := scanText_of_mem hw rest
      exact ends_cons (hmarks _ (by decide)) _

/-- The two lexemes are not both numbers. -/
def Apart (l m : Lexeme) : Prop := l.isNumber → ¬ m.isNumber

theorem ends_of_spaced {ls : List Lexeme} (h : Spaced ls rest) (hhead : ∀ l ∈ ls.head?, ¬ l.isNumber)
    (hlast : ls = [] → Ends u) : Ends (rest ++ u) := by
  have hgap {gap v : List Char} (hgap : ∀ c ∈ gap, isBlank c) (hv : Ends v) : Ends (gap ++ v) := by
    cases gap with
    | nil => exact hv
    | cons c gap => exact ends_cons (not_continues_of_isBlank (hgap c List.mem_cons_self)) _
  cases h with
  | nil hblank => exact hgap hblank (hlast rfl)
  | cons hblank hw tail =>
      rw [List.append_assoc, List.append_assoc]
      exact hgap hblank (ends_of_spelled hw (hhead _ rfl) _)

/-- Spelled lexemes are read off, and then what follows them. -/
theorem ofChars?_of_spaced {ls : List Lexeme} (h : Spaced ls w) (hapart : ls.IsChain Apart)
    (hlast : (∀ l ∈ ls.getLast?, ¬ l.isNumber) ∨ Ends rest) :
    Lexeme.ofChars? (w ++ rest) = (Lexeme.ofChars? rest).map (ls ++ ·) := by
  induction h with
  | nil hgap =>
      rw [ofChars?_blanks hgap]
      simp
  | @cons l ls gap w v hgap hw tail ih =>
      obtain ⟨hhead, htail⟩ := List.isChain_cons.1 hapart
      have hends : l.isNumber → Ends (v ++ rest) := by
        intro hl
        refine ends_of_spaced tail (fun m hm => hhead m hm hl) ?_
        rintro rfl
        exact hlast.resolve_left fun h => h l rfl hl
      have hih := ih htail (hlast.imp_left fun h m hm => h m (List.mem_getLast?_cons hm))
      rw [List.append_assoc, List.append_assoc, ofChars?_blanks hgap, ofChars?_append hw hends, hih,
        Option.map_map]
      rfl

end Formula.Json
