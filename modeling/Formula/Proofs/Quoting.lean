import Formula.Text.Quoted

/-!
# `Formula.Proofs.Quoting` — quoted texts can be read back

A character of a quoted text stands as it is, or is written by a backslash and a letter, or by its number.
Which of these it is shows in its first characters, and where it ends shows in what is written, so it can be
read back whatever follows it. No character begins as the closing quote does. Hence a quoted text ends where
its quote is closed, and two texts are never quoted alike. All that stands in a quoted text is visible.

## Contents
- **Numbers.** `hexNumber`, with `hexNumber_hexDigits`; `mem_hexDigits`.
- **Characters.** `quoteEscapes`, `escape_cases`; `unescape`, with `unescape_escape`.
- **Texts.** `quote_append_inj`.
- **Visibility.** `isHidden_of_mem_quote`; `lineBreaks`, with `isHidden_of_mem_lineBreaks`.
-/

namespace Formula.Text

variable {c x : Char} {n : Nat} {s t : String} {u v : List Char}

/-! ## Numbers -/

/-- What a digit in base sixteen counts. -/
def hexDigitNumber (c : Char) : Nat :=
  if c.isDigit then c.toNat - '0'.toNat else c.toNat - 'a'.toNat + 10

/-- The number that digits in base sixteen stand for. -/
def hexNumber (ds : List Char) : Nat := ds.foldl (fun n c => n * 16 + hexDigitNumber c) 0

theorem hexDigitNumber_digitChar (h : n < 16) : hexDigitNumber (Nat.digitChar n) = n := by
  have hall : ∀ n < 16, hexDigitNumber (Nat.digitChar n) = n := by decide
  exact hall n h

theorem hexNumber_hexDigits (n : Nat) : hexNumber (hexDigits n) = n := by
  unfold hexDigits
  induction n using Nat.strongRecOn with
  | ind n ih =>
      by_cases hsmall : n < 16
      · rw [Nat.toDigits_of_lt_base hsmall]
        show 0 * 16 + hexDigitNumber (Nat.digitChar n) = n
        rw [hexDigitNumber_digitChar hsmall, Nat.zero_mul, Nat.zero_add]
      · rw [Nat.toDigits_of_base_le (by decide) (by omega), hexNumber, List.foldl_append]
        show hexNumber (Nat.toDigits 16 (n / 16)) * 16 + hexDigitNumber (Nat.digitChar (n % 16)) = n
        rw [ih (n / 16) (by omega), hexDigitNumber_digitChar (Nat.mod_lt _ (by decide))]
        omega

theorem mem_hexDigits (h : x ∈ hexDigits n) : ∃ k < 16, x = Nat.digitChar k := by
  unfold hexDigits at h
  induction n using Nat.strongRecOn with
  | ind n ih =>
      by_cases hsmall : n < 16
      · rw [Nat.toDigits_of_lt_base hsmall, List.mem_singleton] at h
        exact ⟨n, hsmall, h⟩
      · rw [Nat.toDigits_of_base_le (by decide) (by omega), List.mem_append, List.mem_singleton] at h
        rcases h with h | h
        · exact ih (n / 16) (by omega) h
        · exact ⟨n % 16, Nat.mod_lt _ (by decide), h⟩

theorem closing_not_mem_hexDigits (n : Nat) : '}' ∉ hexDigits n := by
  intro h
  obtain ⟨k, hk, hclosing⟩ := mem_hexDigits h
  have hall : ∀ k < 16, '}' ≠ Nat.digitChar k := by decide
  exact hall k hk hclosing

/-! ## Characters -/

/-- The characters that are written by a short escape between double quotes, each with its letter. -/
def quoteEscapes : List (Char × Char) :=
  [('\x00', '0'), ('\t', 't'), ('\r', 'r'), ('\n', 'n'), ('\\', '\\'), ('"', '"')]

/-- A character is written by a short escape, by its number, or as it is. -/
theorem escape_cases (c : Char) :
    (∃ letter, (c, letter) ∈ quoteEscapes ∧ escape '"' c = ['\\', letter]) ∨
      escape '"' c = ['\\', 'u', '{'] ++ hexDigits c.toNat ++ ['}'] ∨
      isHidden c = false ∧ c ≠ '\\' ∧ c ≠ '"' ∧ escape '"' c = [c] := by
  have hshort : ∀ p ∈ quoteEscapes, escape '"' p.1 = ['\\', p.2] := by decide
  by_cases hmem : c ∈ quoteEscapes.map Prod.fst
  · obtain ⟨⟨_, letter⟩, hpair, rfl⟩ := List.mem_map.1 hmem
    exact Or.inl ⟨letter, hpair, hshort _ hpair⟩
  · simp only [quoteEscapes, List.map_cons, List.map_nil, List.mem_cons, List.not_mem_nil, or_false,
      not_or] at hmem
    obtain ⟨hzero, ht, hr, hn, hslash, hquote⟩ := hmem
    rw [escape, if_neg hzero, if_neg ht, if_neg hr, if_neg hn, if_neg hslash, if_neg hquote]
    cases hhidden : isHidden c with
    | true => exact Or.inr (Or.inl rfl)
    | false => exact Or.inr (Or.inr ⟨rfl, hslash, hquote, rfl⟩)

/-- Reads a character back, and leaves what follows it. -/
def unescape : List Char → Option (Char × List Char)
  | [] => none
  | '\\' :: 'u' :: '{' :: rest =>
      some (Char.ofNat (hexNumber (rest.takeWhile (· != '}'))), (rest.dropWhile (· != '}')).tail)
  | '\\' :: letter :: rest => (quoteEscapes.find? (·.2 == letter)).map fun p => (p.1, rest)
  | c :: rest => some (c, rest)

/-- A character is read back, whatever follows it. -/
theorem unescape_escape (c : Char) (rest : List Char) :
    unescape (escape '"' c ++ rest) = some (c, rest) := by
  rcases escape_cases c with ⟨letter, hmem, hescape⟩ | hescape | ⟨-, hslash, -, hescape⟩
  · have hread : ∀ p ∈ quoteEscapes, unescape ('\\' :: p.2 :: rest) = some (p.1, rest) := by
      simp only [quoteEscapes, List.forall_mem_cons, List.not_mem_nil, false_implies, implies_true, and_true]
      exact ⟨rfl, rfl, rfl, rfl, rfl, rfl⟩
    rw [hescape]
    exact hread (c, letter) hmem
  · have hdigits : ∀ d ∈ hexDigits c.toNat, (d != '}') = true := by
      intro d hd
      rw [bne_iff_ne]
      rintro rfl
      exact closing_not_mem_hexDigits _ hd
    have hrest : escape '"' c ++ rest = '\\' :: 'u' :: '{' :: (hexDigits c.toNat ++ '}' :: rest) := by
      simp [hescape]
    rw [hrest, unescape, List.takeWhile_append_of_pos hdigits, List.dropWhile_append_of_pos hdigits]
    have htake : ('}' :: rest).takeWhile (· != '}') = [] := rfl
    have hdrop : ('}' :: rest).dropWhile (· != '}') = '}' :: rest := rfl
    rw [htake, hdrop, List.append_nil, hexNumber_hexDigits, Char.ofNat_toNat, List.tail_cons]
  · rw [hescape, List.singleton_append, unescape]
    · intro rest' h
      exact absurd h hslash
    · intro letter rest' h
      exact absurd h hslash

/-- No character is written with a quote in front. -/
theorem escape_append_ne (c : Char) (rest u : List Char) : escape '"' c ++ rest ≠ '"' :: u := by
  rcases escape_cases c with ⟨letter, -, hescape⟩ | hescape | ⟨-, -, hquote, hescape⟩
  · simp [hescape]
  · simp [hescape]
  · simp [hescape, hquote]

/-! ## Texts -/

theorem quote_toList (s : String) : (quote s).toList = '"' :: (s.toList.flatMap (escape '"') ++ ['"']) := by
  rw [quote, String.toList_ofList, List.cons_append]

/-- Where texts go on alike after their characters are written and the quote is closed, they are the same
    and go on alike after it. -/
theorem flatMap_escape_append_inj {cs ds : List Char}
    (h : cs.flatMap (escape '"') ++ '"' :: u = ds.flatMap (escape '"') ++ '"' :: v) : cs = ds ∧ u = v := by
  induction cs generalizing ds with
  | nil =>
      cases ds with
      | nil => exact ⟨rfl, List.tail_eq_of_cons_eq h⟩
      | cons d ds =>
          rw [List.flatMap_cons, List.append_assoc] at h
          exact absurd h.symm (escape_append_ne d _ u)
  | cons c cs ih =>
      rw [List.flatMap_cons, List.append_assoc] at h
      cases ds with
      | nil => exact absurd h (escape_append_ne c _ v)
      | cons d ds =>
          rw [List.flatMap_cons, List.append_assoc] at h
          have hread := congrArg unescape h
          rw [unescape_escape, unescape_escape, Option.some.injEq, Prod.mk.injEq] at hread
          obtain ⟨rfl, hrest⟩ := hread
          obtain ⟨rfl, huv⟩ := ih hrest
          exact ⟨rfl, huv⟩

/-- What begins with a quoted text does so with one text only, and goes on after it in one way. -/
theorem quote_append_inj (h : (quote s).toList ++ u = (quote t).toList ++ v) : s = t ∧ u = v := by
  simp only [quote_toList, List.cons_append, List.append_assoc, List.nil_append] at h
  obtain ⟨hst, huv⟩ := flatMap_escape_append_inj (List.tail_eq_of_cons_eq h)
  exact ⟨String.toList_injective hst, huv⟩

/-! ## Visibility -/

theorem isHidden_of_all {cs : List Char} (hall : cs.all (!isHidden ·) = true) (h : x ∈ cs) :
    isHidden x = false := by
  simpa using List.all_eq_true.1 hall x h

/-- Whatever is written for a character is visible. -/
theorem isHidden_of_mem_escape (h : x ∈ escape '"' c) : isHidden x = false := by
  have hmarks : ['\\', 'u', '{', '}'].all (!isHidden ·) = true := by decide +kernel
  rcases escape_cases c with ⟨letter, hpair, hescape⟩ | hescape | ⟨hvisible, -, -, hescape⟩
  · have hletters : (quoteEscapes.map Prod.snd).all (!isHidden ·) = true := by decide +kernel
    rw [hescape, List.mem_cons, List.mem_singleton] at h
    rcases h with rfl | rfl
    · exact isHidden_of_all hmarks List.mem_cons_self
    · exact isHidden_of_all hletters (List.mem_map_of_mem hpair)
  · have hdigits : ((List.range 16).map Nat.digitChar).all (!isHidden ·) = true := by decide +kernel
    rw [hescape, List.mem_append, List.mem_append, List.mem_singleton] at h
    rcases h with (h | h) | rfl
    · exact isHidden_of_all hmarks (List.mem_append_left ['}'] h)
    · obtain ⟨k, hk, rfl⟩ := mem_hexDigits h
      exact isHidden_of_all hdigits (List.mem_map_of_mem (List.mem_range.2 hk))
    · exact isHidden_of_all hmarks (by decide)
  · rw [hescape, List.mem_singleton] at h
    rw [h, hvisible]

theorem isHidden_of_mem_quote (h : x ∈ (quote s).toList) : isHidden x = false := by
  have hquote : isHidden '"' = false := by decide +kernel
  rw [quote_toList, List.mem_cons, List.mem_append, List.mem_singleton] at h
  rcases h with rfl | h | rfl
  · exact hquote
  · obtain ⟨c, -, hc⟩ := List.mem_flatMap.1 h
    exact isHidden_of_mem_escape hc
  · exact hquote

/-- The characters that break a line, in one convention or another. -/
def lineBreaks : List Char := ['\n', '\x0b', '\x0c', '\r', '\x85', '\u2028', '\u2029']

theorem isHidden_of_mem_lineBreaks (h : x ∈ lineBreaks) : isHidden x = true := by
  have hall : lineBreaks.all isHidden = true := by decide +kernel
  exact List.all_eq_true.1 hall x h

end Formula.Text
