import Formula.Proofs.Grammar

/-!
# `Formula.Proofs.Loosening` — the same text with other blanks

A text is looser than another when it differs from it in blanks alone and has blanks wherever the other
has some. The words of a language that stay in it when they are tightened cannot become longer words
when the text around them is loosened: whatever is found in the loose text stands in the tight text
too.

## Contents
- **Loosening.** `Loosens`; `Loosens.append`, `Loosens.gap`, and `Loosens.split`, which cuts both texts
  where the loose one is cut.
- **Languages.** `Tight`: closed under tightening; `Trim`: no word ends in a blank.
- **Finding.** `Finds.of_loosens`.
- **Tokens.** `tight_number`, `trim_number`; `Lexer.State.tight_language`,
  `Lexer.State.trim_language`.
-/

namespace Formula.Grammar

open Alphabet
open scoped Computability

variable {L M : Language Char} {u u' v v' w w' g g' t : List Char} {x : Char}

/-! ## Loosening -/

/-- The texts differ in blanks alone, and the second has some wherever the first has. -/
inductive Loosens : List Char → List Char → Prop where
  | nil : Loosens [] []
  | same {x : Char} {u v : List Char} (h : Loosens u v) : Loosens (x :: u) (x :: v)
  /-- One more blank in the loose text. -/
  | widen {y : Char} {u v : List Char} (hy : blank.acceptsChar y) (h : Loosens u v) :
      Loosens u (y :: v)
  /-- One more blank in the tight text, where the loose text has one already. -/
  | narrow {x y : Char} {u v : List Char} (hx : blank.acceptsChar x) (hy : blank.acceptsChar y)
      (h : Loosens u (y :: v)) : Loosens (x :: u) (y :: v)

theorem Loosens.refl (w : List Char) : Loosens w w := by
  induction w with
  | nil => exact .nil
  | cons x w ih => exact .same ih

theorem Loosens.append (h : Loosens u u') (hv : Loosens v v') : Loosens (u ++ v) (u' ++ v') := by
  induction h with
  | nil => exact hv
  | same _ ih => exact .same ih
  | widen hy _ ih => exact .widen hy ih
  | narrow hx hy _ ih => exact .narrow hx hy ih

/-- Blanks may be added anywhere. -/
theorem Loosens.widen_all (hg : ∀ x ∈ g, blank.acceptsChar x) (h : Loosens u v) :
    Loosens u (g ++ v) := by
  induction g with
  | nil => exact h
  | cons x g ih =>
      apply Loosens.widen (hg x List.mem_cons_self)
      apply ih
      intro y hy
      exact hg y (List.mem_cons_of_mem x hy)

/-- Blanks may be exchanged for other blanks, as long as there are some. -/
theorem Loosens.gap (hg : ∀ x ∈ g, blank.acceptsChar x) (hg' : ∀ x ∈ g', blank.acceptsChar x)
    (hnil : g' = [] → g = []) : Loosens g g' := by
  cases g' with
  | nil =>
      rw [hnil rfl]
      exact .nil
  | cons y g' =>
      induction g with
      | nil =>
          have h := Loosens.widen_all hg' .nil
          rwa [List.append_nil] at h
      | cons x g ih =>
          refine .narrow (hg x List.mem_cons_self) (hg' y List.mem_cons_self) (ih ?_ nofun)
          intro z hz
          exact hg z (List.mem_cons_of_mem x hz)

/-- Where the loose text is cut, the tight text can be cut too. -/
theorem Loosens.split (h : Loosens w (u' ++ v')) :
    ∃ u v, w = u ++ v ∧ Loosens u u' ∧ Loosens v v' := by
  generalize hw' : u' ++ v' = w' at h
  -- a cut at the front takes nothing from the tight text, whatever the last move was
  induction h generalizing u' with
  | nil =>
      obtain ⟨rfl, rfl⟩ := List.append_eq_nil_iff.1 hw'
      exact ⟨[], [], rfl, .nil, .nil⟩
  | @same x u v h ih =>
      cases u' with
      | nil =>
          rw [List.nil_append] at hw'
          exact ⟨[], x :: u, rfl, .nil, hw' ▸ .same h⟩
      | cons y u' =>
          rw [List.cons_append, List.cons.injEq] at hw'
          obtain ⟨rfl, hw'⟩ := hw'
          obtain ⟨a, b, rfl, ha, hb⟩ := ih hw'
          exact ⟨y :: a, b, rfl, .same ha, hb⟩
  | @widen y u v hy h ih =>
      cases u' with
      | nil =>
          rw [List.nil_append] at hw'
          exact ⟨[], u, rfl, .nil, hw' ▸ .widen hy h⟩
      | cons z u' =>
          rw [List.cons_append, List.cons.injEq] at hw'
          obtain ⟨rfl, hw'⟩ := hw'
          obtain ⟨a, b, rfl, ha, hb⟩ := ih hw'
          exact ⟨a, b, rfl, .widen hy ha, hb⟩
  | @narrow x y u v hx hy h ih =>
      cases u' with
      | nil =>
          rw [List.nil_append] at hw'
          exact ⟨[], x :: u, rfl, .nil, hw' ▸ .narrow hx hy h⟩
      | cons z u' =>
          obtain ⟨a, b, rfl, ha, hb⟩ := ih hw'
          rw [List.cons_append, List.cons.injEq] at hw'
          obtain ⟨rfl, -⟩ := hw'
          exact ⟨x :: a, b, rfl, .narrow hx hy ha, hb⟩

/-- Without blanks there is nothing to tighten. -/
theorem Loosens.eq_of_no_blank (h : Loosens w w') (hw : ∀ x ∈ w', ¬ blank.acceptsChar x) :
    w = w' := by
  induction h with
  | nil => rfl
  | same _ ih => rw [ih fun y hy => hw y (List.mem_cons_of_mem _ hy)]
  | widen hy _ _ => exact absurd hy (hw _ List.mem_cons_self)
  | narrow _ hy _ _ => exact absurd hy (hw _ List.mem_cons_self)

/-- Tightened blanks are blanks. -/
theorem Loosens.blank_left (h : Loosens w w') (hw : ∀ x ∈ w', blank.acceptsChar x) :
    ∀ x ∈ w, blank.acceptsChar x := by
  induction h with
  | nil => exact hw
  | same _ ih =>
      intro y hy
      rcases List.mem_cons.1 hy with rfl | hy
      · exact hw y List.mem_cons_self
      · exact ih (fun z hz => hw z (List.mem_cons_of_mem _ hz)) y hy
  | widen _ _ ih =>
      apply ih
      intro z hz
      exact hw z (List.mem_cons_of_mem _ hz)
  | narrow hx _ _ ih =>
      intro y hy
      rcases List.mem_cons.1 hy with rfl | hy
      · exact hx
      · exact ih hw y hy

/-- What tightens to nothing is blanks. -/
theorem Loosens.blank_right (h : Loosens [] w') : ∀ x ∈ w', blank.acceptsChar x := by
  generalize hw : [] = w at h
  induction h with
  | nil => nofun
  | same => cases hw
  | widen hy _ ih =>
      intro x hx
      rcases List.mem_cons.1 hx with rfl | hx
      · exact hy
      · exact ih hw x hx
  | narrow => cases hw

/-! ## Languages -/

/-- A word of the language stays one when it is tightened. -/
def Tight (L : Language Char) : Prop := ∀ w w', Loosens w w' → w' ∈ L → w ∈ L

/-- No word of the language ends in blanks. -/
def Trim (L : Language Char) : Prop := ∀ u v, u ++ v ∈ L → (∀ x ∈ v, blank.acceptsChar x) → v = []

/-- The words of the language have no blanks. -/
def Solid (L : Language Char) : Prop := Over L fun x => ¬ blank.acceptsChar x

theorem Solid.tight (h : Solid L) : Tight L := by
  intro w w' hl hw
  rwa [hl.eq_of_no_blank (h w' hw)]

theorem Solid.trim (h : Solid L) : Trim L := by
  intro u v huv hv
  cases v with
  | nil => rfl
  | cons x v => exact absurd (hv x List.mem_cons_self) (h _ huv x (by simp))

theorem Tight.mul (hL : Tight L) (hM : Tight M) : Tight (L * M) := by
  intro w w' hl hw
  obtain ⟨u', hu, v', hv, rfl⟩ := Language.mem_mul.1 hw
  obtain ⟨u, v, rfl, hlu, hlv⟩ := hl.split
  exact Language.mem_mul.2 ⟨u, hL u u' hlu hu, v, hM v v' hlv hv, rfl⟩

theorem Tight.add (hL : Tight L) (hM : Tight M) : Tight (L + M) := by
  intro w w' hl hw
  refine (Language.mem_add L M w).2 ?_
  rcases (Language.mem_add L M w').1 hw with hw | hw
  · exact Or.inl (hL w w' hl hw)
  · exact Or.inr (hM w w' hl hw)

/-- Only the end of the second factor matters, when that is never empty. -/
theorem Trim.mul (hM : Trim M) (hne : [] ∉ M) : Trim (L * M) := by
  intro u v huv hv
  obtain ⟨a, -, b, hb, heq⟩ := Language.mem_mul.1 huv
  rcases List.append_eq_append_iff.1 heq with ⟨c, -, rfl⟩ | ⟨c, -, rfl⟩
  · exact hM c v hb hv
  · have hnil := hM [] b hb fun x hx => hv x (List.mem_append_right c hx)
    exact absurd (hnil ▸ hb) hne

theorem Trim.add (hL : Trim L) (hM : Trim M) : Trim (L + M) := by
  intro u v huv hv
  rcases (Language.mem_add L M _).1 huv with huv | huv
  · exact hL u v huv hv
  · exact hM u v huv hv

/-! ## Finding -/

variable {f : List Char → List Char}

/-- What is found does not change when the text behind it is loosened, or loses blanks at its end. -/
theorem Finds.of_loosens (h : Finds L f) (ht : Tight L) (htrim : Trim L) (heq : f (t ++ u) = t)
    (hl : Loosens u (u' ++ g)) : f (t ++ u') = t := by
  have hle : t <+: f (t ++ u') := by
    by_cases hnil : t = []
    · rw [hnil]
      exact List.nil_prefix
    · have hmem := h.mem (t ++ u) (by rwa [heq])
      rw [heq] at hmem
      exact h.word_le hmem
  obtain ⟨v, hv⟩ := hle
  obtain ⟨r, hr⟩ : v <+: u' := by
    have hbeginning := h.beginning (t ++ u')
    rwa [← hv, List.prefix_append_right_inj] at hbeginning
  cases v with
  | nil => rw [← hv, List.append_nil]
  | cons x v =>
      exfalso
      have hne : f (t ++ u') ≠ [] := by simp [← hv]
      have hmem := h.mem _ hne
      rw [← hv] at hmem
      -- the longer word, tightened, stands in the tight text
      rw [← hr, List.append_assoc] at hl
      obtain ⟨a, b, rfl, ha, -⟩ := hl.split
      have htight := ht _ _ ((Loosens.refl t).append ha) hmem
      have hlen := h.longest _ b htight
      rw [List.append_assoc, heq, List.length_append] at hlen
      have hnil : a = [] := List.eq_nil_of_length_eq_zero (by omega)
      rw [hnil] at ha
      cases htrim t _ hmem ha.blank_right

/-! ## Tokens -/

theorem tight_blanks : Tight blanks := by
  intro w w' hl hw
  rw [mem_blanks] at hw ⊢
  exact hl.blank_left hw

variable {rules : List Rule}

theorem not_blank_of_accepts (hs : Rule.anyAcceptsChar rules ' ' = false)
    (ht : Rule.anyAcceptsChar rules '\t' = false) (hx : Rule.anyAcceptsChar rules x) :
    ¬ blank.acceptsChar x := by
  intro hb
  rcases blank_iff.1 hb with rfl | rfl
  · rw [hs] at hx
    cases hx
  · rw [ht] at hx
    cases hx

theorem solid_oneOf (hs : Rule.anyAcceptsChar rules ' ' = false)
    (ht : Rule.anyAcceptsChar rules '\t' = false) : Solid (oneOf rules) := by
  apply over_oneOf
  intro x hx
  exact not_blank_of_accepts hs ht hx

theorem solid_star_oneOf (hs : Rule.anyAcceptsChar rules ' ' = false)
    (ht : Rule.anyAcceptsChar rules '\t' = false) : Solid (oneOf rules)∗ := by
  apply over_star_oneOf
  intro x hx
  exact not_blank_of_accepts hs ht hx

theorem solid_unsigned : Solid unsigned := by
  intro w hw x hx
  exact not_blank_of_digitOrPoint (over_unsigned w hw x hx)

theorem tight_decimal : Tight decimal := by
  have hsign : Solid (oneOf [sign]) := solid_oneOf (by decide) (by decide)
  exact (Solid.tight over_one).add hsign.tight |>.mul (tight_blanks.mul solid_unsigned.tight)

theorem trim_decimal : Trim decimal := by
  unfold decimal
  rw [← mul_assoc]
  apply Trim.mul solid_unsigned.trim
  intro hnil
  obtain ⟨x, v, heq, -⟩ := exists_cons_of_unsigned hnil
  cases heq

theorem tight_number : Tight number := by
  have hletter : Solid (oneOf [Alphabet.exponent]) := solid_oneOf (by decide) (by decide)
  have hexponent := tight_blanks.mul (hletter.tight.mul tight_decimal)
  exact tight_decimal.mul ((Solid.tight over_one).add hexponent)

theorem trim_number : Trim number := by
  have hne : [] ∉ decimal := fun hnil => ne_nil_of_decimal hnil rfl
  unfold number exponent
  rw [mul_add, mul_one, ← mul_assoc, ← mul_assoc]
  exact trim_decimal.add (Trim.mul trim_decimal hne)

theorem solid_operator : Solid operator := by
  intro w hw x hx
  have hacc : Rule.anyAcceptsChar [Alphabet.operator] x :=
    Piece.anyAcceptsChar_singleton.trans (operator_of_mem hw hx)
  exact not_blank_of_accepts (by decide) (by decide) hacc

theorem solid_name : Solid name :=
  (solid_oneOf (by decide) (by decide)).mul (solid_star_oneOf (by decide) (by decide))

end Formula.Grammar

namespace Formula.Lexer.State

open Grammar

theorem solid_language {st : State} (h : st ≠ number) : Solid st.language := by
  cases st with
  | dispatch => exact solid_oneOf (by decide) (by decide)
  | number => exact absurd rfl h
  | operator => exact solid_operator
  | punctuation => exact solid_oneOf (by decide) (by decide)
  | name => exact solid_name

/-- Tokens stay tokens of their kind when they are tightened. -/
theorem tight_language (st : State) : Tight st.language := by
  by_cases h : st = number
  · rw [h]
    exact tight_number
  · exact (solid_language h).tight

/-- No token ends in a blank. -/
theorem trim_language (st : State) : Trim st.language := by
  by_cases h : st = number
  · rw [h]
    exact trim_number
  · exact (solid_language h).trim

end Formula.Lexer.State
