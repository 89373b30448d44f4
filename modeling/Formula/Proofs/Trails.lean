import Formula.Proofs.Reachable
import Formula.Proofs.Steps

/-!
# `Formula.Proofs.Trails` — every cursor that a step works on

A step reads characters and undoes readings, sets marks and returns to them, and cuts off or drops the
pending text. Each of these operations is carried out on a cursor, and the trail of a step is the list
of these cursors. No cursor of a reading's trail lies before the cursor that the reading began with, and
so every mark that is set can be returned to.

## Contents
- **Trails.** `Trail`, with `Trail.trans`.
- **Readings.** `Near`, cursors that a reading can get to; `Walk`, with `Walk.trans` and
  `Walk.giveBack`.
- **Characters.** `acceptTrail`, `acceptManyTrail`, and their walks.
- **Decimals.** `acceptFractionTrail`, `acceptDecimalTrail`, and their walks.
- **Steps.** `State.readingTrail`, with `walk_act`; `State.trail`, with `trail_step` and `near_trail`.
-/

namespace Formula.Cursor

open Rule Piece Alphabet

variable {c c₀ c' d : Cursor} {cs ds : List Cursor} {p : List Char} {rules : List Rule}

/-! ## Trails -/

/-- Operations in a row, the first on `c₀` and each on the cursor that the one before it left: these are
    the cursors, and `c` is what the last operation left. A mark is returned to where it was set on the
    way. -/
inductive Trail (c₀ : Cursor) : List Cursor → Cursor → Prop where
  | start : Trail c₀ [] c₀
  | next {cs : List Cursor} {c : Cursor} (h : Trail c₀ cs c) : Trail c₀ (cs ++ [c]) c.next.2
  | back {cs : List Cursor} {c : Cursor} (h : Trail c₀ cs c) : Trail c₀ (cs ++ [c]) c.back
  | acceptText {cs : List Cursor} {c : Cursor} (h : Trail c₀ cs c) (rules : List Rule) :
      Trail c₀ (cs ++ [c]) (c.acceptText rules).2
  | restore {cs : List Cursor} {c m d : Cursor} (h : Trail c₀ cs c) (hm : m ∈ cs)
      (hrestore : c.restore m.mark = .ok d) : Trail c₀ (cs ++ [c]) d
  | cut {cs : List Cursor} {c d : Cursor} {s : List Char} (h : Trail c₀ cs c)
      (hcut : c.cut = .ok (s, d)) : Trail c₀ (cs ++ [c]) d
  | skip {cs : List Cursor} {c : Cursor} (h : Trail c₀ cs c) : Trail c₀ (cs ++ [c]) c.skip

theorem Trail.trans (h : Trail c₀ cs c) (h' : Trail c ds d) : Trail c₀ (cs ++ ds) d := by
  induction h' with
  | start => rwa [List.append_nil]
  | next _ ih =>
      rw [← List.append_assoc]
      exact ih.next
  | back _ ih =>
      rw [← List.append_assoc]
      exact ih.back
  | acceptText _ rules ih =>
      rw [← List.append_assoc]
      exact ih.acceptText rules
  | restore _ hm hrestore ih =>
      rw [← List.append_assoc]
      exact ih.restore (List.mem_append_right _ hm) hrestore
  | cut _ hcut ih =>
      rw [← List.append_assoc]
      exact ih.cut hcut
  | skip _ ih =>
      rw [← List.append_assoc]
      exact ih.skip

/-! ## Readings -/

/-- A reading of `c` can get to `d`: it neither cuts the token nor leads back before `c`, and it asks
    once at most for a character after the end. -/
structure Near (c d : Cursor) : Prop where
  text_eq : d.text = c.text
  start_eq : d.start = c.start
  position_le : c.position ≤ d.position
  overread_le : d.overread ≤ c.overread + 1

theorem near_refl (c : Cursor) : Near c c :=
  ⟨rfl, rfl, Nat.le_refl _, Nat.le_succ _⟩

theorem near_past (h : p <+: c.ahead) (hd : Near (c.past p) d) : Near c d := by
  refine ⟨hd.text_eq.trans (past_text h), hd.start_eq, ?_, hd.overread_le⟩
  have hle := hd.position_le
  rw [past_position] at hle
  exact Nat.le_of_add_right_le hle

theorem near_next (c : Cursor) : Near c c.next.2 := by
  obtain ⟨behind, ahead, start, overread⟩ := c
  cases ahead with
  | nil => exact ⟨rfl, rfl, Nat.le_refl _, Nat.le_refl _⟩
  | cons x rest => exact ⟨by simp [next, text], rfl, by simp [next, position], Nat.le_succ _⟩

/-- A reading of `c` works on these cursors, and moves it over a piece to `c'`. -/
structure Walk (c : Cursor) (cs : List Cursor) (c' : Cursor) : Prop where
  trail : Trail c cs c'
  near : ∀ d ∈ cs, Near c d
  ends : ∃ p, p <+: c.ahead ∧ c' = c.past p

theorem Walk.near_end (h : Walk c cs c') : Near c c' := by
  obtain ⟨p, hp, rfl⟩ := h.ends
  exact near_past hp (near_refl _)

theorem Walk.settled (h : Walk c cs c') (hc : c.Settled) : c'.Settled := by
  obtain ⟨p, -, rfl⟩ := h.ends
  exact hc.past p

theorem Walk.trans (h : Walk c cs c') (h' : Walk c' ds d) : Walk c (cs ++ ds) d := by
  obtain ⟨p, hp, rfl⟩ := h.ends
  obtain ⟨q, hq, rfl⟩ := h'.ends
  refine ⟨h.trail.trans h'.trail, ?_, p ++ q, prefix_append hp hq, past_past⟩
  intro e he
  rcases List.mem_append.1 he with he | he
  · exact h.near e he
  · exact near_past hp (h'.near e he)

/-- What was read is given back, by a return to where the reading began. -/
theorem Walk.giveBack (h : Walk c cs c') (hmem : c ∈ cs) (hrestore : c'.restore c.mark = .ok d) :
    Walk c (cs ++ [c']) d := by
  have hend := h.near_end
  have htrail := h.trail.restore hmem hrestore
  have heq : d = c := by
    unfold restore at hrestore
    split at hrestore
    · cases hrestore
    · cases hrestore
      rw [hend.start_eq]
      rfl
  subst heq
  refine ⟨htrail, ?_, [], List.nil_prefix, rfl⟩
  intro e he
  rcases List.mem_append.1 he with he | he
  · exact h.near e he
  · rw [List.mem_singleton.1 he]
    exact hend

/-! ## Characters -/

/-- A character is read, and the reading is undone if no rule accepts it. -/
def acceptTrail (rules : List Rule) (c : Cursor) : List Cursor :=
  c :: if (c.accept rules).1 then [] else [c.next.2]

/-- Characters are read as long as some rule accepts the next one. -/
def acceptManyTrail (rules : List Rule) (c : Cursor) : List Cursor :=
  match _h : c.accept rules with
  | (true, c') => c.acceptTrail rules ++ c'.acceptManyTrail rules
  | (false, _) => c.acceptTrail rules
termination_by c.ahead.length
decreasing_by
  have := accept_shorter _h
  omega

theorem trail_accept (rules : List Rule) (c : Cursor) :
    Trail c (c.acceptTrail rules) (c.accept rules).2 := by
  have hread : Trail c [c] c.next.2 := Trail.start.next
  unfold acceptTrail accept
  split
  · next x c₁ hc =>
      rw [hc] at hread
      split
      · exact hread
      · rw [hc]
        exact hread.back
  · next c₁ hc =>
      rw [hc] at hread ⊢
      exact hread.back

theorem walk_accept (h : c.Settled) (rules : List Rule) :
    Walk c (c.acceptTrail rules) (c.accept rules).2 := by
  refine ⟨trail_accept rules c, ?_, _, prefix_initial, congrArg Prod.snd (accept_eq h rules)⟩
  intro d hd
  rcases List.mem_cons.1 hd with rfl | hd
  · exact near_refl _
  · split at hd
    · cases hd
    · rw [List.mem_singleton.1 hd]
      exact near_next c

theorem walk_acceptMany (h : c.Settled) (rules : List Rule) :
    Walk c (c.acceptManyTrail rules) (c.acceptMany rules).2 := by
  fun_induction acceptManyTrail rules c with
  | case1 c c' hc ih =>
      have hread := walk_accept h rules
      rw [hc] at hread
      rw [acceptMany, hc]
      exact hread.trans (ih (hread.settled h))
  | case2 c c' hc =>
      have hread := walk_accept h rules
      rw [hc] at hread
      rw [acceptMany, hc]
      exact hread

theorem mem_acceptTrail : c ∈ c.acceptTrail rules := List.mem_cons_self

theorem mem_acceptManyTrail : c ∈ c.acceptManyTrail rules := by
  unfold acceptManyTrail
  split
  · exact List.mem_append_left _ mem_acceptTrail
  · exact mem_acceptTrail

/-! ## Decimals -/

/-- A point and the digits after it are read; what was read is given back if there are none. -/
def acceptFractionTrail (c : Cursor) : List Cursor :=
  c.acceptTrail [point] ++
    match c.accept [point] with
    | (true, c₁) =>
        c₁.acceptManyTrail [digit] ++
          match c₁.acceptMany [digit] with
          | (true, _) => []
          | (false, c₂) => [c₂]
    | (false, c₁) => [c₁]

/-- A sign, blanks and digits are read, and then a fraction; all is given back if there are neither
    digits nor a fraction. -/
def acceptDecimalTrail (c : Cursor) : List Cursor :=
  let c₁ := (c.accept [sign]).2
  let c₂ := (c₁.acceptMany [blank]).2
  let c₃ := (c₂.acceptMany [digit]).2
  c.acceptTrail [sign] ++ (c₁.acceptManyTrail [blank] ++ (c₂.acceptManyTrail [digit] ++
    (c₃.acceptFractionTrail ++
      match c₂.acceptMany [digit], c₃.acceptFraction with
      | (false, _), .ok (false, c₄) => [c₄]
      | _, _ => [])))

variable {b : Bool}

theorem walk_acceptFraction (h : c.Settled) (hc : c.acceptFraction = .ok (b, c')) :
    Walk c c.acceptFractionTrail c' := by
  have hpoint := walk_accept h [point]
  unfold acceptFraction at hc
  unfold acceptFractionTrail
  cases h₁ : c.accept [point] with
  | mk found c₁ =>
      rw [h₁] at hpoint hc
      cases found with
      | true =>
          have hdigits := walk_acceptMany (hpoint.settled h) [digit]
          dsimp only at hc hdigits ⊢
          cases h₂ : c₁.acceptMany [digit] with
          | mk found c₂ =>
              rw [h₂] at hdigits hc
              cases found with
              | true =>
                  cases hc
                  rw [List.append_nil]
                  exact hpoint.trans hdigits
              | false =>
                  obtain ⟨d, hrestore, hc⟩ := of_bind_ok hc
                  cases hc
                  rw [← List.append_assoc]
                  exact (hpoint.trans hdigits).giveBack (List.mem_append_left _ mem_acceptTrail)
                    hrestore
      | false =>
          obtain ⟨d, hrestore, hc⟩ := of_bind_ok hc
          cases hc
          exact hpoint.giveBack mem_acceptTrail hrestore

theorem walk_acceptDecimal (h : c.Settled) (hc : c.acceptDecimal = .ok (b, c')) :
    Walk c c.acceptDecimalTrail c' := by
  have hsign := walk_accept h [sign]
  have hblanks := hsign.trans (walk_acceptMany (hsign.settled h) [blank])
  have hdigits := hblanks.trans (walk_acceptMany (hblanks.settled h) [digit])
  have hsettled := hdigits.settled h
  have hmem : c ∈ (c.acceptTrail [sign] ++ (c.accept [sign]).2.acceptManyTrail [blank]) ++
      (((c.accept [sign]).2.acceptMany [blank]).2).acceptManyTrail [digit] :=
    List.mem_append_left _ (List.mem_append_left _ mem_acceptTrail)
  unfold acceptDecimal at hc
  unfold acceptDecimalTrail
  dsimp only at hc ⊢
  simp only [← List.append_assoc]
  split at hc
  · next c₃ h₃ =>
      rw [h₃] at hdigits hsettled ⊢
      obtain ⟨⟨found, c₄⟩, hf, hc⟩ := of_bind_ok hc
      cases hc
      rw [List.append_nil]
      exact hdigits.trans (walk_acceptFraction hsettled hf)
  · next c₃ h₃ =>
      rw [h₃] at hdigits hsettled ⊢
      obtain ⟨⟨found, c₄⟩, hf, hc⟩ := of_bind_ok hc
      have hfraction := hdigits.trans (walk_acceptFraction hsettled hf)
      dsimp only
      rw [hf]
      cases found with
      | true =>
          cases hc
          rw [List.append_nil]
          exact hfraction
      | false =>
          obtain ⟨d, hrestore, hc⟩ := of_bind_ok hc
          cases hc
          exact hfraction.giveBack (List.mem_append_left _ hmem) hrestore

end Formula.Cursor

namespace Formula.Lexer

open Rule Alphabet Cursor

variable {c c' d : Cursor} {st : State} {a : Action} {q : TokenQueue} {last : Option Token.Kind}

/-! ## Steps -/

/-- The cursor after an action's reading. -/
def Action.cursor : Action → Cursor
  | .commit _ c => c
  | .handOver _ c => c
  | .reject _ c => c

/-- A decimal is read, and then blanks, a letter and an exponent; these are given back if any of them is
    missing. -/
def readNumberTrail (c : Cursor) : List Cursor :=
  c.acceptDecimalTrail ++
    match c.acceptDecimal with
    | .ok (true, c₁) =>
        let c₂ := (c₁.acceptMany [blank]).2
        c₁.acceptManyTrail [blank] ++ (c₂.acceptTrail [exponent] ++
          match c₂.accept [exponent] with
          | (true, c₃) =>
              c₃.acceptDecimalTrail ++
                match c₃.acceptDecimal with
                | .ok (false, c₄) => [c₄]
                | _ => []
          | (false, c₃) => [c₃])
    | _ => []

/-- A first character is read, and then the characters that go on with it. -/
def readNameTrail (c : Cursor) : List Cursor :=
  c.acceptTrail [underscore, letter] ++
    match c.accept [underscore, letter] with
    | (true, c₁) => c₁.acceptManyTrail [underscore, letter, digit]
    | (false, _) => []

/-- Blanks are read and dropped; then a line break is read, or the end of the text is noted. -/
def readBlanksTrail (c : Cursor) : List Cursor :=
  let c₁ := (c.acceptMany [blank]).2
  c.acceptManyTrail [blank] ++ (c₁ ::
    match c₁.skip.peek with
    | none => [c₁.skip]
    | some x => if newLine.acceptsChar x then [c₁.skip] else [])

/-- The cursors that a state's reading works on. -/
def State.readingTrail : State → Cursor → List Cursor
  | .dispatch, c => readBlanksTrail c
  | .number, c => readNumberTrail c
  | .operator, c => [c]
  | .punctuation, c => c.acceptTrail [Alphabet.punctuation]
  | .name, c => readNameTrail c

/-- The cursors that a step works on: a token is cut off where the reading ends. -/
def State.trail (st : State) (last : Option Token.Kind) (c : Cursor) : List Cursor :=
  st.readingTrail c ++
    match st.act last c with
    | .ok (.commit _ c₁) => [c₁]
    | _ => []

theorem walk_readNumber (h : c.Settled) (ha : readNumber c = .ok a) :
    Walk c (readNumberTrail c) a.cursor := by
  unfold readNumber at ha
  unfold readNumberTrail
  obtain ⟨⟨found, c₁⟩, hm, ha⟩ := of_bind_ok ha
  have hdecimal := walk_acceptDecimal h hm
  rw [hm]
  cases found with
  | false =>
      dsimp only at ha ⊢
      rw [List.append_nil]
      repeat' split at ha
      all_goals
        cases ha
        exact hdecimal
  | true =>
      refine hdecimal.trans ?_
      have hsettled := hdecimal.settled h
      have hblanks := walk_acceptMany hsettled [blank]
      have hletter := hblanks.trans (walk_accept (hblanks.settled hsettled) [exponent])
      have hmem : c₁ ∈ c₁.acceptManyTrail [blank] ++
          ((c₁.acceptMany [blank]).2).acceptTrail [exponent] :=
        List.mem_append_left _ mem_acceptManyTrail
      dsimp only at ha ⊢
      rw [← List.append_assoc]
      cases h₃ : (c₁.acceptMany [blank]).2.accept [exponent] with
      | mk found c₃ =>
          rw [h₃] at hletter ha
          cases found with
          | true =>
              obtain ⟨⟨found, c₄⟩, he, ha⟩ := of_bind_ok ha
              have hexponent := hletter.trans (walk_acceptDecimal (hletter.settled hsettled) he)
              dsimp only
              rw [he]
              cases found with
              | true =>
                  cases ha
                  rw [List.append_nil]
                  exact hexponent
              | false =>
                  obtain ⟨d, hrestore, ha⟩ := of_bind_ok ha
                  cases ha
                  rw [← List.append_assoc]
                  exact hexponent.giveBack (List.mem_append_left _ hmem) hrestore
          | false =>
              obtain ⟨d, hrestore, ha⟩ := of_bind_ok ha
              cases ha
              exact hletter.giveBack hmem hrestore

theorem walk_readOperator (c : Cursor) : Walk c [c] (readOperator c).cursor := by
  have htrail : Trail c [c] (c.acceptText [Alphabet.operator]).2 := Trail.start.acceptText _
  have hread : Walk c [c] (c.acceptText [Alphabet.operator]).2 := by
    refine ⟨htrail, ?_, _, Piece.prefix_operator c.ahead, congrArg Prod.snd (acceptText_eq _ c)⟩
    intro d hd
    rw [List.mem_singleton.1 hd]
    exact near_refl c
  unfold readOperator
  split
  all_goals
    next hc =>
      rw [hc] at hread
      exact hread

theorem walk_readPunctuation (h : c.Settled) :
    Walk c (c.acceptTrail [Alphabet.punctuation]) (readPunctuation c).cursor := by
  have hread := walk_accept h [Alphabet.punctuation]
  unfold readPunctuation
  split
  all_goals
    next hc =>
      rw [hc] at hread
      exact hread

theorem walk_readName (h : c.Settled) : Walk c (readNameTrail c) (readName c).cursor := by
  have hread := walk_accept h [underscore, letter]
  unfold readName readNameTrail
  cases hc : c.accept [underscore, letter] with
  | mk found c₁ =>
      rw [hc] at hread
      cases found with
      | true => exact hread.trans (walk_acceptMany (hread.settled h) _)
      | false =>
          dsimp only
          rw [List.append_nil]
          exact hread

/-- A reading of a token is a walk; only `dispatch`, which drops blanks, moves the token's start. -/
theorem walk_act (h : c.Settled) (hst : st ≠ .dispatch) (ha : st.act last c = .ok a) :
    Walk c (st.readingTrail c) a.cursor := by
  cases st with
  | dispatch => exact absurd rfl hst
  | number => exact walk_readNumber h ha
  | operator =>
      cases ha
      exact walk_readOperator c
  | punctuation =>
      cases ha
      exact walk_readPunctuation h
  | name =>
      cases ha
      exact walk_readName h

theorem trail_readBlanks (h : c.Settled) :
    Trail c (readBlanksTrail c) (readBlanks last c).cursor := by
  have hskip := (walk_acceptMany h [blank]).trail.skip
  unfold readBlanks readBlanksTrail
  dsimp only
  cases hpeek : (c.acceptMany [blank]).2.skip.peek with
  | none =>
      rw [List.append_cons]
      exact hskip.next
  | some x =>
      dsimp only
      by_cases hbreak : newLine.acceptsChar x
      · rw [if_pos hbreak, if_pos hbreak, List.append_cons]
        exact hskip.next
      · rw [if_neg hbreak, if_neg hbreak]
        exact hskip

/-- What dispatch works on is reached from where it starts, or from behind the blanks that it drops. -/
theorem near_readBlanks (h : c.Settled) (hd : d ∈ readBlanksTrail c) :
    Near c d ∨ d = c.afterBlanks := by
  have hblanks := walk_acceptMany h [blank]
  have hafter : (c.acceptMany [blank]).2.skip = c.afterBlanks := by
    rw [acceptMany_eq h]
    rfl
  unfold readBlanksTrail at hd
  dsimp only at hd
  rw [hafter] at hd
  rcases List.mem_append.1 hd with hd | hd
  · exact Or.inl (hblanks.near d hd)
  · rcases List.mem_cons.1 hd with rfl | hd
    · exact Or.inl hblanks.near_end
    · refine Or.inr ?_
      split at hd
      · exact List.mem_singleton.1 hd
      · split at hd
        · exact List.mem_singleton.1 hd
        · cases hd

theorem near_cursor_readBlanks (h : c.Settled) : Near c.afterBlanks (readBlanks last c).cursor := by
  have hafter : (c.acceptMany [blank]).2.skip = c.afterBlanks := by
    rw [acceptMany_eq h]
    rfl
  unfold readBlanks
  dsimp only
  rw [hafter]
  split
  · exact near_next _
  · split
    · exact near_next _
    · exact near_refl _

/-- The trail of an action leads to where its reading ends. -/
theorem trail_act (h : c.Settled) (ha : st.act last c = .ok a) :
    Trail c (st.readingTrail c) a.cursor := by
  by_cases hst : st = .dispatch
  · subst hst
    cases ha
    exact trail_readBlanks h
  · exact (walk_act h hst ha).trail

/-- The operations of a step, in a row, lead from the cursor before it to the cursor after it. -/
theorem trail_step {r : Step} (h : c.Settled) (hs : st.step c q = .ok r) :
    Trail c (st.trail q.lastKind c) r.cursor := by
  unfold State.step at hs
  obtain ⟨a, ha, hs⟩ := of_bind_ok hs
  have hread := trail_act h ha
  unfold State.trail
  rw [ha]
  cases a with
  | commit kind c₁ =>
      obtain ⟨⟨c₂, q₁⟩, hq, hs⟩ := of_bind_ok hs
      cases hs
      unfold TokenQueue.commit at hq
      split at hq
      · next s c₂ hcut =>
          cases hq
          exact hread.cut hcut
      · cases hq
  | handOver st₁ c₁ =>
      cases hs
      dsimp only
      rw [List.append_nil]
      exact hread
  | reject category c₁ =>
      cases hs
      dsimp only
      rw [List.append_nil]
      exact hread

/-- No cursor of a step's trail lies before the cursor that the reading began with. -/
theorem near_trail {r : Step} (h : c.Settled) (hs : st.step c q = .ok r)
    (hd : d ∈ st.trail q.lastKind c) : Near c d ∨ Near c.afterBlanks d := by
  unfold State.step at hs
  obtain ⟨a, ha, -⟩ := of_bind_ok hs
  unfold State.trail at hd
  rw [ha] at hd
  -- a cursor of the reading, or the one that the token is cut off at
  have hcases : d ∈ st.readingTrail c ∨ d = a.cursor := by
    rcases List.mem_append.1 hd with hd | hd
    · exact Or.inl hd
    · cases a with
      | commit kind c₁ => exact Or.inr (List.mem_singleton.1 hd)
      | handOver => cases hd
      | reject => cases hd
  by_cases hst : st = .dispatch
  · subst hst
    cases ha
    rcases hcases with hd | rfl
    · rcases near_readBlanks h hd with hd | rfl
      · exact Or.inl hd
      · exact Or.inr (near_refl _)
    · exact Or.inr (near_cursor_readBlanks h)
  · have hread := walk_act h hst ha
    rcases hcases with hd | rfl
    · exact Or.inl (hread.near d hd)
    · exact Or.inl hread.near_end

end Formula.Lexer
