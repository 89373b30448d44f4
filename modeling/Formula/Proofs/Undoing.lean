import Formula.Proofs.Safety

/-!
# `Formula.Proofs.Undoing` — where undoing leads past the token's start

A cursor that is led about keeps its text, and both its place and the token's start stay in it. The two
are in order as long as no reading is undone that was done before the token: an operation that reads, or
that returns to a mark, never leads back past the start, and cutting or dropping the pending text moves
the start to the cursor. Undoing alone heeds no start. Where it is asked for at the token's start, and
there is a character before it, it gives back that character, and then there is no pending text to be
had.

## Contents
- **Operations.** `Operation`, `Marked`, `Performs`; `History`, with the cursors `passed` on the way.
- **Places.** `restore_eq_ok`, `eq_skip_of_cut`; `Reachable.text_eq`, `Reachable.start_le`,
  `startOffset_le_iff`.
- **Steps.** `Performs.sprung`, `Performs.in_order` and `AtTokenStart.lt_start_back`.
- **Histories.** `History.sprung`, `History.exists_after`, `History.in_order`, and
  `in_order_unless_token_undone`.
-/

namespace Formula.Cursor

open Rule Text

variable {text : List Char} {c d : Cursor} {s s' : List Char}

/-! ## Operations -/

/-- What can be done with a cursor. -/
inductive Operation where
  | next
  | peek
  | back
  | accept (rules : List Rule)
  | acceptMany (rules : List Rule)
  | acceptText (rules : List Rule)
  | acceptTexts (rules : List Rule)
  | mark
  | restore (mark : Mark)
  | cut
  | skip

/-- A cursor, and the marks that were set on it so far. -/
structure Marked where
  cursor : Cursor
  marks : List Mark

/-- What an operation that succeeds leaves. A mark is returned to only if it was set on this cursor. -/
inductive Performs : Marked → Operation → Marked → Prop where
  | next {c : Cursor} {ms : List Mark} : Performs ⟨c, ms⟩ .next ⟨c.next.2, ms⟩
  | peek {c : Cursor} {ms : List Mark} : Performs ⟨c, ms⟩ .peek ⟨c, ms⟩
  | back {c : Cursor} {ms : List Mark} : Performs ⟨c, ms⟩ .back ⟨c.back, ms⟩
  | accept {c : Cursor} {ms : List Mark} (rules : List Rule) :
      Performs ⟨c, ms⟩ (.accept rules) ⟨(c.accept rules).2, ms⟩
  | acceptMany {c : Cursor} {ms : List Mark} (rules : List Rule) :
      Performs ⟨c, ms⟩ (.acceptMany rules) ⟨(c.acceptMany rules).2, ms⟩
  | acceptText {c : Cursor} {ms : List Mark} (rules : List Rule) :
      Performs ⟨c, ms⟩ (.acceptText rules) ⟨(c.acceptText rules).2, ms⟩
  | acceptTexts {c : Cursor} {ms : List Mark} (rules : List Rule) :
      Performs ⟨c, ms⟩ (.acceptTexts rules) ⟨(c.acceptTexts rules).2, ms⟩
  | mark {c : Cursor} {ms : List Mark} : Performs ⟨c, ms⟩ .mark ⟨c, c.mark :: ms⟩
  | restore {c d : Cursor} {ms : List Mark} {m : Mark} (hm : m ∈ ms) (h : c.restore m = .ok d) :
      Performs ⟨c, ms⟩ (.restore m) ⟨d, ms⟩
  | cut {c d : Cursor} {ms : List Mark} {s : List Char} (h : c.cut = .ok (s, d)) :
      Performs ⟨c, ms⟩ .cut ⟨d, ms⟩
  | skip {c : Cursor} {ms : List Mark} : Performs ⟨c, ms⟩ .skip ⟨c.skip, ms⟩

/-- Operations in a row, the first on the cursor before the text, each with what it was performed on. -/
inductive History (text : List Char) : List (Marked × Operation) → Marked → Prop where
  | start : History text [] ⟨ofList text, []⟩
  | perform {hs : List (Marked × Operation)} {a b : Marked} {op : Operation}
      (h : History text hs a) (hop : Performs a op b) : History text (hs ++ [(a, op)]) b

/-- The cursors before and after each operation. -/
def passed (hs : List (Marked × Operation)) (a : Marked) : List Cursor :=
  hs.map (·.1.cursor) ++ [a.cursor]

/-- Undoing gives back the character before the token: nothing was read in the token, and no request at
    the end of the text is left to be undone. -/
structure AtTokenStart (c : Cursor) : Prop where
  overread_eq : c.overread = 0
  position_eq : c.position = c.start
  start_pos : 0 < c.start

/-! ## Places -/

/-- What a return to a mark leaves: the place of the mark, and the token's start as it was. -/
theorem restore_eq_ok {m : Mark} (h : c.restore m = .ok d) :
    c.start ≤ m.behind.length ∧ d = ⟨m.behind, m.ahead, c.start, m.overread⟩ := by
  unfold restore at h
  split at h
  · cases h
  · next hlt =>
      cases h
      exact ⟨Nat.not_lt.1 hlt, rfl⟩

/-- Cutting the pending text off leaves what dropping it leaves. -/
theorem eq_skip_of_cut (h : c.cut = .ok (s, d)) : d = c.skip := by
  unfold cut at h
  split at h
  · cases h
    rfl
  · cases h

@[simp] theorem next_start (c : Cursor) : c.next.2.start = c.start := by
  unfold next
  split
  · rfl
  · rfl

@[simp] theorem back_start (c : Cursor) : c.back.start = c.start := by
  unfold back
  split
  · split
    · rfl
    · rfl
  · rfl

theorem Reachable.text_eq (h : Reachable text c) : c.text = text := by
  induction h with
  | start => rfl
  | @next c _ ih =>
      obtain ⟨behind, ahead, start, overread⟩ := c
      cases ahead with
      | nil => exact ih
      | cons x rest => simpa [Cursor.next, Cursor.text] using ih
  | @back c _ ih =>
      obtain ⟨behind, ahead, start, overread⟩ := c
      unfold Cursor.back
      split
      · cases behind with
        | nil => exact ih
        | cons x rest => simpa [Cursor.text] using ih
      · exact ih
  | @acceptText c _ rules ih =>
      rw [acceptText_eq]
      refine (past_text ?_).trans ih
      cases hlongest : longest? rules c.ahead with
      | none => exact List.nil_prefix
      | some p =>
          obtain ⟨t, ht⟩ := (longest?_eq_some hlongest).2.2.1
          exact ⟨t, ht⟩
  | restore _ _ hmark _ ihd =>
      obtain ⟨-, rfl⟩ := restore_eq_ok hmark
      exact ihd
  | cut _ hcut ih =>
      obtain rfl := eq_skip_of_cut hcut
      exact ih
  | skip _ ih => exact ih

theorem Reachable.position_le (h : Reachable text c) : c.position ≤ text.length := by
  rw [← h.text_eq, Cursor.text, List.length_append, List.length_reverse]
  exact Nat.le_add_right _ _

/-- The token starts in the text, also where it starts past the cursor. -/
theorem Reachable.start_le (h : Reachable text c) : c.start ≤ text.length := by
  induction h with
  | start => exact Nat.zero_le _
  | @next c _ ih => rwa [next_start]
  | @back c _ ih => rwa [back_start]
  | @acceptText c _ rules ih =>
      rw [acceptText_eq]
      exact ih
  | restore _ _ hmark ih _ =>
      obtain ⟨-, rfl⟩ := restore_eq_ok hmark
      exact ih
  | cut h hcut _ =>
      obtain rfl := eq_skip_of_cut hcut
      exact h.position_le
  | skip h _ => exact h.position_le

/-- Offsets are in order as the places are. -/
theorem startOffset_le_iff (h : c.start ≤ c.text.length) :
    c.startOffset ≤ c.offset ↔ c.start ≤ c.position := by
  constructor
  · intro hle
    by_contra hlt
    rw [Nat.not_le] at hlt
    -- the characters from the cursor to the start have bytes
    have htake : c.text.take c.start = c.behind.reverse ++ c.ahead.take (c.start - c.position) := by
      have hlen : c.behind.reverse.length ≤ c.start := by
        rw [List.length_reverse]
        exact Nat.le_of_lt hlt
      rw [Cursor.text, List.take_append, List.take_of_length_le hlen, List.length_reverse]
      rfl
    have hpos : 0 < (c.ahead.take (c.start - c.position)).length := by
      rw [Cursor.text, List.length_append, List.length_reverse] at h
      rw [List.length_take]
      unfold Cursor.position at hlt ⊢
      omega
    have hbytes := length_le_byteLength (c.ahead.take (c.start - c.position))
    rw [startOffset, htake, byteLength_append, byteLength_reverse, offset] at hle
    omega
  · intro hle
    obtain ⟨-, -, hbytes⟩ := pending_of_le hle
    omega

/-- The pending text is to be had, and can be cut off, where the token does not start past the cursor. -/
theorem exists_pending_iff (c : Cursor) :
    ((∃ p, c.pending? = some p) ↔ c.start ≤ c.position) ∧
      ((∃ p d, c.cut = .ok (p, d)) ↔ c.start ≤ c.position) := by
  unfold cut pending?
  by_cases h : c.start ≤ c.position
  · simp [h]
  · simp [h]

/-! ## Steps -/

/-- A cursor that a text gives rise to, with marks that were set on such cursors. -/
structure Sprung (text : List Char) (a : Marked) : Prop where
  reachable : Reachable text a.cursor
  exists_of_mem : ∀ m ∈ a.marks, ∃ d, Reachable text d ∧ m = d.mark

variable {a b : Marked} {op : Operation} {hs : List (Marked × Operation)} {rules : List Rule}

theorem Performs.sprung (h : Performs a op b) (ha : Sprung text a) : Sprung text b := by
  obtain ⟨hc, hms⟩ := ha
  cases h with
  | next => exact ⟨hc.next, hms⟩
  | peek => exact ⟨hc, hms⟩
  | back => exact ⟨hc.back, hms⟩
  | accept rules => exact ⟨hc.accept rules, hms⟩
  | acceptMany rules => exact ⟨hc.acceptMany rules, hms⟩
  | acceptText rules => exact ⟨hc.acceptText rules, hms⟩
  | acceptTexts rules => exact ⟨hc.acceptTexts rules, hms⟩
  | mark =>
      refine ⟨hc, ?_⟩
      intro m hm
      rcases List.mem_cons.1 hm with rfl | hm
      · exact ⟨_, hc, rfl⟩
      · exact hms m hm
  | restore hm hmark =>
      obtain ⟨d, hd, rfl⟩ := hms _ hm
      exact ⟨hc.restore hd hmark, hms⟩
  | cut hcut => exact ⟨hc.cut hcut, hms⟩
  | skip => exact ⟨hc.skip, hms⟩

theorem exists_acceptTexts_eq (rules : List Rule) (c : Cursor) :
    ∃ p, (c.acceptTexts rules).2 = c.past p := by
  fun_induction Cursor.acceptTexts rules c with
  | case1 c c₁ hc ih =>
      obtain ⟨p, hp⟩ := ih
      rw [acceptText_eq] at hc
      obtain ⟨-, rfl⟩ := Prod.mk.inj hc
      exact ⟨_, hp.trans past_past⟩
  | case2 c c₁ hc =>
      rw [acceptText_eq] at hc
      obtain ⟨-, rfl⟩ := Prod.mk.inj hc
      exact ⟨_, rfl⟩

/-- Only undoing at the token's start leads back past it. -/
theorem Performs.in_order (h : Performs a op b) (ha : a.cursor.Settled)
    (hle : a.cursor.start ≤ a.cursor.position) (hop : op = .back → ¬ a.cursor.AtTokenStart) :
    b.cursor.start ≤ b.cursor.position := by
  have hpast (p : List Char) : (a.cursor.past p).start ≤ (a.cursor.past p).position := by
    rw [past_start, past_position]
    exact Nat.le_add_right_of_le hle
  cases h with
  | @next c ms =>
      cases hahead : c.ahead with
      | nil =>
          unfold Cursor.next
          rw [hahead]
          exact hle
      | cons x rest =>
          show c.next.2.start ≤ c.next.2.position
          rw [next_of_cons hahead]
          exact hpast [x]
  | peek => exact hle
  | @back c ms =>
      show c.back.start ≤ c.back.position
      unfold Cursor.back
      split
      · next hover =>
          split
          · exact hle
          · next x rest hbehind =>
              -- a character is given back, and it was read in the token
              have hnot : ¬ c.AtTokenStart := hop rfl
              have hposition : c.position = rest.length + 1 := by simp [Cursor.position, hbehind]
              have hne : c.position ≠ c.start := by
                intro heq
                exact hnot ⟨hover, heq, by omega⟩
              have hlt : c.start < c.position := Nat.lt_of_le_of_ne hle hne.symm
              show c.start ≤ rest.length
              omega
      · exact hle
  | @accept c ms rules =>
      show (c.accept rules).2.start ≤ (c.accept rules).2.position
      rw [accept_eq ha]
      exact hpast _
  | @acceptMany c ms rules =>
      show (c.acceptMany rules).2.start ≤ (c.acceptMany rules).2.position
      rw [acceptMany_eq ha]
      exact hpast _
  | @acceptText c ms rules =>
      show (c.acceptText rules).2.start ≤ (c.acceptText rules).2.position
      rw [acceptText_eq]
      exact hpast _
  | @acceptTexts c ms rules =>
      show (c.acceptTexts rules).2.start ≤ (c.acceptTexts rules).2.position
      obtain ⟨p, hp⟩ := exists_acceptTexts_eq rules c
      rw [hp]
      exact hpast p
  | mark => exact hle
  | restore hm hmark =>
      obtain ⟨hstart, rfl⟩ := restore_eq_ok hmark
      exact hstart
  | cut hcut =>
      obtain rfl := eq_skip_of_cut hcut
      exact Nat.le_refl _
  | skip => exact Nat.le_refl _

/-- Undoing at the token's start leaves the cursor before it. -/
theorem AtTokenStart.lt_start_back (h : c.AtTokenStart) : c.back.position < c.back.start := by
  obtain ⟨hover, hposition, hpos⟩ := h
  unfold Cursor.back
  rw [if_pos hover]
  cases hbehind : c.behind with
  | nil =>
      rw [Cursor.position, hbehind, List.length_nil] at hposition
      omega
  | cons x rest =>
      rw [Cursor.position, hbehind, List.length_cons] at hposition
      show rest.length < c.start
      omega

/-! ## Histories -/

theorem History.sprung (h : History text hs a) : Sprung text a := by
  induction h with
  | start => exact ⟨.start, nofun⟩
  | perform _ hop ih => exact hop.sprung ih

theorem passed_append (hs : List (Marked × Operation)) (a b : Marked) (op : Operation) :
    passed (hs ++ [(a, op)]) b = passed hs a ++ [b.cursor] := by
  simp [passed]

theorem mem_passed_self : a.cursor ∈ passed hs a := List.mem_append_right _ List.mem_cons_self

theorem History.reachable_of_mem (h : History text hs a) (hc : c ∈ passed hs a) :
    Reachable text c := by
  induction h with
  | start =>
      rw [List.mem_singleton.1 hc]
      exact .start
  | perform h hop ih =>
      rw [passed_append] at hc
      rcases List.mem_append.1 hc with hc | hc
      · exact ih hc
      · rw [List.mem_singleton.1 hc]
        exact (hop.sprung h.sprung).reachable

/-- What an operation leaves is passed on the way. -/
theorem History.exists_after (h : History text hs a) {e : Marked × Operation} (he : e ∈ hs) :
    ∃ b, Performs e.1 e.2 b ∧ b.cursor ∈ passed hs a := by
  induction h with
  | start => cases he
  | perform h hop ih =>
      rw [passed_append]
      rcases List.mem_append.1 he with he | he
      · obtain ⟨b, hb, hmem⟩ := ih he
        exact ⟨b, hb, List.mem_append_left _ hmem⟩
      · rw [List.mem_singleton.1 he]
        exact ⟨_, hop, List.mem_append_right _ List.mem_cons_self⟩

/-- The token starts past no cursor on the way if its start was never undone. -/
theorem History.in_order (h : History text hs a)
    (hback : ∀ e ∈ hs, e.2 = .back → ¬ e.1.cursor.AtTokenStart) :
    ∀ c ∈ passed hs a, c.start ≤ c.position := by
  induction h with
  | start =>
      intro c hc
      rw [List.mem_singleton.1 hc]
      exact Nat.le_refl _
  | @perform hs a b op h hop ih =>
      intro c hc
      have hbefore := ih fun e he => hback e (List.mem_append_left _ he)
      rw [passed_append] at hc
      rcases List.mem_append.1 hc with hc | hc
      · exact hbefore c hc
      · rw [List.mem_singleton.1 hc]
        have hlast := hback (a, op) (List.mem_append_right _ List.mem_cons_self)
        exact hop.in_order h.sprung.reachable.settled (hbefore _ mem_passed_self) hlast

/-- Whatever is done with a cursor, its place and the token's start are in the source. They are in order
    throughout exactly when the character before a token is never given back by undoing; and where they
    are, the pending text is to be had and can be cut off, but nowhere else. -/
theorem in_order_unless_token_undone (source : String) (hs : List (Marked × Operation)) (a : Marked)
    (h : History source.toList hs a) :
    (∀ c ∈ passed hs a,
      c.startOffset ≤ byteLength source.toList ∧ c.offset ≤ byteLength source.toList ∧
        ((∃ p, c.pending? = some p) ↔ c.startOffset ≤ c.offset) ∧
        ((∃ p d, c.cut = .ok (p, d)) ↔ c.startOffset ≤ c.offset)) ∧
      ((∀ c ∈ passed hs a, c.startOffset ≤ c.offset) ↔
        ∀ e ∈ hs, e.2 = .back → ¬ e.1.cursor.AtTokenStart) := by
  have horder (c : Cursor) (hc : c ∈ passed hs a) :
      c.startOffset ≤ c.offset ↔ c.start ≤ c.position := by
    have hreachable := h.reachable_of_mem hc
    apply startOffset_le_iff
    rw [hreachable.text_eq]
    exact hreachable.start_le
  refine ⟨?_, ?_, ?_⟩
  · intro c hc
    have htext := (h.reachable_of_mem hc).text_eq
    have hpending := exists_pending_iff c
    rw [← horder c hc] at hpending
    refine ⟨?_, ?_, hpending⟩
    · have hsplit := congrArg byteLength (List.take_append_drop c.start c.text)
      rw [byteLength_append, htext] at hsplit
      rw [startOffset, htext]
      omega
    · rw [← htext, Cursor.text, byteLength_append, byteLength_reverse, offset]
      exact Nat.le_add_right _ _
  · intro hall e he hback hstart
    obtain ⟨⟨c, ms⟩, op⟩ := e
    cases hback
    obtain ⟨b, hb, hmem⟩ := h.exists_after he
    cases hb
    have hle := (horder _ hmem).1 (hall _ hmem)
    exact absurd hstart.lt_start_back (Nat.not_lt.2 hle)
  · intro hback c hc
    exact (horder c hc).2 (h.in_order hback c hc)

/-- Of two characters the first is dropped, and the second is read and given back. -/
theorem in_order_after_second_undone :
    ∃ hs a, History "ab".toList hs a ∧ hs.map (·.2) = [.next, .skip, .next, .back] ∧
      a.cursor.startOffset = 1 ∧ ∀ c ∈ passed hs a, c.startOffset ≤ c.offset := by
  have hstart : History "ab".toList [] ⟨ofList ['a', 'b'], []⟩ := .start
  have h := hstart.perform .next |>.perform .skip |>.perform .next |>.perform .back
  refine ⟨_, _, h, rfl, rfl, (in_order_unless_token_undone "ab" _ _ h).2.2 ?_⟩
  rintro e he hback ⟨-, hposition, -⟩
  simp only [List.mem_append, List.mem_singleton, List.not_mem_nil, false_or, or_assoc] at he
  -- where the last operation undoes, the cursor stands one character after the start
  rcases he with rfl | rfl | rfl | rfl
  · cases hback
  · cases hback
  · cases hback
  · cases hposition

/-- One character is read, dropped and given back: the token then starts past the cursor, and there is
    no pending text. -/
theorem start_past_cursor_of_undone :
    ∃ hs a, History "a".toList hs a ∧ hs.map (·.2) = [.next, .skip, .back] ∧
      a.cursor.offset < a.cursor.startOffset ∧ a.cursor.pending? = none ∧
      a.cursor.cut = .error ⟨.textBeforeStart, a.cursor⟩ := by
  have hstart : History "a".toList [] ⟨ofList ['a'], []⟩ := .start
  exact ⟨_, _, hstart.perform .next |>.perform .skip |>.perform .back, rfl, by decide, rfl, rfl⟩

end Formula.Cursor
