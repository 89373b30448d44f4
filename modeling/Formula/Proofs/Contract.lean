import Formula.Proofs.Boundaries
import Formula.Proofs.Runs
import Formula.Proofs.Steps
import Formula.Proofs.Undoing

/-!
# `Formula.Proofs.Contract` — what one step keeps to, from any state

The states can be stepped by hand, on a cursor that was led about freely and with any tokens produced
before: a number may be asked for at a letter, a name at the end of the text, and text may be pending that
no state has read. As long as the token does not start past the cursor, each step keeps to the same
contract. It adds one token at most. A token that goes on is the source's text from the token's start to
the new place, and `dispatch` comes next; a step that adds none hands over without reading anything; and a
report of an error moves nothing.

## Contents
- **Pending text.** `Cursor.between_of_pending`.
- **Blanks.** `Cursor.DropsBlanks`, with `Cursor.dropsBlanks_afterBlanks`.
- **Steps.** `Contract`, with `State.StepFrom.contract`, and `step_keeps_contract`.
-/

namespace Formula

open Text

namespace Cursor

variable {c : Cursor} {p : List Char}

/-! ## Pending text -/

/-- The pending text is the part of the text from the token's start to the cursor. -/
theorem between_of_pending (h : c.pending? = some p) : Between c.text c.startOffset c.offset p := by
  have hle : c.start ≤ c.position := (exists_pending_iff c).1.1 ⟨p, h⟩
  obtain ⟨hpending, hdrop, hbytes⟩ := pending_of_le hle
  rw [h, Option.some.injEq] at hpending
  subst hpending
  refine ⟨c.text.take c.start, c.ahead, ?_, rfl, ?_⟩
  · rw [← hdrop, List.take_append_drop]
  · rw [byteLength_append]
    exact hbytes

theorem skip_startOffset (c : Cursor) : c.skip.startOffset = c.skip.offset := by
  have htake : c.text.take c.position = c.behind.reverse := List.take_left' List.length_reverse
  show byteLength (c.text.take c.position) = byteLength c.behind
  rw [htake, byteLength_reverse]

/-! ## Blanks -/

/-- The cursor `d` is the cursor `c` after it has read all spaces and tabs ahead and dropped them. -/
structure DropsBlanks (c d : Cursor) : Prop where
  exists_gap : ∃ gap : List Char, (∀ x ∈ gap, x = ' ' ∨ x = '\t') ∧ c.ahead = gap ++ d.ahead ∧
    d.behind = gap.reverse ++ c.behind
  stops : ∀ x ∈ d.ahead.head?, x ≠ ' ' ∧ x ≠ '\t'
  start_eq : d.start = d.position
  overread_eq : d.overread = c.overread

theorem dropsBlanks_afterBlanks (c : Cursor) : DropsBlanks c c.afterBlanks := by
  refine ⟨⟨Piece.stretch [Alphabet.blank] c.ahead, ?_, ?_, rfl⟩, ?_, rfl, rfl⟩
  · intro x hx
    exact Alphabet.blank_iff.1 (Lexer.blanks_stretch _ x hx)
  · exact (List.prefix_iff_eq_append.1 Piece.prefix_stretch).symm
  · intro x hx
    have hnot := Lexer.noBlank_drop_stretch c.ahead x hx
    rw [← not_or, ← Alphabet.blank_iff, hnot]
    exact Bool.false_ne_true

end Cursor

namespace Lexer

open Cursor State

variable {source : String} {st : State} {c d : Cursor} {q : TokenQueue} {r : Step}

/-! ## Steps -/

/-- What a step of a state keeps to when it is carried out on a cursor `c`, with the tokens `q` produced
    before. It looks for its token from the cursor `d` on, and `pushed` is the token that it adds. -/
structure Contract (source : String) (st : State) (c : Cursor) (q : TokenQueue) (d : Cursor)
    (pushed : Option Token) (r : Step) : Prop where
  /-- Before anything else, `dispatch` drops blanks; the other states do not. -/
  drops : st = .dispatch → DropsBlanks c d
  stays : st ≠ .dispatch → d = c
  /-- One token at most is added, and its kind is remembered. -/
  pending_eq : r.tokens.pending = q.pending ++ pushed.toList
  lastKind_eq : ∀ t ∈ pushed, r.tokens.lastKind = some t.kind
  text_eq : r.cursor.text = source.toList
  /-- The run ends with the token that says so, and with no other. -/
  ends_iff : r.state = none ↔ ∃ t ∈ pushed, t.kind.isTerminal
  /-- Any other token is what stands from the token's start to the new place, where the next one starts. -/
  token : ∀ t ∈ pushed, t.kind.isTerminal = false →
    Between source.toList d.startOffset r.cursor.offset t.text.toList ∧
      r.cursor.startOffset = r.cursor.offset ∧ r.cursor.overread = c.overread ∧
      r.state = some .dispatch
  /-- Without a token, another state goes on from the same place. -/
  handOver : pushed = none → r.cursor = d ∧ r.tokens = q ∧ r.state ≠ some .dispatch
  /-- A report moves nothing, and says what stands at the cursor. -/
  report : ∀ t ∈ pushed, t.isError → r.cursor = c ∧
    ∃ e rest, r.tokens.error = some e ∧ t.text = e.message ∧
      dropBytes? c.offset source.toList = some rest ∧
      e = LexError.expected st.category rest.head? source c.offset
  /-- The end of the source is an empty token, and nothing is ahead of it. -/
  finish : ∀ t ∈ pushed, t.kind = .endOfInput → t.text = "" ∧ d.ahead = [] ∧ r.cursor = d.next.2

theorem State.StepFrom.contract (h : StepFrom st (st.entry c) q r) (htext : c.text = source.toList) :
    ∃ pushed, Contract source st c q (st.entry c) pushed r := by
  have hdrops : st = .dispatch → DropsBlanks c (st.entry c) := by
    rintro rfl
    exact dropsBlanks_afterBlanks c
  have hstays : st ≠ .dispatch → st.entry c = c := entry_of_ne
  have hentry : (st.entry c).text = source.toList := by
    rw [← htext]
    cases st with
    | dispatch => exact afterBlanks_text
    | _ => rfl
  have hterminal : st.kind.isTerminal = false := st.isTerminal_kind
  cases h with
  | @commit s hpending hpiece =>
      have hkind : st.kind ≠ .endOfInput := by
        intro hend
        rw [hend] at hterminal
        cases hterminal
      have hmoved := past_text (st.prefix_piece (st.entry c).ahead)
      -- the token is the pending text after the piece was read
      have hread : ((st.entry c).past (st.piece (st.entry c).ahead)).pending? =
          some (s ++ st.piece (st.entry c).ahead) := by
        rw [pending?_past_of_le ((exists_pending_iff _).1.1 ⟨s, hpending⟩), hpending, Option.map_some]
      have hbetween := between_of_pending hread
      rw [hmoved, hentry, startOffset, hmoved] at hbetween
      refine ⟨some _, hdrops, hstays, rfl, ?_, hmoved.trans hentry, ?_, ?_, by simp, ?_, ?_⟩
      · rintro t ⟨⟩
        rfl
      · simp [hterminal]
      · rintro t ⟨⟩ -
        refine ⟨?_, skip_startOffset _, overread_entry st c, rfl⟩
        rw [String.toList_ofList]
        exact hbetween
      · rintro t ⟨⟩ herror
        rw [isError_of_not_terminal hterminal] at herror
        cases herror
      · rintro t ⟨⟩ hend
        exact absurd hend hkind
  | finish hst hend =>
      refine ⟨some ⟨.endOfInput, ""⟩, hdrops, hstays, rfl, ?_, (near_next _).text_eq.trans hentry, ?_, ?_,
        by simp, ?_, ?_⟩
      · rintro t ⟨⟩
        rfl
      · simp [Token.Kind.isTerminal]
      · rintro t ⟨⟩ hgoes
        cases hgoes
      · rintro t ⟨⟩ herror
        cases herror
      · rintro t ⟨⟩ -
        exact ⟨rfl, hend, rfl⟩
  | @handOver next hrank hahead hnil =>
      refine ⟨none, hdrops, hstays, ?_, by simp, hentry, ?_, by simp, ?_, by simp, by simp⟩
      · exact (List.append_nil _).symm
      · simp
      · rintro -
        refine ⟨rfl, rfl, ?_⟩
        rintro ⟨⟩
        -- no state ranks above `dispatch`
        cases st <;> simp [State.rank] at hrank
  | reject hst hnil =>
      rw [entry_of_ne hst] at hentry ⊢
      refine ⟨some ⟨.error, _⟩, ?_, ?_, rfl, ?_, hentry, ?_, ?_, by simp, ?_, ?_⟩
      · exact fun h => absurd h hst
      · exact fun _ => rfl
      · rintro t ⟨⟩
        rfl
      · simp [Token.Kind.isTerminal]
      · rintro t ⟨⟩ hgoes
        cases hgoes
      · rintro t ⟨⟩ -
        refine ⟨rfl, _, c.ahead, rfl, rfl, ?_, ?_⟩
        · rw [← htext]
          exact dropBytes_offset c
        · rw [htext, String.ofList_toList]
          rfl
      · rintro t ⟨⟩ hend
        cases hend

/-- Whatever was done with a cursor, as long as its token does not start past it, and whatever tokens were
    produced before: a step of any state is carried out, and keeps to the contract. -/
theorem step_keeps_contract (source : String) (hs : List (Marked × Operation)) (a : Marked)
    (h : History source.toList hs a) (horder : a.cursor.startOffset ≤ a.cursor.offset) (st : State)
    (q : TokenQueue) :
    ∃ r d pushed, st.step a.cursor q = .ok r ∧ Contract source st a.cursor q d pushed r := by
  have hreachable := h.sprung.reachable
  have hstart : a.cursor.start ≤ a.cursor.text.length := by
    rw [hreachable.text_eq]
    exact hreachable.start_le
  have hproper := hreachable.proper ((startOffset_le_iff hstart).1 horder)
  obtain ⟨r, hr, hstep⟩ := State.exists_step st q hproper
  obtain ⟨pushed, hcontract⟩ := hstep.contract hreachable.text_eq
  exact ⟨r, _, pushed, hr, hcontract⟩

/-- A letter is pending that was read by hand, after a name. A number is asked for, and the digit that
    follows becomes a token together with the letter. -/
theorem number_step_after_letter :
    ∃ hs a, History "x1".toList hs a ∧ hs.map (·.2) = [.next] ∧
      a.cursor.startOffset ≤ a.cursor.offset ∧
      ∃ r d, State.number.step a.cursor ⟨[⟨.name, "y"⟩], some .name, none⟩ = .ok r ∧
        Contract "x1" .number a.cursor ⟨[⟨.name, "y"⟩], some .name, none⟩ d (some ⟨.number, "x1"⟩) r := by
  have hstart : History "x1".toList [] ⟨ofList ['x', '1'], []⟩ := .start
  have h := hstart.perform .next
  have horder : (Cursor.mk ['x'] ['1'] 0 0).startOffset ≤ (Cursor.mk ['x'] ['1'] 0 0).offset := by decide
  obtain ⟨r, d, pushed, hr, hcontract⟩ :=
    step_keeps_contract "x1" _ _ h horder .number ⟨[⟨.name, "y"⟩], some .name, none⟩
  -- the digit is read after the letter that is pending
  have hpiece : State.number.piece ['1'] = ['1'] := by decide +kernel
  have hproper : Proper ⟨['x'], ['1'], 0, 0⟩ := h.sprung.reachable.proper (Nat.zero_le _)
  have hact : State.number.act (some .name) ⟨['x'], ['1'], 0, 0⟩ =
      .ok (.commit .number (Cursor.past ⟨['x'], ['1'], 0, 0⟩ (State.number.piece ['1']))) :=
    act_of_piece hproper (by decide) (by simp [hpiece])
  rw [hpiece] at hact
  obtain ⟨s, hs, hstep⟩ :=
    State.step_of_commit_piece (q := ⟨[⟨.name, "y"⟩], some .name, none⟩) hact (by decide) rfl
  cases hs
  have hr' := hr.symm.trans hstep
  cases hr'
  have hpushed : [⟨.name, "y"⟩, ⟨.number, "x1"⟩] = [(⟨.name, "y"⟩ : Token)] ++ pushed.toList :=
    hcontract.pending_eq
  obtain rfl : pushed = some ⟨.number, "x1"⟩ := by
    cases pushed with
    | none => simp at hpushed
    | some t => simpa using hpushed.symm
  exact ⟨_, _, h, rfl, horder, _, d, hr, hcontract⟩

end Lexer

end Formula
