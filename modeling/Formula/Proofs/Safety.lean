import Mathlib.Data.List.ReduceOption
import Formula.Proofs.Places
import Formula.Proofs.Trails

/-!
# `Formula.Proofs.Safety` — no cursor is ever out of place

A lexer that is asked for tokens takes steps while it has none to hand out. Before and after every step,
and wherever a step's operations are carried out, the token does not start past the cursor, both places
are boundaries of the source, and the end of the source was asked for once at most. So every piece that
an operation cuts out of the source is there, every mark can be returned to, and no step fails.

The characters of the source are what is counted in the proof (`Within`); that the same holds of the
bytes, in which offsets are given, follows (`Safe`).

## Contents
- **Places.** `Cursor.Within`, `Cursor.Safe`, with `Within.safe`; `Within.of_near`.
- **Requests.** `Serves`, with `serves_next` and `serves_after`.
- **Lexers.** `Kept`, what every lexer that serves requests keeps; `Kept.step`, `Kept.take`,
  `Serves.kept`.
- **Steps.** `within_trail`, and `serving_is_safe`.
-/

namespace Formula.Cursor

open Rule Piece Text

variable {c d : Cursor} {p : List Char} {text : List Char} {source : String}

/-! ## Places -/

/-- The cursor is in this text, not before the token's start, and asked once at most for a character
    after the end. -/
structure Within (text : List Char) (c : Cursor) : Prop where
  text_eq : c.text = text
  start_le : c.start ≤ c.position
  overread_le : c.overread ≤ 1

/-- The offsets of the cursor and of the token's start are in order and in the source, and whatever is
    cut out of the source at them is there: the characters ahead, the pending text, and the longest text
    that some rules accept. -/
structure Safe (source : String) (c : Cursor) : Prop where
  text_eq : c.text = source.toList
  startOffset_le : c.startOffset ≤ c.offset
  offset_le : c.offset ≤ byteLength source.toList
  startOffset_boundary : isBoundary source.toList c.startOffset
  offset_boundary : isBoundary source.toList c.offset
  dropBytes_offset : dropBytes? c.offset source.toList = some c.ahead
  exists_pending : ∃ s, c.pending? = some s ∧
    dropBytes? c.startOffset source.toList = some (s ++ c.ahead)
  longestBytesAt_offset : ∀ rules,
    longestBytesAt rules source.toList c.offset = .ok (longestBytes rules c.ahead)
  overread_le : c.overread ≤ 1

theorem dropBytes_offset (c : Cursor) : dropBytes? c.offset c.text = some c.ahead := by
  have hdrop := dropBytes?_append c.behind.reverse c.ahead
  rwa [byteLength_reverse] at hdrop

theorem dropBytes_startOffset (c : Cursor) :
    dropBytes? c.startOffset c.text = some (c.text.drop c.start) := by
  have hdrop := dropBytes?_append (c.text.take c.start) (c.text.drop c.start)
  rwa [List.take_append_drop] at hdrop

/-- The pending text is what stands between the token's start and the cursor. -/
theorem pending_of_le (h : c.start ≤ c.position) :
    c.pending? = some (c.behind.reverse.drop c.start) ∧
      c.text.drop c.start = c.behind.reverse.drop c.start ++ c.ahead ∧
      c.startOffset + byteLength (c.behind.reverse.drop c.start) = c.offset := by
  have hlen : c.start ≤ c.behind.reverse.length := by rwa [List.length_reverse]
  refine ⟨?_, List.drop_append_of_le_length hlen, ?_⟩
  · rw [pending?, if_pos h, List.drop_reverse]
    rfl
  · rw [startOffset, text, List.take_append_of_le_length hlen, ← byteLength_append,
      List.take_append_drop, byteLength_reverse]
    rfl

theorem Within.safe (h : Within source.toList c) : Safe source c := by
  obtain ⟨hpending, hdrop, hbytes⟩ := pending_of_le h.start_le
  have hoffset := c.dropBytes_offset
  have hstart := c.dropBytes_startOffset
  rw [h.text_eq] at hoffset hstart
  refine ⟨h.text_eq, by omega, ?_, ?_, ?_, hoffset, ⟨_, hpending, ?_⟩, ?_, h.overread_le⟩
  · rw [← h.text_eq, text, byteLength_append, byteLength_reverse]
    exact Nat.le_add_right _ _
  · rw [isBoundary, hstart]
    rfl
  · rw [isBoundary, hoffset]
    rfl
  · rw [hstart, ← h.text_eq, hdrop]
  · intro rules
    rw [longestBytesAt, hoffset]

theorem Within.of_near (h : Within text c) (ho : c.overread = 0) (hd : Near c d) :
    Within text d := by
  refine ⟨hd.text_eq.trans h.text_eq, ?_, ?_⟩
  · rw [hd.start_eq]
    exact Nat.le_trans h.start_le hd.position_le
  · have hle := hd.overread_le
    omega

theorem Within.afterBlanks (h : Within text c) : Within text c.afterBlanks :=
  ⟨afterBlanks_text.trans h.text_eq, Nat.le_refl _, h.overread_le⟩

theorem Within.commit (h : Within text c) (hp : p <+: c.ahead) : Within text (c.past p).skip :=
  ⟨(past_text hp).trans h.text_eq, Nat.le_refl _, h.overread_le⟩

theorem settled_of_overread (h : c.overread = 0) : c.Settled := by
  intro hpos
  omega

end Formula.Cursor

namespace Formula.Lexer

open Cursor State

variable {source : String} {text : List Char} {l l₀ : Lexer} {ts : List Token} {t : Token}
variable {c d : Cursor} {q : TokenQueue} {st : State}

/-! ## Requests -/

/-- A lexer that is asked for tokens has handed out these so far. It takes a step only while there is
    none to hand out. -/
inductive Serves (l₀ : Lexer) : List Token → Lexer → Prop where
  | start : Serves l₀ [] l₀
  | step {ts : List Token} {l : Lexer} {st : State} (h : Serves l₀ ts l)
      (hp : l.tokens.pending = []) (hm : l.mode = .active st) : Serves l₀ ts (l.step st)
  | take {ts : List Token} {l : Lexer} {t : Token} {q : TokenQueue} (h : Serves l₀ ts l)
      (hpop : l.tokens.pop = (some t, q)) : Serves l₀ (ts ++ [t]) { l with tokens := q }

theorem serves_next (h : Serves l₀ ts l) : Serves l₀ (ts ++ l.next.1.toList) l.next.2 := by
  fun_induction next l with
  | case1 l t q hpop => exact h.take hpop
  | case2 l q hpop st hm ih => exact ih (h.step (pending_of_pop hpop) hm)
  | case3 =>
      rw [Option.toList_none, List.append_nil]
      exact h
  | case4 =>
      rw [Option.toList_none, List.append_nil]
      exact h

/-- Requests in a row hand out what they answer. -/
theorem serves_after (k : Nat) (l : Lexer) : Serves l (results k l).reduceOption (after k l) := by
  induction k with
  | zero => exact .start
  | succ k ih =>
      rw [results_succ, after_succ, List.reduceOption_append, List.reduceOption_singleton]
      exact serves_next ih

/-! ## Lexers -/

theorem kindBefore_append_singleton (ts : List Token) (t : Token) :
    kindBefore (ts ++ [t]) = some t.kind := by
  rw [kindBefore, List.getLast?_concat]
  rfl

/-- What a lexer keeps while it serves requests. The end of the source is noted only by the step that
    makes a token of it, and this step is the last. -/
structure Kept (source : String) (ts : List Token) (l : Lexer) : Prop where
  within : l.cursor.Within source.toList
  pending_le : l.tokens.pending.length ≤ 1
  lastKind_eq : l.tokens.lastKind = kindBefore (ts ++ l.tokens.pending)
  overread_eq : l.tokens.lastKind ≠ some .endOfInput → l.cursor.overread = 0
  goes_on : l.mode = .halted ∨ ∃ st, l.mode = .active st ∧ l.tokens.lastKind ≠ some .endOfInput

theorem kept_ofString (source : String) : Kept source [] (ofString source) :=
  ⟨⟨rfl, Nat.le_refl _, Nat.zero_le _⟩, Nat.zero_le _, rfl, fun _ => rfl, Or.inr ⟨_, rfl, nofun⟩⟩

theorem Kept.overread_of_active (h : Kept source ts l) (hm : l.mode = .active st) :
    l.tokens.lastKind ≠ some .endOfInput ∧ l.cursor.overread = 0 := by
  rcases h.goes_on with hhalted | ⟨_, _, hlast⟩
  · rw [hm] at hhalted
    cases hhalted
  · exact ⟨hlast, h.overread_eq hlast⟩

theorem Kept.proper (h : Kept source ts l) (hm : l.mode = .active st) : l.cursor.Proper :=
  ⟨settled_of_overread (h.overread_of_active hm).2, h.within.start_le⟩

theorem within_entry (h : Within text c) (st : State) : Within text (st.entry c) := by
  cases st with
  | dispatch => exact h.afterBlanks
  | _ => exact h

theorem overread_entry (st : State) (c : Cursor) : (st.entry c).overread = c.overread := by
  cases st <;> rfl

theorem Kept.step (h : Kept source ts l) (hp : l.tokens.pending = []) (hm : l.mode = .active st) :
    Kept source ts (l.step st) := by
  obtain ⟨r, hr, hstep⟩ := State.exists_step st l.tokens (h.proper hm)
  obtain ⟨hlast, hover⟩ := h.overread_of_active hm
  have hentry := within_entry h.within st
  have hzero : (st.entry l.cursor).overread = 0 := (overread_entry st _).trans hover
  unfold Lexer.step
  rw [hr]
  cases hstep with
  | commit _ hpiece =>
      refine ⟨hentry.commit (prefix_piece st _), ?_, ?_, fun _ => hzero, Or.inr ⟨_, rfl, ?_⟩⟩
      · simp [TokenQueue.push, hp]
      · simp only [TokenQueue.push, hp, List.nil_append, kindBefore_append_singleton]
      · show some st.kind ≠ some Token.Kind.endOfInput
        intro hend
        have hkind := st.isTerminal_kind
        rw [Option.some.inj hend] at hkind
        cases hkind
  | finish hst hend =>
      refine ⟨hentry.of_near hzero (near_next _), ?_, ?_, ?_, Or.inl rfl⟩
      · simp [TokenQueue.push, hp]
      · simp only [TokenQueue.push, hp, List.nil_append, kindBefore_append_singleton]
      · exact fun hne => absurd rfl hne
  | handOver =>
      exact ⟨hentry, h.pending_le, h.lastKind_eq, fun _ => hzero, Or.inr ⟨_, rfl, hlast⟩⟩
  | reject =>
      refine ⟨hentry, ?_, ?_, fun _ => hzero, Or.inl rfl⟩
      · simp [TokenQueue.reject, TokenQueue.push, hp]
      · simp only [TokenQueue.reject, TokenQueue.push, hp, List.nil_append,
          kindBefore_append_singleton]

theorem Kept.take (h : Kept source ts l) (hpop : l.tokens.pop = (some t, q)) :
    Kept source (ts ++ [t]) { l with tokens := q } := by
  obtain ⟨hwithin, hle, hlast, hover, hmode⟩ := h
  unfold TokenQueue.pop at hpop
  split at hpop
  · cases hpop
  · next u rest hpending =>
      cases hpop
      rw [hpending] at hle hlast
      refine ⟨hwithin, Nat.le_of_succ_le hle, ?_, hover, hmode⟩
      rw [List.append_assoc]
      exact hlast

/-- Whatever was asked for so far, it is kept. -/
theorem Serves.kept (h : Serves (ofString source) ts l) : Kept source ts l := by
  induction h with
  | start => exact kept_ofString source
  | step _ hp hm ih => exact ih.step hp hm
  | take _ hpop ih => exact ih.take hpop

/-! ## Steps -/

/-- All that a step works on is in the text. -/
theorem within_trail {r : Step} (h : Within text c) (ho : c.overread = 0)
    (hs : st.step c q = .ok r) (hd : d ∈ st.trail q.lastKind c) : Within text d := by
  rcases near_trail (settled_of_overread ho) hs hd with hnear | hnear
  · exact h.of_near ho hnear
  · exact h.afterBlanks.of_near ho hnear

/-- Before and after every step of a lexer that serves requests, the cursor is safe, one token at most
    is to be handed out, the kind that is remembered is that of the last token that was produced, and
    the end of the source is noted only after its token was produced. No state is ever stuck: each step
    is carried out, and the cursors that its operations work on, which lead from one to the next, are
    safe too. -/
theorem serving_is_safe (source : String) :
    (∀ k, Serves (ofString source) (results k (ofString source)).reduceOption
      (after k (ofString source))) ∧
    ∀ ts l, Serves (ofString source) ts l →
      l.cursor.Safe source ∧
      l.tokens.pending.length ≤ 1 ∧
      l.tokens.lastKind = kindBefore (ts ++ l.tokens.pending) ∧
      (l.tokens.lastKind ≠ some .endOfInput → l.cursor.overread = 0) ∧
      (∀ misuse, l.mode ≠ .stuck misuse) ∧
      ∀ st, l.mode = .active st → ∃ r, st.step l.cursor l.tokens = .ok r ∧
        Trail l.cursor (st.trail l.tokens.lastKind l.cursor) r.cursor ∧
        ∀ c ∈ st.trail l.tokens.lastKind l.cursor, c.Safe source := by
  refine ⟨fun k => serves_after k _, ?_⟩
  intro ts l hserves
  have hkept := hserves.kept
  refine ⟨hkept.within.safe, hkept.pending_le, hkept.lastKind_eq, hkept.overread_eq, ?_, ?_⟩
  · intro misuse hstuck
    rcases hkept.goes_on with hm | ⟨_, hm, -⟩
    all_goals
      rw [hm] at hstuck
      cases hstuck
  · intro st hm
    obtain ⟨r, hr, -⟩ := State.exists_step st l.tokens (hkept.proper hm)
    have hover := (hkept.overread_of_active hm).2
    refine ⟨r, hr, trail_step (settled_of_overread hover) hr, ?_⟩
    intro c hc
    exact (within_trail hkept.within hover hr hc).safe

end Formula.Lexer
