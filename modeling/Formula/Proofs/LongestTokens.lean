import Formula.Proofs.Grammar
import Formula.Proofs.Places
import Formula.Proofs.Reachable
import Formula.Proofs.Steps

/-!
# `Formula.Proofs.LongestTokens` — every token is as long as it can be

Each kind of token has a language. A token of a source is the longest word of the language of its kind
that the source goes on with where the token starts: the lexer never stops short, and what it gives
back it has to give back.

A state that looks for a number finds one exactly where one stands, whatever cursor it is given and
whatever text is already pending; otherwise it leaves the cursor alone.

## Contents
- **Languages.** `Token.Kind.language`; `LongestWord`, with `LongestWord.unique` and
  `Finds.longestWord`.
- **Numbers.** `exists_number_iff`, and `number_of_stepFrom`, what a step makes of them.
- **Tokens.** `longestWord_of_readAt`, and `token_is_longest_word`.
-/

namespace Formula

open Grammar

/-! ## Languages -/

/-- The texts that a token of the kind can have; the tokens that end a run have none of their own. -/
def Token.Kind.language : Token.Kind → Language Char
  | .number => Grammar.number
  | .name => Grammar.name
  | .operator => Grammar.operator
  | .punctuation => oneOf [Alphabet.punctuation]
  | .newLine => oneOf [Alphabet.newLine]
  | .error => 0
  | .endOfInput => 0

theorem Lexer.State.language_kind (st : Lexer.State) : st.kind.language = st.language := by
  cases st <;> rfl

namespace Grammar

variable {L : Language Char} {f : List Char → List Char} {v w s : List Char}

/-- Of the words of a language that a text goes on with, this is the longest. -/
structure LongestWord (L : Language Char) (w s : List Char) : Prop where
  mem : w ∈ L
  beginning : w <+: s
  longest : ∀ v ∈ L, v <+: s → v.length ≤ w.length

/-- There is only one. -/
theorem LongestWord.unique (hv : LongestWord L v s) (hw : LongestWord L w s) : v = w := by
  have hle := hw.longest v hv.mem hv.beginning
  have hge := hv.longest w hw.mem hw.beginning
  have hprefix := List.prefix_of_prefix_length_le hv.beginning hw.beginning hle
  exact hprefix.eq_of_length (Nat.le_antisymm hle hge)

/-- A reading that finds a language finds its longest word. -/
theorem Finds.longestWord (h : Finds L f) (hne : f s ≠ []) : LongestWord L (f s) s where
  mem := h.mem s hne
  beginning := h.beginning s
  longest v hv hvs := by
    obtain ⟨t, rfl⟩ := hvs
    exact h.longest v t hv

/-- Where nothing is found, no word but the empty one stands. -/
theorem Finds.eq_nil_of_mem (h : Finds L f) (hnil : f s = []) (hv : v ∈ L) (hvs : v <+: s) :
    v = [] := by
  obtain ⟨t, rfl⟩ := hvs
  have hlen := h.longest v t hv
  rw [hnil] at hlen
  exact List.eq_nil_of_length_eq_zero (Nat.le_zero.1 hlen)

theorem ne_nil_of_number (h : w ∈ number) : w ≠ [] := by
  obtain ⟨m, hm, e, -, rfl⟩ := Language.mem_mul.1 h
  intro hnil
  exact ne_nil_of_decimal hm (List.append_eq_nil_iff.1 hnil).1

/-- A number stands at the beginning of a text exactly where one is found. -/
theorem exists_number_iff : (∃ w ∈ number, w <+: s) ↔ Piece.numeral s ≠ [] := by
  constructor
  · rintro ⟨w, hw, hws⟩ hnil
    exact ne_nil_of_number hw (finds_number.eq_nil_of_mem hnil hw hws)
  · intro hne
    exact ⟨_, finds_number.mem s hne, finds_number.beginning s⟩

end Grammar

namespace Lexer

open Piece Cursor

variable {c : Cursor} {q q' : TokenQueue} {r : Step}

/-! ## Numbers -/

/-- A queue that was given a number is not the queue before, nor one that was given an error. -/
theorem push_ne_self (q : TokenQueue) (t : Token) : q.push t ≠ q := by
  intro heq
  have hlen := congrArg (fun q => q.pending.length) heq
  simp [TokenQueue.push] at hlen

theorem push_number_ne_reject {text category : String} :
    q.push ⟨.number, text⟩ ≠ q.reject category c := by
  intro heq
  have hlast := congrArg TokenQueue.lastKind heq
  simp [TokenQueue.push, TokenQueue.reject] at hlast

/-- Where a number stands, the pending text and the number make a token; where none stands, nothing is
    made a number, and the cursor stays as it is. -/
theorem number_of_stepFrom (h : State.StepFrom .number c q r) :
    (numeral c.ahead ≠ [] ∧ ∃ s, c.pending? = some s ∧
      r = ⟨some .dispatch, (c.past (numeral c.ahead)).skip,
        q.push ⟨.number, String.ofList (s ++ numeral c.ahead)⟩⟩) ∨
    (numeral c.ahead = [] ∧ r.cursor = c ∧ ∀ text, r.tokens ≠ q.push ⟨.number, text⟩) := by
  cases h with
  | commit hpending hpiece => exact Or.inl ⟨hpiece, _, hpending, rfl⟩
  | finish hst => cases hst
  | handOver _ _ hnil => exact Or.inr ⟨hnil, rfl, fun _ => (push_ne_self q _).symm⟩
  | reject _ hnil => exact Or.inr ⟨hnil, rfl, fun _ => push_number_ne_reject.symm⟩

/-! ## Tokens -/

variable {source : String} {before after : List Token} {t : Token} {s : List Char}

/-- A token is the longest word of the language of its kind where it is read. -/
theorem longestWord_of_readAt (h : ReadAt source before t s) :
    LongestWord t.kind.language t.text.toList (t.text.toList ++ s) := by
  have hne : lexeme (kindBefore before) (t.text.toList ++ s) ≠ [] := by
    rw [h.lexeme_eq]
    exact h.text_ne
  have hlongest := (State.finds_piece (reader (kindBefore before) (t.text.toList ++ s))).longestWord hne
  rw [h.kind_eq, State.language_kind]
  rwa [← lexeme, h.lexeme_eq] at hlongest

/-- Each token of a source, up to the one that ends the run, is the longest word of its language that
    the source goes on with at the one place where the token stands. And a state that looks for a
    number, given any cursor whose token does not start past it, makes a number of the pending text and
    the longest word that is ahead, exactly if there is one; if there is none, the cursor stays as it
    is. -/
theorem token_is_longest_word (source : String) :
    (∀ before t after, (ofString source).toList = before ++ t :: after → t.kind.isTerminal = false →
      ∃ rest, FollowedBy source before t rest ∧
        LongestWord t.kind.language t.text.toList (t.text.toList ++ rest)) ∧
    ∀ c : Cursor, Reachable source.toList c → c.start ≤ c.position → ∀ q : TokenQueue,
      ∃ r, State.number.step c q = .ok r ∧
        ((∃ text, r.tokens = q.push ⟨.number, text⟩) ↔
          ∃ w ∈ Token.Kind.number.language, w <+: c.ahead) ∧
        (∀ w, LongestWord Token.Kind.number.language w c.ahead → ∃ s, c.pending? = some s ∧
          r = ⟨some .dispatch, (c.past w).skip, q.push ⟨.number, String.ofList (s ++ w)⟩⟩) ∧
        ((¬ ∃ w ∈ Token.Kind.number.language, w <+: c.ahead) → r.cursor = c) := by
  constructor
  · intro before t after h ht
    obtain ⟨s, _, _, _, _, hread, -⟩ := exists_readAt h ht
    exact ⟨s, hread.followedBy, longestWord_of_readAt hread⟩
  · intro c hc hstart q
    obtain ⟨r, hr, hstep⟩ := State.exists_step .number q (hc.proper hstart)
    refine ⟨r, hr, ?_⟩
    show (_ ↔ ∃ w ∈ Grammar.number, w <+: c.ahead) ∧ _ ∧
      ((¬ ∃ w ∈ Grammar.number, w <+: c.ahead) → _)
    rw [exists_number_iff]
    -- either a number is ahead and becomes a token, or the step leaves the cursor as it was
    rcases number_of_stepFrom hstep with ⟨hne, s, hs, rfl⟩ | ⟨hnil, hcursor, htokens⟩
    · refine ⟨⟨fun _ => hne, fun _ => ⟨_, rfl⟩⟩, ?_, fun hnone => absurd hne hnone⟩
      intro w hw
      rw [hw.unique (finds_number.longestWord hne)]
      exact ⟨s, hs, rfl⟩
    · refine ⟨⟨fun ⟨text, htext⟩ => absurd htext (htokens text), fun hne => absurd hnil hne⟩, ?_,
        fun _ => hcursor⟩
      intro w hw
      exact absurd hnil (exists_number_iff.1 ⟨w, hw.mem, hw.beginning⟩)

/-- The letter after the blank starts no exponent, so the number ends before the blank. -/
theorem number_before_name :
    (∃ rest, FollowedBy "1 ex" [] ⟨.number, "1"⟩ rest ∧
        LongestWord Token.Kind.number.language ['1'] ('1' :: rest)) ∧
      ∃ r, State.number.step (Cursor.ofString "1 ex") .empty = .ok r ∧
        ∃ text, r.tokens = TokenQueue.empty.push ⟨.number, text⟩ := by
  have hname : Lexes (some .number) [' ', 'e', 'x'] [⟨[' '], .name, ['e', 'x']⟩] [] [] := by
    refine Lexes.token_of_reader [' '] ['e', 'x'] [] .name ?_ ?_ ?_ ?_ .nil
    all_goals decide +kernel
  have hsource : Lexes none "1 ex".toList
      [⟨[], .number, ['1']⟩, ⟨[' '], .name, ['e', 'x']⟩] [] [] := by
    refine Lexes.token_of_reader [] ['1'] [' ', 'e', 'x'] .number ?_ ?_ ?_ ?_ hname
    all_goals decide +kernel
  obtain ⟨htokens, hstep⟩ := token_is_longest_word "1 ex"
  constructor
  · exact htokens [] ⟨.number, "1"⟩ _ (toList_ofString hsource) rfl
  · obtain ⟨r, hr, hnumber, -⟩ := hstep (Cursor.ofString "1 ex") .start (Nat.le_refl 0) .empty
    have hword : ∃ w ∈ Token.Kind.number.language, w <+: (Cursor.ofString "1 ex").ahead :=
      exists_number_iff.2 (by decide +kernel)
    exact ⟨r, hr, hnumber.2 hword⟩

end Lexer

end Formula
