import Formula.Proofs.Places
import Formula.Proofs.Schedules

/-!
# `Formula.Proofs.Collecting` — all ways to lex a whole source agree

A whole source can be lexed by the lexer itself, which stops at a recorded error, or by a consumer that
takes tokens from a feed until there is none left or an error is reported, and then asks for the
outcome. The feed may be a lexer or a worker's queue; with a worker, the moves of both sides may come in
any order. The result is the same, for it depends on the answers alone, and in a row of answers there is
but one place where such a consumer stops.

## Contents
- **Consumers.** `Stop`, `stop_unique`; `Feed.settle`, `Feed.Answers`, with `answers_untilError`.
- **Feeds.** `answers_direct`, `answers_piped`: what a lexer and a pipe answer.
- **Ends.** `tokenize_cases`: the two ways in which a source ends; `exists_stop`, `settle_direct`.
- **Collections.** `Pipe.Collects`, with `collects_untilError` and `Collects.settle_eq`.
- **Sources.** `start_direct`, `start_threaded`, `eq_ofLexer_of_start`; `tokenize_eq`; `Whole`; and
  `whole_sources_agree`.
-/

namespace Formula

open Lexer

variable {f f' : Feed} {l : Lexer} {p p₀ : Pipe} {r q : Option Token} {rs rs₀ : List (Option Token)}
variable {ts us : List Token} {source : String} {n : Nat}

/-! ## Consumers -/

/-- A consumer that takes tokens until there is none left or an error is reported stops after these
    answers, and keeps the tokens before the last answer. -/
structure Stop (rs : List (Option Token)) (ts : List Token) : Prop where
  answers : ∃ r, rs = ts.map some ++ [r] ∧ ∀ t ∈ r, t.isError
  tokens : ∀ t ∈ ts, t.isError = false

theorem Stop.length_eq (h : Stop rs ts) : rs.length = ts.length + 1 := by
  obtain ⟨r, rfl, -⟩ := h.answers
  simp

/-- No consumer goes on where another one stops. -/
theorem Stop.length_le (hts : Stop (results (ts.length + 1) l) ts)
    (hus : Stop (results (us.length + 1) l) us) : us.length ≤ ts.length := by
  by_contra hlt
  rw [Nat.not_le] at hlt
  obtain ⟨r, hr, hlast⟩ := hts.answers
  obtain ⟨q, hq, -⟩ := hus.answers
  have htake := take_results (ts.length + 1) (us.length - ts.length) l
  rw [show ts.length + 1 + (us.length - ts.length) = us.length + 1 by omega, hq, hr,
    List.take_append_of_le_length (by rw [List.length_map]; omega)] at htake
  -- the answer that ends the shorter row is a token that the longer row goes on after
  have hmem : r ∈ us.map some := List.mem_of_mem_take (by rw [htake]; simp)
  obtain ⟨u, hu, rfl⟩ := List.mem_map.1 hmem
  have herror := hlast u rfl
  rw [hus.tokens u hu] at herror
  cases herror

/-- In the answers of a lexer there is one place to stop. -/
theorem stop_unique (hts : Stop (results (ts.length + 1) l) ts)
    (hus : Stop (results (us.length + 1) l) us) : ts = us := by
  have hlen : ts.length = us.length := Nat.le_antisymm (hus.length_le hts) (hts.length_le hus)
  obtain ⟨r, hr, -⟩ := hts.answers
  obtain ⟨q, hq, -⟩ := hus.answers
  rw [hlen, hq] at hr
  have hmap := (List.append_inj hr (by simp [hlen])).1
  exact (List.map_injective_iff.2 (fun _ _ => Option.some.inj) hmap).symm

namespace Feed

/-- What a consumer makes of the tokens that it kept: an error that the feed reports at the end takes
    their place. -/
def settle (f : Feed) (ts : List Token) : Except Failure (List Token) :=
  match f.finish with
  | .ok () => .ok ts
  | .error failure => .error failure

theorem collect_eq (f : Feed) : f.collect = f.untilError.2.settle f.untilError.1 := rfl

/-- The answers that a feed gives to requests in a row, and the feed after them. -/
inductive Answers : Feed → List (Option Token) → Feed → Prop where
  | nil {f : Feed} : Answers f [] f
  | cons {f f' g : Feed} {r : Option Token} {rs : List (Option Token)} (hnext : f.next = (r, f'))
      (tail : Answers f' rs g) : Answers f (r :: rs) g

end Feed

/-- The tokens up to a report of an error are taken by requests in a row. -/
theorem answers_untilError (f : Feed) :
    ∃ rs, f.Answers rs f.untilError.2 ∧ Stop rs f.untilError.1 := by
  fun_induction Feed.untilError f with
  | case1 f t f' hnext herror =>
      exact ⟨[some t], .cons hnext .nil, ⟨some t, rfl, by simpa using herror⟩, nofun⟩
  | case2 f t f' hnext hnot ts g heq ih =>
      rw [heq] at ih
      obtain ⟨rs, hanswers, ⟨r, rfl, hlast⟩, htokens⟩ := ih
      refine ⟨_, .cons hnext hanswers, ⟨r, rfl, hlast⟩, ?_⟩
      intro u hu
      rcases List.mem_cons.1 hu with rfl | hu
      · simpa using hnot
      · exact htokens u hu
  | case3 f f' hnext => exact ⟨[none], .cons hnext .nil, ⟨none, rfl, nofun⟩, nofun⟩

/-! ## Feeds -/

/-- A lexer gives its own answers. -/
theorem answers_direct (h : Feed.Answers (.direct l) rs f) :
    rs = results rs.length l ∧ f = .direct (after rs.length l) := by
  generalize hdirect : Feed.direct l = g at h
  induction h generalizing l with
  | nil => exact ⟨rfl, hdirect.symm⟩
  | cons hnext _ ih =>
      subst hdirect
      cases hnext
      obtain ⟨hrs, hf⟩ := ih rfl
      exact ⟨congrArg (List.cons _) hrs, hf⟩

/-- Requests to a pipe go on with a schedule. -/
theorem answers_piped (h : Feed.Answers (.piped p) rs f) (hp : Pipe.Schedule (.ofLexer l n) rs₀ p) :
    ∃ p', f = .piped p' ∧ Pipe.Schedule (.ofLexer l n) (rs₀ ++ rs) p' := by
  generalize hpiped : Feed.piped p = g at h
  induction h generalizing p rs₀ with
  | nil =>
      subst hpiped
      rw [List.append_nil]
      exact ⟨p, rfl, hp⟩
  | cons hnext _ ih =>
      subst hpiped
      cases hnext
      obtain ⟨p', rfl, hschedule⟩ := ih (Pipe.schedule_receive hp) rfl
      rw [List.append_assoc] at hschedule
      exact ⟨p', rfl, hschedule⟩

/-! ## Ends -/

/-- A source ends well, and then no error is ever recorded, or its last token reports an error, and this
    error is recorded with it. -/
theorem tokenize_cases (source : String) :
    (∃ us, (ofString source).toList = us ++ [⟨.endOfInput, ""⟩] ∧
      (∀ t ∈ us, t.kind.isTerminal = false) ∧
      Lexer.tokenize source = .ok (ofString source).toList ∧
      ∀ k, (after k (ofString source)).error = none) ∨
    ∃ us e, (ofString source).toList = us ++ [⟨.error, e.message⟩] ∧
      (∀ t ∈ us, t.kind.isTerminal = false) ∧ Lexer.tokenize source = .error e ∧
      ∀ k, (after k (ofString source)).error = if us.length < k then some e else none := by
  obtain ⟨gs, gap, rest, h⟩ := exists_lexes none source.toList
  have hlist := toList_ofString h
  have htokenize := tokenize_ofString h
  have herror := error_ofString h
  have htokens (t : Token) (ht : t ∈ gs.map Segment.token) : t.kind.isTerminal = false :=
    (token_of_lexes h ht).1
  cases rest with
  | nil =>
      refine Or.inl ⟨_, hlist, htokens, htokenize.trans (congrArg Except.ok hlist.symm), ?_⟩
      intro k
      rw [herror, outcome, ite_self]
  | cons x rest =>
      refine Or.inr ⟨_, _, hlist, htokens, htokenize, ?_⟩
      intro k
      rw [herror, List.length_map]
      rfl

theorem isError_of_mem (h : ∀ t ∈ us, t.kind.isTerminal = false) : ∀ t ∈ us, t.isError = false :=
  fun t ht => isError_of_not_terminal (h t ht)

/-- A consumer that asks the lexer stops, and has what the lexer makes of the source by itself. -/
theorem exists_stop (source : String) :
    ∃ us, Stop (results (us.length + 1) (ofString source)) us ∧
      Feed.settle (.direct (after (us.length + 1) (ofString source))) us =
        (Lexer.tokenize source).mapError .lexing := by
  have hresults := results_toList (ofString source)
  rcases tokenize_cases source with ⟨us, hlist, htokens, htokenize, herror⟩ |
    ⟨us, e, hlist, htokens, htokenize, herror⟩
  · -- all tokens are taken, and then there is none left
    refine ⟨us ++ [⟨.endOfInput, ""⟩], ⟨⟨none, ?_, nofun⟩, ?_⟩, ?_⟩
    · have hall := hresults 1
      rwa [hlist] at hall
    · intro t ht
      rcases List.mem_append.1 ht with ht | ht
      · exact isError_of_mem htokens t ht
      · rw [List.mem_singleton.1 ht]
        rfl
    · rw [Feed.settle, Pipe.finish_direct_of_none (herror _), htokenize, hlist]
      rfl
  · -- the last token is the report of the error
    refine ⟨us, ⟨⟨some ⟨.error, e.message⟩, ?_, ?_⟩, isError_of_mem htokens⟩, ?_⟩
    · have hall := hresults 0
      rw [hlist, List.length_append, List.length_singleton] at hall
      simpa using hall
    · intro t ht
      cases ht
      rfl
    · have herror := herror (us.length + 1)
      rw [if_pos (Nat.lt_succ_self _)] at herror
      rw [Feed.settle, Pipe.finish_direct_of_error herror, htokenize]
      rfl

/-- So does every consumer that asks the lexer. -/
theorem settle_direct (h : Stop (results (ts.length + 1) (ofString source)) ts) :
    Feed.settle (.direct (after (ts.length + 1) (ofString source))) ts =
      (Lexer.tokenize source).mapError .lexing := by
  obtain ⟨us, hus, hsettle⟩ := exists_stop source
  rwa [← stop_unique h hus] at hsettle

/-! ## Collections -/

namespace Pipe

/-- In some order of the moves of worker and consumer, the consumer has taken tokens until there was
    none left or an error was reported, and these are the tokens that it kept. -/
def Collects (p₀ : Pipe) (ts : List Token) (p : Pipe) : Prop := ∃ rs, Schedule p₀ rs p ∧ Stop rs ts

/-- Whatever the order, the consumer has what the lexer makes of the source by itself. -/
theorem Collects.settle_eq (h : Collects (ofLexer (ofString source) n) ts p) :
    Feed.settle (.piped p) ts = (Lexer.tokenize source).mapError .lexing := by
  obtain ⟨rs, hschedule, hstop⟩ := h
  have hfaithful := hschedule.faithful
  have hanswers := hfaithful.answers_eq
  have hfinish := hfaithful.finish_eq
  rw [hstop.length_eq] at hanswers hfinish
  rw [hanswers] at hstop
  rw [Feed.settle, hfinish]
  exact settle_direct hstop

/-- A consumer that has taken tokens and goes on waiting for more comes to an end. -/
theorem collects_untilError (h : Schedule (ofLexer l n) (ts.map some) p)
    (hts : ∀ t ∈ ts, t.isError = false) :
    ∃ p', (Feed.piped p).untilError.2 = .piped p' ∧
      Collects (ofLexer l n) (ts ++ (Feed.piped p).untilError.1) p' := by
  obtain ⟨rs, hanswers, ⟨r, hrs, hlast⟩, htokens⟩ := answers_untilError (.piped p)
  obtain ⟨p', hp', hschedule⟩ := answers_piped hanswers h
  refine ⟨p', hp', _, hschedule, ⟨r, ?_, hlast⟩, ?_⟩
  · rw [hrs, List.map_append, List.append_assoc]
  · intro t ht
    rcases List.mem_append.1 ht with ht | ht
    · exact hts t ht
    · exact htokens t ht

end Pipe

/-! ## Sources -/

theorem collect_direct (source : String) :
    Feed.collect (.direct (ofString source)) = (Lexer.tokenize source).mapError .lexing := by
  obtain ⟨rs, hanswers, hstop⟩ := answers_untilError (.direct (ofString source))
  obtain ⟨hrs, hfeed⟩ := answers_direct hanswers
  rw [hstop.length_eq] at hrs hfeed
  rw [hrs] at hstop
  rw [Feed.collect_eq, hfeed]
  exact settle_direct hstop

theorem collect_piped (source : String) (n : Nat) :
    Feed.collect (.piped (.ofLexer (ofString source) n)) =
      (Lexer.tokenize source).mapError .lexing := by
  have hstart : Pipe.Schedule (.ofLexer (ofString source) n) (([] : List Token).map some) _ := .start
  obtain ⟨p, hp, hcollects⟩ := Pipe.collects_untilError hstart nofun
  rw [Feed.collect_eq, hp]
  exact hcollects.settle_eq

variable {settings : RunSettings} {e : LexError}

theorem start_direct (h : settings.threaded = false) :
    Feed.start source settings = .ok (.direct (ofString source)) := by
  rw [Feed.start, h]
  rfl

theorem start_threaded (h : settings.threaded = true)
    (hroom : settings.capacity * Pipe.placeBytes ≤ blockLimit) :
    Feed.start source settings = .ok (.piped (.ofLexer (ofString source) settings.capacity)) := by
  -- the capacity is one at least already, so asking for one place at least changes nothing
  have hcapacity : max settings.capacity 1 = settings.capacity := by simp [RunSettings.capacity]
  rw [← hcapacity] at hroom
  rw [Feed.start, h, if_pos rfl, Pipe.spawn_eq_ok_iff.2 ⟨hroom, rfl⟩]
  rfl

/-- A pipe that a source is started on has a worker with the lexer before that source. -/
theorem eq_ofLexer_of_start (h : Feed.start source settings = .ok (.piped p)) :
    ∃ n, p = .ofLexer (ofString source) n := by
  rw [Feed.start] at h
  split at h
  · cases hspawn : Pipe.spawn (ofString source) settings.capacity with
    | ok p' =>
        rw [hspawn] at h
        cases h
        exact ⟨_, (Pipe.spawn_eq_ok_iff.1 hspawn).2⟩
    | error e =>
        rw [hspawn] at h
        cases h
  · cases h

theorem tokenize_eq (source : String) (hroom : settings.threaded = true →
      settings.capacity * Pipe.placeBytes ≤ blockLimit) :
    tokenize source settings = .ok ((Lexer.tokenize source).mapError .lexing) := by
  rw [tokenize]
  cases hthreaded : settings.threaded with
  | false =>
      rw [start_direct hthreaded]
      exact congrArg Except.ok (collect_direct source)
  | true =>
      rw [start_threaded hthreaded (hroom hthreaded)]
      exact congrArg Except.ok (collect_piped source _)

/-- Tokens end with the end of the source and have no other such token, and no report of an error. -/
structure Whole (ts : List Token) : Prop where
  kind_last : kindBefore ts = some .endOfInput
  not_error : ∀ t ∈ ts, t.isError = false
  endOfInput_iff : ∀ us t vs, ts = us ++ t :: vs → (t.kind = .endOfInput ↔ vs = [])

theorem whole_append (h : ∀ t ∈ ts, t.kind.isTerminal = false) :
    Whole (ts ++ [⟨.endOfInput, ""⟩]) := by
  refine ⟨by simp [kindBefore], ?_, ?_⟩
  · intro t ht
    rcases List.mem_append.1 ht with ht | ht
    · exact isError_of_mem h t ht
    · rw [List.mem_singleton.1 ht]
      rfl
  · intro us t vs hts
    constructor
    · intro hkind
      cases vs using List.reverseRecOn with
      | nil => rfl
      | append_singleton vs v =>
          -- another place than the last holds a token of the run
          have heq : ts ++ [⟨.endOfInput, ""⟩] = (us ++ t :: vs) ++ [v] := by simpa using hts
          have hmem : t ∈ ts := by
            rw [(List.append_inj' heq rfl).1]
            simp
          have hterminal := h t hmem
          rw [hkind] at hterminal
          cases hterminal
    · rintro rfl
      have hlast := (List.append_inj' hts rfl).2
      rw [← List.singleton_inj.1 hlast]

/-- All ways to lex a whole source agree. With or without a worker, with a queue of any capacity that
    there is room for, and in any order of the moves of worker and consumer, the outcome is that of the
    lexer by itself; and a consumer that has not come to an end yet will. The lexer gives all tokens
    exactly when the last one is the end of the source, and an error exactly when the last one reports
    one. -/
theorem whole_sources_agree (source : String) (settings : RunSettings)
    (hroom : settings.threaded = true → settings.capacity * Pipe.placeBytes ≤ blockLimit) :
    tokenize source settings = .ok ((Lexer.tokenize source).mapError .lexing) ∧
      (∀ p₀, Feed.start source settings = .ok (.piped p₀) → ∀ ts p,
        (Pipe.Collects p₀ ts p →
          Feed.settle (.piped p) ts = (Lexer.tokenize source).mapError .lexing) ∧
        (Pipe.Schedule p₀ (ts.map some) p → (∀ t ∈ ts, t.isError = false) →
          ∃ us p', (Feed.piped p).untilError = (us, .piped p') ∧ Pipe.Collects p₀ (ts ++ us) p')) ∧
      ((∃ ts, Lexer.tokenize source = .ok ts) ↔
        kindBefore (ofString source).toList = some .endOfInput) ∧
      (∀ ts, Lexer.tokenize source = .ok ts → ts = (ofString source).toList ∧ Whole ts) ∧
      ((∃ e, Lexer.tokenize source = .error e) ↔
        kindBefore (ofString source).toList = some .error) ∧
      ∀ e, Lexer.tokenize source = .error e →
        (∀ k, (ofString source).toList.length ≤ k → (after k (ofString source)).error = some e) ∧
        (ofString source).toList.getLast? = some ⟨.error, e.message⟩ ∧
        (Failure.lexing e).report.line = some e.location.line ∧
        (Failure.lexing e).report.column = some e.location.column ∧
        (Failure.lexing e).report.message = e.message := by
  refine ⟨tokenize_eq source hroom, ?_, ?_⟩
  · intro p₀ hstart ts p
    obtain ⟨n, rfl⟩ := eq_ofLexer_of_start hstart
    refine ⟨Pipe.Collects.settle_eq, ?_⟩
    intro h hts
    obtain ⟨p', hp', hcollects⟩ := Pipe.collects_untilError h hts
    exact ⟨_, p', Prod.ext rfl hp', hcollects⟩
  · rcases tokenize_cases source with ⟨us, hlist, htokens, htokenize, -⟩ |
      ⟨us, e, hlist, -, htokenize, herror⟩
    · have hwhole := whole_append htokens
      rw [← hlist] at hwhole
      rw [htokenize, hwhole.kind_last]
      refine ⟨by simp, ?_, by simp, ?_⟩
      · rintro _ ⟨⟩
        exact ⟨rfl, hwhole⟩
      · rintro _ ⟨⟩
    · have hkind : kindBefore (ofString source).toList = some .error := by simp [kindBefore, hlist]
      rw [htokenize, hkind]
      refine ⟨by simp, ?_, by simp, ?_⟩
      · rintro _ ⟨⟩
      · rintro _ ⟨⟩
        refine ⟨?_, by simp [hlist], rfl, rfl, rfl⟩
        intro k hk
        rw [hlist, List.length_append, List.length_singleton] at hk
        rw [herror, if_pos (by omega)]

/-- A worker whose queue was asked to hold nothing reports the error of the source. -/
theorem threaded_source_agrees_on_error :
    tokenize "2&" ⟨0, true⟩ = .ok (.error (.lexing ⟨"operator", some '&', ⟨1, 2, 1⟩⟩)) ∧
      kindBefore (ofString "2&").toList = some .error := by
  have hrest : Lexes (some .number) ['&'] [] [] ['&'] := by
    have hstop : Lexes (some .number) ([] ++ ['&']) [] [] ['&'] := by
      refine .stop ?_ ?_ ?_
      all_goals decide +kernel
    exact hstop
  have hsource : Lexes none "2&".toList [⟨[], .number, ['2']⟩] [] ['&'] := by
    refine Lexes.token_of_reader [] ['2'] ['&'] .number ?_ ?_ ?_ ?_ hrest
    all_goals decide +kernel
  have herror : Lexer.tokenize "2&" = .error ⟨"operator", some '&', ⟨1, 2, 1⟩⟩ :=
    tokenize_ofString hsource
  obtain ⟨htokenize, -, -, -, hends, -⟩ :=
    whole_sources_agree "2&" ⟨0, true⟩ (fun _ => by decide)
  rw [herror] at htokenize
  exact ⟨htokenize, hends.1 ⟨_, herror⟩⟩

end Formula
