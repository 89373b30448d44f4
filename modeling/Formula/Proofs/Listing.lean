import Formula.Proofs.Printing
import Formula.Proofs.Quoting
import Formula.Proofs.Splitting

/-!
# `Formula.Proofs.Listing` — a listing has a line for each token and tells them apart

A token is listed as its kind and its quoted text. The kind ends at the first comma, and the quoted text
ends where its quote is closed, so the listed form says which token it is. All of it is visible, so it is
one line, whatever text the token has. Hence the text that a run prints for the tokens of a source has as
many lines as there are tokens, and two runs print the same only for the same tokens. The end of the source
is listed by itself: of that kind there is one token in a source, and its text is empty.

## Contents
- **Kinds.** `Token.Kind.all`, `Token.Kind.label_append_inj`.
- **Tokens.** `Token.display_eq_iff`, `Token.isHidden_of_mem_display`, `Token.not_mem_display`.
- **Lists.** `Text.lines_append_lineFeed`, `Token.lines_listText`, `Token.count_listText`.
- **Sources.** `Token.Bare`, with `Token.eq_of_map_display`; `listed_of_tokenize`.
- **Runs.** `Lists`, `Lists.output_eq`; `text_output_determines_tokens`.
-/

namespace Formula

/-! ## Kinds -/

namespace Token.Kind

variable {k l : Kind} {u v : List Char}

/-- All kinds. -/
def all : List Kind := [error, endOfInput, newLine, punctuation, number, operator, name]

theorem mem_all (k : Kind) : k ∈ all := by cases k <;> decide

theorem comma_not_mem_label (k : Kind) : ',' ∉ k.label.toList := by
  have hall : ∀ k ∈ all, ',' ∉ k.label.toList := by decide
  exact hall k k.mem_all

/-- What begins with the label of a kind and a comma does so with one kind only. -/
theorem label_append_inj (h : k.label.toList ++ ',' :: u = l.label.toList ++ ',' :: v) :
    k = l ∧ u = v := by
  have hlabels : ∀ k ∈ all, ∀ l ∈ all, k.label.toList = l.label.toList → k = l := by decide
  have hcut (k : Kind) (u : List Char) :
      (k.label.toList ++ ',' :: u).takeWhile (· != ',') = k.label.toList := by
    rw [List.takeWhile_append_of_pos]
    · exact List.append_nil _
    · intro c hc
      rw [bne_iff_ne]
      rintro rfl
      exact k.comma_not_mem_label hc
  have hlabel : k.label.toList = l.label.toList := by rw [← hcut k u, h, hcut]
  rw [hlabel, List.append_cancel_left_eq, List.cons.injEq] at h
  exact ⟨hlabels k k.mem_all l l.mem_all hlabel, h.2⟩

end Token.Kind

/-! ## Tokens -/

namespace Token

variable {t u : Token} {ts us : List Token} {x : Char}

theorem display_endOfInput (h : t.kind = .endOfInput) : t.display = "<EOF>" := by
  rw [display, h]

theorem display_toList (h : t.kind ≠ .endOfInput) :
    t.display.toList =
      '<' :: (t.kind.label.toList ++ ',' :: ' ' :: ((Text.quote t.text).toList ++ ['>'])) := by
  unfold display
  split
  · next hend => exact absurd hend h
  · simp

/-- No other token is listed as the end of the source is. -/
theorem display_ne (h : t.kind ≠ .endOfInput) : t.display ≠ "<EOF>" := by
  intro hdisplay
  have hcomma : ',' ∈ t.display.toList := by simp [display_toList h]
  rw [hdisplay] at hcomma
  exact absurd hcomma (by decide)

/-- The end of the source is listed by itself, and every other token in a way of its own. -/
theorem display_eq_iff :
    t.display = u.display ↔ t = u ∨ t.kind = .endOfInput ∧ u.kind = .endOfInput := by
  constructor
  · intro h
    by_cases ht : t.kind = .endOfInput
    · by_cases hu : u.kind = .endOfInput
      · exact Or.inr ⟨ht, hu⟩
      · exact absurd (h.symm.trans (display_endOfInput ht)) (display_ne hu)
    · by_cases hu : u.kind = .endOfInput
      · exact absurd (h.trans (display_endOfInput hu)) (display_ne ht)
      · have hlists := congrArg String.toList h
        rw [display_toList ht, display_toList hu, List.cons.injEq] at hlists
        obtain ⟨hkind, hrest⟩ := Kind.label_append_inj hlists.2
        obtain ⟨htext, -⟩ := Text.quote_append_inj (List.tail_eq_of_cons_eq hrest)
        left
        cases t
        cases u
        rw [Token.mk.injEq]
        exact ⟨hkind, htext⟩
  · rintro (rfl | ⟨ht, hu⟩)
    · rfl
    · rw [display_endOfInput ht, display_endOfInput hu]

/-- All of a listed token is visible. -/
theorem isHidden_of_mem_display (h : x ∈ t.display.toList) : Text.isHidden x = false := by
  by_cases hend : t.kind = .endOfInput
  · have hall : "<EOF>".toList.all (!Text.isHidden ·) = true := by decide +kernel
    rw [display_endOfInput hend] at h
    exact Text.isHidden_of_all hall h
  · have hmarks : ['<', ',', ' ', '>'].all (!Text.isHidden ·) = true := by decide +kernel
    have hlabels : (Kind.all.flatMap (·.label.toList)).all (!Text.isHidden ·) = true := by
      decide +kernel
    rw [display_toList hend] at h
    simp only [List.mem_cons, List.mem_append, List.not_mem_nil, or_false] at h
    rcases h with rfl | h | rfl | rfl | h | rfl
    · exact Text.isHidden_of_all hmarks (by decide)
    · exact Text.isHidden_of_all hlabels (List.mem_flatMap.2 ⟨t.kind, t.kind.mem_all, h⟩)
    · exact Text.isHidden_of_all hmarks (by decide)
    · exact Text.isHidden_of_all hmarks (by decide)
    · exact Text.isHidden_of_mem_quote h
    · exact Text.isHidden_of_all hmarks (by decide)

/-- A listed token breaks no line. -/
theorem not_mem_display (h : x ∈ Text.lineBreaks) (t : Token) : x ∉ t.display.toList := by
  intro hmem
  have hvisible := isHidden_of_mem_display hmem
  rw [Text.isHidden_of_mem_lineBreaks h] at hvisible
  cases hvisible

end Token

/-! ## Lists -/

/-- A row without breaks, ended by a line feed, is the first line. -/
theorem Text.lines_append_lineFeed {row : List Char} (hfeed : '\n' ∉ row) (hreturn : '\r' ∉ row)
    (s : List Char) : lines (row ++ '\n' :: s) = row :: lines s := by
  induction row with
  | nil => exact lines_lineFeed s
  | cons c row ih =>
      rw [List.mem_cons, not_or] at hfeed hreturn
      rw [List.cons_append, lines_cons (Ne.symm hfeed.1), if_neg fun h => hreturn.1 h.1.symm,
        ih hfeed.2 hreturn.2]

namespace Token

variable {t u : Token} {ts us : List Token}

theorem listText_cons (t : Token) (ts : List Token) :
    (listText (t :: ts)).toList = t.display.toList ++ '\n' :: (listText ts).toList := by
  simp [listText, String.join_cons]

/-- A list of tokens has one line for each of them. -/
theorem lines_listText (ts : List Token) :
    Text.lines (listText ts).toList = ts.map fun t => t.display.toList := by
  induction ts with
  | nil => rfl
  | cons t ts ih =>
      rw [listText_cons, Text.lines_append_lineFeed (t.not_mem_display (by decide))
        (t.not_mem_display (by decide)), ih, List.map_cons]

/-- Each of the lines is ended by a line feed, and there is no other. -/
theorem count_listText (ts : List Token) : (listText ts).toList.count '\n' = ts.length := by
  induction ts with
  | nil => rfl
  | cons t ts ih =>
      rw [listText_cons, List.count_append, List.count_cons_self, ih,
        List.count_eq_zero_of_not_mem (t.not_mem_display (by decide)), List.length_cons, Nat.zero_add]

theorem getLast_listText (t : Token) (ts : List Token) :
    (listText (t :: ts)).toList.getLast? = some '\n' := by
  induction ts generalizing t with
  | nil =>
      rw [listText_cons, List.getLast?_append]
      rfl
  | cons u ts ih => rw [listText_cons, List.getLast?_append, List.getLast?_cons, ih u]; rfl

/-! ## Sources -/

/-- A token for the end of the source has no text. -/
def Bare (t : Token) : Prop := t.kind = .endOfInput → t.text = ""

theorem eq_of_display (ht : t.Bare) (hu : u.Bare) (h : t.display = u.display) : t = u := by
  rcases display_eq_iff.1 h with rfl | ⟨htend, huend⟩
  · rfl
  · cases t
    cases u
    rw [Token.mk.injEq]
    exact ⟨htend.trans huend.symm, (ht htend).trans (hu huend).symm⟩

/-- Lists of such tokens are not listed alike. -/
theorem eq_of_listText (hts : ∀ t ∈ ts, t.Bare) (hus : ∀ u ∈ us, u.Bare)
    (h : listText ts = listText us) : ts = us := by
  have hlines := congrArg (fun s => Text.lines s.toList) h
  simp only [lines_listText] at hlines
  clear h
  induction ts generalizing us with
  | nil => exact (List.map_eq_nil_iff.1 hlines.symm).symm
  | cons t ts ih =>
      obtain ⟨u, us', rfl, hdisplay, hrest⟩ := List.map_eq_cons_iff.1 hlines.symm
      rw [List.forall_mem_cons] at hts hus
      rw [eq_of_display hts.1 hus.1 (String.toList_injective hdisplay.symm), ih hts.2 hus.2 hrest.symm]

end Token

variable {source source' : String} {ts ts' : List Token}

/-- The tokens of a source end with the one token for the end of the source, which has no text. -/
theorem exists_tokens_of_tokenize (h : Lexer.tokenize source = .ok ts) :
    ∃ us, ts = us ++ [⟨.endOfInput, ""⟩] ∧ ∀ t ∈ ts, t.Bare := by
  rcases tokenize_cases source with ⟨us, hlist, hus, htokenize, -⟩ | ⟨us, e, -, -, htokenize, -⟩
  · rw [htokenize, Except.ok.injEq, hlist] at h
    subst h
    refine ⟨us, rfl, ?_⟩
    intro t ht hend
    rcases List.mem_append.1 ht with ht | ht
    · have hterminal := hus t ht
      rw [hend] at hterminal
      cases hterminal
    · rw [List.mem_singleton.1 ht]
  · rw [htokenize] at h
    cases h

namespace Command

variable {σ τ : Type} {env : Environment (StateM σ)} {env' : Environment (StateM τ)} {w : σ} {w' : τ}
variable {arguments arguments' : List String} {i i' : Invocation} {config config' : Config}

/-! ## Runs -/

/-- From this state of the world, the arguments ask for the tokens of this source as text, and these are
    what the run makes of it. -/
structure Lists (env : Environment (StateM σ)) (w : σ) (arguments : List String) (i : Invocation)
    (config : Config) (source : String) (ts : List Token) : Prop where
  request : Request.ofArguments arguments = .ok (.lex i)
  format : i.outputFormat = .text
  read : ∃ w' w'', (loadConfig env i.config).run w = (.ok config, w') ∧
    (readSource env i).run w' = (.ok source, w'')
  tokens : tokenize source (i.override config).lexer = .ok (.ok ts)

/-- A run that has begun has had room for the queue of its worker. -/
theorem room_of_tokenize {settings : RunSettings} {r : Except Failure (List Token)}
    (h : tokenize source settings = .ok r) (hthreaded : settings.threaded = true) :
    settings.capacity * Pipe.placeBytes ≤ blockLimit := by
  have hcapacity : max settings.capacity 1 = settings.capacity := by simp [RunSettings.capacity]
  rw [tokenize, Feed.start, hthreaded, if_pos rfl] at h
  cases hspawn : Pipe.spawn (.ofString source) settings.capacity with
  | ok p =>
      rw [← hcapacity]
      exact (Pipe.spawn_eq_ok_iff.1 hspawn).1
  | error e =>
      rw [hspawn] at h
      cases h

theorem Lists.gets (h : Lists env w arguments i config source ts) :
    Gets env w arguments i config source :=
  ⟨h.request, h.read, room_of_tokenize h.tokens⟩

theorem Lists.tokenize_eq (h : Lists env w arguments i config source ts) :
    Lexer.tokenize source = .ok ts := by
  have htokens := h.tokens
  rw [Formula.tokenize_eq source h.gets.room, Except.ok.injEq] at htokens
  cases hresult : Lexer.tokenize source with
  | ok us =>
      rw [hresult, Except.mapError, Except.ok.injEq] at htokens
      rw [htokens]
  | error e =>
      rw [hresult] at htokens
      cases htokens

theorem Lists.output_eq (h : Lists env w arguments i config source ts) :
    ((run env arguments).run w).1.output = Token.listText ts := by
  have hprinted := h.gets.printed_eq
  rw [h.tokenize_eq, h.format] at hprinted
  exact (Prod.mk.inj hprinted).2

/-- The output has one line for each token, each ended by a line feed, and the last of them is that for the
    end of the source. -/
structure Rows (output : String) (ts : List Token) : Prop where
  lines : Text.lines output.toList = ts.map fun t => t.display.toList
  count : output.toList.count '\n' = ts.length
  ended : output.toList.getLast? = some '\n'
  last : (Text.lines output.toList).getLast? = some "<EOF>".toList

theorem Lists.rows (h : Lists env w arguments i config source ts) :
    Rows ((run env arguments).run w).1.output ts := by
  obtain ⟨us, rfl, -⟩ := exists_tokens_of_tokenize h.tokenize_eq
  rw [h.output_eq]
  refine ⟨Token.lines_listText _, Token.count_listText _, ?_, ?_⟩
  · cases us with
    | nil => exact Token.getLast_listText _ []
    | cons t us => exact Token.getLast_listText t _
  · rw [Token.lines_listText, List.map_append, List.map_singleton, List.getLast?_concat,
      Token.display_endOfInput rfl]

/-- A run that prints the tokens of a source as text prints one line for each, the last for the end of the
    source, and two such runs print the same just when the tokens are the same. For a listed token breaks no
    line, whatever its text, and no two tokens are listed alike but those for the end of a source. -/
theorem text_output_determines_tokens (h : Lists env w arguments i config source ts)
    (h' : Lists env' w' arguments' i' config' source' ts') :
    Rows ((run env arguments).run w).1.output ts ∧
      (((run env arguments).run w).1.output = ((run env' arguments').run w').1.output ↔ ts = ts') ∧
      (∀ t : Token, ∀ x ∈ Text.lineBreaks, x ∉ t.display.toList) ∧
      ∀ t u : Token, t.display = u.display ↔ t = u ∨ t.kind = .endOfInput ∧ u.kind = .endOfInput := by
  obtain ⟨-, -, hbare⟩ := exists_tokens_of_tokenize h.tokenize_eq
  obtain ⟨-, -, hbare'⟩ := exists_tokens_of_tokenize h'.tokenize_eq
  refine ⟨h.rows, ?_, fun t x hx => t.not_mem_display hx, fun t u => Token.display_eq_iff⟩
  rw [h.output_eq, h'.output_eq]
  constructor
  · exact Token.eq_of_listText hbare hbare'
  · rintro rfl
    rfl

/-- A line feed is listed in one line, and not as a plus sign is. -/
theorem lineFeed_listed_in_one_line :
    let env : Environment (StateM Unit) := ⟨fun _ => pure (.ok ""), pure (.ok "")⟩
    Lists env () ["\n"] { expression := some "\n" } {} "\n" [⟨.newLine, "\n"⟩, ⟨.endOfInput, ""⟩] ∧
      Lists env () ["+"] { expression := some "+" } {} "+" [⟨.operator, "+"⟩, ⟨.endOfInput, ""⟩] ∧
      ((run env ["\n"]).run ()).1.output.toList.count '\n' = 2 ∧
      ((run env ["\n"]).run ()).1.output ≠ ((run env ["+"]).run ()).1.output ∧
      '\n' ∈ Text.lineBreaks ∧ '\n' ∉ (⟨.newLine, "\n"⟩ : Token).display.toList := by
  intro env
  have hfeed : Lexer.Lexes none "\n".toList [⟨[], .newLine, ['\n']⟩] [] [] := by
    refine Lexer.Lexes.token_of_reader [] ['\n'] [] .dispatch nofun nofun ?_ ?_ .nil
    all_goals decide +kernel
  have hplus : Lexer.Lexes none "+".toList [⟨[], .operator, ['+']⟩] [] [] := by
    refine Lexer.Lexes.token_of_reader [] ['+'] [] .operator nofun nofun ?_ ?_ .nil
    all_goals decide +kernel
  have htokens (source : String) (ts : List Token) (h : Lexer.tokenize source = .ok ts) :
      tokenize source {} = .ok (.ok ts) := by
    rw [Formula.tokenize_eq source fun hthreaded => absurd hthreaded (by decide), h]
    rfl
  have h : Lists env () ["\n"] { expression := some "\n" } {} "\n"
      [⟨.newLine, "\n"⟩, ⟨.endOfInput, ""⟩] :=
    ⟨by decide, rfl, ⟨(), (), rfl, rfl⟩, htokens _ _ (Lexer.tokenize_ofString hfeed)⟩
  have h' : Lists env () ["+"] { expression := some "+" } {} "+"
      [⟨.operator, "+"⟩, ⟨.endOfInput, ""⟩] :=
    ⟨by decide, rfl, ⟨(), (), rfl, rfl⟩, htokens _ _ (Lexer.tokenize_ofString hplus)⟩
  obtain ⟨hrows, hsame, hbreaks, -⟩ := text_output_determines_tokens h h'
  refine ⟨h, h', hrows.count, ?_, by decide, hbreaks _ _ (by decide)⟩
  intro houtput
  exact absurd (hsame.1 houtput) (by decide)

end Command

end Formula
