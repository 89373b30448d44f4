import Formula.Command.Program
import Formula.Proofs.Presentations
import Formula.Proofs.Writing

/-!
# `Formula.Proofs.Loading` — a configuration is loaded however it is written

The loader reads a file as JSON and then as a configuration. So it loads the configuration that a document
presents, whatever way was chosen for each part and wherever blanks stand. It refuses an object that has a
field twice, an array with more items than there are fields, and a text that goes on after the value.
And it refuses a member whose name is half a pair alone, though it would ignore any other name that it
does not know.

## Contents
- **Refusals.** `Spoilt`, `HasField`, `Broken`, with `not_presents_of_broken`.
- **Loading.** `loadConfig_eq`, `parse?_append_eq_none`; `load_of_document`, `half_pair_name_refused`.
-/

namespace Formula.Config

open Json Log Command

variable {members : List (Option String × Tree)} {name : String} {slot : Option Tree}
variable {fields : List PartField} {t v : Tree} {Named : Option String → Prop}

/-! ## Refusals -/

/-- The value repeats one of these fields, or it is an array with more items than there are fields. -/
inductive Spoilt (names : List String) : Tree → Prop where
  | repeated {name : String} {before between after : List (Option String × Tree)} {v u : Tree}
      (hname : name ∈ names) :
      Spoilt names (.object (before ++ (some name, v) :: (between ++ (some name, u) :: after)))
  | long {items : List Tree} (h : names.length < items.length) : Spoilt names (.array items)

/-- The value of a field of a part. -/
inductive HasField (names : List String) (name : String) : Tree → Tree → Prop where
  | member {members : List (Option String × Tree)} {v : Tree} (h : (some name, v) ∈ members) :
      HasField names name (.object members) v
  | item {items : List Tree} {v : Tree} {k : Nat} (hname : names[k]? = some name)
      (hitem : items[k]? = some v) :
      HasField names name (.array items) v

/-- The names of the fields, in order. -/
def configNames : List String := ["lexer", "logging"]

/-- The names of the fields that say how tokens are produced, in order. -/
def runNames : List String := ["token_buffer", "threaded"]

/-- The names of the fields that say which log records are written, in order. -/
def logNames : List String := ["level", "lexer", "eval"]

/-- The value is spoilt, or the value of one of its fields is. -/
inductive Broken (t : Tree) : Prop where
  | whole (h : Spoilt configNames t)
  | lexer {v : Tree} (hfield : HasField configNames "lexer" t v) (h : Spoilt runNames v)
  | logging {v : Tree} (hfield : HasField configNames "logging" t v) (h : Spoilt logNames v)

theorem not_part_of_spoilt {names : List String} (hnames : fields.map PartField.name = names)
    (h : Spoilt names t) : ¬ Part Named fields t := by
  subst hnames
  intro hpart
  cases h with
  | @repeated name before between after v u hname =>
      obtain ⟨f, hf, rfl⟩ := List.mem_map.1 hname
      cases hpart with
      | object _ hfields =>
          obtain ⟨slot, hslot, -⟩ := hfields f hf
          have hlength := congrArg List.length hslot.filter_eq
          have hle : slot.toList.length ≤ 1 := by
            cases slot with
            | none | some => simp
          simp at hlength
          omega
  | long hlong =>
      cases hpart with
      | array hlength _ =>
          rw [List.length_map] at hlong
          omega

/-- What a part has for a field presents the value of the field. -/
theorem holds_of_hasField {names : List String} (hnames : fields.map PartField.name = names)
    (hpart : Part Named fields t) (h : HasField names name t v) (hname : name ∈ names) :
    ∃ f ∈ fields, f.name = name ∧ f.Holds (some v) := by
  subst hnames
  cases h with
  | @member members _ hmem =>
      obtain ⟨f, hf, rfl⟩ := List.mem_map.1 hname
      cases hpart with
      | object _ hfields =>
          obtain ⟨slot, hslot, hholds⟩ := hfields f hf
          have hfilter : (some f.name, v) ∈ members.filter fun m => m.1 == some f.name :=
            List.mem_filter.2 ⟨hmem, beq_self_eq_true (some f.name)⟩
          rw [hslot.filter_eq] at hfilter
          obtain ⟨u, hu, heq⟩ := List.mem_map.1 hfilter
          cases heq
          obtain rfl := Option.mem_toList.1 hu
          exact ⟨f, hf, rfl, hholds⟩
  | @item items _ k hk hitem =>
      rw [List.getElem?_map] at hk
      obtain ⟨f, hf, rfl⟩ := Option.map_eq_some_iff.1 hk
      obtain ⟨hlt, rfl⟩ := List.getElem?_eq_some_iff.1 hf
      cases hpart with
      | array _ hfields =>
          have hholds := hfields k hlt
          rw [hitem] at hholds
          exact ⟨_, List.getElem_mem hlt, rfl, hholds⟩

/-- What is broken presents no configuration. -/
theorem not_presents_of_broken {c : Config} (h : Broken t) : ¬ Presents Named c t := by
  intro hpresents
  have hnames : (configFields Named c).map PartField.name = configNames := rfl
  cases h with
  | whole h => exact not_part_of_spoilt hnames h hpresents
  | lexer hfield h =>
      obtain ⟨f, hf, hname, hholds⟩ := holds_of_hasField hnames hpresents hfield (by decide)
      rcases List.mem_cons.1 hf with rfl | hf
      · have hrun : (runFields c.lexer).map PartField.name = runNames := rfl
        exact not_part_of_spoilt hrun h hholds
      · obtain rfl := List.mem_singleton.1 hf
        have hother : "logging" = "lexer" := hname
        exact absurd hother (by decide)
  | logging hfield h =>
      obtain ⟨f, hf, hname, hholds⟩ := holds_of_hasField hnames hpresents hfield (by decide)
      rcases List.mem_cons.1 hf with rfl | hf
      · have hother : "lexer" = "logging" := hname
        exact absurd hother (by decide)
      · obtain rfl := List.mem_singleton.1 hf
        have hlog : (logFields c.logging).map PartField.name = logNames := rfl
        exact not_part_of_spoilt hlog h hholds

/-! ## Loading -/

/-- What the loader makes of a file that can be read. -/
theorem loadConfig_eq {σ : Type} {env : Environment (StateM σ)} {path text : String} {w w' : σ}
    (hfile : (env.fileText path).run w = (.ok text, w')) :
    (loadConfig env (some path)).run w =
      (match Config.parse? text with
        | some config => .ok config
        | none => .error s!"cannot parse '{path}': not a configuration", w') := by
  unfold loadConfig
  rw [StateT.run_bind, hfile]
  show StateT.run (match Config.parse? text with
    | some config => pure (Except.ok config)
    | none => pure (Except.error s!"cannot parse '{path}': not a configuration")) w' = _
  cases Config.parse? text with
  | none => rfl
  | some config => rfl

theorem loadConfig_eq_ok_iff {σ : Type} {env : Environment (StateM σ)} {path text : String} {w w' : σ}
    {c : Config} (hfile : (env.fileText path).run w = (.ok text, w')) :
    (loadConfig env (some path)).run w = (.ok c, w') ↔ Config.parse? text = some c := by
  rw [loadConfig_eq hfile]
  cases Config.parse? text with
  | none =>
      constructor
      · rintro ⟨⟩
      · rintro ⟨⟩
  | some config =>
      constructor
      · rintro ⟨⟩
        rfl
      · rintro ⟨⟩
        rfl

theorem exists_error_of_parse?_none {σ : Type} {env : Environment (StateM σ)} {path text : String}
    {w w' : σ} (hfile : (env.fileText path).run w = (.ok text, w')) (h : Config.parse? text = none) :
    ∃ message, (loadConfig env (some path)).run w = (.error message, w') := by
  rw [loadConfig_eq hfile, h]
  exact ⟨_, rfl⟩

/-- Nothing but blanks may follow a value that is loaded. -/
theorem parse?_append_eq_none {text rest : String} (h : Document t text.toList)
    (hrest : ∃ c ∈ rest.toList, ¬ isBlank c) : Config.parse? (text ++ rest) = none := by
  unfold Config.parse?
  by_cases hnumber : ∃ n, t = .number n
  · -- a number may merge with what follows, but no number is a configuration
    obtain ⟨n, rfl⟩ := hnumber
    cases hparse : Json.parse? (text ++ rest) with
    | none => rfl
    | some u =>
        obtain ⟨m, rfl⟩ := number_of_parse?_append h hparse
        rfl
  · rw [parse?_append_of_document h (not_exists.1 hnumber) hrest]
    rfl

/-- A file that holds a document is loaded as the configuration that the document presents, and as no
    other. What is broken is refused, and so is a document with anything but blanks after it. -/
theorem load_of_document {σ : Type} {env : Environment (StateM σ)} {path text : String} {w w' : σ}
    (hfile : (env.fileText path).run w = (.ok text, w')) :
    (∀ t, Document t text.toList →
        (∀ c, (loadConfig env (some path)).run w = (.ok c, w') ↔ Presents (·.isSome) c t) ∧
          (Broken t → ∃ message, (loadConfig env (some path)).run w = (.error message, w'))) ∧
      ∀ t json rest, Document t json.toList → text = json ++ rest → (∃ c ∈ rest.toList, ¬ isBlank c) →
        ∃ message, (loadConfig env (some path)).run w = (.error message, w') := by
  refine ⟨?_, ?_⟩
  · intro t hdocument
    have hparse : Config.parse? text = ofJson? t := by
      rw [Config.parse?, parse?_of_document hdocument]
      rfl
    refine ⟨?_, ?_⟩
    · intro c
      rw [loadConfig_eq_ok_iff hfile, hparse, ofJson?_eq_some_iff]
    · intro hbroken
      refine exists_error_of_parse?_none hfile ?_
      rw [hparse, Option.eq_none_iff_forall_ne_some]
      intro c hc
      exact not_presents_of_broken hbroken (ofJson?_eq_some_iff.1 hc)
  · rintro t json rest hdocument rfl hrest
    exact exists_error_of_parse?_none hfile (parse?_append_eq_none hdocument hrest)

/-- A place where every file holds this text. -/
def filesWith (text : String) : Environment (StateM Unit) := ⟨fun _ => pure (.ok text), pure (.ok "")⟩

/-- A configuration as an array of parts, one of them an object with another member in front, whose value
    has half a pair in it; and the same with a digit after it. -/
theorem load_of_nested_document :
    (loadConfig (filesWith "[\x7b\"x\":[\"\\ud800\"],\"threaded\":true\x7d, [\"info\"]]")
        (some "mathex.json")).run () =
        (.ok ⟨{ threaded := true }, { level := .info }⟩, ()) ∧
      ∃ message, (loadConfig
        (filesWith "[\x7b\"x\":[\"\\ud800\"],\"threaded\":true\x7d, [\"info\"]]0")
        (some "mathex.json")).run () = (.error message, ()) := by
  let t : Tree := .array [.object [(some "x", .array [.text none]), (some "threaded", .boolean true)],
    .array [.text (some "info")]]
  have hgap : ∀ c ∈ [' '], isBlank c := by
    intro c hc
    rw [List.mem_singleton.1 hc]
    rfl
  have hlast : Spaced [.openArray, .text (some "info"), .closeArray, .closeArray]
      ([' '] ++ (['['] ++ ((quote "info").toList ++ ([']'] ++ [']'])))) :=
    .cons hgap rfl (.word (quote_mem "info") (.word rfl (.last rfl)))
  have hobject : Spaced [.openArray, .openObject, .text (some "x"), .colon, .openArray, .text none,
      .closeArray, .comma, .text (some "threaded"), .colon, .boolean true, .closeObject, .comma,
      .openArray, .text (some "info"), .closeArray, .closeArray]
      (['['] ++ (['{'] ++ ((quote "x").toList ++ ([':'] ++ (['['] ++
        (['"', '\\', 'u', 'd', '8', '0', '0', '"'] ++ ([']'] ++ ([','] ++ ((quote "threaded").toList ++
          ([':'] ++ (['t', 'r', 'u', 'e'] ++ (['}'] ++ ([','] ++
            ([' '] ++ (['['] ++ ((quote "info").toList ++ ([']'] ++ [']']))))))))))))))))) :=
    .word rfl (.word rfl (.word (quote_mem "x") (.word rfl (.word rfl (.word half_mem (.word rfl
      (.word rfl (.word (quote_mem "threaded") (.word rfl (.word rfl (.word rfl
        (.word rfl hlast))))))))))))
  have hdocument : Document t
      "[\x7b\"x\":[\"\\ud800\"],\"threaded\":true\x7d, [\"info\"]]".toList := hobject
  have hpresents : Presents (·.isSome) ⟨{ threaded := true }, { level := .info }⟩ t :=
    ofJson?_eq_some_iff.1 rfl
  obtain ⟨hload, -⟩ := load_of_document (rfl : ((filesWith _).fileText "mathex.json").run () = _)
  obtain ⟨-, hrefuse⟩ := load_of_document (rfl : ((filesWith _).fileText "mathex.json").run () = _)
  have hdigit : ∃ c ∈ "0".toList, ¬ isBlank c := ⟨'0', by decide, by decide⟩
  exact ⟨((hload t hdocument).1 _).2 hpresents, hrefuse t _ "0" hdocument rfl hdigit⟩

/-- An object whose only member is no field, but has half a pair for a name. -/
theorem half_pair_name_refused :
    Document (.object [(none, .number (.natural 1))]) "\x7b\"\\ud800\":1\x7d".toList ∧
      Presents (fun _ => True) {} (.object [(none, .number (.natural 1))]) ∧
      (loadConfig (filesWith "\x7b\"\\ud800\":1\x7d") (some "mathex.json")).run () =
        (.error "cannot parse 'mathex.json': not a configuration", ()) := by
  have hspaced : Spaced [.openObject, .text none, .colon, .number (.natural 1), .closeObject]
      (['{'] ++ (['"', '\\', 'u', 'd', '8', '0', '0', '"'] ++
        ([':'] ++ ((toString 1).toList ++ ['}'])))) :=
    .word rfl (.word half_mem (.word rfl (.word (toString_mem 1) (.last rfl))))
  have hdocument : Document (.object [(none, .number (.natural 1))])
      "\x7b\"\\ud800\":1\x7d".toList := hspaced
  refine ⟨hdocument, ?_, ?_⟩
  · refine .object (fun _ _ => trivial) ?_
    intro f hf
    refine ⟨none, .absent (by simp), ?_⟩
    rcases List.mem_cons.1 hf with rfl | hf
    · rfl
    · obtain rfl := List.mem_singleton.1 hf
      rfl
  · have hparse : Config.parse? "\x7b\"\\ud800\":1\x7d" = none := by
      rw [Config.parse?, parse?_of_document hdocument]
      rfl
    rw [loadConfig_eq rfl, hparse]
    rfl

end Formula.Config
