import Mathlib.Data.List.Forall2
import Formula.Config.Decode
import Formula.Proofs.Documents

/-!
# `Formula.Proofs.Presentations` — the ways to present a configuration

A part of the configuration can be presented in two ways: as an object with its fields in any order, among
members of other names, or as an array of its first fields. A field may be left out if it has its default
value. A JSON value is read as exactly the configuration that it presents.

One thing these rules leave open is the name of a member that is no field: it may be half a pair alone,
and so no name of characters. Such a name is not ignored, so the rules say which names are admissible.

## Contents
- **Members.** `Slot`, with `Slot.filter_eq` and `member?_eq_some_iff`.
- **Parts.** `PartField`, `Part`, with `part_iff`.
- **Leaves.** `PresentsNatural`, `PresentsBoolean`, `PresentsLevel`, `PresentsOptionalLevel`.
- **Configurations.** `PresentsRun`, `PresentsLog`, `Presents`, with `ofJson?_eq_some_iff`.
-/

namespace Formula.Config

open Json Log

variable {members : List (Option String × Tree)} {items : List Tree} {name : String}
variable {slot : Option Tree} {slots : List (Option Tree)} {fields : List PartField} {t : Tree}

/-! ## Members -/

/-- What an object has under a name: nothing, or the value of the one member of that name. -/
inductive Slot (members : List (Option String × Tree)) (name : String) : Option Tree → Prop where
  | absent (h : ∀ m ∈ members, m.1 ≠ some name) : Slot members name none
  | once {before after : List (Option String × Tree)} {value : Tree}
      (heq : members = before ++ (some name, value) :: after)
      (hbefore : ∀ m ∈ before, m.1 ≠ some name) (hafter : ∀ m ∈ after, m.1 ≠ some name) :
      Slot members name (some value)

/-- The members of a name, which are one at most. -/
theorem Slot.filter_eq (h : Slot members name slot) :
    (members.filter fun m => m.1 == some name) = slot.toList.map fun v => (some name, v) := by
  cases h with
  | absent h =>
      have hnil : members.filter (fun m => m.1 == some name) = [] := by simpa using h
      rw [hnil]
      rfl
  | @once before after value heq hbefore hafter =>
      have hb : before.filter (fun m => m.1 == some name) = [] := by simpa using hbefore
      have ha : after.filter (fun m => m.1 == some name) = [] := by simpa using hafter
      rw [heq, List.filter_append, List.filter_cons_of_pos (by simp), hb, ha]
      rfl

theorem member?_eq_some_iff : member? members name = some slot ↔ Slot members name slot := by
  unfold member?
  constructor
  · intro h
    split at h
    · next hnil =>
        cases h
        refine .absent ?_
        simpa using List.filter_eq_nil_iff.1 hnil
    · next other value hone =>
        cases h
        obtain ⟨before, after, rfl, hbefore, hname, hafter⟩ := List.filter_eq_cons_iff.1 hone
        obtain rfl : other = some name := by simpa using hname
        refine .once rfl (by simpa using hbefore) ?_
        simpa using List.filter_eq_nil_iff.1 hafter
    · cases h
  · intro h
    rw [h.filter_eq]
    cases slot with
    | none => rfl
    | some v => rfl

/-! ## Parts -/

/-- A field of a part: its name, and what may be there for it. -/
structure PartField where
  name : String
  Holds : Option Tree → Prop

/-- A field that has a value: it may be left out if that is its default. -/
def PartField.of {α : Type} (name : String) (default value : α) (Presents : α → Tree → Prop) :
    PartField where
  name := name
  Holds
    | none => value = default
    | some t => Presents value t

/-- The part with these fields is presented: as an object in which all members have admissible names and
    every field is there once or left out, or as an array of the first fields. -/
inductive Part (Named : Option String → Prop) (fields : List PartField) : Tree → Prop where
  | object {members : List (Option String × Tree)} (hnames : ∀ m ∈ members, Named m.1)
      (hfields : ∀ f ∈ fields, ∃ slot, Slot members f.name slot ∧ f.Holds slot) :
      Part Named fields (.object members)
  | array {items : List Tree} (hlength : items.length ≤ fields.length)
      (hfields : ∀ k (hk : k < fields.length), fields[k].Holds items[k]?) :
      Part Named fields (.array items)

theorem mapM_iff :
    (∃ slots, (fields.map PartField.name).mapM (member? members) = some slots ∧
        List.Forall₂ PartField.Holds fields slots) ↔
      ∀ f ∈ fields, ∃ slot, Slot members f.name slot ∧ f.Holds slot := by
  induction fields with
  | nil => simp
  | cons f fields ih =>
      rw [List.forall_mem_cons, ← ih, List.map_cons, List.mapM_cons]
      constructor
      · rintro ⟨slots, hslots, hholds⟩
        obtain ⟨slot, hslot, hrest⟩ := Option.bind_eq_some_iff.1 hslots
        obtain ⟨rest, hmap, heq⟩ := Option.bind_eq_some_iff.1 hrest
        cases heq
        obtain ⟨hhead, htail⟩ := List.forall₂_cons.1 hholds
        exact ⟨⟨slot, member?_eq_some_iff.1 hslot, hhead⟩, rest, hmap, htail⟩
      · rintro ⟨⟨slot, hslot, hhead⟩, rest, hmap, htail⟩
        rw [member?_eq_some_iff.2 hslot, hmap]
        exact ⟨_, rfl, .cons hhead htail⟩

/-- The items of an array, and nothing for the fields that are left. -/
theorem getElem_padded {n k : Nat} (h : k < (items.map some ++ List.replicate n none).length) :
    (items.map some ++ List.replicate n none)[k] = items[k]? := by
  by_cases hk : k < items.length
  · rw [List.getElem_append_left (by simpa using hk), List.getElem_map, List.getElem?_eq_getElem hk]
  · rw [List.getElem_append_right (by simpa using hk), List.getElem_replicate,
      List.getElem?_eq_none (by omega)]

theorem padded_iff (hlength : items.length ≤ fields.length) :
    List.Forall₂ PartField.Holds fields
        (items.map some ++ List.replicate (fields.length - items.length) none) ↔
      ∀ k (hk : k < fields.length), fields[k].Holds items[k]? := by
  rw [List.forall₂_iff_get]
  constructor
  · rintro ⟨heq, hholds⟩ k hk
    have hholds := hholds k hk (heq ▸ hk)
    rw [List.get_eq_getElem, List.get_eq_getElem, getElem_padded] at hholds
    exact hholds
  · intro hholds
    refine ⟨by simp; omega, ?_⟩
    intro k hk hpadded
    rw [List.get_eq_getElem, List.get_eq_getElem, getElem_padded]
    exact hholds k hk

/-- The fields of a part are found exactly when it is presented. -/
theorem part_iff :
    Part (·.isSome) fields t ↔
      ∃ slots, fields? (fields.map PartField.name) t = some slots ∧
        List.Forall₂ PartField.Holds fields slots := by
  cases t with
  | null | boolean | number | text =>
      constructor
      · rintro ⟨⟩
      · rintro ⟨slots, ⟨⟩, -⟩
  | array items =>
      show _ ↔ ∃ slots, (if items.length ≤ (fields.map PartField.name).length then some (items.map some ++
        List.replicate ((fields.map PartField.name).length - items.length) none) else none) = _ ∧ _
      rw [List.length_map]
      constructor
      · intro h
        cases h with
        | array hlength hfields =>
            rw [if_pos hlength]
            exact ⟨_, rfl, (padded_iff hlength).2 hfields⟩
      · rintro ⟨slots, hslots, hholds⟩
        split at hslots
        · next hlength =>
            cases hslots
            exact .array hlength ((padded_iff hlength).1 hholds)
        · cases hslots
  | object members =>
      have hall : (members.all fun m => m.1.isSome) ↔ ∀ m ∈ members, m.1.isSome := List.all_eq_true
      show _ ↔ ∃ slots, (if members.all fun m => m.1.isSome then
        (fields.map PartField.name).mapM (member? members) else none) = _ ∧ _
      constructor
      · intro h
        cases h with
        | object hnames hfields =>
            rw [if_pos (hall.2 hnames)]
            exact mapM_iff.2 hfields
      · rintro ⟨slots, hslots, hholds⟩
        split at hslots
        · next hnames => exact .object (hall.1 hnames) (mapM_iff.1 ⟨slots, hslots, hholds⟩)
        · cases hslots

/-! ## Leaves -/

/-- A number of up to sixty-four bits, by its digits. -/
def PresentsNatural (n : Nat) (t : Tree) : Prop := t = .number (.natural n) ∧ n < 2 ^ 64

/-- A truth value, by its word. -/
def PresentsBoolean (b : Bool) (t : Tree) : Prop := t = .boolean b

/-- A level, by its name or by an object with its name as the only member, which holds null. -/
def PresentsLevel (l : Level) (t : Tree) : Prop :=
  t = .text (some l.name) ∨ t = .object [(some l.name, .null)]

/-- A level if there is one, and null otherwise. -/
def PresentsOptionalLevel : Option Level → Tree → Prop
  | none, t => t = .null
  | some l, t => PresentsLevel l t

theorem natural?_eq_some_iff {n : Nat} : natural? t = some n ↔ PresentsNatural n t := by
  unfold natural? PresentsNatural
  constructor
  · intro h
    split at h
    · split at h
      · next hlt =>
          cases h
          exact ⟨rfl, hlt⟩
      · cases h
    · cases h
  · rintro ⟨rfl, hlt⟩
    exact if_pos hlt

theorem boolean?_eq_some_iff {b : Bool} : boolean? t = some b ↔ PresentsBoolean b t := by
  unfold boolean? PresentsBoolean
  constructor
  · intro h
    split at h
    · cases h
      rfl
    · cases h
  · rintro rfl
    rfl

theorem ofName?_eq_some_iff {l : Level} : Level.ofName? name = some l ↔ name = l.name := by
  constructor
  · intro h
    have hname := List.find?_some h
    simpa using (beq_iff_eq.1 hname).symm
  · rintro rfl
    cases l with
    | trace | debug | info | warn | error => decide

theorem level?_eq_some_iff {l : Level} : level? t = some l ↔ PresentsLevel l t := by
  unfold level? PresentsLevel
  constructor
  · intro h
    split at h
    · rw [ofName?_eq_some_iff.1 h]
      exact Or.inl rfl
    · rw [ofName?_eq_some_iff.1 h]
      exact Or.inr rfl
    · cases h
  · rintro (rfl | rfl)
    · exact ofName?_eq_some_iff.2 rfl
    · exact ofName?_eq_some_iff.2 rfl

theorem optionalLevel?_eq_some_iff {l : Option Level} :
    optionalLevel? t = some l ↔ PresentsOptionalLevel l t := by
  by_cases hnull : t = .null
  · rw [hnull]
    cases l with
    | none => exact ⟨fun _ => rfl, fun _ => rfl⟩
    | some l =>
        constructor
        · rintro ⟨⟩
        · rintro (h | h)
          all_goals cases h
  · have hlevel : optionalLevel? t = (level? t).map some := by
      unfold optionalLevel?
      split
      · exact absurd rfl hnull
      · rfl
    rw [hlevel, Option.map_eq_some_iff]
    cases l with
    | none =>
        constructor
        · rintro ⟨_, _, ⟨⟩⟩
        · intro h
          exact absurd h hnull
    | some l => simp [level?_eq_some_iff, PresentsOptionalLevel]

/-! ## Configurations -/

/-- The fields that say how tokens are produced. -/
def runFields (s : RunSettings) : List PartField :=
  [.of "token_buffer" ({} : RunSettings).tokenBuffer s.tokenBuffer PresentsNatural,
    .of "threaded" ({} : RunSettings).threaded s.threaded PresentsBoolean]

/-- The fields that say which log records are written. -/
def logFields (s : LogSettings) : List PartField :=
  [.of "level" ({} : LogSettings).level s.level PresentsLevel,
    .of "lexer" ({} : LogSettings).lexer s.lexer PresentsOptionalLevel,
    .of "eval" ({} : LogSettings).eval s.eval PresentsOptionalLevel]

/-- How tokens are produced. -/
def PresentsRun (Named : Option String → Prop) (s : RunSettings) : Tree → Prop :=
  Part Named (runFields s)

/-- Which log records are written. -/
def PresentsLog (Named : Option String → Prop) (s : LogSettings) : Tree → Prop :=
  Part Named (logFields s)

/-- The fields of the configuration. -/
def configFields (Named : Option String → Prop) (c : Config) : List PartField :=
  [.of "lexer" ({} : Config).lexer c.lexer (PresentsRun Named),
    .of "logging" ({} : Config).logging c.logging (PresentsLog Named)]

/-- The value presents the configuration. Members of other names may have any admissible names. -/
def Presents (Named : Option String → Prop) (c : Config) : Tree → Prop :=
  Part Named (configFields Named c)

theorem fieldOr_eq_some_iff {α : Type} {default value : α} {read : Tree → Option α}
    {Presents : α → Tree → Prop} (hread : ∀ t, read t = some value ↔ Presents value t) (name : String) :
    fieldOr default read slot = some value ↔
      (PartField.of name default value Presents).Holds slot := by
  cases slot with
  | none =>
      show some default = some value ↔ value = default
      rw [Option.some.injEq, eq_comm]
  | some t => exact hread t

/-- What is made of the fields of a part is what the part presents, if that holds field by field. -/
theorem decode_eq_some_iff {α : Type} {a : α} {decode : List (Option Tree) → Option α}
    (fields : List PartField)
    (hdecode : ∀ slots, decode slots = some a ↔ List.Forall₂ PartField.Holds fields slots) :
    (fields? (fields.map PartField.name) t).bind decode = some a ↔ Part (·.isSome) fields t := by
  rw [part_iff, Option.bind_eq_some_iff]
  exact exists_congr fun slots => and_congr_right fun _ => hdecode slots

theorem runSettings?_eq_some_iff {s : RunSettings} :
    runSettings? t = some s ↔ PresentsRun (·.isSome) s t := by
  refine decode_eq_some_iff (runFields s) ?_
  intro slots
  match slots with
  | [tokenBuffer, threaded] =>
      rw [runFields, List.forall₂_cons, List.forall₂_cons,
        ← fieldOr_eq_some_iff fun _ => natural?_eq_some_iff,
        ← fieldOr_eq_some_iff fun _ => boolean?_eq_some_iff]
      obtain ⟨n, b⟩ := s
      simp [Option.bind_eq_some_iff]
  | [] | [_] | _ :: _ :: _ :: _ => simp [runFields]

theorem logSettings?_eq_some_iff {s : LogSettings} :
    logSettings? t = some s ↔ PresentsLog (·.isSome) s t := by
  refine decode_eq_some_iff (logFields s) ?_
  intro slots
  match slots with
  | [level, lexer, eval] =>
      rw [logFields, List.forall₂_cons, List.forall₂_cons, List.forall₂_cons,
        ← fieldOr_eq_some_iff fun _ => level?_eq_some_iff,
        ← fieldOr_eq_some_iff fun _ => optionalLevel?_eq_some_iff,
        ← fieldOr_eq_some_iff fun _ => optionalLevel?_eq_some_iff]
      obtain ⟨l, o, p⟩ := s
      simp [Option.bind_eq_some_iff]
  | [] | [_] | [_, _] | _ :: _ :: _ :: _ :: _ => simp [logFields]

/-- The configuration that is read is the one that is presented. -/
theorem ofJson?_eq_some_iff {c : Config} : ofJson? t = some c ↔ Presents (·.isSome) c t := by
  refine decode_eq_some_iff (configFields (·.isSome) c) ?_
  intro slots
  match slots with
  | [lexer, logging] =>
      rw [configFields, List.forall₂_cons, List.forall₂_cons,
        ← fieldOr_eq_some_iff fun _ => runSettings?_eq_some_iff,
        ← fieldOr_eq_some_iff fun _ => logSettings?_eq_some_iff]
      obtain ⟨s, u⟩ := c
      simp [Option.bind_eq_some_iff]
  | [] | [_] | _ :: _ :: _ :: _ => simp [configFields]

end Formula.Config
