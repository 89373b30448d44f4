import Formula.Json.Tree
import Formula.Proofs.Spelling

/-!
# `Formula.Proofs.Documents` — JSON values are read back from every text that spells them

A value has its lexemes: those of its parts, with brackets around them and commas and colons between. A
text is a document of the value if it spells these lexemes, with any blanks before, between and after
them. The builder that takes lexemes one by one has the value when it has taken them, whatever was opened
before, so a document is read as its value. Nothing else may follow: a value that is complete takes no
further lexeme. Only a number at the very end can merge with what follows, and then it is still a number.

## Contents
- **Documents.** `Tree.lexemes`, `Document`.
- **Building.** `build_lexemes`.
- **Numbers apart.** `isChain_lexemes`, `number_of_getLast`.
- **Reading.** `parse?_of_document`, `parse?_append_of_document`, `number_of_parse?_append`.
-/

namespace Formula.Json

variable {t u : Tree} {ts : List Tree} {ms : List (Option String × Tree)} {ls rest : List Lexeme}
variable {w : List Char}

/-! ## Documents -/

mutual

/-- The lexemes of a value. -/
def Tree.lexemes : Tree → List Lexeme
  | .null => [.null]
  | .boolean b => [.boolean b]
  | .number n => [.number n]
  | .text s => [.text s]
  | .array [] => [.openArray, .closeArray]
  | .array (t :: ts) => .openArray :: (t.lexemes ++ itemLexemes ts)
  | .object [] => [.openObject, .closeObject]
  | .object ((name, t) :: ms) => .openObject :: .text name :: .colon :: (t.lexemes ++ memberLexemes ms)

/-- The lexemes after an item: further items, and the end of the array. -/
def itemLexemes : List Tree → List Lexeme
  | [] => [.closeArray]
  | t :: ts => .comma :: (t.lexemes ++ itemLexemes ts)

/-- The lexemes after a member: further members, and the end of the object. -/
def memberLexemes : List (Option String × Tree) → List Lexeme
  | [] => [.closeObject]
  | (name, t) :: ms => .comma :: .text name :: .colon :: (t.lexemes ++ memberLexemes ms)

end

/-- The text spells the lexemes of the value, and has nothing but blanks besides. -/
def Document (t : Tree) (w : List Char) : Prop := Spaced t.lexemes w

/-! ## Building -/

/-- An array that was just opened takes its first item as any value is taken. -/
theorem build_item (t : Tree) (items : List Tree) (stack : List Frame) (rest : List Lexeme) :
    Builder.build ⟨.array items :: stack, .item⟩ (t.lexemes ++ rest) =
      Builder.build ⟨.array items :: stack, .value⟩ (t.lexemes ++ rest) := by
  match t with
  | .null | .boolean _ | .number _ | .text _ | .array [] | .array (_ :: _) | .object []
  | .object (_ :: _) => rfl

mutual

/-- The lexemes of a value build it, whatever was opened before and whatever follows. -/
theorem build_lexemes (t : Tree) (stack : List Frame) (rest : List Lexeme) :
    Builder.build ⟨stack, .value⟩ (t.lexemes ++ rest) = Builder.build ⟨stack, .done t⟩ rest := by
  match t with
  | .null => rfl
  | .boolean b => rfl
  | .number n => rfl
  | .text s => rfl
  | .array [] => rfl
  | .array (t :: ts) =>
      rw [Tree.lexemes, List.cons_append, List.append_assoc]
      show Builder.build ⟨.array [] :: stack, .item⟩ (t.lexemes ++ (itemLexemes ts ++ rest)) = _
      rw [build_item, build_lexemes, build_items]
      rfl
  | .object [] => rfl
  | .object ((name, t) :: ms) =>
      rw [Tree.lexemes, List.cons_append, List.cons_append, List.cons_append, List.append_assoc]
      show Builder.build ⟨.member [] name :: stack, .value⟩ (t.lexemes ++ (memberLexemes ms ++ rest)) = _
      rw [build_lexemes, build_members]
      rfl

theorem build_items (ts : List Tree) (t : Tree) (items : List Tree) (stack : List Frame)
    (rest : List Lexeme) :
    Builder.build ⟨.array items :: stack, .done t⟩ (itemLexemes ts ++ rest) =
      Builder.build ⟨stack, .done (.array (items.reverse ++ t :: ts))⟩ rest := by
  match ts with
  | [] =>
      show Builder.build ⟨stack, .done (.array (t :: items).reverse)⟩ rest = _
      rw [List.reverse_cons]
  | u :: ts =>
      rw [itemLexemes, List.cons_append, List.append_assoc]
      show Builder.build ⟨.array (t :: items) :: stack, .value⟩
        (u.lexemes ++ (itemLexemes ts ++ rest)) = _
      rw [build_lexemes, build_items, List.reverse_cons, List.append_assoc]
      rfl

theorem build_members (ms : List (Option String × Tree)) (name : Option String) (t : Tree)
    (members : List (Option String × Tree)) (stack : List Frame) (rest : List Lexeme) :
    Builder.build ⟨.member members name :: stack, .done t⟩ (memberLexemes ms ++ rest) =
      Builder.build ⟨stack, .done (.object (members.reverse ++ (name, t) :: ms))⟩ rest := by
  match ms with
  | [] =>
      show Builder.build ⟨stack, .done (.object ((name, t) :: members).reverse)⟩ rest = _
      rw [List.reverse_cons]
  | (other, u) :: ms =>
      rw [memberLexemes, List.cons_append, List.cons_append, List.cons_append, List.append_assoc]
      show Builder.build ⟨.member ((name, t) :: members) other :: stack, .value⟩
        (u.lexemes ++ (memberLexemes ms ++ rest)) = _
      rw [build_lexemes, build_members, List.reverse_cons, List.append_assoc]
      rfl

end

/-! ## Numbers apart -/

theorem isChain_cons {l : Lexeme} (hl : ¬ l.isNumber) (h : rest.IsChain Apart) :
    (l :: rest).IsChain Apart := by
  refine List.isChain_cons.2 ⟨?_, h⟩
  intro m _ hnumber
  exact absurd hnumber hl

theorem isChain_scalar {l : Lexeme} (h : rest.IsChain Apart) (hhead : ∀ m ∈ rest.head?, ¬ m.isNumber) :
    (l :: rest).IsChain Apart := by
  refine List.isChain_cons.2 ⟨?_, h⟩
  intro m hm _
  exact hhead m hm

theorem head_itemLexemes (ts : List Tree) (rest : List Lexeme) :
    ∀ l ∈ (itemLexemes ts ++ rest).head?, ¬ l.isNumber := by
  cases ts with
  | nil | cons =>
      rintro l ⟨⟩
      decide

theorem head_memberLexemes (ms : List (Option String × Tree)) (rest : List Lexeme) :
    ∀ l ∈ (memberLexemes ms ++ rest).head?, ¬ l.isNumber := by
  cases ms with
  | nil | cons =>
      rintro l ⟨⟩
      decide

mutual

/-- No two numbers follow each other in a value. -/
theorem isChain_lexemes (t : Tree) (rest : List Lexeme) (h : rest.IsChain Apart)
    (hhead : ∀ l ∈ rest.head?, ¬ l.isNumber) : (t.lexemes ++ rest).IsChain Apart := by
  match t with
  | .null | .boolean _ | .number _ | .text _ => exact isChain_scalar h hhead
  | .array [] => exact isChain_cons nofun (isChain_cons nofun h)
  | .array (t :: ts) =>
      rw [Tree.lexemes, List.cons_append, List.append_assoc]
      exact isChain_cons nofun
        (isChain_lexemes t _ (isChain_items ts rest h) (head_itemLexemes ts rest))
  | .object [] => exact isChain_cons nofun (isChain_cons nofun h)
  | .object ((name, t) :: ms) =>
      rw [Tree.lexemes, List.cons_append, List.cons_append, List.cons_append, List.append_assoc]
      exact isChain_cons nofun (isChain_cons nofun (isChain_cons nofun
        (isChain_lexemes t _ (isChain_members ms rest h) (head_memberLexemes ms rest))))

theorem isChain_items (ts : List Tree) (rest : List Lexeme) (h : rest.IsChain Apart) :
    (itemLexemes ts ++ rest).IsChain Apart := by
  match ts with
  | [] => exact isChain_cons nofun h
  | t :: ts =>
      rw [itemLexemes, List.cons_append, List.append_assoc]
      exact isChain_cons nofun
        (isChain_lexemes t _ (isChain_items ts rest h) (head_itemLexemes ts rest))

theorem isChain_members (ms : List (Option String × Tree)) (rest : List Lexeme)
    (h : rest.IsChain Apart) : (memberLexemes ms ++ rest).IsChain Apart := by
  match ms with
  | [] => exact isChain_cons nofun h
  | (name, t) :: ms =>
      rw [memberLexemes, List.cons_append, List.cons_append, List.cons_append, List.append_assoc]
      exact isChain_cons nofun (isChain_cons nofun (isChain_cons nofun
        (isChain_lexemes t _ (isChain_members ms rest h) (head_memberLexemes ms rest))))

end

theorem getLast_itemLexemes (ts : List Tree) : (itemLexemes ts).getLast? = some .closeArray := by
  induction ts with
  | nil => rfl
  | cons t ts ih =>
      rw [itemLexemes, ← List.cons_append, List.getLast?_append, ih]
      rfl

theorem getLast_memberLexemes (ms : List (Option String × Tree)) :
    (memberLexemes ms).getLast? = some .closeObject := by
  induction ms with
  | nil => rfl
  | cons m ms ih =>
      obtain ⟨name, t⟩ := m
      rw [memberLexemes, ← List.cons_append, ← List.cons_append, ← List.cons_append,
        List.getLast?_append, ih]
      rfl

/-- Only a number ends with one. -/
theorem number_of_getLast {l : Lexeme} (h : l ∈ t.lexemes.getLast?) (hl : l.isNumber) :
    ∃ n, t = .number n := by
  match t with
  | .number n => exact ⟨n, rfl⟩
  | .null | .boolean _ | .text _ | .array [] | .object [] =>
      cases h
      cases hl
  | .array (t :: ts) =>
      rw [Tree.lexemes, ← List.cons_append, List.getLast?_append, getLast_itemLexemes] at h
      cases h
      cases hl
  | .object ((name, t) :: ms) =>
      rw [Tree.lexemes, ← List.cons_append, ← List.cons_append, ← List.cons_append,
        List.getLast?_append, getLast_memberLexemes] at h
      cases h
      cases hl

/-! ## Reading -/

/-- The lexemes of a value are those of its documents, and then come those of what follows, unless a
    number merges with it. -/
theorem ofChars?_of_document (h : Document t w) (v : List Char)
    (hlast : (∀ n, t ≠ .number n) ∨ Ends v) :
    Lexeme.ofChars? (w ++ v) = (Lexeme.ofChars? v).map (t.lexemes ++ ·) := by
  have hchain := isChain_lexemes t [] List.isChain_nil nofun
  rw [List.append_nil] at hchain
  refine ofChars?_of_spaced h hchain (hlast.imp_left ?_)
  intro hnot l hl hnumber
  obtain ⟨n, rfl⟩ := number_of_getLast hl hnumber
  exact hnot n rfl

theorem ofLexemes?_lexemes (t : Tree) : ofLexemes? t.lexemes = some t := by
  have h := build_lexemes t [] []
  rw [List.append_nil] at h
  exact h

/-- A document is read as its value. -/
theorem parse?_of_document {text : String} (h : Document t text.toList) : parse? text = some t := by
  have hlexemes := ofChars?_of_document h [] (Or.inr nofun)
  rw [List.append_nil, Lexeme.ofChars?] at hlexemes
  rw [parse?, hlexemes]
  show ofLexemes? (t.lexemes ++ []) = some t
  rw [List.append_nil, ofLexemes?_lexemes]

/-- A text without lexemes has nothing but blanks. -/
theorem isBlank_of_ofChars?_nil (h : Lexeme.ofChars? w = some []) : ∀ c ∈ w, isBlank c := by
  have hcons (l : Lexeme) (o : Option (List Lexeme)) : (do return l :: (← o)) ≠ some [] := by
    rw [bind_cons_eq_map]
    cases o with
    | none | some => nofun
  fun_induction Lexeme.ofChars? w with
  | case1 => nofun
  | case2 | case3 | case4 | case6 | case7 | case9 => exact absurd h (hcons _ _)
  | case5 c rest _ _ _ hc ih => exact List.forall_mem_cons.2 ⟨hc, ih h⟩
  | case8 | case10 => cases h

/-- Nothing but blanks may follow a document. -/
theorem parse?_append_of_document {text rest : String} (h : Document t text.toList)
    (hnumber : ∀ n, t ≠ .number n) (hrest : ∃ c ∈ rest.toList, ¬ isBlank c) :
    parse? (text ++ rest) = none := by
  rw [parse?, String.toList_append, ofChars?_of_document h rest.toList (Or.inl hnumber)]
  cases hlexemes : Lexeme.ofChars? rest.toList with
  | none => rfl
  | some ls =>
      show ofLexemes? (t.lexemes ++ ls) = none
      rw [ofLexemes?, build_lexemes]
      cases ls with
      | nil =>
          obtain ⟨c, hc, hnot⟩ := hrest
          exact absurd (isBlank_of_ofChars?_nil hlexemes c hc) hnot
      | cons l ls => rfl

/-- What follows a document of a number makes it another number at most. -/
theorem number_of_parse?_append {n : Number} {text rest : String} (h : Document (.number n) text.toList)
    (hparse : parse? (text ++ rest) = some u) : ∃ m, u = .number m := by
  rw [parse?, String.toList_append] at hparse
  generalize text.toList = w at h hparse
  cases h with
  | @cons _ _ gap v tail hgap hv htail =>
      obtain ⟨c, s, rfl, hc⟩ := exists_cons_of_number hv
      rw [List.append_assoc, ofChars?_blanks hgap, List.cons_append, List.cons_append,
        ofChars?_numeric hc] at hparse
      obtain ⟨ls, hls, hbuild⟩ := Option.bind_eq_some_iff.1 hparse
      obtain ⟨r, -, hmap⟩ := Option.bind_eq_some_iff.1 hls
      obtain ⟨ms, -, rfl⟩ := Option.map_eq_some_iff.1 hmap
      cases ms with
      | nil =>
          cases hbuild
          exact ⟨_, rfl⟩
      | cons m ms => cases hbuild

end Formula.Json
