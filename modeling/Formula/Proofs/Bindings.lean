import Formula.Expr.Bindings

/-!
# `Formula.Proofs.Bindings` — what a change does to the bindings

A change that goes through concerns one name. Whatever is bound to the other names stays, and so does
every constant, that name's included. A name that is no variable or no constant before the change is
not both of them after it.

## Contents
- **Look-ups.** `get_eq_ok_iff`, `get_eq_error_iff`, `has_iff_get`; `Bindings.mem_names`: a bound name is
  among the names.
- **Changes.** `Bindings.Change`, with `Change.get_of_ne` and `Change.consts_of_some`.
- **One kind for each name.** `Bindings.Exclusive`, kept by `Change.exclusive`.
-/

namespace Formula.Bindings

variable {b b' : Bindings} {name other : String} {e : Expr}

/-! ## Look-ups -/

theorem hasVariable_eq (b : Bindings) (name : String) :
    b.hasVariable name = b.vars[name]?.isSome :=
  Std.TreeMap.contains_eq_isSome_getElem?

theorem hasConstant_eq (b : Bindings) (name : String) :
    b.hasConstant name = b.consts[name]?.isSome :=
  Std.TreeMap.contains_eq_isSome_getElem?

/-- A variable comes before a constant. -/
theorem get_eq_ok_iff :
    b.get name = .ok e ↔ b.vars[name]? = some e ∨ b.vars[name]? = none ∧ b.consts[name]? = some e := by
  unfold get
  cases hv : b.vars[name]? with
  | some v => simp
  | none =>
      cases hc : b.consts[name]? with
      | some v => simp
      | none => simp

/-- The one error of a look-up is that the name is not bound. -/
theorem get_eq_error_iff {err : EvalError} :
    b.get name = .error err ↔ err = .undefinedName name ∧ b.has name = false := by
  rw [has, hasVariable_eq, hasConstant_eq]
  unfold get
  cases hv : b.vars[name]? with
  | some v => simp
  | none =>
      cases hc : b.consts[name]? with
      | some v => simp
      | none => simp [eq_comm]

/-- A name is bound exactly if an expression is found for it. -/
theorem has_iff_get : b.has name ↔ ∃ e, b.get name = .ok e := by
  rw [has, get, hasVariable_eq, hasConstant_eq]
  cases b.vars[name]? with
  | some v => simp
  | none =>
      cases b.consts[name]? with
      | some k => simp
      | none => simp

/-- The names that are bound, the variables first. -/
def names (b : Bindings) : List String := b.variableNames ++ b.constantNames

theorem length_names (b : Bindings) : b.names.length = b.size := by
  rw [names, List.length_append, variableNames, constantNames, Std.TreeMap.length_keys,
    Std.TreeMap.length_keys, size]

theorem mem_names (h : b.get name = .ok e) : name ∈ b.names := by
  rw [names, List.mem_append, variableNames, constantNames, Std.TreeMap.mem_keys, Std.TreeMap.mem_keys]
  rcases get_eq_ok_iff.1 h with hv | ⟨-, hc⟩
  · left
    rw [Std.TreeMap.mem_iff_isSome_getElem?, hv]
    rfl
  · right
    rw [Std.TreeMap.mem_iff_isSome_getElem?, hc]
    rfl

/-! ## Changes -/

/-- A change of what a name is bound to has gone through. -/
inductive Change (b : Bindings) (name : String) (b' : Bindings) : Prop where
  | setVariable {e : Expr} (h : b.setVariable name e = .ok b') : Change b name b'
  | setConstant {e : Expr} (h : b.setConstant name e = .ok b') : Change b name b'
  | removeVariable {e : Expr} (h : b.removeVariable name = .ok (e, b')) : Change b name b'

/-- A variable is bound unless there is a constant of that name. -/
theorem setVariable_eq_ok_iff :
    b.setVariable name e = .ok b' ↔
      b.consts[name]? = none ∧ b' = { b with vars := b.vars.insert name e } := by
  rw [setVariable, hasConstant_eq]
  cases hc : b.consts[name]? with
  | some v => simp
  | none => simp [eq_comm]

/-- A constant is bound when nothing is bound to the name. -/
theorem setConstant_eq_ok_iff :
    b.setConstant name e = .ok b' ↔
      b.consts[name]? = none ∧ b.vars[name]? = none ∧
        b' = { b with consts := b.consts.insert name e } := by
  rw [setConstant, hasConstant_eq, hasVariable_eq]
  cases hc : b.consts[name]? with
  | some v => simp
  | none =>
      cases hv : b.vars[name]? with
      | some v => simp
      | none => simp [eq_comm]

/-- A variable is removed if there is one. -/
theorem removeVariable_eq_ok_iff :
    b.removeVariable name = .ok (e, b') ↔
      b.vars[name]? = some e ∧ b' = { b with vars := b.vars.erase name } := by
  unfold removeVariable
  cases hv : b.vars[name]? with
  | some v => simp [eq_comm]
  | none =>
      by_cases hc : b.hasConstant name
      · simp [hc]
      · simp [hc]

/-- The other variables stay. -/
theorem Change.vars_of_ne (h : Change b name b') (hne : other ≠ name) :
    b'.vars[other]? = b.vars[other]? := by
  cases h with
  | setVariable h =>
      obtain ⟨-, rfl⟩ := setVariable_eq_ok_iff.1 h
      simp [Std.TreeMap.getElem?_insert, hne.symm]
  | setConstant h =>
      obtain ⟨-, -, rfl⟩ := setConstant_eq_ok_iff.1 h
      rfl
  | removeVariable h =>
      obtain ⟨-, rfl⟩ := removeVariable_eq_ok_iff.1 h
      simp [Std.TreeMap.getElem?_erase, hne.symm]

/-- So do the other constants. -/
theorem Change.consts_of_ne (h : Change b name b') (hne : other ≠ name) :
    b'.consts[other]? = b.consts[other]? := by
  cases h with
  | setVariable h =>
      obtain ⟨-, rfl⟩ := setVariable_eq_ok_iff.1 h
      rfl
  | setConstant h =>
      obtain ⟨-, -, rfl⟩ := setConstant_eq_ok_iff.1 h
      simp [Std.TreeMap.getElem?_insert, hne.symm]
  | removeVariable h =>
      obtain ⟨-, rfl⟩ := removeVariable_eq_ok_iff.1 h
      rfl

/-- Whatever is bound to the other names stays. -/
theorem Change.get_of_ne (h : Change b name b') (hne : other ≠ name) : b'.get other = b.get other := by
  rw [get, get, h.vars_of_ne hne, h.consts_of_ne hne]

/-- No change touches a constant, whatever name it is about. -/
theorem Change.consts_of_some (h : Change b name b') (hc : b.consts[other]? = some e) :
    b'.consts[other]? = some e := by
  by_cases hne : other = name
  · subst hne
    cases h with
    | setVariable h =>
        obtain ⟨-, rfl⟩ := setVariable_eq_ok_iff.1 h
        exact hc
    | setConstant h =>
        -- the name would have to be free
        obtain ⟨hfree, -, -⟩ := setConstant_eq_ok_iff.1 h
        rw [hc] at hfree
        cases hfree
    | removeVariable h =>
        obtain ⟨-, rfl⟩ := removeVariable_eq_ok_iff.1 h
        exact hc
  · rw [h.consts_of_ne hne, hc]

/-! ## One kind for each name -/

/-- No name is both a variable and a constant. -/
def Exclusive (b : Bindings) : Prop := ∀ name, ¬ (b.hasVariable name ∧ b.hasConstant name)

theorem exclusive_empty : Exclusive empty := by
  rintro name ⟨hv, -⟩
  rw [hasVariable_eq, empty, Std.TreeMap.getElem?_emptyc] at hv
  cases hv

/-- A constant is what its name stands for, as there is no variable of that name. -/
theorem Exclusive.of_const (h : Exclusive b) (hc : b.consts[name]? = some e) :
    b.get name = .ok e ∧ b.hasConstant name = true ∧ b.hasVariable name = false := by
  have hconst : b.hasConstant name = true := by rw [hasConstant_eq, hc]; rfl
  have hvar : b.hasVariable name = false := by
    rw [Bool.eq_false_iff]
    intro hvar
    exact h name ⟨hvar, hconst⟩
  refine ⟨?_, hconst, hvar⟩
  rw [hasVariable_eq, Option.isSome_eq_false_iff, Option.isNone_iff_eq_none] at hvar
  exact get_eq_ok_iff.2 (Or.inr ⟨hvar, hc⟩)

/-- Every change keeps the names apart. -/
theorem Change.exclusive (h : Change b name b') (hb : Exclusive b) : Exclusive b' := by
  rintro other ⟨hv, hc⟩
  rw [hasVariable_eq] at hv
  rw [hasConstant_eq] at hc
  by_cases hne : other = name
  · subst hne
    cases h with
    | setVariable h =>
        obtain ⟨hfree, rfl⟩ := setVariable_eq_ok_iff.1 h
        rw [hfree] at hc
        cases hc
    | setConstant h =>
        obtain ⟨-, hfree, rfl⟩ := setConstant_eq_ok_iff.1 h
        rw [hfree] at hv
        cases hv
    | removeVariable h =>
        obtain ⟨-, rfl⟩ := removeVariable_eq_ok_iff.1 h
        simp at hv
  · rw [h.vars_of_ne hne, ← hasVariable_eq] at hv
    rw [h.consts_of_ne hne, ← hasConstant_eq] at hc
    exact hb other ⟨hv, hc⟩

end Formula.Bindings
