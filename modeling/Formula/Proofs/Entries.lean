import Mathlib.Data.List.Induction
import Mathlib.Logic.Function.Basic
import Formula.Proofs.Bindings

/-!
# `Formula.Proofs.Entries` — the bindings as one map

Variables and constants are kept apart, but no name is ever both, so the bindings stand for one map from
names to entries that say how a name is bound. On that map each operation looks at the entry of its name,
and either conflicts with it or puts another entry in its place. The bindings answer every row of operations
as that map does, and so the entry of a name is what the last operation on it that went through has left.

## Contents
- **Operations.** `Operation`, `attempt`; rows of them: `log` and `run`.
- **Errors.** `setVariable_eq_error_iff`, `setConstant_eq_error_iff`, `removeVariable_eq_error_iff`.
- **Effects.** `attempt_cases`: an operation makes a change of its name, or leaves both maps as they were.
- **One map.** `Entry`, `Table`; `Operation.conflict` and `Operation.entry`, with `Table.attempt`.
- **Standing for it.** `Represents`, kept by `Represents.attempt`, with `Represents.row_eq`.
- **Look-ups.** `lastDone`, with `run_table_eq`; `Holds`.
- **Histories.** `Conflicts`, and `bindings_act_as_one_map`.
-/

namespace Formula.Bindings

/-! ## Operations -/

/-- What can be done with bindings. -/
inductive Operation where
  | setVariable (name : String) (e : Expr)
  | setConstant (name : String) (e : Expr)
  | removeVariable (name : String)

/-- The name that an operation is about. -/
def Operation.name : Operation → String
  | .setVariable name _ | .setConstant name _ | .removeVariable name => name

/-- What an operation says: an error, or the expression that it has removed, if any. -/
abbrev Answer := Except EvalError (Option Expr)

/-- Carries out an operation: its answer, and the bindings from then on. A removal takes the name out of
    the variables before it finds out whether there was one. -/
def attempt (b : Bindings) : Operation → Answer × Bindings
  | .setVariable name e =>
      match b.setVariable name e with
      | .ok b' => (.ok none, b')
      | .error err => (.error err, b)
  | .setConstant name e =>
      match b.setConstant name e with
      | .ok b' => (.ok none, b')
      | .error err => (.error err, b)
  | .removeVariable name =>
      match b.removeVariable name with
      | .ok (e, b') => (.ok (some e), b')
      | .error err => (.error err, { b with vars := b.vars.erase name })

section Rows

variable {σ : Type} (attempt : σ → Operation → Answer × σ)

/-- Operations in a row, each with its answer. -/
def log (s : σ) : List Operation → List (Operation × Answer)
  | [] => []
  | op :: ops => (op, (attempt s op).1) :: log (attempt s op).2 ops

/-- What operations in a row leave. -/
def run (s : σ) (ops : List Operation) : σ := ops.foldl (fun s op => (attempt s op).2) s

theorem log_append (s : σ) (ops : List Operation) (op : Operation) :
    log attempt s (ops ++ [op]) = log attempt s ops ++ [(op, (attempt (run attempt s ops) op).1)] := by
  induction ops generalizing s with
  | nil => rfl
  | cons o ops ih =>
      rw [List.cons_append, log, ih, log, List.cons_append]
      rfl

theorem run_append (s : σ) (ops : List Operation) (op : Operation) :
    run attempt s (ops ++ [op]) = (attempt (run attempt s ops) op).2 := by
  rw [run, List.foldl_append]
  rfl

end Rows

/-! ## Errors -/

variable {b b' : Bindings} {name other : String} {e : Expr} {err : EvalError} {op : Operation}

theorem vars_eq_none (h : ¬ b.hasVariable name) : b.vars[name]? = none := by
  simpa [hasVariable_eq] using h

theorem consts_eq_none (h : ¬ b.hasConstant name) : b.consts[name]? = none := by
  simpa [hasConstant_eq] using h

/-- A variable is refused under the name of a constant. -/
theorem setVariable_eq_error_iff :
    b.setVariable name e = .error err ↔
      b.hasConstant name ∧ err = .nameConflict name .reassignConstant := by
  unfold setVariable
  by_cases hc : b.hasConstant name
  · simp [hc, eq_comm]
  · simp [hc]

/-- A constant is refused under a bound name; that there is a constant is found out first. -/
theorem setConstant_eq_error_iff :
    b.setConstant name e = .error err ↔
      b.hasConstant name ∧ err = .nameConflict name .duplicateConstant ∨
        ¬ b.hasConstant name ∧ b.hasVariable name ∧ err = .nameConflict name .variableToConstant := by
  unfold setConstant
  by_cases hc : b.hasConstant name
  · simpa [hc] using eq_comm
  · by_cases hv : b.hasVariable name
    · simpa [hc, hv] using eq_comm
    · simp [hc, hv]

/-- A removal is refused where there is no variable, and says whether there is a constant. -/
theorem removeVariable_eq_error_iff :
    b.removeVariable name = .error err ↔
      ¬ b.hasVariable name ∧ (b.hasConstant name ∧ err = .nameConflict name .removeConstant ∨
        ¬ b.hasConstant name ∧ err = .nameConflict name .missingVariable) := by
  rw [removeVariable, hasVariable_eq]
  cases b.vars[name]? with
  | some v => simp
  | none =>
      by_cases hc : b.hasConstant name
      · simp [hc, eq_comm]
      · simp [hc, eq_comm]

/-! ## Effects -/

/-- Where there is no variable, nothing is taken out. -/
theorem erase_equiv (hfree : b.vars[name]? = none) : (b.vars.erase name).Equiv b.vars := by
  apply Std.TreeMap.Equiv.of_forall_constGet?_eq
  intro other
  show (b.vars.erase name)[other]? = b.vars[other]?
  by_cases hne : other = name
  · rw [hne, hfree]
    exact Std.TreeMap.getElem?_erase_self
  · have hne' : name ≠ other := Ne.symm hne
    simp [Std.TreeMap.getElem?_erase, hne']

/-- An operation makes a change of its name, or fails and leaves both maps as they were. -/
theorem attempt_cases (b : Bindings) (op : Operation) :
    (∃ removed, (attempt b op).1 = .ok removed ∧ Change b op.name (attempt b op).2) ∨
      ∃ err, (attempt b op).1 = .error err ∧
        (attempt b op).2.vars.Equiv b.vars ∧ (attempt b op).2.consts = b.consts := by
  cases op with
  | setVariable name e =>
      rw [attempt]
      cases hset : b.setVariable name e with
      | ok b' => exact Or.inl ⟨none, rfl, .setVariable hset⟩
      | error err => exact Or.inr ⟨err, rfl, .rfl, rfl⟩
  | setConstant name e =>
      rw [attempt]
      cases hset : b.setConstant name e with
      | ok b' => exact Or.inl ⟨none, rfl, .setConstant hset⟩
      | error err => exact Or.inr ⟨err, rfl, .rfl, rfl⟩
  | removeVariable name =>
      rw [attempt]
      cases hremove : b.removeVariable name with
      | ok removed => exact Or.inl ⟨some removed.1, rfl, .removeVariable hremove⟩
      | error err =>
          -- the name has been taken out of the variables by then, but it was not among them
          obtain ⟨hv, -⟩ := removeVariable_eq_error_iff.1 hremove
          exact Or.inr ⟨err, rfl, erase_equiv (vars_eq_none hv), rfl⟩

/-! ## One map -/

/-- What a name is bound to, and how. -/
inductive Entry where
  | var (e : Expr)
  | const (e : Expr)

/-- The expression of a variable. -/
@[simp] def Entry.var? : Entry → Option Expr
  | .var e => some e
  | .const _ => none

/-- The expression of a constant. -/
@[simp] def Entry.const? : Entry → Option Expr
  | .var _ => none
  | .const e => some e

/-- One map from names to entries. -/
abbrev Table := String → Option Entry

namespace Operation

/-- Why an operation cannot be carried out on a name with this entry. -/
def conflict : Operation → Option Entry → Option Conflict
  | .setVariable _ _, some (.const _) => some .reassignConstant
  | .setConstant _ _, some (.const _) => some .duplicateConstant
  | .setConstant _ _, some (.var _) => some .variableToConstant
  | .removeVariable _, some (.const _) => some .removeConstant
  | .removeVariable _, none => some .missingVariable
  | _, _ => none

/-- The expression that an operation binds. -/
def bound? : Operation → Option Expr
  | .setVariable _ e | .setConstant _ e => some e
  | .removeVariable _ => none

/-- The entry that an operation leaves. -/
@[simp] def entry : Operation → Option Entry
  | .setVariable _ e => some (.var e)
  | .setConstant _ e => some (.const e)
  | .removeVariable _ => none

/-- The expression that an operation takes out of an entry. -/
def removed : Operation → Option Entry → Option Expr
  | .removeVariable _, some (.var e) => some e
  | _, _ => none

end Operation

/-- Carries out an operation on one map: it concerns the entry of its name and no other. -/
def Table.attempt (m : Table) (op : Operation) : Answer × Table :=
  match op.conflict (m op.name) with
  | some conflict => (.error (.nameConflict op.name conflict), m)
  | none => (.ok (op.removed (m op.name)), Function.update m op.name op.entry)

/-- The map in which no name is bound. -/
def Table.empty : Table := fun _ => none

/-! ## Standing for it -/

/-- The bindings stand for this map: a name is a variable or a constant as its entry says, and not both. -/
structure Represents (b : Bindings) (m : Table) : Prop where
  vars_eq : ∀ name, b.vars[name]? = (m name).bind Entry.var?
  consts_eq : ∀ name, b.consts[name]? = (m name).bind Entry.const?

variable {m : Table}

theorem represents_empty : Represents empty Table.empty :=
  ⟨fun _ => Std.TreeMap.getElem?_emptyc, fun _ => Std.TreeMap.getElem?_emptyc⟩

/-- A change leaves one entry in place of another. -/
theorem Represents.update {x : Option Entry} (h : Represents b m) (hchange : Change b name b')
    (hvars : b'.vars[name]? = x.bind Entry.var?)
    (hconsts : b'.consts[name]? = x.bind Entry.const?) :
    Represents b' (Function.update m name x) := by
  constructor
  · intro other
    by_cases hne : other = name
    · rw [hne, Function.update_self, hvars]
    · rw [Function.update_of_ne hne, hchange.vars_of_ne hne, h.vars_eq]
  · intro other
    by_cases hne : other = name
    · rw [hne, Function.update_self, hconsts]
    · rw [Function.update_of_ne hne, hchange.consts_of_ne hne, h.consts_eq]

theorem Represents.hasVariable_iff (h : Represents b m) :
    b.hasVariable name ↔ ∃ e, m name = some (.var e) := by
  rw [hasVariable_eq, h.vars_eq]
  rcases m name with - | v | k
  · simp
  · simp
  · simp

theorem Represents.hasConstant_iff (h : Represents b m) :
    b.hasConstant name ↔ ∃ e, m name = some (.const e) := by
  rw [hasConstant_eq, h.consts_eq]
  rcases m name with - | v | k
  · simp
  · simp
  · simp

theorem Represents.erase (h : Represents b m) (hfree : b.vars[name]? = none) :
    Represents { b with vars := b.vars.erase name } m :=
  ⟨fun other => (erase_equiv hfree).getElem?_eq.trans (h.vars_eq other), h.consts_eq⟩

theorem Represents.conflict_setVariable (h : Represents b m) :
    (Operation.setVariable name e).conflict (m name) =
      if b.hasConstant name then some .reassignConstant else none := by
  rw [hasConstant_eq, h.consts_eq]
  rcases m name with - | v | k
  all_goals rfl

theorem Represents.conflict_setConstant (h : Represents b m) :
    (Operation.setConstant name e).conflict (m name) =
      if b.hasConstant name then some .duplicateConstant
      else if b.hasVariable name then some .variableToConstant else none := by
  rw [hasConstant_eq, hasVariable_eq, h.consts_eq, h.vars_eq]
  rcases m name with - | v | k
  all_goals rfl

theorem Represents.conflict_removeVariable (h : Represents b m) :
    (Operation.removeVariable name).conflict (m name) =
      if b.hasVariable name then none
      else if b.hasConstant name then some .removeConstant else some .missingVariable := by
  rw [hasConstant_eq, hasVariable_eq, h.consts_eq, h.vars_eq]
  rcases m name with - | v | k
  all_goals rfl

/-- An operation has on the bindings the answer that it has on the map, and leaves what stands for the map
    that it leaves there. -/
theorem Represents.attempt (h : Represents b m) (op : Operation) :
    (attempt b op).1 = (m.attempt op).1 ∧ Represents (attempt b op).2 (m.attempt op).2 := by
  rw [Table.attempt]
  cases op with
  | setVariable name e =>
      rw [Operation.name, h.conflict_setVariable, Bindings.attempt]
      by_cases hc : b.hasConstant name
      · rw [if_pos hc, setVariable_eq_error_iff.2 ⟨hc, rfl⟩]
        exact ⟨rfl, h⟩
      · have hfree := consts_eq_none hc
        have hset : b.setVariable name e = .ok { b with vars := b.vars.insert name e } :=
          setVariable_eq_ok_iff.2 ⟨hfree, rfl⟩
        rw [if_neg hc, hset]
        exact ⟨rfl, h.update (.setVariable hset) Std.TreeMap.getElem?_insert_self hfree⟩
  | setConstant name e =>
      rw [Operation.name, h.conflict_setConstant, Bindings.attempt]
      by_cases hc : b.hasConstant name
      · rw [if_pos hc, setConstant_eq_error_iff.2 (Or.inl ⟨hc, rfl⟩)]
        exact ⟨rfl, h⟩
      · by_cases hv : b.hasVariable name
        · rw [if_neg hc, if_pos hv, setConstant_eq_error_iff.2 (Or.inr ⟨hc, hv, rfl⟩)]
          exact ⟨rfl, h⟩
        · have hconsts := consts_eq_none hc
          have hvars := vars_eq_none hv
          have hset : b.setConstant name e = .ok { b with consts := b.consts.insert name e } :=
            setConstant_eq_ok_iff.2 ⟨hconsts, hvars, rfl⟩
          rw [if_neg hc, if_neg hv, hset]
          exact ⟨rfl, h.update (.setConstant hset) hvars Std.TreeMap.getElem?_insert_self⟩
  | removeVariable name =>
      rw [Operation.name, h.conflict_removeVariable, Bindings.attempt]
      by_cases hv : b.hasVariable name
      · obtain ⟨v, hm⟩ := h.hasVariable_iff.1 hv
        have hvars : b.vars[name]? = some v := by rw [h.vars_eq, hm]; rfl
        have hconsts : b.consts[name]? = none := by rw [h.consts_eq, hm]; rfl
        have hremove := removeVariable_eq_ok_iff.2 ⟨hvars, rfl⟩
        rw [if_pos hv, hremove, hm]
        exact ⟨rfl, h.update (.removeVariable hremove) Std.TreeMap.getElem?_erase_self hconsts⟩
      · have hfree := vars_eq_none hv
        by_cases hc : b.hasConstant name
        · rw [if_neg hv, if_pos hc, removeVariable_eq_error_iff.2 ⟨hv, Or.inl ⟨hc, rfl⟩⟩]
          exact ⟨rfl, h.erase hfree⟩
        · rw [if_neg hv, if_neg hc, removeVariable_eq_error_iff.2 ⟨hv, Or.inr ⟨hc, rfl⟩⟩]
          exact ⟨rfl, h.erase hfree⟩

/-- So do operations in a row. -/
theorem Represents.row_eq (h : Represents b m) (ops : List Operation) :
    log Bindings.attempt b ops = log Table.attempt m ops ∧
      Represents (run Bindings.attempt b ops) (run Table.attempt m ops) := by
  induction ops generalizing b m with
  | nil => exact ⟨rfl, h⟩
  | cons op ops ih =>
      obtain ⟨hanswer, hleft⟩ := h.attempt op
      obtain ⟨hlog, hrun⟩ := ih hleft
      refine ⟨?_, hrun⟩
      rw [log, log, hanswer, hlog]

/-! ## Look-ups -/

/-- The last operation on a name that went through. -/
def lastDone (hs : List (Operation × Answer)) (name : String) : Option Operation :=
  ((hs.filter fun h => h.1.name == name && h.2.isOk).map (·.1)).getLast?

theorem lastDone_append (hs : List (Operation × Answer)) (op : Operation) (a : Answer) (name : String) :
    lastDone (hs ++ [(op, a)]) name =
      if op.name = name ∧ a.isOk then some op else lastDone hs name := by
  by_cases hdone : op.name = name ∧ a.isOk
  · simp [lastDone, hdone]
  · simp [lastDone, hdone]

theorem name_of_lastDone {hs : List (Operation × Answer)} (h : lastDone hs name = some op) :
    op.name = name := by
  have hmem := List.mem_of_getLast? h
  simp only [List.mem_map, List.mem_filter, Bool.and_eq_true, beq_iff_eq] at hmem
  obtain ⟨_, ⟨-, hname, -⟩, rfl⟩ := hmem
  exact hname

/-- The entry of a name is what the last operation on it that went through has left. -/
theorem run_table_eq (ops : List Operation) (name : String) :
    run Table.attempt Table.empty ops name =
      (lastDone (log Table.attempt Table.empty ops) name).bind Operation.entry := by
  induction ops using List.reverseRecOn with
  | nil => rfl
  | append_singleton ops op ih =>
      rw [run_append, log_append, lastDone_append, Table.attempt]
      cases hconflict : op.conflict (run Table.attempt Table.empty ops op.name) with
      | none =>
          by_cases hname : op.name = name
          · subst hname
            simp [Except.isOk, Except.toBool]
          · simp [hname, Function.update_of_ne (Ne.symm hname), ih]
      | some c => simp [Except.isOk, Except.toBool, ih]

/-- What is looked up of a name is what the last operation on it that went through says. -/
structure Holds (b : Bindings) (name : String) (last : Option Operation) : Prop where
  get_eq : b.get name =
    match last.bind Operation.bound? with
    | some e => .ok e
    | none => .error (.undefinedName name)
  hasVariable_iff : b.hasVariable name ↔ ∃ e, last = some (.setVariable name e)
  hasConstant_iff : b.hasConstant name ↔ ∃ e, last = some (.setConstant name e)
  has_iff : b.has name ↔ ∃ e, b.get name = .ok e

theorem Represents.holds {last : Option Operation} (h : Represents b m)
    (hentry : m name = last.bind Operation.entry) (hname : ∀ op, last = some op → op.name = name) :
    Holds b name last := by
  have hvars := h.vars_eq name
  have hconsts := h.consts_eq name
  rw [hentry] at hvars hconsts
  rcases last with - | ⟨n, e⟩ | ⟨n, e⟩ | n
  · exact ⟨by rw [get, hvars, hconsts]; rfl, by simp [hasVariable_eq, hvars],
      by simp [hasConstant_eq, hconsts], has_iff_get⟩
  · obtain rfl : n = name := hname _ rfl
    exact ⟨by rw [get, hvars]; rfl, by simp [hasVariable_eq, hvars],
      by simp [hasConstant_eq, hconsts], has_iff_get⟩
  · obtain rfl : n = name := hname _ rfl
    exact ⟨by rw [get, hvars, hconsts]; rfl, by simp [hasVariable_eq, hvars],
      by simp [hasConstant_eq, hconsts], has_iff_get⟩
  · exact ⟨by rw [get, hvars, hconsts]; rfl, by simp [hasVariable_eq, hvars],
      by simp [hasConstant_eq, hconsts], has_iff_get⟩

/-! ## Histories -/

/-- Each operation on a name fails exactly where the kind of the name forbids it, and says so; a removal
    that goes through hands out the expression of the variable. -/
structure Conflicts (b : Bindings) (name : String) : Prop where
  setVariable : ∀ e err, b.setVariable name e = .error err ↔
    b.hasConstant name ∧ err = .nameConflict name .reassignConstant
  setConstant : ∀ e err, b.setConstant name e = .error err ↔
    b.hasConstant name ∧ err = .nameConflict name .duplicateConstant ∨
      b.hasVariable name ∧ err = .nameConflict name .variableToConstant
  removed : ∀ e, (∃ b', b.removeVariable name = .ok (e, b')) ↔ b.hasVariable name ∧ b.get name = .ok e
  removeVariable : ∀ err, b.removeVariable name = .error err ↔
    b.hasConstant name ∧ err = .nameConflict name .removeConstant ∨
      ¬ b.has name ∧ err = .nameConflict name .missingVariable

theorem Exclusive.conflicts (h : Exclusive b) (name : String) : Conflicts b name := by
  have hapart : b.hasVariable name → ¬ b.hasConstant name := fun hv hc => h name ⟨hv, hc⟩
  refine ⟨fun e err => setVariable_eq_error_iff, ?_, ?_, ?_⟩
  · intro e err
    rw [setConstant_eq_error_iff]
    constructor
    · rintro (hc | ⟨-, hv⟩)
      · exact Or.inl hc
      · exact Or.inr hv
    · rintro (hc | hv)
      · exact Or.inl hc
      · exact Or.inr ⟨hapart hv.1, hv⟩
  · intro e
    rw [hasVariable_eq, get_eq_ok_iff]
    constructor
    · rintro ⟨b', hremove⟩
      obtain ⟨hv, -⟩ := removeVariable_eq_ok_iff.1 hremove
      exact ⟨by rw [hv]; rfl, Or.inl hv⟩
    · rintro ⟨hvar, hv | ⟨hfree, -⟩⟩
      · exact ⟨_, removeVariable_eq_ok_iff.2 ⟨hv, rfl⟩⟩
      · rw [hfree] at hvar
        cases hvar
  · intro err
    rw [removeVariable_eq_error_iff, has, Bool.or_eq_true, not_or]
    constructor
    · rintro ⟨hv, hc | ⟨hc, herr⟩⟩
      · exact Or.inl hc
      · exact Or.inr ⟨⟨hv, hc⟩, herr⟩
    · rintro (hc | ⟨⟨hv, hc⟩, herr⟩)
      · exact ⟨fun hv => hapart hv hc.1, Or.inl hc⟩
      · exact ⟨hv, Or.inr ⟨hc, herr⟩⟩

theorem Represents.exclusive (h : Represents b m) : Exclusive b := by
  rintro name ⟨hv, hc⟩
  obtain ⟨v, hv⟩ := h.hasVariable_iff.1 hv
  obtain ⟨k, hc⟩ := h.hasConstant_iff.1 hc
  rw [hv] at hc
  cases hc

/-- The answers to operations in a row, no name being bound at the start. -/
abbrev history (ops : List Operation) : List (Operation × Answer) := log attempt empty ops

/-- The bindings that operations in a row leave, no name being bound at the start. -/
abbrev after (ops : List Operation) : Bindings := run attempt empty ops

/-- Operations in a row are answered as on one map from names to entries, and leave bindings that stand
    for that map. What is looked up of a name is what the last operation on it that went through says. Each
    operation that may follow fails exactly where the kind of its name forbids it; then both maps stay as
    they are, and in any case so does all that is bound to the other names. -/
theorem bindings_act_as_one_map (ops : List Operation) :
    history ops = log Table.attempt Table.empty ops ∧
      Represents (after ops) (run Table.attempt Table.empty ops) ∧
      (∀ name, Holds (after ops) name (lastDone (history ops) name) ∧ Conflicts (after ops) name) ∧
      ∀ op,
        (∀ err, (attempt (after ops) op).1 = .error err →
          (attempt (after ops) op).2.vars.Equiv (after ops).vars ∧
            (attempt (after ops) op).2.consts.Equiv (after ops).consts) ∧
        ∀ other, other ≠ op.name →
          (attempt (after ops) op).2.vars[other]? = (after ops).vars[other]? ∧
            (attempt (after ops) op).2.consts[other]? = (after ops).consts[other]? := by
  obtain ⟨hlog, hrun⟩ := represents_empty.row_eq ops
  refine ⟨hlog, hrun, fun name => ⟨?_, hrun.exclusive.conflicts name⟩, fun op => ?_⟩
  · rw [history, hlog]
    exact hrun.holds (run_table_eq ops name) fun _ => name_of_lastDone
  · rcases attempt_cases (after ops) op with ⟨removed, hok, hchange⟩ | ⟨err, -, hvars, hconsts⟩
    · refine ⟨fun err herr => ?_, fun other hne =>
        ⟨hchange.vars_of_ne hne, hchange.consts_of_ne hne⟩⟩
      rw [hok] at herr
      cases herr
    · refine ⟨fun _ _ => ⟨hvars, ?_⟩, fun other _ => ⟨hvars.getElem?_eq, by rw [hconsts]⟩⟩
      rw [hconsts]

/-- A constant cannot be removed: it stays, as does the variable beside it. -/
theorem refused_removal_leaves_constant :
    (attempt (after [.setVariable "x" (.number 1), .setConstant "k" (.number 2)])
        (.removeVariable "k")).1 = .error (.nameConflict "k" .removeConstant) ∧
      (attempt (after [.setVariable "x" (.number 1), .setConstant "k" (.number 2)])
        (.removeVariable "k")).2.consts.Equiv
          (after [.setVariable "x" (.number 1), .setConstant "k" (.number 2)]).consts ∧
      "x" ≠ (Operation.removeVariable "k").name ∧
      (attempt (after [.setVariable "x" (.number 1), .setConstant "k" (.number 2)])
        (.removeVariable "k")).2.vars["x"]? =
          (after [.setVariable "x" (.number 1), .setConstant "k" (.number 2)]).vars["x"]? := by
  obtain ⟨hfailed, hother⟩ :=
    (bindings_act_as_one_map [.setVariable "x" (.number 1), .setConstant "k" (.number 2)]).2.2.2
      (.removeVariable "k")
  exact ⟨rfl, (hfailed _ rfl).2, by decide, (hother "x" (by decide)).1⟩

end Formula.Bindings
