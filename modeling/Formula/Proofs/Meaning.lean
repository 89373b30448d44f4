import Mathlib.Data.Fintype.Card
import Mathlib.Data.Set.Finite.List
import Mathlib.Logic.Relation
import Formula.Proofs.Evaluation

/-!
# `Formula.Proofs.Meaning` — what an expression stands for when references do not go round

A name leads to the names that the expression bound to it looks up. Where no name that an expression
reaches leads back to itself, evaluation always has an outcome: there are finitely many bound names, so
every way along references ends. The outcome is then told by the form of the expression.

## Contents
- **Reach.** `Bindings.links`, `Bindings.Leads`, `Bindings.Reaches`, `Bindings.Acyclic`;
  `Bindings.acyclic_of_rank`.
- **Outcomes.** `Bindings.run_eval_ne_none`.
- **Chains.** `Bindings.Follows`, `Bindings.Chain`, with `Chain.eval_eq` and `exists_chain_end`; a chain
  does not fork, `Chain.has_of_target`.
- **Kinds.** `Bindings.run_typed`.
- **Meaning.** `Bindings.eval_meaning`; `Bindings.undefined_below_sum`, a name that is reported though no
  chain ends at it.
-/

namespace Formula.Bindings

variable {b : Bindings} {e e' : Expr} {name next : String} {k : Nat} {r : Except EvalError Value}

/-! ## Reach -/

/-- The names looked up in the expression that a name is bound to. -/
def links (b : Bindings) (name : String) : List String :=
  match b.get name with
  | .ok e => e.uses
  | .error _ => []

/-- A name leads to another. -/
def Leads (b : Bindings) (name next : String) : Prop := next ∈ b.links name

/-- An expression reaches the names that it looks up, and those that they lead to. -/
def Reaches (b : Bindings) (e : Expr) (name : String) : Prop :=
  ∃ first ∈ e.uses, Relation.ReflTransGen b.Leads first name

/-- Of the names that an expression reaches, none leads back to itself. -/
def Acyclic (b : Bindings) (e : Expr) : Prop :=
  ∀ name, b.Reaches e name → ¬ Relation.TransGen b.Leads name name

theorem leads_iff : b.Leads name next ↔ ∃ e, b.get name = .ok e ∧ next ∈ e.uses := by
  unfold Leads links
  cases b.get name with
  | ok e => simp
  | error err => simp

theorem reaches_of_uses (h : name ∈ e.uses) : b.Reaches e name := ⟨name, h, .refl⟩

theorem Acyclic.operand {operands : List Expr} (h : b.Acyclic (.sum operands)) (he : e ∈ operands) :
    b.Acyclic e := by
  rintro name ⟨first, hfirst, hpath⟩
  exact h name ⟨first, Expr.mem_usesAll.2 ⟨e, he, hfirst⟩, hpath⟩

theorem Reaches.leads (h : b.Reaches e name) (hnext : b.Leads name next) : b.Reaches e next := by
  obtain ⟨first, hfirst, hpath⟩ := h
  exact ⟨first, hfirst, hpath.tail hnext⟩

/-- Names that lead only to one another hold all that is reached from one of them. -/
theorem Reaches.mem {closed : List String} (h : b.Reaches e name) (huses : ∀ name ∈ e.uses, name ∈ closed)
    (hlinks : ∀ name ∈ closed, ∀ next ∈ b.links name, next ∈ closed) : name ∈ closed := by
  obtain ⟨first, hfirst, hpath⟩ := h
  induction hpath with
  | refl => exact huses first hfirst
  | tail _ hnext ih => exact hlinks _ ih _ hnext

/-- Names that always lead to lower ones do not go round. -/
theorem acyclic_of_rank (rank : String → Nat)
    (h : ∀ name ∈ b.names, ∀ next ∈ b.links name, rank next < rank name) (e : Expr) : b.Acyclic e := by
  have hstep : ∀ name next, b.Leads name next → rank next < rank name := by
    intro name next hnext
    obtain ⟨e, he, -⟩ := leads_iff.1 hnext
    exact h name (mem_names he) next hnext
  have hpath : ∀ name next, Relation.TransGen b.Leads name next → rank next < rank name := by
    intro name next hpath
    induction hpath with
    | single hnext => exact hstep _ _ hnext
    | tail _ hnext ih => exact Nat.lt_trans (hstep _ _ hnext) ih
  intro name _ hround
  exact Nat.lt_irrefl _ (hpath name name hround)

/-! ## Outcomes -/

/-- Where references do not go round, going along them ends. -/
theorem Acyclic.wellFounded (h : b.Acyclic e) :
    WellFounded fun next name : {name // b.Reaches e name ∧ name ∈ b.names} =>
      Relation.TransGen b.Leads name.1 next.1 := by
  have hfinite : Finite {name // b.Reaches e name ∧ name ∈ b.names} :=
    (b.names.finite_toSet.subset fun name hname => hname.2).to_subtype
  have htrans : IsTrans {name // b.Reaches e name ∧ name ∈ b.names} fun next name =>
      Relation.TransGen b.Leads name.1 next.1 := ⟨fun _ _ _ h₁ h₂ => h₂.trans h₁⟩
  have hirrefl : Std.Irrefl fun next name : {name // b.Reaches e name ∧ name ∈ b.names} =>
      Relation.TransGen b.Leads name.1 next.1 := ⟨fun name => h name.1 name.2.1⟩
  exact Finite.wellFounded_of_trans_of_irrefl _

theorem resolve_ne_none (h : b.Acyclic e) (hname : b.Reaches e name) :
    (b.resolve (b.size + 1) name).run ≠ none := by
  -- a name that is not bound has its outcome at once
  have hunbound : ∀ name, name ∉ b.names → (b.resolve (b.size + 1) name).run ≠ none := by
    intro name hmem
    cases hget : b.get name with
    | ok e => exact absurd (mem_names hget) hmem
    | error err => simp [run_resolve_succ, hget]
  have hbound : ∀ name : {name // b.Reaches e name ∧ name ∈ b.names},
      (b.resolve (b.size + 1) name.1).run ≠ none := by
    intro name
    induction name using h.wellFounded.induction with
    | _ name ih =>
        rw [← resolve_fixed, run_resolve_succ]
        cases hget : b.get name.1 with
        | error err => exact Option.some_ne_none _
        | ok e' =>
            apply Expr.evalWith_ne_none
            intro next hnext
            have hleads : b.Leads name.1 next := leads_iff.2 ⟨e', hget, hnext⟩
            by_cases hmem : next ∈ b.names
            · exact ih ⟨next, name.2.1.leads hleads, hmem⟩ (.single hleads)
            · exact hunbound next hmem
  by_cases hmem : name ∈ b.names
  · exact hbound ⟨name, hname, hmem⟩
  · exact hunbound name hmem

/-- Where references do not go round, evaluation has an outcome. -/
theorem run_eval_ne_none (h : b.Acyclic e) : (b.eval e).run ≠ none :=
  Expr.evalWith_ne_none fun _ hname => resolve_ne_none h (reaches_of_uses hname)

/-! ## Chains -/

/-- A reference is followed to the expression that its name is bound to. -/
def Follows (b : Bindings) (e e' : Expr) : Prop := ∃ name, e = .reference name ∧ b.get name = .ok e'

/-- An expression is reached by following references, one after the other. -/
def Chain (b : Bindings) : Expr → Expr → Prop := Relation.ReflTransGen b.Follows

/-- A name is bound to one expression, so there is one way to go on. -/
theorem follows_unique : Relator.RightUnique b.Follows := by
  rintro e e₁ e₂ ⟨name, rfl, h₁⟩ ⟨name', hname, h₂⟩
  obtain rfl := Expr.reference.inj hname
  exact Except.ok.inj (h₁.symm.trans h₂)

/-- A chain goes on only from a reference to a bound name. -/
theorem Chain.exists_of_ne (h : b.Chain e e') (hne : e ≠ e') :
    ∃ name next, e = .reference name ∧ b.get name = .ok next := by
  rcases h.cases_head with heq | ⟨next, ⟨name, hname, hget⟩, -⟩
  · exact absurd heq hne
  · exact ⟨name, next, hname, hget⟩

/-- A chain to an expression that is no reference goes through bound names only. -/
theorem Chain.has_of_target {target : Expr} {m : String} (h : b.Chain e target)
    (htarget : ∀ n, target ≠ .reference n) (hm : b.Chain e (.reference m)) : b.has m = true := by
  -- of two chains from one expression, one goes on from the end of the other
  rcases Relation.ReflTransGen.total_of_right_unique follows_unique hm h with hon | hback
  · obtain ⟨n, next, hn, hget⟩ := Chain.exists_of_ne hon (htarget m).symm
    obtain rfl := Expr.reference.inj hn
    exact has_iff_get.2 ⟨next, hget⟩
  · obtain ⟨n, -, hn, -⟩ := Chain.exists_of_ne hback (htarget m)
    exact absurd hn (htarget n)

/-- Nothing changes along a chain. -/
theorem Chain.eval_eq (h : b.Chain e e') : (b.eval e).run = (b.eval e').run := by
  induction h with
  | refl => rfl
  | tail _ hlast ih =>
      obtain ⟨name, rfl, hget⟩ := hlast
      rw [ih, run_eval_reference, hget]

theorem eval_of_unbound (h : b.has name = false) :
    (b.eval (.reference name)).run = some (.error (.undefinedName name)) := by
  rw [run_eval_reference, get_eq_error_iff.2 ⟨rfl, h⟩]

/-- A chain to an outcome ends at an expression that is no reference, or at a name that is not bound. -/
theorem exists_chain_end (h : (b.resolve k name).run = some r) :
    (∃ target, b.Chain (.reference name) target ∧ ∀ m, target ≠ .reference m) ∨
      ∃ m, b.Chain (.reference name) (.reference m) ∧ b.has m = false := by
  induction k generalizing name with
  | zero => cases h
  | succ k ih =>
      rw [run_resolve_succ] at h
      cases hget : b.get name with
      | error err => exact Or.inr ⟨name, .refl, (get_eq_error_iff.1 hget).2⟩
      | ok e =>
          have hfirst : b.Chain (.reference name) e := .single ⟨name, rfl, hget⟩
          by_cases hreference : ∃ m, e = .reference m
          · obtain ⟨m, rfl⟩ := hreference
            simp only [hget] at h
            rcases ih h with ⟨target, hchain, hne⟩ | ⟨n, hchain, hn⟩
            · exact Or.inl ⟨target, hfirst.trans hchain, hne⟩
            · exact Or.inr ⟨n, hfirst.trans hchain, hn⟩
          · exact Or.inl ⟨e, hfirst, fun m hm => hreference ⟨m, hm⟩⟩

/-- A name that is not bound is reported for a reference exactly when its chain ends there, or ends at a
    sum that reports it. -/
theorem undefined_iff {m : String} (h : (b.eval (.reference name)).run = some r) :
    (b.eval (.reference name)).run = some (.error (.undefinedName m)) ↔
      (b.Chain (.reference name) (.reference m) ∧ b.has m = false) ∨
        ∃ operands, b.Chain (.reference name) (.sum operands) ∧
          (b.eval (.sum operands)).run = some (.error (.undefinedName m)) := by
  constructor
  · intro hundefined
    rcases exists_chain_end h with ⟨target, hchain, hne⟩ | ⟨n, hchain, hn⟩
    · -- of all that can stand at the end of a chain, only a sum can fail
      rw [hchain.eval_eq] at hundefined
      cases target with
      | number q => cases hundefined
      | boolean v => cases hundefined
      | set members => cases hundefined
      | reference m => exact absurd rfl (hne m)
      | sum operands => exact Or.inr ⟨operands, hchain, hundefined⟩
    · rw [hchain.eval_eq, eval_of_unbound hn] at hundefined
      cases hundefined
      exact Or.inl ⟨hchain, hn⟩
  · rintro (⟨hchain, hm⟩ | ⟨operands, hchain, hundefined⟩)
    · rw [hchain.eval_eq, eval_of_unbound hm]
    · rw [hchain.eval_eq, hundefined]

/-! ## Kinds -/

/-- A check of the value leaves an error as it is. -/
theorem run_typed {α : Type} (x : Outcome Value) (check : Value → Except EvalError α) :
    (x >>= fun v => liftExcept (check v)).run =
      x.run.map fun
        | .ok v => check v
        | .error err => .error err := by
  rw [ExceptT.run_bind]
  cases x.run with
  | none => rfl
  | some r =>
      cases r with
      | error err => rfl
      | ok v =>
          cases hv : check v with
          | ok a => simp [hv, liftExcept]
          | error err => simp [hv, liftExcept]

/-! ## Meaning -/

/-- What an expression stands for when references do not go round. Evaluation ends by itself: it has an
    outcome, and a larger bound on the references changes nothing. A literal is its value; so a set is
    its members, as they stand. A reference is whatever stands at the end of its chain, and a name that
    is not bound is reported exactly when the chain ends at it, or ends at a sum whose outcome reports
    it. A sum of numbers is their sum; otherwise it fails as its first operand does that fails or is no
    number. An evaluation to a number, a truth value or a set gives what the value holds if it is of
    that kind. -/
theorem eval_meaning (b : Bindings) (e : Expr) (acyclic : b.Acyclic e) :
    (∃ r, (b.eval e).run = some r ∧
        ∀ bound, b.size < bound → (e.evalWith (b.resolve bound)).run = some r) ∧
      (∀ v : Value, e = v.toExpr → (b.eval e).run = some (.ok v)) ∧
      (∀ members, e = .set members → (b.eval e).run = some (.ok (.set members))) ∧
      (∀ name, e = .reference name →
        (∀ target, b.Chain e target → (b.eval e).run = (b.eval target).run) ∧
        ((∃ target, b.Chain e target ∧ ∀ m, target ≠ .reference m) ∨
          ∃ m, b.Chain e (.reference m) ∧ b.has m = false) ∧
        ∀ m, (b.eval e).run = some (.error (.undefinedName m)) ↔
          (b.Chain e (.reference m) ∧ b.has m = false) ∨
            ∃ operands, b.Chain e (.sum operands) ∧
              (b.eval (.sum operands)).run = some (.error (.undefinedName m))) ∧
      (∀ operands, e = .sum operands →
        (∃ values, List.Forall₂ (fun x q => (b.eval x).run = some (.ok (.number q))) operands values ∧
            (b.eval e).run = some (.ok (.number values.sum))) ∨
          ∃ before x after err, operands = before ++ x :: after ∧
            (∀ y ∈ before, ∃ q, (b.eval y).run = some (.ok (.number q))) ∧
            ((b.eval x).run = some (.error err) ∨
              ∃ v, (b.eval x).run = some (.ok v) ∧ v.kind ≠ .number ∧
                err = .unexpectedType .number v.kind) ∧
            (b.eval e).run = some (.error err)) ∧
      (∀ err, (b.eval e).run = some (.error err) →
        (b.evalNumber e).run = some (.error err) ∧ (b.evalBoolean e).run = some (.error err) ∧
          (b.evalSet e).run = some (.error err)) ∧
      ∀ v, (b.eval e).run = some (.ok v) →
        (b.evalNumber e).run = some (match v with
          | .number q => .ok q
          | _ => .error (.unexpectedType .number v.kind)) ∧
        (b.evalBoolean e).run = some (match v with
          | .boolean t => .ok t
          | _ => .error (.unexpectedType .boolean v.kind)) ∧
        (b.evalSet e).run = some (match v with
          | .set members => .ok members
          | _ => .error (.unexpectedType .set v.kind)) := by
  obtain ⟨r, hr⟩ := Option.ne_none_iff_exists'.1 (run_eval_ne_none acyclic)
  refine ⟨⟨r, hr, ?_⟩, ?_, ?_, ?_, ?_, ?_, ?_⟩
  · intro bound hbound
    rw [resolve_stable hbound]
    exact hr
  · rintro v rfl
    exact eval_toExpr b v
  · rintro members rfl
    rfl
  · rintro name rfl
    exact ⟨fun target hchain => hchain.eval_eq, exists_chain_end hr, fun m => undefined_iff hr⟩
  · rintro operands rfl
    exact run_eval_sum fun x hx => run_eval_ne_none (acyclic.operand hx)
  · intro err herr
    rw [evalNumber, evalBoolean, evalSet, run_typed, run_typed, run_typed, herr]
    exact ⟨rfl, rfl, rfl⟩
  · intro v hv
    rw [evalNumber, evalBoolean, evalSet, run_typed, run_typed, run_typed, hv]
    cases v with
    | number q => exact ⟨rfl, rfl, rfl⟩
    | boolean t => exact ⟨rfl, rfl, rfl⟩
    | set members => exact ⟨rfl, rfl, rfl⟩

/-- A set that holds a reference to itself, and a reference to a constant. -/
def circularSet : Bindings :=
  ⟨((∅ : Std.TreeMap String Expr).insert "s" (.set [.reference "s"])).insert "x" (.reference "one"),
    (∅ : Std.TreeMap String Expr).insert "one" (.number 1)⟩

/-- The reference in the set is not followed. As an operand, the set ends the sum before the name after
    it is looked up, which is not bound. -/
theorem eval_sum_with_circular_set :
    circularSet.Acyclic (.sum [.reference "x", .reference "s", .reference "y"]) ∧
      (circularSet.eval (.sum [.reference "x", .reference "s", .reference "y"])).run =
        some (.error (.unexpectedType .number .set)) ∧
      (circularSet.evalBoolean (.sum [.reference "x", .reference "s", .reference "y"])).run =
        some (.error (.unexpectedType .number .set)) := by
  have hacyclic : circularSet.Acyclic (.sum [.reference "x", .reference "s", .reference "y"]) :=
    acyclic_of_rank (fun name => if name = "x" then 1 else 0) (by decide) _
  have herror : (circularSet.eval (.sum [.reference "x", .reference "s", .reference "y"])).run =
      some (.error (.unexpectedType .number .set)) := rfl
  obtain ⟨-, -, -, -, -, hfails, -⟩ := eval_meaning circularSet _ hacyclic
  exact ⟨hacyclic, herror, (hfails _ herror).2.1⟩

/-- A name that is bound to a sum, whose operand is a reference to a name that is not bound. -/
def sumOfUnbound : Bindings := ⟨(∅ : Std.TreeMap String Expr).insert "x" (.sum [.reference "y"]), ∅⟩

/-- The name that is not bound is reported for a reference whose chain ends at the sum, and goes through
    bound names only. -/
theorem undefined_below_sum :
    sumOfUnbound.Acyclic (.reference "x") ∧
      (sumOfUnbound.eval (.reference "x")).run = some (.error (.undefinedName "y")) ∧
      sumOfUnbound.Chain (.reference "x") (.sum [.reference "y"]) ∧
      ¬ ∃ m, sumOfUnbound.Chain (.reference "x") (.reference m) ∧ sumOfUnbound.has m = false := by
  have hsum : sumOfUnbound.Chain (.reference "x") (.sum [.reference "y"]) := .single ⟨"x", rfl, rfl⟩
  refine ⟨?_, rfl, hsum, ?_⟩
  · exact acyclic_of_rank (fun name => if name = "x" then 1 else 0) (by decide) _
  · rintro ⟨m, hchain, hm⟩
    have hbound := hsum.has_of_target nofun hchain
    rw [hm] at hbound
    cases hbound

end Formula.Bindings
