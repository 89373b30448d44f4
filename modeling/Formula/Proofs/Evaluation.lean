import Mathlib.Algebra.Ring.Rat
import Mathlib.Data.Finset.Card
import Formula.Expr.Eval
import Formula.Proofs.Bindings

/-!
# `Formula.Proofs.Evaluation` — how far references have to be followed

Evaluation follows references up to a bound. A larger bound never changes an outcome that there is, and
from the number of bound names on no bound changes anything: as long as a larger bound brings the
outcome of some name, it brings the outcome of a name that had none, and there are only so many. So an
outcome is missing only where following references never ends, and evaluation obeys the equations that
speak of no bound.

## Contents
- **Uses.** `Expr.uses`: the names that an expression looks up; `Expr.evalInduction`.
- **Sums.** `Expr.sumWith_cons`; `Expr.Fault`, `Expr.sumWith_cases`.
- **Look-ups.** An outcome depends on the names used only: `Expr.evalWith_of_uses`,
  `Expr.evalWith_congr`, `Expr.evalWith_ne_none`.
- **Bounds.** `Bindings.resolve_fixed`, and from it `Bindings.resolve_stable`.
- **Equations.** `Bindings.eval_toExpr`, `Bindings.run_eval_reference`, `Bindings.run_eval_sum`.
-/

namespace Formula

/-! ## Uses -/

mutual

/-- The names that an expression looks up when it is evaluated. The members of a set are not
    evaluated. -/
def Expr.uses : Expr → List String
  | .number _ => []
  | .boolean _ => []
  | .set _ => []
  | .reference name => [name]
  | .sum operands => Expr.usesAll operands

/-- The names that the operands of a sum look up. -/
def Expr.usesAll : List Expr → List String
  | [] => []
  | e :: rest => e.uses ++ Expr.usesAll rest

end

namespace Expr

variable {f g : String → Outcome Value} {e : Expr} {operands : List Expr} {total : Rat} {name : String}
  {r : Except EvalError Value}

theorem mem_usesAll : name ∈ usesAll operands ↔ ∃ e ∈ operands, name ∈ e.uses := by
  induction operands with
  | nil => simp [usesAll]
  | cons e rest ih => simp [usesAll, ih]

/-- What holds of an expression that has no operands, and of a sum if it holds of its operands, holds
    of every expression. -/
@[elab_as_elim]
theorem evalInduction {motive : Expr → Prop} (number : ∀ q, motive (.number q))
    (boolean : ∀ v, motive (.boolean v)) (set : ∀ members, motive (.set members))
    (reference : ∀ name, motive (.reference name))
    (sum : ∀ operands, (∀ e ∈ operands, motive e) → motive (.sum operands)) (e : Expr) : motive e :=
  @Expr.rec motive (fun es => ∀ e ∈ es, motive e) number boolean
    (fun members _ => set members) reference sum (fun _ he => absurd he List.not_mem_nil)
    (fun _ _ he hrest e' he' => (List.mem_cons.1 he').elim (fun h => h ▸ he) (hrest e')) e

/-! ## Sums -/

@[simp] theorem sumWith_nil : (sumWith f total []).run = some (.ok (.number total)) := rfl

/-- A sum goes on after an operand that is a number, and ends at any other. -/
theorem sumWith_cons (f : String → Outcome Value) (total : Rat) (e : Expr) (rest : List Expr) :
    (sumWith f total (e :: rest)).run =
      (e.evalWith f).run.bind fun
        | .error err => some (.error err)
        | .ok value =>
            match value.number? with
            | .ok n => (sumWith f (total + n) rest).run
            | .error err => some (.error err) := by
  rw [sumWith]
  simp only [ExceptT.run_bind]
  cases (e.evalWith f).run with
  | none => rfl
  | some r =>
      cases r with
      | error err => rfl
      | ok value =>
          cases hv : value.number? with
          | ok n => simp [hv, liftExcept]
          | error err => simp [hv, liftExcept]

/-- Why an outcome cannot be added: it is an error, or the value is no number. -/
def Fault (x : Option (Except EvalError Value)) (err : EvalError) : Prop :=
  x = some (.error err) ∨ ∃ v, x = some (.ok v) ∧ v.kind ≠ .number ∧ err = .unexpectedType .number v.kind

/-- A sum adds the numbers of its operands, or ends with the fault of the first operand that has one. -/
theorem sumWith_cases (h : ∀ e ∈ operands, (e.evalWith f).run ≠ none) :
    (∃ values, List.Forall₂ (fun e q => (e.evalWith f).run = some (.ok (.number q))) operands values ∧
        (sumWith f total operands).run = some (.ok (.number (total + values.sum)))) ∨
      ∃ before e after err, operands = before ++ e :: after ∧
        (∀ x ∈ before, ∃ q, (x.evalWith f).run = some (.ok (.number q))) ∧
        Fault (e.evalWith f).run err ∧ (sumWith f total operands).run = some (.error err) := by
  induction operands generalizing total with
  | nil => exact Or.inl ⟨[], .nil, by rw [sumWith_nil, List.sum_nil, Rat.add_zero]⟩
  | cons e rest ih =>
      rw [sumWith_cons]
      -- what the sum does at its first operand
      have hfirst : ∀ err, Fault (e.evalWith f).run err →
          ∃ before e' after err', e :: rest = before ++ e' :: after ∧
            (∀ x ∈ before, ∃ q, (x.evalWith f).run = some (.ok (.number q))) ∧
            Fault (e'.evalWith f).run err' ∧
            (some (.error err) : Option (Except EvalError Value)) = some (.error err') :=
        fun err hfault =>
          ⟨[], e, rest, err, rfl, fun x hx => absurd hx List.not_mem_nil, hfault, rfl⟩
      obtain ⟨x, hx⟩ := Option.ne_none_iff_exists'.1 (h e List.mem_cons_self)
      rw [hx, Option.bind_some]
      cases x with
      | error err => exact Or.inr (hfirst err (Or.inl hx))
      | ok v =>
          cases v with
          | boolean v => exact Or.inr (hfirst _ (Or.inr ⟨_, hx, nofun, rfl⟩))
          | set members => exact Or.inr (hfirst _ (Or.inr ⟨_, hx, nofun, rfl⟩))
          | number q =>
              rcases @ih (total + q) fun e he => h e (List.mem_cons_of_mem _ he) with
                ⟨values, hvalues, hsum⟩ | ⟨before, e', after, err, rfl, hbefore, hfault, hsum⟩
              · refine Or.inl ⟨q :: values, .cons hx hvalues, ?_⟩
                rw [List.sum_cons, ← Rat.add_assoc]
                exact hsum
              · refine Or.inr ⟨e :: before, e', after, err, rfl, ?_, hfault, hsum⟩
                intro x hx'
                rcases List.mem_cons.1 hx' with rfl | hx'
                · exact ⟨q, hx⟩
                · exact hbefore x hx'

/-! ## Look-ups -/

theorem sumWith_of_operands
    (h : ∀ e ∈ operands, ∀ r, (e.evalWith f).run = some r → (e.evalWith g).run = some r)
    (hr : (sumWith f total operands).run = some r) : (sumWith g total operands).run = some r := by
  induction operands generalizing total with
  | nil => exact hr
  | cons e rest ih =>
      rw [sumWith_cons] at hr ⊢
      obtain ⟨x, hx, hr⟩ := Option.bind_eq_some_iff.1 hr
      rw [h e List.mem_cons_self x hx, Option.bind_some]
      cases x with
      | error err => exact hr
      | ok value =>
          cases hv : value.number? with
          | error err => simpa only [hv] using hr
          | ok n =>
              simp only [hv] at hr ⊢
              exact ih (fun e he => h e (List.mem_cons_of_mem _ he)) hr

/-- Outcomes of the names used that are known stay known, and so does the outcome they lead to. -/
theorem evalWith_of_uses (h : ∀ name ∈ e.uses, ∀ r, (f name).run = some r → (g name).run = some r) :
    ∀ r, (e.evalWith f).run = some r → (e.evalWith g).run = some r := by
  induction e using evalInduction with
  | number q => exact fun r hr => hr
  | boolean v => exact fun r hr => hr
  | set members => exact fun r hr => hr
  | reference name => exact h name (List.mem_singleton_self name)
  | sum operands ih =>
      intro r hr
      apply sumWith_of_operands _ hr
      intro e he
      exact ih e he fun name hname => h name (mem_usesAll.2 ⟨e, he, hname⟩)

/-- Nothing but the outcomes of the names used counts. -/
theorem evalWith_congr (h : ∀ name ∈ e.uses, f name = g name) : e.evalWith f = e.evalWith g := by
  apply ExceptT.ext
  apply Option.ext
  intro r
  constructor
  · apply evalWith_of_uses
    intro name hname r hr
    rwa [← h name hname]
  · apply evalWith_of_uses
    intro name hname r hr
    rwa [h name hname]

theorem sumWith_ne_none (h : ∀ e ∈ operands, (e.evalWith f).run ≠ none) :
    (sumWith f total operands).run ≠ none := by
  induction operands generalizing total with
  | nil => exact Option.some_ne_none _
  | cons e rest ih =>
      obtain ⟨x, hx⟩ := Option.ne_none_iff_exists'.1 (h e List.mem_cons_self)
      rw [sumWith_cons, hx, Option.bind_some]
      cases x with
      | error err => exact Option.some_ne_none _
      | ok value =>
          cases hv : value.number? with
          | error err => simp [hv]
          | ok n => simpa [hv] using ih fun e he => h e (List.mem_cons_of_mem _ he)

/-- If all names used have outcomes, so has the expression. -/
theorem evalWith_ne_none (h : ∀ name ∈ e.uses, (f name).run ≠ none) : (e.evalWith f).run ≠ none := by
  induction e using evalInduction with
  | number q => exact Option.some_ne_none _
  | boolean v => exact Option.some_ne_none _
  | set members => exact Option.some_ne_none _
  | reference name => exact h name (List.mem_singleton_self name)
  | sum operands ih =>
      apply sumWith_ne_none
      intro e he
      exact ih e he fun name hname => h name (mem_usesAll.2 ⟨e, he, hname⟩)

end Expr

namespace Bindings

variable {b : Bindings} {name : String} {k n : Nat} {r : Except EvalError Value}

/-! ## Bounds -/

theorem run_resolve_succ (b : Bindings) (k : Nat) (name : String) :
    (b.resolve (k + 1) name).run =
      match b.get name with
      | .ok e => (e.evalWith (b.resolve k)).run
      | .error err => some (.error err) := by
  rw [resolve]
  cases b.get name with
  | ok e => rfl
  | error err => rfl

/-- A larger bound keeps every outcome. -/
theorem resolve_succ_of_some (h : (b.resolve k name).run = some r) :
    (b.resolve (k + 1) name).run = some r := by
  induction k generalizing name r with
  | zero => cases h
  | succ k ih =>
      rw [run_resolve_succ] at h ⊢
      cases hget : b.get name with
      | error err => simpa only [hget] using h
      | ok e =>
          simp only [hget] at h ⊢
          exact Expr.evalWith_of_uses (fun _ _ _ hr => ih hr) r h

/-- The bound names that have an outcome. -/
def settled (b : Bindings) (k : Nat) : Finset String :=
  b.names.toFinset.filter fun name => (b.resolve k name).run.isSome

theorem card_settled_le (b : Bindings) (k : Nat) : (b.settled k).card ≤ b.size := by
  calc (b.settled k).card ≤ b.names.toFinset.card := Finset.card_filter_le ..
    _ ≤ b.names.length := List.toFinset_card_le _
    _ = b.size := length_names b

/-- Unless nothing changes any more, one bound name more has an outcome. -/
theorem resolve_eq_or_settled_lt (b : Bindings) (k : Nat) :
    b.resolve (k + 2) = b.resolve (k + 1) ∨ (b.settled (k + 1)).card < (b.settled (k + 2)).card := by
  by_cases hsame : ∀ name r, (b.resolve (k + 2) name).run = some r → (b.resolve (k + 1) name).run = some r
  · left
    funext name
    apply ExceptT.ext
    apply Option.ext
    intro r
    exact ⟨hsame name r, resolve_succ_of_some⟩
  · right
    push Not at hsame
    obtain ⟨name, r, hr, hne⟩ := hsame
    have hnone : (b.resolve (k + 1) name).run = none := by
      cases hx : (b.resolve (k + 1) name).run with
      | none => rfl
      | some x =>
          have hx' := resolve_succ_of_some hx
          rw [hr] at hx'
          cases hx'
          exact absurd hx hne
    -- a name that is not bound has its outcome at once
    obtain ⟨e, he⟩ : ∃ e, b.get name = .ok e := by
      cases hget : b.get name with
      | ok e => exact ⟨e, rfl⟩
      | error err => simp [run_resolve_succ, hget] at hnone
    apply Finset.card_lt_card
    rw [Finset.ssubset_iff_of_subset]
    · refine ⟨name, ?_, ?_⟩
      · simp [settled, hr, mem_names he]
      · simp [settled, hnone]
    · intro other hother
      simp only [settled, Finset.mem_filter, Option.isSome_iff_exists] at hother ⊢
      obtain ⟨hmem, x, hx⟩ := hother
      exact ⟨hmem, x, resolve_succ_of_some hx⟩

theorem resolve_succ_congr (h : b.resolve n = b.resolve k) : b.resolve (n + 1) = b.resolve (k + 1) := by
  funext name
  rw [resolve, resolve, h]

/-- Either nothing changes any more, or there are more names with an outcome than bounds tried. -/
theorem resolve_eq_or_lt_settled (b : Bindings) (k : Nat) :
    b.resolve (k + 2) = b.resolve (k + 1) ∨ k < (b.settled (k + 2)).card := by
  induction k with
  | zero => exact (resolve_eq_or_settled_lt b 0).imp_right Nat.zero_lt_of_lt
  | succ k ih =>
      rcases ih with heq | hlt
      · exact Or.inl (resolve_succ_congr heq)
      · exact (resolve_eq_or_settled_lt b (k + 1)).imp_right (Nat.lt_of_le_of_lt hlt)

theorem resolve_fixed (b : Bindings) : b.resolve (b.size + 2) = b.resolve (b.size + 1) := by
  rcases resolve_eq_or_lt_settled b b.size with heq | hlt
  · exact heq
  · exact absurd (card_settled_le b _) (Nat.not_le.2 hlt)

/-- From the number of bound names on, the bound changes nothing. -/
theorem resolve_stable (h : b.size < k) : b.resolve k = b.resolve (b.size + 1) := by
  induction k, h using Nat.le_induction with
  | base => rfl
  | succ k _ ih => rw [resolve_succ_congr ih, resolve_fixed]

/-! ## Equations -/

/-- The literal of a value is evaluated to that value. -/
theorem eval_toExpr (b : Bindings) (v : Value) : (b.eval v.toExpr).run = some (.ok v) := by
  cases v with
  | number q => rfl
  | boolean v => rfl
  | set members => rfl

/-- A reference is evaluated as the expression that its name is bound to. -/
theorem run_eval_reference (b : Bindings) (name : String) :
    (b.eval (.reference name)).run =
      match b.get name with
      | .ok e => (b.eval e).run
      | .error err => some (.error err) := by
  have hresolve : b.eval (.reference name) = b.resolve (b.size + 2) name := by
    rw [resolve_fixed]
    rfl
  rw [hresolve, run_resolve_succ]
  rfl

/-- A sum is the sum of its operands, or the fault of the first one that has a fault. -/
theorem run_eval_sum {operands : List Expr} (h : ∀ x ∈ operands, (b.eval x).run ≠ none) :
    (∃ values, List.Forall₂ (fun x q => (b.eval x).run = some (.ok (.number q))) operands values ∧
        (b.eval (.sum operands)).run = some (.ok (.number values.sum))) ∨
      ∃ before x after err, operands = before ++ x :: after ∧
        (∀ y ∈ before, ∃ q, (b.eval y).run = some (.ok (.number q))) ∧
        Expr.Fault (b.eval x).run err ∧ (b.eval (.sum operands)).run = some (.error err) := by
  rcases @Expr.sumWith_cases (b.resolve (b.size + 1)) operands 0 h with ⟨values, hvalues, hsum⟩ | hfault
  · rw [Rat.zero_add] at hsum
    exact Or.inl ⟨values, hvalues, hsum⟩
  · exact Or.inr hfault

end Bindings

end Formula
