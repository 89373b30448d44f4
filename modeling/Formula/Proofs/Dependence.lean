import Formula.Proofs.Meaning

/-!
# `Formula.Proofs.Dependence` — what the outcome of an evaluation depends on

An outcome depends on the names that the expression reaches and on what they are bound to, and on
nothing else: not on other names, and not on whether a name is a variable or a constant. A reference
can be replaced by the expression that its name is bound to.

## Contents
- **Agreement.** `Bindings.Alike`, `Bindings.eval_of_agreement`.
- **Changes.** `Bindings.Change.eval_eq`.
- **Replacement.** `Bindings.Inlines`, `Inlines.eval_eq`.
- **Dependence.** `Bindings.eval_depends_on_reach`.
-/

namespace Formula.Bindings

variable {b b' c d : Bindings} {e e' : Expr} {name : String}

/-! ## Agreement -/

/-- A name is bound to the same expression on both sides, or on neither. -/
def Alike (c d : Bindings) (name : String) : Prop :=
  (∃ e, c.get name = .ok e ∧ d.get name = .ok e) ∨
    (∃ err, c.get name = .error err) ∧ ∃ err, d.get name = .error err

theorem Alike.get_eq (h : Alike c d name) : c.get name = d.get name := by
  rcases h with ⟨e, hc, hd⟩ | ⟨⟨err, hc⟩, ⟨err', hd⟩⟩
  · rw [hc, hd]
  · rw [hc, hd, (get_eq_error_iff.1 hc).1, (get_eq_error_iff.1 hd).1]

theorem resolve_of_agreement (h : ∀ name, c.Reaches e name → c.get name = d.get name) (k : Nat)
    (hname : c.Reaches e name) : c.resolve k name = d.resolve k name := by
  induction k generalizing name with
  | zero => rfl
  | succ k ih =>
      apply ExceptT.ext
      rw [run_resolve_succ, run_resolve_succ, ← h name hname]
      cases hget : c.get name with
      | error err => rfl
      | ok e' =>
          -- what the bound expression looks up is reached as well
          have hcongr : e'.evalWith (c.resolve k) = e'.evalWith (d.resolve k) :=
            Expr.evalWith_congr fun next hnext => ih (hname.leads (leads_iff.2 ⟨e', hget, hnext⟩))
          simp only [hcongr]

/-- Bindings that agree on the names reached give the same outcome. -/
theorem eval_of_agreement (h : ∀ name, c.Reaches e name → c.get name = d.get name) :
    c.eval e = d.eval e := by
  -- a bound that is enough on both sides
  have hc : c.size < c.size + d.size + 1 := by omega
  have hd : d.size < c.size + d.size + 1 := by omega
  calc c.eval e = e.evalWith (c.resolve (c.size + d.size + 1)) := by rw [resolve_stable hc, eval]
    _ = e.evalWith (d.resolve (c.size + d.size + 1)) :=
        Expr.evalWith_congr fun name hname => resolve_of_agreement h _ (reaches_of_uses hname)
    _ = d.eval e := by rw [resolve_stable hd, eval]

/-! ## Changes -/

/-- A change is without effect when its name is not reached. -/
theorem Change.eval_eq (h : Change b name b') (hname : ¬ b.Reaches e name) : b'.eval e = b.eval e := by
  refine (eval_of_agreement fun other hother => ?_).symm
  have hne : other ≠ name := fun heq => hname (heq ▸ hother)
  rw [h.get_of_ne hne]

/-! ## Replacement -/

/-- In an expression, or in a sum at any depth, a reference is replaced by the expression that its name
    is bound to. -/
inductive Inlines (b : Bindings) : Expr → Expr → Prop where
  | reference {name : String} {e : Expr} (h : b.get name = .ok e) : Inlines b (.reference name) e
  | operand {before after : List Expr} {e e' : Expr} (h : Inlines b e e') :
      Inlines b (.sum (before ++ e :: after)) (.sum (before ++ e' :: after))

theorem sumWith_replace {f : String → Outcome Value} (h : e.evalWith f = e'.evalWith f) (total : Rat)
    (before after : List Expr) :
    (Expr.sumWith f total (before ++ e :: after)).run = (Expr.sumWith f total (before ++ e' :: after)).run := by
  induction before generalizing total with
  | nil => rw [List.nil_append, List.nil_append, Expr.sumWith_cons, Expr.sumWith_cons, h]
  | cons x before ih =>
      rw [List.cons_append, List.cons_append, Expr.sumWith_cons, Expr.sumWith_cons]
      simp only [ih]

/-- A replacement leaves the outcome as it is. -/
theorem Inlines.eval_eq (h : b.Inlines e e') : b.eval e' = b.eval e := by
  induction h with
  | reference hget =>
      apply ExceptT.ext
      rw [run_eval_reference, hget]
  | operand _ ih => exact ExceptT.ext (sumWith_replace ih 0 _ _)

/-! ## Dependence -/

/-- What an evaluation depends on when references do not go round. It has the same outcome for any other
    bindings that bind the names it reaches to the same expressions or to nothing likewise, as variables
    or as constants. Changes under other names do not matter to it, nor does the replacement of
    references, however many, by what they are bound to. -/
theorem eval_depends_on_reach (c : Bindings) (e : Expr) (acyclic : c.Acyclic e) :
    (∀ d : Bindings, (∀ name, c.Reaches e name → Alike c d name) →
        ∃ r, (c.eval e).run = some r ∧ (d.eval e).run = some r) ∧
      (∀ name c', Change c name c' → ¬ c.Reaches e name → (c'.eval e).run = (c.eval e).run) ∧
      ∀ e', Relation.ReflTransGen c.Inlines e e' → (c.eval e').run = (c.eval e).run := by
  refine ⟨?_, ?_, ?_⟩
  · intro d halike
    obtain ⟨r, hr⟩ := Option.ne_none_iff_exists'.1 (run_eval_ne_none acyclic)
    rw [← eval_of_agreement fun name hname => (halike name hname).get_eq]
    exact ⟨r, hr, hr⟩
  · intro name c' hchange hname
    rw [hchange.eval_eq hname]
  · intro e' hinlines
    induction hinlines with
    | refl => rfl
    | tail _ hlast ih => rw [hlast.eval_eq, ih]

/-- The sum of two references, one to a variable that refers to the constant that the other refers to.
    It reaches no set. So the set may be removed, the variable may be a constant and the constant a
    variable, and the reference may be put in place of the variable. -/
theorem sum_without_circular_set :
    circularSet.Acyclic (.sum [.reference "x", .reference "one"]) ∧
      (∃ r, (circularSet.eval (.sum [.reference "x", .reference "one"])).run = some r ∧
        (Bindings.eval ⟨(∅ : Std.TreeMap String Expr).insert "one" (.number 1),
            (∅ : Std.TreeMap String Expr).insert "x" (.reference "one")⟩
          (.sum [.reference "x", .reference "one"])).run = some r) ∧
      (∃ c', circularSet.removeVariable "s" = .ok (.set [.reference "s"], c') ∧
        (c'.eval (.sum [.reference "x", .reference "one"])).run =
          (circularSet.eval (.sum [.reference "x", .reference "one"])).run) ∧
      (circularSet.eval (.sum [.reference "one", .reference "one"])).run =
        (circularSet.eval (.sum [.reference "x", .reference "one"])).run := by
  have hacyclic : circularSet.Acyclic (.sum [.reference "x", .reference "one"]) :=
    acyclic_of_rank (fun name => if name = "x" then 1 else 0) (by decide) _
  have hmem : ∀ name, circularSet.Reaches (.sum [.reference "x", .reference "one"]) name →
      name ∈ ["x", "one"] := fun name h => h.mem (by decide) (by decide)
  obtain ⟨hagree, hchange, hreplace⟩ := eval_depends_on_reach circularSet _ hacyclic
  refine ⟨hacyclic, hagree _ ?_, ⟨_, rfl, hchange "s" _ (.removeVariable rfl) ?_⟩, hreplace _ (.single ?_)⟩
  · intro name hname
    have hname := hmem name hname
    simp only [List.mem_cons, List.not_mem_nil, or_false] at hname
    rcases hname with rfl | rfl
    · exact Or.inl ⟨.reference "one", rfl, rfl⟩
    · exact Or.inl ⟨.number 1, rfl, rfl⟩
  · intro hs
    exact absurd (hmem "s" hs) (by decide)
  · have hx : circularSet.Inlines (.reference "x") (.reference "one") := .reference rfl
    have hsum : circularSet.Inlines (.sum ([] ++ .reference "x" :: [.reference "one"]))
        (.sum ([] ++ .reference "one" :: [.reference "one"])) := .operand hx
    exact hsum

end Formula.Bindings
