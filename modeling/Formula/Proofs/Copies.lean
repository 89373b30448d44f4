import Formula.Proofs.Bindings

/-!
# `Formula.Proofs.Copies` — bindings, their copies, and what becomes of a constant

Bindings can be copied, and work can go on with any copy. All copies that there are make up the state
of such a history; one of them is in use, and only that one is changed. A copy goes its own way from
the moment it is taken: no change of another copy reaches it. So no name is ever both a variable and a
constant, in no copy, and a constant stays what it is in the copy where it was bound and in all that
are taken from that one later.

## Contents
- **Copies.** `Copies`, `Copies.start`, `Copies.inUse`, `Copies.put`, `Copies.clone`.
- **Histories.** `Copies.Action`, `Copies.perform`, `Copies.after`, `Copies.run`.
- **Steps.** `Copies.Step` is all that an action can do (`step_after`); `Step.store`, `Step.of_mem`.
- **Constants.** `Copies.Heir`: a copy at a later time, or one taken from it; `Heir.of_const`.
- **Other copies.** `Copies.Spared`, `Spared.store`.
- **Histories from the start.** `constants_stay_in_every_copy`.
-/

namespace Formula

open Bindings

/-! ## Copies -/

/-- All copies that there are, and which of them is in use. -/
structure Copies where
  stores : List Bindings
  current : Nat
  current_lt : current < stores.length

namespace Copies

/-- One copy, in which nothing is bound. -/
def start : Copies := ⟨[Bindings.empty], 0, Nat.zero_lt_one⟩

/-- The copy in use. -/
def inUse (s : Copies) : Bindings := s.stores.get ⟨s.current, s.current_lt⟩

/-- Other bindings in place of the copy in use. -/
def put (s : Copies) (b : Bindings) : Copies :=
  ⟨s.stores.set s.current b, s.current, by rw [List.length_set]; exact s.current_lt⟩

/-- One more copy of the one in use, which stays in use. -/
def clone (s : Copies) : Copies :=
  ⟨s.stores ++ [s.inUse], s.current, by
    rw [List.length_append]
    exact Nat.lt_add_right _ s.current_lt⟩

variable {s t : Copies} {i j : Nat} {b b' : Bindings} {name : String} {e : Expr}

theorem getElem?_current (s : Copies) : s.stores[s.current]? = some s.inUse :=
  List.getElem?_eq_getElem s.current_lt

/-! ## Histories -/

/-- What can be done with the copies. -/
inductive Action where
  /-- Changes of the copy in use. -/
  | setVariable (name : String) (e : Expr)
  | setConstant (name : String) (e : Expr)
  | removeVariable (name : String)
  /-- Takes a copy of the one in use. -/
  | clone
  /-- Goes on with another copy, if there is one of that number. -/
  | switch (index : Nat)

/-- The action is about what is bound. -/
def Action.isChange : Action → Bool
  | .setVariable _ _ | .setConstant _ _ | .removeVariable _ => true
  | .clone | .switch _ => false

/-- Carries out an action, or says why it cannot be carried out. -/
def perform (s : Copies) : Action → Except EvalError Copies
  | .setVariable name e => (s.inUse.setVariable name e).map s.put
  | .setConstant name e => (s.inUse.setConstant name e).map s.put
  | .removeVariable name => (s.inUse.removeVariable name).map fun removed => s.put removed.2
  | .clone => .ok s.clone
  | .switch index => .ok (if h : index < s.stores.length then ⟨s.stores, index, h⟩ else s)

/-- The copies after an action; one that fails leaves them as they are. -/
def after (s : Copies) (a : Action) : Copies :=
  match s.perform a with
  | .ok t => t
  | .error _ => s

/-- The copies after a row of actions. -/
def run (s : Copies) (as : List Action) : Copies := as.foldl after s

/-! ## Steps -/

/-- What an action can do: change the copy in use, add a copy, use another copy, or nothing. -/
inductive Step (s : Copies) : Action → Copies → Prop where
  | change {a : Action} {name : String} {b : Bindings} (ha : a.isChange) (h : Change s.inUse name b) :
      Step s a (s.put b)
  | clone : Step s .clone s.clone
  | switch (index : Nat) (h : index < s.stores.length) :
      Step s (.switch index) ⟨s.stores, index, h⟩
  | idle (a : Action) : Step s a s

theorem of_map_ok {α β : Type} {x : Except EvalError α} {f : α → β} {y : β} (h : x.map f = .ok y) :
    ∃ z, x = .ok z ∧ f z = y := by
  cases x with
  | error err => cases h
  | ok z => exact ⟨z, rfl, Except.ok.inj h⟩

theorem step_of_perform {a : Action} (h : s.perform a = .ok t) : Step s a t := by
  cases a with
  | setVariable name e =>
      obtain ⟨b, hb, rfl⟩ := of_map_ok h
      exact .change rfl (.setVariable hb)
  | setConstant name e =>
      obtain ⟨b, hb, rfl⟩ := of_map_ok h
      exact .change rfl (.setConstant hb)
  | removeVariable name =>
      obtain ⟨removed, hremoved, rfl⟩ := of_map_ok h
      exact .change rfl (.removeVariable hremoved)
  | clone =>
      cases h
      exact .clone
  | switch index =>
      cases h
      split
      · next h => exact .switch index h
      · exact .idle _

theorem step_after (s : Copies) (a : Action) : Step s a (s.after a) := by
  unfold after
  split
  · next t h => exact step_of_perform h
  · exact .idle a

/-- In a step, a copy stays as it is, unless it is the one in use, which may be changed. -/
theorem Step.store {a : Action} (h : Step s a t) (hj : s.stores[j]? = some b) :
    ∃ b', t.stores[j]? = some b' ∧
      (b' = b ∨ (a.isChange ∧ s.current = j) ∧ ∃ name, Change b name b') := by
  cases h with
  | @change a name c ha hc =>
      by_cases hcurrent : s.current = j
      · subst hcurrent
        rw [getElem?_current] at hj
        cases hj
        exact ⟨c, List.getElem?_set_self s.current_lt, Or.inr ⟨⟨ha, rfl⟩, name, hc⟩⟩
      · exact ⟨b, by rw [put, List.getElem?_set_ne hcurrent, hj], Or.inl rfl⟩
  | clone =>
      have hlt := (List.getElem?_eq_some_iff.1 hj).1
      exact ⟨b, by rw [Copies.clone, List.getElem?_append_left hlt, hj], Or.inl rfl⟩
  | switch => exact ⟨b, hj, Or.inl rfl⟩
  | idle => exact ⟨b, hj, Or.inl rfl⟩

/-- Every copy after a step was a copy before, or comes from one by a change. -/
theorem Step.of_mem {a : Action} (h : Step s a t) (hb : b' ∈ t.stores) :
    ∃ b ∈ s.stores, b' = b ∨ ∃ name, Change b name b' := by
  have hinUse : s.inUse ∈ s.stores := List.get_mem ..
  cases h with
  | @change a name c ha hc =>
      rcases List.mem_or_eq_of_mem_set hb with hb | rfl
      · exact ⟨b', hb, Or.inl rfl⟩
      · exact ⟨s.inUse, hinUse, Or.inr ⟨name, hc⟩⟩
  | clone =>
      rw [Copies.clone, List.mem_append, List.mem_singleton] at hb
      rcases hb with hb | rfl
      · exact ⟨b', hb, Or.inl rfl⟩
      · exact ⟨s.inUse, hinUse, Or.inl rfl⟩
  | switch => exact ⟨b', hb, Or.inl rfl⟩
  | idle => exact ⟨b', hb, Or.inl rfl⟩

/-! ## Constants -/

theorem Step.exclusive {a : Action} (h : Step s a t) (hs : ∀ b ∈ s.stores, Exclusive b) :
    ∀ b ∈ t.stores, Exclusive b := by
  intro b' hb'
  obtain ⟨b, hb, rfl | ⟨name, hchange⟩⟩ := h.of_mem hb'
  · exact hs _ hb
  · exact hchange.exclusive (hs b hb)

/-- In no copy of a history is a name both a variable and a constant. -/
theorem exclusive_run (as : List Action) (hs : ∀ b ∈ s.stores, Exclusive b) :
    ∀ b ∈ (s.run as).stores, Exclusive b := by
  induction as generalizing s with
  | nil => exact hs
  | cons a as ih => exact ih ((step_after s a).exclusive hs)

theorem exclusive_start : ∀ b ∈ start.stores, Exclusive b := by
  intro b hb
  rw [List.mem_singleton.1 hb]
  exact exclusive_empty

/-- Copy `j` of the later copies is copy `i` of the earlier ones, or was taken from it since, or from
    a copy that was taken from it since. -/
inductive Heir (s : Copies) (i : Nat) : Copies → Nat → Prop where
  | self : Heir s i s i
  | later {t : Copies} {j : Nat} (a : Action) (h : Heir s i t j) : Heir s i (t.after a) j
  | clone {t : Copies} (h : Heir s i t t.current) : Heir s i (t.after .clone) t.stores.length

theorem Heir.run (h : Heir s i t j) (as : List Action) : Heir s i (t.run as) j := by
  induction as generalizing t with
  | nil => exact h
  | cons a as ih => exact ih (h.later a)

/-- What was a constant is one in every heir, bound to the same expression. -/
theorem Heir.of_const (h : Heir s i t j) (hi : s.stores[i]? = some b)
    (hc : b.consts[name]? = some e) (hb : Exclusive b) :
    ∃ b', t.stores[j]? = some b' ∧ b'.consts[name]? = some e ∧ Exclusive b' := by
  induction h with
  | self => exact ⟨b, hi, hc, hb⟩
  | @later t j a _ ih =>
      obtain ⟨b₁, hj, hc₁, hb₁⟩ := ih
      obtain ⟨b₂, hj₂, rfl | ⟨-, other, hchange⟩⟩ := (step_after t a).store hj
      · exact ⟨b₂, hj₂, hc₁, hb₁⟩
      · exact ⟨b₂, hj₂, hchange.consts_of_some hc₁, hchange.exclusive hb₁⟩
  | @clone t _ ih =>
      obtain ⟨b₁, hj, hc₁, hb₁⟩ := ih
      rw [getElem?_current] at hj
      cases hj
      exact ⟨t.inUse, List.getElem?_concat_length, hc₁, hb₁⟩

/-- A constant that was bound is in the copy in use. -/
theorem const_of_perform (h : s.perform (.setConstant name e) = .ok t) :
    t.inUse.consts[name]? = some e := by
  obtain ⟨b, hb, rfl⟩ := of_map_ok h
  obtain ⟨-, -, rfl⟩ := setConstant_eq_ok_iff.1 hb
  simp [put, inUse]

/-! ## Other copies -/

/-- In a row of actions, no change is made while the copy is in use. -/
def Spared (j : Nat) : Copies → List Action → Prop
  | _, [] => True
  | s, a :: as => (a.isChange → s.current ≠ j) ∧ Spared j (s.after a) as

instance decidableSpared (j : Nat) (s : Copies) (as : List Action) : Decidable (Spared j s as) :=
  match as with
  | [] => isTrue trivial
  | a :: as => @instDecidableAnd _ _ _ (decidableSpared j (s.after a) as)

/-- A copy stays as it is while others are changed. -/
theorem Spared.store {as : List Action} (h : Spared j s as) (hj : s.stores[j]? = some b) :
    (s.run as).stores[j]? = some b := by
  induction as generalizing s with
  | nil => exact hj
  | cons a as ih =>
      obtain ⟨b', hj', rfl | ⟨⟨ha, hcurrent⟩, -⟩⟩ := (step_after s a).store hj
      · exact ih h.2 hj'
      · exact absurd hcurrent (h.1 ha)

/-! ## Histories from the start -/

/-- Whatever has been done since the start: no name is a variable and a constant in the same copy. A
    constant that is bound now is that constant in the same copy from then on, and in every copy that is
    taken of it from then on. A copy is taken with all that is bound, and from then on the changes of
    other copies do not reach it. -/
theorem constants_stay_in_every_copy (as : List Action) :
    (∀ b ∈ (start.run as).stores, ∀ name, ¬ (b.hasVariable name ∧ b.hasConstant name)) ∧
      (∀ name e s, (start.run as).perform (.setConstant name e) = .ok s →
        ∀ t j, Heir s s.current t j →
          ∃ b, t.stores[j]? = some b ∧ b.get name = .ok e ∧
            b.hasConstant name = true ∧ b.hasVariable name = false) ∧
      ((start.run as).after .clone).stores = (start.run as).stores ++ [(start.run as).inUse] ∧
      ∀ j b, (start.run as).stores[j]? = some b →
        ∀ bs, Spared j (start.run as) bs → ((start.run as).run bs).stores[j]? = some b := by
  have hexclusive := exclusive_run as exclusive_start
  refine ⟨hexclusive, ?_, rfl, ?_⟩
  · intro name e s hs t j hheir
    have hinUse : Exclusive s.inUse := by
      apply (step_of_perform hs).exclusive hexclusive
      exact List.get_mem ..
    obtain ⟨b, hj, hc, hb⟩ :=
      hheir.of_const (getElem?_current s) (const_of_perform hs) hinUse
    exact ⟨b, hj, hb.of_const hc⟩
  · intro j b hj bs hspared
    exact hspared.store hj

/-- A constant stands in a copy taken later, where it can be neither replaced nor removed; and what is
    done to that copy does not reach the bindings it was taken from. -/
theorem constant_stays_in_later_copy :
    (start.run [.setVariable "x" (.boolean true)]).perform (.setConstant "k" (.number 2)) =
        .ok (start.run [.setVariable "x" (.boolean true), .setConstant "k" (.number 2)]) ∧
      (∃ b, (start.run [.setVariable "x" (.boolean true), .setConstant "k" (.number 2), .clone, .switch 1,
            .setVariable "k" (.boolean false), .removeVariable "k"]).stores[1]? = some b ∧
          b.get "k" = .ok (.number 2) ∧ b.hasConstant "k" = true ∧ b.hasVariable "k" = false) ∧
      Spared 0 (start.run [.setVariable "x" (.boolean true)]) [.clone, .switch 1, .removeVariable "x"] ∧
      ∃ b, (start.run [.setVariable "x" (.boolean true)]).stores[0]? = some b ∧
        (start.run [.setVariable "x" (.boolean true), .clone, .switch 1,
          .removeVariable "x"]).stores[0]? = some b := by
  have hall := constants_stay_in_every_copy [.setVariable "x" (.boolean true)]
  refine ⟨rfl, hall.2.1 _ _ _ rfl _ 1 ?_, by decide, _, rfl, hall.2.2.2 0 _ rfl _ (by decide)⟩
  have hcopy : Heir (start.run [.setVariable "x" (.boolean true), .setConstant "k" (.number 2)]) 0 _ 1 :=
    .clone .self
  exact hcopy.run [.switch 1, .setVariable "k" (.boolean false), .removeVariable "k"]

end Copies

end Formula
