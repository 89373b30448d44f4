import Formula.Proofs.Lexemes

/-!
# `Formula.Proofs.Requests` — asking a lexer again and again

## Contents
- **Requests in a row.** `after`, the lexer that they leave, and `results`, their answers.
- **Ends.** `next_of_halted`, `next_of_none`: nothing follows the last token.
- **Lists.** `toList` and `collect`, one request at a time; `results_toList`, the answers to all
  requests.
-/

namespace Formula.Lexer

variable {l l' : Lexer} {t : Token}

/-! ## Requests in a row -/

/-- The lexer after a number of requests. -/
def after : Nat → Lexer → Lexer
  | 0, l => l
  | k + 1, l => after k l.next.2

/-- The answers to a number of requests. -/
def results : Nat → Lexer → List (Option Token)
  | 0, _ => []
  | k + 1, l => l.next.1 :: results k l.next.2

theorem after_succ (k : Nat) (l : Lexer) : after (k + 1) l = (after k l).next.2 := by
  induction k generalizing l with
  | zero => rfl
  | succ k ih => exact ih l.next.2

theorem results_succ (k : Nat) (l : Lexer) :
    results (k + 1) l = results k l ++ [(after k l).next.1] := by
  induction k generalizing l with
  | zero => rfl
  | succ k ih =>
      show l.next.1 :: results (k + 1) l.next.2 = _
      rw [ih l.next.2]
      rfl

@[simp] theorem length_results (k : Nat) (l : Lexer) : (results k l).length = k := by
  induction k generalizing l with
  | zero => rfl
  | succ k ih => simp [results, ih]

theorem take_results (k n : Nat) (l : Lexer) : (results (k + n) l).take k = results k l := by
  induction k generalizing l with
  | zero => rfl
  | succ k ih =>
      rw [Nat.succ_add]
      show l.next.1 :: (results (k + n) l.next.2).take k = _
      rw [ih]
      rfl

/-! ## Ends -/

/-- A lexer that goes on in no state and has handed out everything stays as it is. -/
theorem next_of_ended (hp : l.tokens.pending = []) (hm : ∀ st, l.mode ≠ .active st) :
    l.next = (none, l) := by
  rw [next]
  simp only [TokenQueue.pop, hp]
  split
  · next st hst => exact absurd hst (hm st)
  · rfl
  · rfl

theorem next_of_halted (hp : l.tokens.pending = []) (hm : l.mode = .halted) : l.next = (none, l) := by
  apply next_of_ended hp
  intro st hst
  rw [hm] at hst
  cases hst

theorem after_of_halted (hp : l.tokens.pending = []) (hm : l.mode = .halted) (k : Nat) :
    after k l = l := by
  induction k with
  | zero => rfl
  | succ k ih => rw [after_succ, ih, next_of_halted hp hm]

theorem pending_of_pop {q q' : TokenQueue} (h : q.pop = (none, q')) : q.pending = [] := by
  unfold TokenQueue.pop at h
  split at h
  · next hq => exact hq
  · cases h

/-- Once there is no token, nothing changes any more. -/
theorem next_of_none (h : l.next = (none, l')) : l'.next = (none, l') := by
  fun_induction next l with
  | case1 => cases h
  | case2 _ _ _ _ _ ih => exact ih h
  | case3 _ _ hq hm =>
      cases h
      exact next_of_halted (pending_of_pop hq) hm
  | case4 _ _ hq _ hm =>
      cases h
      apply next_of_ended (pending_of_pop hq)
      intro st hst
      rw [hm] at hst
      cases hst

theorem results_of_none (h : l.next = (none, l')) (k : Nat) : results k l = List.replicate k none := by
  induction k generalizing l with
  | zero => rfl
  | succ k ih =>
      have hrest : results k l' = List.replicate k none := ih (next_of_none h)
      rw [results, h, hrest, List.replicate_succ]

theorem results_of_halted (hp : l.tokens.pending = []) (hm : l.mode = .halted) (k : Nat) :
    results k l = List.replicate k none :=
  results_of_none (next_of_halted hp hm) k

/-! ## Lists -/

theorem toList_of_some (h : l.next = (some t, l')) : l.toList = t :: l'.toList := by
  rw [toList]
  split
  · next t' l'' h' =>
      rw [h] at h'
      cases h'
      rfl
  · next l'' h' =>
      rw [h] at h'
      cases h'

theorem toList_of_none (h : l.next = (none, l')) : l.toList = [] := by
  rw [toList]
  split
  · next t' l'' h' =>
      rw [h] at h'
      cases h'
  · rfl

/-- The answers to requests are the tokens, and then nothing, however often it is asked for. -/
theorem results_toList (l : Lexer) (k : Nat) :
    results (l.toList.length + k) l = l.toList.map some ++ List.replicate k none := by
  fun_induction toList l with
  | case1 l t l' hnext ih =>
      have hlen : (t :: l'.toList).length + k = l'.toList.length + k + 1 := Nat.succ_add _ k
      rw [hlen, results, hnext, ih]
      rfl
  | case2 l l' hnext =>
      show results (0 + k) l = List.replicate k none
      rw [Nat.zero_add, results_of_none hnext]

theorem collect_of_none (h : l.next = (none, l')) : l.collect = .ok [] := by
  rw [collect]
  split
  · rfl
  · next t' l'' h' =>
      rw [h] at h'
      cases h'

/-- A token that reports no error is collected. -/
theorem collect_of_some (h : l.next = (some t, l')) (ht : t.isError = false) :
    l.collect = (do return t :: (← l'.collect)) := by
  rw [collect]
  split
  · next l'' h' =>
      rw [h] at h'
      cases h'
  · next t' l'' h' =>
      rw [h] at h'
      cases h'
      simp [ht]

/-- A report of an error ends the collection with the recorded error. -/
theorem collect_of_error {e : LexError} (h : l.next = (some t, l')) (ht : t.isError)
    (he : l'.error = some e) : l.collect = .error e := by
  rw [collect]
  split
  · next l'' h' =>
      rw [h] at h'
      cases h'
  · next t' l'' h' =>
      rw [h] at h'
      cases h'
      simp [ht, he]

end Formula.Lexer
