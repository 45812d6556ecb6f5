import Mathlib.Data.List.Basic

/-! Keyed assignments replayed in order: the last one for a key decides its value. -/

namespace DTLite.Reasoning

open List Function

section LastWins

variable {α β γ κ : Type*} [DecidableEq κ] (key : α → κ)

/-- The last entry of `l` for the key `k`. -/
def lastFor (k : κ) (l : List α) : Option α := (l.filter (fun x => key x = k)).getLast?

theorem lastFor_append (k : κ) (l₁ l₂ : List α) :
    lastFor key k (l₁ ++ l₂) = (lastFor key k l₂).or (lastFor key k l₁) := by
  simp [lastFor]

theorem lastFor_singleton (k : κ) (x : α) :
    lastFor key k [x] = if key x = k then some x else none := by
  by_cases h : key x = k <;> simp [lastFor]

variable {k : κ} {x : α}

theorem lastFor_concat_self (l : List α) (hx : key x = k) : lastFor key k (l ++ [x]) = some x := by
  rw [lastFor_append, lastFor_singleton, if_pos hx, Option.some_or]

theorem lastFor_concat_ne (l : List α) (hx : key x ≠ k) :
    lastFor key k (l ++ [x]) = lastFor key k l := by
  rw [lastFor_append, lastFor_singleton, if_neg hx, Option.none_or]

theorem lastFor_cons (k : κ) (x : α) (l : List α) :
    lastFor key k (x :: l) = (lastFor key k l).or (if key x = k then some x else none) := by
  rw [← lastFor_singleton key k x, ← lastFor_append, singleton_append]

theorem mem_of_lastFor {l : List α} (h : lastFor key k l = some x) : x ∈ l ∧ key x = k := by
  have hmem := mem_of_getLast? h
  rw [mem_filter] at hmem
  exact ⟨hmem.1, of_decide_eq_true hmem.2⟩

theorem lastFor_eq_none_iff {l : List α} : lastFor key k l = none ↔ ∀ x ∈ l, key x ≠ k := by
  rw [lastFor, getLast?_eq_none_iff, filter_eq_nil_iff]
  simp

/-- An entry is put on top of the list, or in place of the top entry of the same key. -/
theorem lastFor_put {l pre : List α}
    (hpre : pre = l ∨ ∃ y, l = pre ++ [y] ∧ key y = key x) (k : κ) :
    lastFor key k (pre ++ [x]) = if key x = k then some x else lastFor key k l := by
  by_cases hx : key x = k
  · rw [if_pos hx, lastFor_concat_self key _ hx]
  · rw [if_neg hx, lastFor_concat_ne key _ hx]
    rcases hpre with rfl | ⟨y, rfl, hy⟩
    · rfl
    · rw [lastFor_concat_ne key _ (hy ▸ hx)]

/-- Replaying assignments over a table, seen through one observation of the records: the last
assignment to a key decides. -/
theorem foldl_update_lastFor {upd : α → β → β} {obs : β → γ} {val : α → γ}
    (hupd : ∀ x b, obs (upd x b) = val x) (l : List α) (t : κ → β) (k : κ) :
    obs (l.foldl (fun t x => update t (key x) (upd x (t (key x)))) t k)
      = ((lastFor key k l).map val).getD (obs (t k)) := by
  induction l generalizing t with
  | nil => rfl
  | cons x l ih =>
    rw [foldl_cons, ih, lastFor_cons]
    by_cases hx : key x = k
    · subst hx
      rw [update_self, hupd]
      cases lastFor key (key x) l <;> simp
    · rw [update_of_ne (Ne.symm hx), if_neg hx, Option.or_none]

theorem foldl_update_frame {upd : α → β → β} {obs : β → γ}
    (hupd : ∀ x b, obs (upd x b) = obs b) (l : List α) (t : κ → β) (k : κ) :
    obs (l.foldl (fun t x => update t (key x) (upd x (t (key x)))) t k) = obs (t k) := by
  induction l generalizing t with
  | nil => rfl
  | cons x l ih =>
    rw [foldl_cons, ih]
    by_cases hx : k = key x
    · subst hx
      rw [update_self, hupd]
    · rw [update_of_ne hx]

/-- Applying an idempotent update at each of a list of keys applies it once at every key listed. -/
theorem foldl_update_idem {f : β → β} (hf : ∀ b, f (f b) = f b) (l : List κ) (t : κ → β) (k : κ) :
    l.foldl (fun t k => update t k (f (t k))) t k = if k ∈ l then f (t k) else t k := by
  induction l generalizing t with
  | nil => rfl
  | cons x l ih =>
    rw [foldl_cons, ih]
    by_cases hx : k = x
    · subst hx
      simp [hf]
    · simp [hx]

theorem foldl_update_each {l : List κ} (hnodup : l.Nodup) (f : κ → β → β) (t : κ → β) (k : κ) :
    l.foldl (fun t k => update t k (f k (t k))) t k = if k ∈ l then f k (t k) else t k := by
  induction l generalizing t with
  | nil => rfl
  | cons x l ih =>
    obtain ⟨hx, hnodup⟩ := nodup_cons.mp hnodup
    rw [foldl_cons, ih hnodup]
    by_cases hk : k = x
    · subst hk
      rw [if_neg hx, update_self, if_pos mem_cons_self]
    · simp [hk]

end LastWins

end DTLite.Reasoning
