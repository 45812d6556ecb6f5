import Mathlib.Data.List.Induction
import Mathlib.Data.List.Nodup

/-!
# Keys in the order of their use

A cache that drops what has not been used for the longest time, as the list of its keys, the oldest
first. How many keys are left when room is made for a new one depends on their number alone.
-/

namespace DTLite.Reasoning

open List

variable {κ : Type*} [DecidableEq κ]

/-- A key that is there moves to the end; for a new one the oldest are dropped, so that `keep n` are
left. -/
def use (keep : Nat → Nat) (keys : List κ) (key : κ) : List κ :=
  (if key ∈ keys then keys.erase key else keys.drop (keys.length - keep keys.length)) ++ [key]

variable {keep : Nat → Nat} {keys : List κ} {key : κ}

theorem use_of_mem (h : key ∈ keys) : use keep keys key = keys.erase key ++ [key] := by
  rw [use, if_pos h]

theorem use_of_not_mem (h : key ∉ keys) :
    use keep keys key = keys.drop (keys.length - keep keys.length) ++ [key] := by
  rw [use, if_neg h]

theorem mem_of_mem_use {k : κ} (h : k ∈ use keep keys key) : k ∈ keys ∨ k = key := by
  rw [use, mem_append, mem_singleton] at h
  refine h.imp_left fun h => ?_
  split at h
  · exact mem_of_mem_erase h
  · exact mem_of_mem_drop h

theorem nodup_use (h : keys.Nodup) : (use keep keys key).Nodup := by
  by_cases hmem : key ∈ keys
  · rw [use_of_mem hmem, ← concat_eq_append]
    exact (h.erase key).concat h.not_mem_erase
  · rw [use_of_not_mem hmem, ← concat_eq_append]
    have hdrop : key ∉ keys.drop (keys.length - keep keys.length) :=
      fun hdrop => hmem (mem_of_mem_drop hdrop)
    exact (h.sublist (drop_sublist _ _)).concat hdrop

theorem length_use_le : (use keep keys key).length ≤ keys.length + 1 := by
  by_cases hmem : key ∈ keys
  · rw [use_of_mem hmem, length_append, length_singleton, length_erase_of_mem hmem]
    omega
  · rw [use_of_not_mem hmem, length_append, length_singleton, length_drop]
    omega

variable {old recent : List κ} {e : κ}

section

variable (h : (old ++ e :: recent).Nodup)
include h

omit [DecidableEq κ] in
theorem not_mem_drop {n : Nat} (hn : old.length < n) : e ∉ (old ++ e :: recent).drop n := by
  rw [drop_append, drop_eq_nil_of_le (by omega)]
  obtain ⟨m, hm⟩ := Nat.exists_eq_add_of_lt hn
  rw [show n - old.length = m + 1 by omega]
  have he : e ∉ recent := (nodup_cons.mp (h.sublist (sublist_append_right _ _))).1
  exact fun hdrop => he (mem_of_mem_drop hdrop)

/-- The use of a key that is not behind `e` puts it there, or drops `e`. -/
theorem use_append (hkey : key ∉ e :: recent) :
    e ∉ use keep (old ++ e :: recent) key ∨
      ∃ old', use keep (old ++ e :: recent) key = old' ++ e :: (recent ++ [key]) := by
  have hne : e ≠ key := fun heq => hkey (heq ▸ mem_cons_self)
  by_cases hmem : key ∈ old
  · right
    refine ⟨old.erase key, ?_⟩
    rw [use_of_mem (mem_append_left _ hmem), erase_append_left _ hmem, append_assoc, cons_append]
  · have hout : key ∉ old ++ e :: recent := fun hout => (mem_append.mp hout).elim hmem hkey
    rw [use_of_not_mem hout]
    generalize (old ++ e :: recent).length - keep (old ++ e :: recent).length = n
    by_cases hn : n ≤ old.length
    · right
      refine ⟨old.drop n, ?_⟩
      rw [drop_append_of_le_length hn, append_assoc, cons_append]
    · left
      have hdrop := not_mem_drop h (Nat.lt_of_not_le hn)
      simp [hdrop, hne]

theorem not_mem_use (hkey : key ∉ old ++ e :: recent)
    (hkeep : keep (old ++ e :: recent).length ≤ recent.length) :
    e ∉ use keep (old ++ e :: recent) key := by
  have hne : e ≠ key := fun heq => hkey (heq ▸ mem_append_right _ mem_cons_self)
  have hlen : (old ++ e :: recent).length = old.length + recent.length + 1 := by
    simp [Nat.add_assoc]
  have hdrop : e ∉ (old ++ e :: recent).drop
      ((old ++ e :: recent).length - keep (old ++ e :: recent).length) := by
    apply not_mem_drop h
    omega
  rw [use_of_not_mem hkey, mem_append, mem_singleton]
  exact fun hmem => hmem.elim hdrop hne

end

theorem not_mem_uses (others : List κ) (hothers : e ∉ others) (h : e ∉ keys) :
    e ∉ others.foldl (use keep) keys := by
  induction others generalizing keys with
  | nil => exact h
  | cons o others ih =>
    obtain ⟨hne, hothers⟩ := not_or.mp fun hmem => hothers (mem_cons.mpr hmem)
    exact ih hothers fun hmem => (mem_of_mem_use hmem).elim h hne

/-- What the use of others, each once, has done to the keys: behind `e` are exactly these others,
or `e` is gone. -/
structure UsedSince (keys : List κ) (e : κ) (others keys' : List κ) : Prop where
  nodup : keys'.Nodup
  length_le : keys'.length ≤ keys.length + others.length
  mem : ∀ k ∈ keys', k ∈ keys ∨ k ∈ others
  behind : e ∉ keys' ∨ ∃ old, keys' = old ++ e :: others

theorem UsedSince.use {others keys' : List κ} {o : κ} (h : UsedSince keys e others keys')
    (ho : o ∉ others) (hne : o ≠ e) :
    UsedSince keys e (others ++ [o]) (Reasoning.use keep keys' o) where
  nodup := nodup_use h.nodup
  length_le := by
    have hle := h.length_le
    have huse := @length_use_le _ _ keep keys' o
    rw [length_append, length_singleton]
    omega
  mem k hk := by
    rw [mem_append, mem_singleton, ← or_assoc]
    exact (mem_of_mem_use hk).imp_left (h.mem k)
  behind := by
    obtain hgone | ⟨old, rfl⟩ := h.behind
    · exact .inl fun hmem => (mem_of_mem_use hmem).elim hgone (Ne.symm hne)
    · exact use_append h.nodup (by simp [ho, hne])

theorem usedSince_uses (keep : Nat → Nat) (others : List κ) (h : (old ++ [e]).Nodup)
    (hothers : others.Nodup) (he : e ∉ others) :
    UsedSince (old ++ [e]) e others (others.foldl (use keep) (old ++ [e])) := by
  induction others using reverseRecOn with
  | nil => exact ⟨h, Nat.le_refl _, fun _ => .inl, .inr ⟨old, rfl⟩⟩
  | append_singleton others o ih =>
    obtain ⟨hothers, -, ho⟩ := nodup_append.mp hothers
    obtain ⟨he, hne⟩ := not_or.mp fun hmem => he (mem_append.mpr hmem)
    rw [foldl_append]
    have hlast : o ∉ others := fun hmem => ho o hmem o mem_cons_self rfl
    exact (ih hothers he).use hlast fun heq => hne (heq ▸ mem_cons_self)

/-- The key used last is dropped if a new key after it finds no room for more than the keys before
it. -/
theorem not_mem_uses_of_full {before after : List κ} {o : κ} (h : (old ++ [e]).Nodup)
    (hothers : (before ++ o :: after).Nodup) (he : e ∉ before ++ o :: after)
    (ho : o ∉ old ++ [e])
    (hkeep : ∀ n, before.length < n → n ≤ (old ++ [e]).length + before.length →
      keep n ≤ before.length) :
    e ∉ (before ++ o :: after).foldl (use keep) (old ++ [e]) := by
  obtain ⟨hbefore, hafter, hdisjoint⟩ := nodup_append.mp hothers
  obtain ⟨hebefore, heafter⟩ := not_or.mp fun hmem => he (mem_append.mpr hmem)
  have hused := usedSince_uses keep before h hbefore hebefore
  rw [foldl_append, foldl_cons]
  apply not_mem_uses
  · exact fun hmem => heafter (mem_cons_of_mem o hmem)
  · have hnew : o ∉ before.foldl (use keep) (old ++ [e]) := fun hmem =>
      (hused.mem o hmem).elim ho fun hmem => hdisjoint o hmem o mem_cons_self rfl
    obtain hgone | ⟨old', heq⟩ := hused.behind
    · exact fun hmem => (mem_of_mem_use hmem).elim hgone fun heq =>
        heafter (heq ▸ mem_cons_self)
    · have hnodup := hused.nodup
      have hle := hused.length_le
      rw [heq] at hnew hnodup hle ⊢
      apply not_mem_use hnodup hnew
      apply hkeep _ _ hle
      simp only [length_append, length_cons]
      omega

end DTLite.Reasoning
