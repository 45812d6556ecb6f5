import Mathlib.Algebra.Order.BigOperators.Group.List
import Mathlib.Algebra.Order.Group.Nat

/-! Sums over the entries of a list, and how they change with one entry. -/

namespace DTLite.Reasoning

open List Function

universe u v

variable {α : Type u} {β : Type v}

def total (f : α → Nat) (l : List α) : Nat :=
  l.foldr (fun a n => f a + n) 0

@[simp]
theorem total_nil (f : α → Nat) : total f [] = 0 := rfl

@[simp]
theorem total_cons (f : α → Nat) (a : α) (l : List α) : total f (a :: l) = f a + total f l := rfl

variable {f g : α → Nat} {l : List α} {a : α}

theorem total_eq_foldr : total f l = (l.map f).foldr (· + ·) 0 := foldr_map.symm

theorem total_congr (h : ∀ a ∈ l, f a = g a) : total f l = total g l := by
  rw [total_eq_foldr, total_eq_foldr, map_congr_left h]

theorem le_total_of_mem (h : a ∈ l) : f a ≤ total f l := by
  rw [total_eq_foldr]
  exact le_sum_of_mem (mem_map_of_mem h)

theorem total_le_total (h : ∀ a ∈ l, f a ≤ g a) : total f l ≤ total g l := by
  rw [total_eq_foldr, total_eq_foldr]
  exact sum_le_sum h

theorem total_lt_total (h : ∀ a ∈ l, f a ≤ g a) {b : α} (hb : b ∈ l) (hlt : f b < g b) :
    total f l < total g l := by
  rw [total_eq_foldr, total_eq_foldr]
  exact sum_lt_sum f g h ⟨b, hb, hlt⟩

theorem total_le_of_sublist {l' : List α} (h : l'.Sublist l) : total f l' ≤ total f l := by
  rw [total_eq_foldr, total_eq_foldr]
  exact (h.map f).sum_le_sum fun _ _ => Nat.zero_le _

theorem total_eq_zero (h : ∀ a ∈ l, f a = 0) : total f l = 0 := by
  rw [total_eq_foldr]
  exact sum_eq_zero (forall_mem_map.mpr h)

theorem total_set {k : Nat} (b : α) (h : l[k]? = some a) :
    total f (l.set k b) + f a = total f l + f b := by
  induction l generalizing k with
  | nil => cases h
  | cons c l ih =>
    cases k with
    | zero =>
      cases h
      rw [set_cons_zero, total_cons, total_cons]
      omega
    | succ k =>
      have hrest := ih (show l[k]? = some a from h)
      rw [set_cons_succ, total_cons, total_cons]
      omega

theorem total_erase [DecidableEq α] (h : a ∈ l) : total f (l.erase a) + f a = total f l := by
  rw [total_eq_foldr, total_eq_foldr, Nat.add_comm]
  exact sum_map_erase f h

theorem append_of_find? {p : α → Bool} (h : l.find? p = some a) :
    ∃ l₁ l₂, l = l₁ ++ a :: l₂ ∧ l.eraseP p = l₁ ++ l₂ := by
  induction l with
  | nil => cases h
  | cons b l ih =>
    cases hb : p b with
    | true =>
      rw [find?_cons_of_pos hb] at h
      cases h
      exact ⟨[], l, rfl, eraseP_cons_of_pos hb⟩
    | false =>
      have hneg : ¬ p b = true := by simp [hb]
      rw [find?_cons_of_neg hneg] at h
      obtain ⟨l₁, l₂, rfl, herase⟩ := ih h
      exact ⟨b :: l₁, l₂, rfl, by rw [eraseP_cons_of_neg hneg, herase]; rfl⟩

theorem total_update [DecidableEq α] {f : β → Nat} {g : α → β} (hl : l.Nodup) (ha : a ∈ l) (b : β) :
    total (fun i => f (update g a b i)) l + f (g a) = total (fun i => f (g i)) l + f b := by
  induction l with
  | nil => cases ha
  | cons c l ih =>
    obtain ⟨hc, hl⟩ := nodup_cons.mp hl
    rw [total_cons, total_cons]
    by_cases hca : c = a
    · subst hca
      have hrest : total (fun i => f (update g c b i)) l = total (fun i => f (g i)) l :=
        total_congr fun i hi => by
          rw [update_of_ne]
          rintro rfl
          exact hc hi
      rw [update_self]
      omega
    · have hrest := ih hl (mem_of_ne_of_mem (Ne.symm hca) ha)
      rw [update_of_ne hca]
      omega

end DTLite.Reasoning
