import Mathlib.Data.List.Sort

/-!
# Sorted lists without repetitions

Sorting a list and dropping each entry that equals the one before gives a list that depends on
nothing but what occurs in the first one.
-/

namespace DTLite.Reasoning

open List

variable {α : Type*} [LinearOrder α]

theorem le_foldl_max {l : List α} {start x : α} :
    x ≤ l.foldl max start ↔ x ≤ start ∨ ∃ y ∈ l, x ≤ y := by
  induction l generalizing start with
  | nil => simp
  | cons z l ih => simp [ih, or_assoc]

-- the entries that differ from the one before, `last` being before the first
def dropRepeats (last : α) : List α → List α
  | [] => []
  | a :: l => if a = last then dropRepeats last l else a :: dropRepeats a l

def sortUniq (l : List α) : List α :=
  match l.insertionSort (· ≤ ·) with
  | [] => []
  | a :: l => a :: dropRepeats a l

theorem mem_dropRepeats {last a : α} {l : List α} :
    a = last ∨ a ∈ dropRepeats last l ↔ a = last ∨ a ∈ l := by
  induction l generalizing last with
  | nil => rfl
  | cons b l ih =>
    rw [dropRepeats]
    by_cases hb : b = last
    · rw [if_pos hb, ih, hb]
      simp
    · rw [if_neg hb, mem_cons, ih, mem_cons]

theorem dropRepeats_pairwise {last : α} {l : List α} (hlast : ∀ a ∈ l, last ≤ a)
    (hl : l.Pairwise (· ≤ ·)) : (last :: dropRepeats last l).Pairwise (· < ·) := by
  induction l generalizing last with
  | nil => simp [dropRepeats]
  | cons b l ih =>
    rw [pairwise_cons] at hl
    rw [dropRepeats]
    by_cases hb : b = last
    · rw [if_pos hb]
      exact ih (fun a ha => hlast a (mem_cons_of_mem _ ha)) hl.2
    · rw [if_neg hb]
      have hrest := ih hl.1 hl.2
      have hlt : last < b := lt_of_le_of_ne (hlast b mem_cons_self) (Ne.symm hb)
      refine pairwise_cons.mpr ⟨?_, hrest⟩
      intro a ha
      rcases mem_cons.mp ha with rfl | ha
      · exact hlt
      · exact hlt.trans ((pairwise_cons.mp hrest).1 a ha)

theorem mem_sortUniq {a : α} {l : List α} : a ∈ sortUniq l ↔ a ∈ l := by
  have hsort : a ∈ l ↔ a ∈ l.insertionSort (· ≤ ·) := (mem_insertionSort (· ≤ ·)).symm
  rw [hsort, sortUniq]
  cases l.insertionSort (· ≤ ·) with
  | nil => rfl
  | cons b l => rw [mem_cons, mem_cons, mem_dropRepeats]

theorem sortUniq_pairwise (l : List α) : (sortUniq l).Pairwise (· < ·) := by
  have hsorted := pairwise_insertionSort (· ≤ ·) l
  rw [sortUniq]
  cases hl : l.insertionSort (· ≤ ·) with
  | nil => exact List.Pairwise.nil
  | cons b l =>
    rw [hl, pairwise_cons] at hsorted
    exact dropRepeats_pairwise hsorted.1 hsorted.2

/-- Two lists give one sorted list if and only if the same entries occur in them. -/
theorem sortUniq_eq_iff {l l' : List α} : sortUniq l = sortUniq l' ↔ ∀ a, a ∈ l ↔ a ∈ l' := by
  constructor
  · intro h a
    rw [← mem_sortUniq, h, mem_sortUniq]
  · intro h
    have hnodup : ∀ l : List α, (sortUniq l).Nodup := fun l =>
      (sortUniq_pairwise l).imp ne_of_lt
    have hperm : (sortUniq l).Perm (sortUniq l') :=
      (perm_ext_iff_of_nodup (hnodup l) (hnodup l')).mpr fun a => by
        rw [mem_sortUniq, mem_sortUniq, h]
    exact hperm.eq_of_pairwise (fun a b _ _ hab hba => absurd hba hab.asymm)
      (sortUniq_pairwise l) (sortUniq_pairwise l')

end DTLite.Reasoning
