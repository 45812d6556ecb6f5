import Mathlib.Data.List.Sort
import Mathlib.Data.List.Range

/-!
# Closing the gaps of a numbering

A loop goes through the numbers from 0 on and gives the entries of each number that is taken the
next free one.  Entries without a number, or with a negative one, keep what they have.
-/

namespace DTLite.Reasoning

open List

section Renumber

variable (nums : List (Option Int))

/-- How many of the numbers below `k` are taken. -/
def rank (k : Nat) : Nat := (List.range k).countP fun i : Nat => nums.contains (some (i : Int))

/-- The number of an entry once the loop has gone through the numbers below `k`. -/
def closeGaps (k : Nat) (num : Option Int) : Option Int :=
  num.map fun n : Int => if 0 ≤ n ∧ n < k then (rank nums n.toNat : Int) else n

theorem closeGaps_zero (num : Option Int) : closeGaps nums 0 num = num := by
  cases num with
  | none => rfl
  | some n => exact congrArg some (if_neg (by omega))

variable (k : Nat)

theorem rank_succ :
    rank nums (k + 1) = rank nums k + if nums.contains (some (k : Int)) then 1 else 0 := by
  rw [rank, range_succ, countP_append, countP_singleton]
  rfl

theorem rank_le : rank nums k ≤ k := by
  have hle := countP_le_length (p := fun i : Nat => nums.contains (some (i : Int)))
    (l := range k)
  rw [length_range] at hle
  exact hle

theorem rank_mono {i j : Nat} (hij : i ≤ j) : rank nums i ≤ rank nums j := by
  induction j, hij using Nat.le_induction with
  | base => exact le_refl _
  | succ j _ ih =>
    rw [rank_succ]
    omega

theorem rank_lt {i j : Nat} (hij : i < j) (hi : some (i : Int) ∈ nums) :
    rank nums i < rank nums j := by
  have hsucc := rank_succ nums i
  rw [if_pos (contains_iff_mem.mpr hi)] at hsucc
  have hle := rank_mono nums (show i + 1 ≤ j from hij)
  omega

theorem closeGaps_succ (num : Option Int) :
    closeGaps nums (k + 1) num =
      if closeGaps nums k num = some (k : Int) then some (rank nums k : Int)
      else closeGaps nums k num := by
  cases num with
  | none => rfl
  | some n =>
    have hrank := rank_le nums n.toNat
    simp only [closeGaps, Option.map_some, Option.some.injEq]
    by_cases hbelow : 0 ≤ n ∧ n < k
    · rw [if_pos hbelow, if_pos (by push_cast; omega), if_neg (by omega)]
    · by_cases hk : n = k
      · subst hk
        rw [if_pos (by push_cast; omega), if_neg hbelow, if_pos rfl, Int.toNat_natCast]
      · rw [if_neg (by push_cast; omega), if_neg hbelow, if_neg hk]

theorem closeGaps_eq_some_iff (num : Option Int) :
    closeGaps nums k num = some (k : Int) ↔ num = some (k : Int) := by
  cases num with
  | none => exact iff_of_false (by simp [closeGaps]) (by simp)
  | some n =>
    have hrank := rank_le nums n.toNat
    simp only [closeGaps, Option.map_some, Option.some.injEq]
    by_cases hbelow : 0 ≤ n ∧ n < k
    · omega
    · rw [if_neg hbelow]

end Renumber

/-! ## Numbers that are all there once -/

variable {a : List Nat}

theorem countP_lt_succ (ha : a.Nodup) (k : Nat) :
    a.countP (· < k + 1) = a.countP (· < k) + if k ∈ a then 1 else 0 := by
  induction a with
  | nil => rfl
  | cons x a ih =>
    have hx : x ∉ a := (nodup_cons.mp ha).1
    rw [countP_cons, countP_cons, ih (nodup_cons.mp ha).2]
    by_cases hk : k = x
    · subst hk
      simp [hx]
    · have hlt : (decide (x < k + 1)) = decide (x < k) := decide_eq_decide.mpr (by omega)
      rw [hlt, if_congr (mem_cons.trans (or_iff_right hk)) rfl rfl]
      omega

theorem rank_eq_countP (ha : a.Nodup) (k : Nat) :
    rank (a.map fun i : Nat => some (i : Int)) k = a.countP (· < k) := by
  induction k with
  | zero => simp [rank]
  | succ k ih =>
    have hmem : (a.map fun i : Nat => some (i : Int)).contains (some (k : Int)) ↔ k ∈ a := by
      rw [contains_iff_mem, mem_map]
      constructor
      · rintro ⟨i, hi, heq⟩
        have hik : i = k := Int.ofNat.inj (Option.some.inj heq)
        exact hik ▸ hi
      · exact fun hk => ⟨k, hk, rfl⟩
    rw [rank_succ, ih, countP_lt_succ ha, if_congr hmem rfl rfl]

theorem countP_lt_getElem (ha : a.Pairwise (· < ·)) {i : Nat}
    (hi : i < a.length) : a.countP (· < a[i]) = i := by
  have hbefore : (a.take i).countP (· < a[i]) = i := by
    rw [countP_eq_length.mpr, length_take]
    · omega
    · intro x hx
      obtain ⟨j, hj, rfl⟩ := mem_take_iff_getElem.mp hx
      exact decide_eq_true (pairwise_iff_getElem.mp ha j i (by omega) hi (by omega))
  have hafter : (a.drop i).countP (· < a[i]) = 0 := by
    rw [countP_eq_zero]
    intro x hx
    obtain ⟨j, hj, rfl⟩ := mem_drop_iff_getElem.mp hx
    have hle : a[i] ≤ a[i + j] := by
      cases j with
      | zero => exact le_refl _
      | succ j =>
        exact le_of_lt (pairwise_iff_getElem.mp ha i (i + (j + 1)) hi (by omega) (by omega))
    simpa using hle
  calc a.countP (· < a[i]) = (a.take i ++ a.drop i).countP (· < a[i]) := by
        rw [take_append_drop]
    _ = i := by rw [countP_append, hbefore, hafter, Nat.add_zero]

/-- The ranks of distinct numbers are the numbers from 0 on. -/
theorem map_rank_perm (ha : a.Nodup) :
    (a.map (rank (a.map fun i : Nat => some (i : Int)))).Perm (range a.length) := by
  set b := a.insertionSort (· ≤ ·) with hb
  have hperm : b.Perm a := perm_insertionSort ..
  have hsorted : b.Pairwise (· < ·) := by
    have hle : b.Pairwise (· ≤ ·) := pairwise_insertionSort ..
    exact (hle.and (hperm.nodup_iff.mpr ha)).imp fun h => lt_of_le_of_ne h.1 h.2
  have hranks : b.map (rank (a.map fun i : Nat => some (i : Int))) = range a.length := by
    apply ext_getElem
    · rw [length_map, length_range, hperm.length_eq]
    · intro i hi _
      rw [length_map] at hi
      rw [getElem_map, getElem_range, rank_eq_countP ha, ← hperm.countP_eq,
        countP_lt_getElem hsorted hi]
  rw [← hranks]
  exact (hperm.map _).symm

/-- Every entry has a number, from 0 on, and no two have the same. -/
structure Numbered (nums : List (Option Int)) : Prop where
  natural : ∀ num ∈ nums, ∃ i : Nat, num = some (i : Int)
  nodup : nums.Nodup

instance decidableNumbered (nums : List (Option Int)) : Decidable (Numbered nums) :=
  decidable_of_iff ((∀ num ∈ nums, num.any (0 ≤ ·) = true) ∧ nums.Nodup) <| by
    have hnatural : ∀ num : Option Int,
        num.any (0 ≤ ·) = true ↔ ∃ i : Nat, num = some (i : Int) := by
      intro num
      cases num with
      | none => simp
      | some n =>
        simp only [Option.any_some, decide_eq_true_iff, Option.some.injEq]
        exact ⟨fun h => ⟨n.toNat, by omega⟩, fun ⟨i, hi⟩ => by omega⟩
    simp only [hnatural]
    exact ⟨fun h => ⟨h.1, h.2⟩, fun h => ⟨h.1, h.2⟩⟩

section Numbered

variable {nums : List (Option Int)} {bound : Nat}

theorem numbered_append_zero_iff : Numbered (nums ++ [some 0]) ↔ Numbered nums ∧ some 0 ∉ nums := by
  constructor
  · intro h
    obtain ⟨hnodup, -, hdisjoint⟩ := nodup_append.mp h.nodup
    exact ⟨⟨fun num hnum => h.natural num (mem_append_left _ hnum), hnodup⟩,
      fun hmem => hdisjoint _ hmem _ mem_cons_self rfl⟩
  · rintro ⟨h, hzero⟩
    refine ⟨fun num hnum => ?_, nodup_append.mpr ⟨h.nodup, by simp, ?_⟩⟩
    · rcases mem_append.mp hnum with hmem | hmem
      · exact h.natural num hmem
      · exact ⟨0, mem_singleton.mp hmem⟩
    · rintro num hnum _ hmem rfl
      exact hzero (mem_singleton.mp hmem ▸ hnum)

/-- Room for 0 in front of the others. -/
theorem numbered_shift_iff :
    Numbered (nums.map (Option.map (· + 1)) ++ [some 0]) ↔ Numbered nums := by
  have hinj : Function.Injective (Option.map fun n : Int => n + 1) :=
    Option.map_injective fun a b (h : a + 1 = b + 1) => by omega
  rw [numbered_append_zero_iff]
  constructor
  · rintro ⟨h, hzero⟩
    refine ⟨fun num hnum => ?_, h.nodup.of_map⟩
    obtain ⟨i, hi⟩ := h.natural _ (mem_map_of_mem hnum)
    cases num with
    | none => cases hi
    | some n =>
      have hn : n + 1 = i := Option.some.inj hi
      -- otherwise 0 would be there twice
      have hne : i ≠ 0 := by
        rintro rfl
        exact hzero (mem_map.mpr ⟨some n, hnum, hi⟩)
      exact ⟨i - 1, congrArg some (by omega)⟩
  · intro h
    refine ⟨⟨fun num hnum => ?_, h.nodup.map hinj⟩, fun hmem => ?_⟩
    · obtain ⟨num, hmem, rfl⟩ := mem_map.mp hnum
      obtain ⟨i, rfl⟩ := h.natural num hmem
      exact ⟨i + 1, rfl⟩
    · obtain ⟨num, hnum, hzero⟩ := mem_map.mp hmem
      obtain ⟨i, rfl⟩ := h.natural num hnum
      have hi : (i : Int) + 1 = 0 := Option.some.inj hzero
      omega

theorem Numbered.exists_nat (h : Numbered nums) :
    ∃ a : List Nat, a.Nodup ∧ nums = a.map fun i : Nat => some (i : Int) := by
  have hnums : nums = (nums.map fun num => (num.getD 0).toNat).map
      fun i : Nat => some (i : Int) := by
    rw [map_map]
    refine ((map_congr_left fun num hnum => ?_).trans (map_id nums)).symm
    obtain ⟨i, rfl⟩ := h.natural num hnum
    rfl
  have hnodup := h.nodup
  rw [hnums] at hnodup
  exact ⟨_, hnodup.of_map, hnums⟩

theorem Numbered.rank_eq_length (h : Numbered nums) (hbound : ∀ n, some n ∈ nums → n < bound) :
    rank nums bound = nums.length := by
  obtain ⟨a, ha, rfl⟩ := h.exists_nat
  rw [rank_eq_countP ha, length_map, countP_eq_length]
  intro i hi
  have hlt := hbound i (mem_map_of_mem (f := fun i : Nat => some (i : Int)) hi)
  exact decide_eq_true (by omega)

/-- The loop numbers the entries from 0 on exactly if each had a number of its own, from 0 on. -/
theorem closeGaps_perm_iff (hbound : ∀ n, some n ∈ nums → n < bound) :
    (nums.map (closeGaps nums bound)).Perm
        ((range nums.length).map fun i : Nat => some (i : Int)) ↔
      Numbered nums := by
  constructor
  · intro hperm
    have hnodup : ((range nums.length).map fun i : Nat => some (i : Int)).Nodup :=
      nodup_range.map fun i j h => Int.ofNat.inj (Option.some.inj h)
    refine ⟨fun num hnum => ?_, (hperm.nodup_iff.mpr hnodup).of_map⟩
    have hmem := hperm.subset (mem_map_of_mem (f := closeGaps nums bound) hnum)
    obtain ⟨i, -, hi⟩ := mem_map.mp hmem
    cases num with
    | none => cases hi
    | some n =>
      refine ⟨n.toNat, congrArg some ?_⟩
      by_contra hneg
      have hsame : closeGaps nums bound (some n) = some n := congrArg some (if_neg (by omega))
      have hin := Option.some.inj (hi.trans hsame)
      omega
  · intro h
    obtain ⟨a, ha, rfl⟩ := h.exists_nat
    have hmap : (a.map fun i : Nat => some (i : Int)).map
        (closeGaps (a.map fun i : Nat => some (i : Int)) bound) =
        (a.map (rank (a.map fun i : Nat => some (i : Int)))).map
          fun i : Nat => some (i : Int) := by
      rw [map_map, map_map]
      refine map_congr_left fun i hi => congrArg some (if_pos ⟨by omega, ?_⟩)
      exact hbound i (mem_map_of_mem (f := fun i : Nat => some (i : Int)) hi)
    rw [hmap, length_map]
    exact (map_rank_perm ha).map _

end Numbered

end DTLite.Reasoning
