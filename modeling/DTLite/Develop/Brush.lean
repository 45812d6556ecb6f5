import Mathlib

/-!
# Thinning out a brush stroke

`_brush_ramer_douglas_peucker` keeps the two ends of a stroke.  It splits the stroke at the point
farthest from the segment between them, unless all points are near enough to it.
-/

namespace DTLite

open List

section Brush

variable {ν : Type*} [LinearOrder ν]

-- the loop over the points between the ends
def farthest (d2 : Nat → ν) : ν × Nat → List Nat → ν × Nat :=
  foldl fun m i => if d2 i > m.1 then (d2 i, i) else m

theorem farthest_spec (d2 : Nat → ν) (m : ν × Nat) (is : List Nat) :
    m.1 ≤ (farthest d2 m is).1 ∧ (∀ i ∈ is, d2 i ≤ (farthest d2 m is).1) ∧
      (farthest d2 m is = m ∨ (farthest d2 m is).2 ∈ is) := by
  induction is generalizing m with
  | nil => exact ⟨le_rfl, nofun, .inl rfl⟩
  | cons i is ih =>
    obtain ⟨hle, hall, hmem⟩ := ih (if d2 i > m.1 then (d2 i, i) else m)
    rw [farthest, foldl_cons, ← farthest, forall_mem_cons, mem_cons]
    by_cases hlt : d2 i > m.1
    · rw [if_pos hlt] at hle hall hmem ⊢
      exact ⟨hlt.le.trans hle, ⟨hle, hall⟩, .inr (hmem.imp_left (congrArg Prod.snd))⟩
    · rw [if_neg hlt] at hle hall hmem ⊢
      exact ⟨hle, ⟨(not_lt.mp hlt).trans hle, hall⟩, hmem.imp_right .inr⟩

-- `d first last i` is `_brush_point_line_distance2` for a point and the ends of a part
variable [Zero ν] (d : Nat → Nat → Nat → ν) (epsilon2 : ν)

/-- The indices of the points in the result for the `pointsCount` points from `first` on; `none` if
it does not return within `n` calls inside each other. -/
def brushRamerDouglasPeucker : Nat → Nat → Nat → Option (List Nat)
  | 0, _, _ => none
  | n + 1, first, pointsCount =>
    let last := first + (pointsCount - 1)
    let (dmax2, index) :=
      farthest (fun i => d first last (first + i)) (0, 0) (range' 1 (pointsCount - 2))
    if dmax2 ≥ epsilon2 then
      (brushRamerDouglasPeucker n first (index + 1)).bind fun resultList1 =>
        (brushRamerDouglasPeucker n (first + index) (pointsCount - index)).map
          (resultList1.dropLast ++ ·)
    else some [first, last]

/-- The list goes up from `a` to `b`, and a point that it leaves out is near the segment between its
neighbours. -/
def Thinned (a b : Nat) (l : List Nat) : Prop :=
  l.head? = some a ∧ l.getLast? = some b ∧
    l.IsChain fun a b => a < b ∧ ∀ i, a < i → i < b → d a b i < epsilon2

variable {d epsilon2}

omit [Zero ν] in
-- the last point of the one part is the first point of the other
theorem Thinned.append {a m b : Nat} {l l' : List Nat} (h : Thinned d epsilon2 a m l)
    (h' : Thinned d epsilon2 m b l') (hne : a ≠ m) : Thinned d epsilon2 a b (l.dropLast ++ l') := by
  obtain ⟨hhead, hlast, hchain⟩ := h
  obtain ⟨hhead', hlast', hchain'⟩ := h'
  obtain ⟨pre, rfl⟩ := getLast?_eq_some_iff.mp hlast
  obtain ⟨rest, rfl⟩ := head?_eq_some_iff.mp hhead'
  rw [dropLast_concat]
  refine ⟨?_, by simpa using hlast', isChain_split.mpr ⟨hchain, hchain'⟩⟩
  cases pre with
  | nil => exact absurd (Option.some.inj hhead).symm hne
  | cons c pre => exact hhead

theorem brushRamerDouglasPeucker_thinned (hpos : 0 < epsilon2) {n first pointsCount : Nat}
    (hcount : 2 ≤ pointsCount) (hn : pointsCount ≤ n) :
    ∃ l, brushRamerDouglasPeucker d epsilon2 n first pointsCount = some l ∧
      Thinned d epsilon2 first (first + (pointsCount - 1)) l := by
  induction n generalizing first pointsCount with
  | zero => omega
  | succ n ih =>
    obtain ⟨-, hall, hmem⟩ := farthest_spec
      (fun i => d first (first + (pointsCount - 1)) (first + i)) (0, 0) (range' 1 (pointsCount - 2))
    rw [brushRamerDouglasPeucker]
    generalize farthest (ν := ν) _ _ _ = m at hall hmem ⊢
    by_cases hfar : m.1 ≥ epsilon2
    · have hindex : m.2 ∈ range' 1 (pointsCount - 2) := by
        refine hmem.resolve_left ?_
        rintro rfl
        exact hfar.not_gt hpos
      rw [mem_range'_1] at hindex
      obtain ⟨l, hl, hthin⟩ := @ih first (m.2 + 1) (by omega) (by omega)
      obtain ⟨l', hl', hthin'⟩ := @ih (first + m.2) (pointsCount - m.2) (by omega) (by omega)
      refine ⟨l.dropLast ++ l', by simp [hfar, hl, hl'], ?_⟩
      rw [show first + m.2 + (pointsCount - m.2 - 1) = first + (pointsCount - 1) by omega] at hthin'
      exact hthin.append hthin' (by omega)
    · refine ⟨_, if_neg hfar, rfl, rfl, isChain_pair.mpr ⟨by omega, fun i hi hi' => ?_⟩⟩
      obtain ⟨j, rfl⟩ := Nat.exists_eq_add_of_lt hi
      exact (hall (j + 1) (mem_range'_1.mpr (by omega))).trans_lt (not_le.mp hfar)

theorem brushRamerDouglasPeucker_corner :
    ∃ l, brushRamerDouglasPeucker (fun _ _ i => i % 2) 1 3 0 3 = some l ∧
      Thinned (fun _ _ i => i % 2) 1 0 2 l :=
  brushRamerDouglasPeucker_thinned (by decide) (by decide) (by decide)

end Brush

end DTLite
