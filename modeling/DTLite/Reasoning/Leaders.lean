import Mathlib.Logic.Function.Basic

/-! Groups as a partial map to leaders: whoever is in a group names its leader, and a leader names
itself. -/

namespace DTLite.Reasoning

open Function Option

section Leaders

variable {ι : Type*} {γ : ι → Option ι}

/-- Every leader that is named is there and leads itself. -/
def Led (γ : ι → Option ι) : Prop := ∀ i g, γ i = some g → γ g = some g

/-- `i` leads a group of its own. -/
structure Alone (γ : ι → Option ι) (i : ι) : Prop where
  self : γ i = some i
  none : ∀ j, γ j = some i → j = i

/-- What is left when `i` has left its group: nobody comes or goes, and the leaders stay leaders. -/
structure Leaves (γ γ' : ι → Option ι) (i : ι) : Prop where
  led : Led γ'
  alone : Alone γ' i
  isSome : ∀ j, (γ' j).isSome = (γ j).isSome
  leaders : ∀ g, γ g = some g → γ' g = some g

theorem Led.ne_of_follows (h : Led γ) {i j g : ι} (hi : γ i = some g) (hne : g ≠ i)
    (hj : γ j = some i) : False := by
  have hself := h j i hj
  rw [hi, some.injEq] at hself
  exact hne hself

/-- The group of `l`, or some of it, gets a new leader out of these. Only `l` may be left behind. -/
theorem Led.move (h : Led γ) {l n : ι} {S : ι → Prop} [DecidablePred S]
    (hS : ∀ j, S j → γ j = some l) (hn : S n) (hrest : ∀ j, γ j = some l → ¬ S j → j = l) :
    Led fun j => if S j then some n else γ j := by
  intro j g hj
  by_cases hSj : S j
  · have hg : n = g := by simpa [hSj] using hj
    subst hg
    exact if_pos hn
  · have hg : γ j = some g := by simpa [hSj] using hj
    have hself := h j g hg
    by_cases hSg : S g
    · -- `g` follows `l` and itself, so `j` was left behind and is `l`.
      have hgl : g = l := by
        have := hS g hSg
        rw [hself, some.injEq] at this
        exact this
      subst hgl
      have hjl := hrest j hg hSj
      exact absurd (hjl ▸ hSg) hSj
    · show (if S g then some n else γ g) = some g
      rw [if_neg hSg]
      exact hself

variable [DecidableEq ι]

section

variable (h : Led γ)
include h

theorem Led.leaves_follower {i g : ι} (hi : γ i = some g) (hne : g ≠ i) :
    Leaves γ (update γ i (some i)) i where
  led := by
    intro j k hj
    by_cases hji : j = i
    · subst hji
      rw [update_self, some.injEq] at hj
      subst hj
      exact update_self ..
    · rw [update_of_ne hji] at hj
      have hki : k ≠ i := by
        rintro rfl
        exact h.ne_of_follows hi hne hj
      rw [update_of_ne hki]
      exact h j k hj
  alone := by
    refine ⟨update_self .., fun j hj => ?_⟩
    by_contra hji
    rw [update_of_ne hji] at hj
    exact h.ne_of_follows hi hne hj
  isSome := by
    intro j
    by_cases hji : j = i
    · subst hji
      rw [update_self, hi, isSome_some, isSome_some]
    · rw [update_of_ne hji]
  leaders := by
    intro k hk
    by_cases hki : k = i
    · rw [hki]
      exact update_self ..
    · rw [update_of_ne hki]
      exact hk

theorem Led.leaves_leader {i n : ι} (hi : γ i = some i) {S : ι → Prop}
    [DecidablePred S] (hS : ∀ j, S j ↔ γ j = some i ∧ j ≠ i) (hn : ∀ j, S j → S n) :
    Leaves γ (fun j => if S j then some n else γ j) i where
  led := by
    by_cases hone : ∃ j, S j
    · obtain ⟨j, hj⟩ := hone
      refine h.move (fun j hj => ((hS j).mp hj).1) (hn j hj) fun k hk hSk => ?_
      by_contra hki
      exact hSk ((hS k).mpr ⟨hk, hki⟩)
    · have hnone : ∀ j, ¬ S j := fun j hj => hone ⟨j, hj⟩
      simp only [hnone]
      exact h
  alone := by
    have hSi : ¬ S i := fun hSi => ((hS i).mp hSi).2 rfl
    refine ⟨(if_neg hSi).trans hi, fun j hj => ?_⟩
    by_contra hji
    by_cases hSj : S j
    · rw [if_pos hSj, some.injEq] at hj
      subst hj
      exact hSi (hn j hSj)
    · rw [if_neg hSj] at hj
      exact hSj ((hS j).mpr ⟨hj, hji⟩)
  isSome := by
    intro j
    by_cases hSj : S j
    · rw [if_pos hSj, ((hS j).mp hSj).1, isSome_some, isSome_some]
    · rw [if_neg hSj]
  leaders := by
    intro g hg
    have hSg : ¬ S g := by
      intro hSg
      have hmem := (hS g).mp hSg
      rw [hg, some.injEq] at hmem
      exact hmem.2 hmem.1
    rw [if_neg hSg]
    exact hg

/-- Whoever leads no other one can be put under a leader. -/
theorem Led.update_some {i t : ι} (hi : ∀ j, γ j = some i → j = i) (ht : γ t = some t)
    (hti : t ≠ i) : Led (update γ i (some t)) := by
  intro j g hj
  have hg : γ g = some g ∧ g ≠ i := by
    by_cases hji : j = i
    · subst hji
      rw [update_self, some.injEq] at hj
      subst hj
      exact ⟨ht, hti⟩
    · rw [update_of_ne hji] at hj
      refine ⟨h j g hj, ?_⟩
      rintro rfl
      exact hji (hi j hj)
  rw [update_of_ne hg.2]
  exact hg.1

theorem Led.join {i t : ι} (hi : Alone γ i) (ht : γ t = some t) : Led (update γ i (some t)) := by
  by_cases hti : t = i
  · subst hti
    rwa [← hi.self, update_eq_self]
  · exact h.update_some hi.none ht hti

theorem Led.erase {i : ι} (hi : Alone γ i) : Led (update γ i none) := by
  intro j g hj
  by_cases hji : j = i
  · subst hji
    rw [update_self] at hj
    cases hj
  · rw [update_of_ne hji] at hj
    have hgi : g ≠ i := by
      rintro rfl
      exact hji (hi.none j hj)
    rw [update_of_ne hgi]
    exact h j g hj

theorem Led.insert {i t : ι} (hi : γ i = none) (ht : γ t = some t) :
    Led (update γ i (some t)) := by
  refine h.update_some (fun j hj => ?_) ht ?_
  · have hself := h j i hj
    rw [hi] at hself
    cases hself
  · rintro rfl
    rw [hi] at ht
    cases ht

end

end Leaders

end DTLite.Reasoning
