import Mathlib.Data.List.Sort

/-! The first `n` entries of a list against the entries that a test selects, and lists related entry
by entry. -/

namespace DTLite.Reasoning

open List

section Prefix

variable {α : Type*} {p : α → Bool} {l : List α} {n : Nat}

/-- Where the selected entries stand first, counting them decides whether they are the first
`n`. -/
theorem take_eq_filter_iff_countP (hl : l.Pairwise fun a b => p b → p a) :
    l.take n = l.filter p ↔ l.countP p = min n l.length := by
  constructor
  · intro h
    rw [countP_eq_length_filter, ← h, length_take]
  · intro h
    -- the selected entries are a prefix, so they are the first `countP` entries
    have hfirst : l.filter p = l.take (l.countP p) := by
      clear h
      induction l with
      | nil => rfl
      | cons a l ih =>
        rw [pairwise_cons] at hl
        by_cases ha : p a
        · rw [filter_cons_of_pos ha, countP_cons_of_pos ha, take_succ_cons, ih hl.2]
        · have hnone : ∀ x ∈ l, ¬ p x := fun x hx hpx => ha (hl.1 x hx hpx)
          rw [filter_cons_of_neg ha, countP_cons_of_neg ha,
            countP_eq_zero.mpr hnone, filter_eq_nil_iff.mpr hnone, take_zero]
    rw [hfirst, h, take_eq_take_min]

/-- Taking before and after the selection gives the same exactly if the selection drops none of the
first `n`, or has nothing to move up into their places. -/
theorem take_filter_eq_filter_take_iff :
    (l.filter p).take n = (l.take n).filter p ↔
      (∀ x ∈ l.take n, p x) ∨ ∀ x ∈ l.drop n, ¬ p x := by
  have hsplit : l.filter p = (l.take n).filter p ++ (l.drop n).filter p := by
    rw [← filter_append, take_append_drop]
  have hlen : ((l.take n).filter p).length ≤ n := (length_filter_le ..).trans (length_take_le ..)
  rw [hsplit, take_append, take_of_length_le hlen, append_right_eq_self,
    take_eq_nil_iff, filter_eq_nil_iff]
  constructor
  · rintro (hfull | hrest)
    · left
      have hmax : (l.take n).length ≤ ((l.take n).filter p).length :=
        (length_take_le n l).trans (by omega)
      have hself := filter_sublist.eq_of_length (le_antisymm (length_filter_le ..) hmax)
      exact filter_eq_self.mp hself
    · exact .inr hrest
  · rintro (hall | hrest)
    · by_cases hn : n ≤ l.length
      · left
        rw [filter_eq_self.mpr hall, length_take, min_eq_left hn, Nat.sub_self]
      · right
        rw [drop_of_length_le (by omega)]
        exact fun _ h => absurd h not_mem_nil
    · exact .inr hrest

end Prefix

section Related

variable {α β : Type*} {r : α → β → Prop} {l : List α} {l' : List β}

theorem forall₂_iff_getElem? :
    Forall₂ r l l' ↔
      l.length = l'.length ∧ ∀ (k : Nat) a b, l[k]? = some a → l'[k]? = some b → r a b := by
  rw [forall₂_iff_get]
  refine and_congr_right fun _ => ⟨fun h k a b ha hb => ?_, fun h k hk hk' => ?_⟩
  · obtain ⟨hk, rfl⟩ := List.getElem?_eq_some_iff.mp ha
    obtain ⟨hk', rfl⟩ := List.getElem?_eq_some_iff.mp hb
    exact h k hk hk'
  · exact h k _ _ (getElem?_eq_getElem hk) (getElem?_eq_getElem hk')

end Related

end DTLite.Reasoning
