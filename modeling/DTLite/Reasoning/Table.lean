import Mathlib.Data.List.Nodup
import Mathlib.Data.List.Perm.Subperm
import Mathlib.Data.List.Range

/-! Tables as lists of rows: with a primary key, and with a column that several rows share. -/

namespace DTLite.Reasoning

open List

variable {α κ : Type*} {key : α → κ} {l : List α} {x : α}

section

variable (hkeys : (l.map key).Nodup)
include hkeys

/-- The search by key finds a row exactly if the table has it under that key. -/
theorem find?_key_eq_some_iff [DecidableEq κ] {k : κ}
    :
    l.find? (fun y => key y = k) = some x ↔ x ∈ l ∧ key x = k := by
  constructor
  · intro h
    exact ⟨mem_of_find?_eq_some h, by simpa using find?_some h⟩
  · rintro ⟨hmem, hkey⟩
    cases hfind : l.find? (fun y => key y = k) with
    | none =>
      have := find?_eq_none.1 hfind x hmem
      simp [hkey] at this
    | some y =>
      have hy : key y = key x := by simpa [hkey] using find?_some hfind
      rw [inj_on_of_nodup_map hkeys (mem_of_find?_eq_some hfind) hmem hy]

theorem rowsOf_key [DecidableEq κ] (hx : x ∈ l) : l.filter (key · = key x) = [x] := by
  induction l with
  | nil => cases hx
  | cons y l ih =>
    rw [map_cons, nodup_cons] at hkeys
    rcases mem_cons.mp hx with rfl | hx
    · have hnone : l.filter (key · = key x) = [] := by
        rw [filter_eq_nil_iff]
        intro z hz hkey
        exact hkeys.1 (mem_map.mpr ⟨z, hz, of_decide_eq_true hkey⟩)
      rw [filter_cons_of_pos (by simp), hnone]
    · have hne : key y ≠ key x := fun hkey => hkeys.1 (hkey ▸ mem_map_of_mem hx)
      rw [filter_cons_of_neg (by simpa using hne), ih hkeys.2 hx]

theorem nodup_keys_concat (hx : key x ∉ l.map key) : ((l ++ [x]).map key).Nodup := by
  rw [map_append, map_singleton, ← concat_eq_append]
  exact hkeys.concat hx

theorem mem_eraseP_key_iff [DecidableEq κ] {k : κ}
    : x ∈ l.eraseP (fun y => key y = k) ↔ x ∈ l ∧ key x ≠ k := by
  induction l with
  | nil => simp
  | cons y l ih =>
    rw [map_cons, nodup_cons] at hkeys
    by_cases hy : key y = k
    · rw [eraseP_cons_of_pos (by simpa using hy), mem_cons]
      constructor
      · intro hx
        refine ⟨.inr hx, ?_⟩
        rintro hxk
        exact hkeys.1 (mem_map.mpr ⟨x, hx, hxk.trans hy.symm⟩)
      · rintro ⟨rfl | hx, hxk⟩
        · exact absurd hy hxk
        · exact hx
    · rw [eraseP_cons_of_neg (by simpa using hy), mem_cons, mem_cons, ih hkeys.2]
      constructor
      · rintro (rfl | ⟨hx, hxk⟩)
        · exact ⟨.inl rfl, hy⟩
        · exact ⟨.inr hx, hxk⟩
      · rintro ⟨rfl | hx, hxk⟩
        · exact .inl rfl
        · exact .inr ⟨hx, hxk⟩

end

theorem exists_lt_not_mem {l : List κ} {f : Nat → κ} (hf : Function.Injective f) {n : Nat}
    (h : l.length < n) : ∃ k < n, f k ∉ l := by
  by_contra hall
  have hsub : (range n).map f ⊆ l := by
    intro key hkey
    obtain ⟨k, hk, rfl⟩ := mem_map.mp hkey
    by_contra hnot
    exact hall ⟨k, mem_range.mp hk, hnot⟩
  have hnodup : ((range n).map f).Nodup := nodup_range.map hf
  have hle := (Nodup.subperm hnodup hsub).length_le
  rw [length_map, length_range] at hle
  omega

section Owner

variable [DecidableEq κ] (key) (l : List α) {k k' : κ}

theorem rowsOf_deleteWhere (k : κ) (p : α → Bool) :
    (l.filter fun x => !(key x == k && p x)).filter (key · = k) =
      (l.filter (key · = k)).filter (!p ·) := by
  rw [filter_filter, filter_filter]
  apply filter_congr
  intro x _
  by_cases h : key x = k <;> simp [h]

theorem rowsOf_deleteWhere_of_ne (hk : k' ≠ k) (p : α → Bool) :
    (l.filter fun x => !(key x == k && p x)).filter (key · = k') = l.filter (key · = k') := by
  rw [filter_filter]
  apply filter_congr
  intro x _
  by_cases h : key x = k'
  · simp [h, hk]
  · simp [h]

theorem rowsOf_delete (k : κ) : (l.filter (key · ≠ k)).filter (key · = k) = [] := by
  simp

theorem rowsOf_delete_of_ne (hk : k' ≠ k) :
    (l.filter (key · ≠ k)).filter (key · = k') = l.filter (key · = k') := by
  rw [filter_filter]
  apply filter_congr
  intro x _
  by_cases h : key x = k'
  · simp [h, hk]
  · simp [h]

section

variable {f : α → α} (hf : ∀ x, key (f x) = key x)
include hf

theorem rowsOf_update (k : κ) :
    (l.map fun x => if key x = k then f x else x).filter (key · = k) =
      (l.filter (key · = k)).map f := by
  induction l with
  | nil => rfl
  | cons x l ih => by_cases h : key x = k <;> simp [h, hf, ih]

theorem rowsOf_update_of_ne (hk : k' ≠ k) :
    (l.map fun x => if key x = k then f x else x).filter (key · = k') = l.filter (key · = k') := by
  induction l with
  | nil => rfl
  | cons x l ih =>
    by_cases h : key x = k
    · have hne : ¬ k = k' := Ne.symm hk
      simp [h, hf, hne, ih]
    · simp [h, ih, filter_cons]

end

section

variable {rows : List α} (hrows : ∀ x ∈ rows, key x = k)
include hrows

theorem rowsOf_insert : (l ++ rows).filter (key · = k) = l.filter (key · = k) ++ rows := by
  rw [filter_append, filter_eq_self.mpr fun x hx => decide_eq_true (hrows x hx)]

theorem rowsOf_insert_of_ne (hk : k' ≠ k) :
    (l ++ rows).filter (key · = k') = l.filter (key · = k') := by
  have hnone : rows.filter (key · = k') = [] := by
    rw [filter_eq_nil_iff]
    intro x hx
    simp [hrows x hx, Ne.symm hk]
  rw [filter_append, hnone, append_nil]

end

end Owner

end DTLite.Reasoning
