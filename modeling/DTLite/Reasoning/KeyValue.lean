import Mathlib.Data.List.Nodup
import Mathlib.Data.List.Perm.Subperm
import Mathlib.Data.Nat.Find

/-! Lists of keys with values, in the order in which the keys came in: a key is assigned in its
place, or at the end if it is new. -/

namespace DTLite.Reasoning

open List

section KeyValue

variable {κ ν : Type*} [DecidableEq κ]

def valueOf? (k : κ) (l : List (κ × ν)) : Option ν := (l.find? fun e => e.1 = k).map Prod.snd

def assign (k : κ) (v : ν) : List (κ × ν) → List (κ × ν)
  | [] => [(k, v)]
  | e :: l => if e.1 = k then (k, v) :: l else e :: assign k v l

variable {l : List (κ × ν)}

theorem mem_keys_assign {k k' : κ} {v : ν} :
    k' ∈ (assign k v l).map Prod.fst ↔ k' = k ∨ k' ∈ l.map Prod.fst := by
  induction l with
  | nil => simp [assign]
  | cons e l ih =>
    rw [assign]
    split
    · next hkey =>
      rw [map_cons, map_cons, mem_cons, mem_cons, hkey]
      tauto
    · rw [map_cons, map_cons, mem_cons, mem_cons]
      tauto

variable {k : κ}

theorem assign_of_new {v : ν} (hk : k ∉ l.map Prod.fst) : assign k v l = l ++ [(k, v)] := by
  induction l with
  | nil => rfl
  | cons e l ih =>
    rw [map_cons, mem_cons, not_or] at hk
    rw [assign, if_neg fun h => hk.1 h.symm, ih hk.2]
    rfl

theorem valueOf?_assign (k : κ) (v : ν) (l : List (κ × ν)) :
    valueOf? k (assign k v l) = some v := by
  induction l with
  | nil => simp [assign, valueOf?]
  | cons e l ih =>
    rw [assign]
    split
    · simp [valueOf?]
    · next hkey =>
      rw [valueOf?, find?_cons_of_neg (by simpa using hkey)]
      exact ih

theorem valueOf?_assign_of_ne {k k' : κ} (hne : k' ≠ k) (v : ν) (l : List (κ × ν)) :
    valueOf? k' (assign k v l) = valueOf? k' l := by
  induction l with
  | nil => simp [assign, valueOf?, hne.symm]
  | cons e l ih =>
    rw [assign]
    split
    · next hkey =>
      rw [valueOf?, valueOf?, find?_cons_of_neg (by simpa using hne.symm),
        find?_cons_of_neg (by simpa [hkey] using hne.symm)]
    · by_cases he : e.1 = k'
      · simp [valueOf?, he]
      · rw [valueOf?, valueOf?, find?_cons_of_neg (by simpa using he),
          find?_cons_of_neg (by simpa using he)]
        exact ih

theorem valueOf?_append {m : List (κ × ν)} (hk : k ∉ m.map Prod.fst) (l : List (κ × ν)) :
    valueOf? k (l ++ m) = valueOf? k l := by
  have hnone : m.find? (fun e => e.1 = k) = none := by
    rw [find?_eq_none]
    intro e he hkey
    exact hk (mem_map.mpr ⟨e, he, of_decide_eq_true hkey⟩)
  rw [valueOf?, valueOf?, find?_append, hnone, Option.or_none]

theorem valueOf?_eq_none (hk : k ∉ l.map Prod.fst) : valueOf? k l = none := valueOf?_append hk []

theorem valueOf?_isSome : (valueOf? k l).isSome ↔ k ∈ l.map Prod.fst := by
  rw [valueOf?]
  simp

/-- Among numbered keys, the first one from `start` on that a list does not have. -/
theorem exists_first_gap {key : Nat → κ} (hkey : Function.Injective key) (keys : List κ)
    (start : Nat) : ∃ k ≤ keys.length, key (start + k) ∉ keys ∧
      ∀ i < k, key (start + i) ∈ keys := by
  have hex : ∃ k, k ≤ keys.length ∧ key (start + k) ∉ keys := by
    by_contra hall
    push Not at hall
    have hnodup : ((range (keys.length + 1)).map fun k => key (start + k)).Nodup :=
      nodup_range.map fun a b h => by have := hkey h; omega
    have hsubset : ((range (keys.length + 1)).map fun k => key (start + k)) ⊆ keys := by
      intro x hx
      obtain ⟨k, hk, rfl⟩ := mem_map.mp hx
      exact hall k (Nat.le_of_lt_succ (mem_range.mp hk))
    have hlength := (hnodup.subperm hsubset).length_le
    rw [length_map, length_range] at hlength
    omega
  refine ⟨Nat.find hex, (Nat.find_spec hex).1, (Nat.find_spec hex).2, ?_⟩
  intro i hi
  by_contra hnot
  exact Nat.find_min hex hi ⟨by have := (Nat.find_spec hex).1; omega, hnot⟩

-- The entries that `p` selects, from the first one with the key `root` on.
def entriesFrom (root : κ) (p : κ → Bool) (l : List (κ × ν)) : List (κ × ν) :=
  (l.dropWhile fun e => e.1 ≠ root).filter fun e => p e.1

variable {root : κ} {p : κ → Bool} {l : List (κ × ν)}

theorem entriesFrom_cons_of_ne {e : κ × ν} (he : e.1 ≠ root) :
    entriesFrom root p (e :: l) = entriesFrom root p l := by
  rw [entriesFrom, dropWhile_cons_of_pos (by simpa using he)]
  rfl

theorem entriesFrom_cons_root {e : κ × ν} (he : e.1 = root) :
    entriesFrom root p (e :: l) = (e :: l).filter fun e => p e.1 := by
  rw [entriesFrom, dropWhile_cons_of_neg (by simpa using he)]

theorem filter_assign_of_not (hk : p k = false) (v : ν) :
    (assign k v l).filter (fun e => p e.1) = l.filter fun e => p e.1 := by
  induction l with
  | nil => simp [assign, hk]
  | cons e l ih =>
    rw [assign]
    split
    · next hkey =>
      rw [filter_cons_of_neg (by simp [hk]), filter_cons_of_neg (by simp [hkey, hk])]
    · rw [filter_cons, filter_cons, ih]

theorem entriesFrom_assign_of_not (hroot : k ≠ root) (hk : p k = false) (v : ν) :
    entriesFrom root p (assign k v l) = entriesFrom root p l := by
  induction l with
  | nil =>
    rw [assign, entriesFrom_cons_of_ne hroot]
  | cons e l ih =>
    by_cases he : e.1 = root
    · have hne : e.1 ≠ k := fun h => hroot (h.symm.trans he)
      rw [assign, if_neg hne, entriesFrom_cons_root he, entriesFrom_cons_root he,
        filter_cons, filter_cons, filter_assign_of_not hk]
    · rw [assign]
      split
      · rw [entriesFrom_cons_of_ne hroot, entriesFrom_cons_of_ne he]
      · rw [entriesFrom_cons_of_ne he, entriesFrom_cons_of_ne he, ih]

theorem entriesFrom_append (hroot : root ∈ l.map Prod.fst) (m : List (κ × ν)) :
    entriesFrom root p (l ++ m) = entriesFrom root p l ++ m.filter fun e => p e.1 := by
  induction l with
  | nil => cases hroot
  | cons e l ih =>
    rw [cons_append]
    by_cases he : e.1 = root
    · rw [entriesFrom_cons_root he, entriesFrom_cons_root he, ← cons_append, filter_append]
    · rw [entriesFrom_cons_of_ne he, entriesFrom_cons_of_ne he]
      apply ih
      rw [map_cons, mem_cons] at hroot
      exact hroot.resolve_left fun h => he h.symm

theorem entriesFrom_append_root (hroot : root ∉ l.map Prod.fst) (hp : p root = false) (v : ν) :
    entriesFrom root p (l ++ [(root, v)]) = [] := by
  induction l with
  | nil => simp [entriesFrom, hp]
  | cons e l ih =>
    rw [map_cons, mem_cons, not_or] at hroot
    rw [cons_append, entriesFrom_cons_of_ne fun h => hroot.1 h.symm]
    exact ih hroot.2

/-- A scan that passes over the entries that `p` does not select. -/
theorem foldlM_entriesFrom {σ : Type*} {f : σ → κ × ν → Option σ}
    (hskip : ∀ s e, p e.1 = false → f s e = some s) (s : σ) :
    (l.dropWhile fun e => e.1 ≠ root).foldlM f s = (entriesFrom root p l).foldlM f s := by
  rw [entriesFrom]
  induction l.dropWhile fun e => e.1 ≠ root generalizing s with
  | nil => rfl
  | cons e m ih =>
    rw [foldlM_cons, filter_cons]
    cases he : p e.1 with
    | false =>
      rw [hskip s e he]
      exact ih s
    | true =>
      show _ = foldlM f s (e :: _)
      rw [foldlM_cons]
      cases f s e with
      | none => rfl
      | some s' => exact ih s'

-- The fields of an object, each under its own key.
def assignAll {φ : Type*} (key : φ → κ) (fields : List (φ × ν)) (l : List (κ × ν)) :
    List (κ × ν) :=
  fields.foldl (fun l field => assign (key field.1) field.2 l) l

variable {φ : Type*} {key : φ → κ} {fields : List (φ × ν)}

theorem mem_keys_assignAll :
    k ∈ (assignAll key fields l).map Prod.fst ↔
      k ∈ l.map Prod.fst ∨ ∃ field ∈ fields, k = key field.1 := by
  induction fields generalizing l with
  | nil => simp [assignAll]
  | cons field fields ih =>
    show k ∈ (assignAll key fields _).map Prod.fst ↔ _
    rw [ih, mem_keys_assign, exists_mem_cons_iff]
    tauto

theorem valueOf?_assignAll_of_ne (hk : ∀ field ∈ fields, k ≠ key field.1) :
    valueOf? k (assignAll key fields l) = valueOf? k l := by
  induction fields generalizing l with
  | nil => rfl
  | cons field fields ih =>
    show valueOf? k (assignAll key fields _) = _
    rw [ih fun field' h => hk field' (mem_cons_of_mem _ h),
      valueOf?_assign_of_ne (hk field mem_cons_self)]

theorem assignAll_of_new (hkey : Function.Injective key) (hfields : (fields.map Prod.fst).Nodup)
    (hnew : ∀ field ∈ fields, key field.1 ∉ l.map Prod.fst) :
    assignAll key fields l = l ++ fields.map fun field => (key field.1, field.2) := by
  induction fields generalizing l with
  | nil => exact (append_nil l).symm
  | cons field fields ih =>
    rw [map_cons, nodup_cons] at hfields
    show assignAll key fields (assign (key field.1) field.2 l) = _
    rw [assign_of_new (hnew field mem_cons_self), ih hfields.2, append_assoc]
    · rfl
    · intro field' hmem hin
      rw [map_append, mem_append] at hin
      rcases hin with hin | hin
      · exact hnew field' (mem_cons_of_mem _ hmem) hin
      · have hsame := hkey (mem_singleton.mp hin)
        exact hfields.1 (hsame ▸ mem_map_of_mem hmem)

end KeyValue

end DTLite.Reasoning
