import Mathlib.Data.List.Basic

/-!
# A table with a fixed number of slots

Values are stored one by one into the first free slot, unless they are in the table already.  Once
the table is full, new values are lost: it holds the first different values that it was given.
-/

namespace DTLite.Reasoning

open List

variable {α : Type*} [DecidableEq α]

def addNew (seen : List α) (x : α) : List α := if x ∈ seen then seen else seen ++ [x]

/-- The different values of a list, each where it stands first. -/
def firstSeen (xs : List α) : List α := xs.foldl addNew []

theorem mem_addNew {seen : List α} {x y : α} : y ∈ addNew seen x ↔ y ∈ seen ∨ y = x := by
  unfold addNew
  by_cases hx : x ∈ seen
  · rw [if_pos hx]
    constructor
    · exact Or.inl
    · rintro (hy | rfl)
      · exact hy
      · exact hx
  · rw [if_neg hx, mem_append, mem_singleton]

theorem mem_foldl_addNew {xs seen : List α} {y : α} :
    y ∈ xs.foldl addNew seen ↔ y ∈ seen ∨ y ∈ xs := by
  induction xs generalizing seen with
  | nil => simp
  | cons x xs ih => rw [foldl_cons, ih, mem_addNew, mem_cons, or_assoc]

theorem mem_firstSeen {xs : List α} {y : α} : y ∈ firstSeen xs ↔ y ∈ xs := by
  rw [firstSeen, mem_foldl_addNew]
  simp

/-! ## The table -/

section Slots

variable (free : α)

def store (x : α) : List α → List α
  | [] => []
  | y :: table => if y = free then x :: table else if y = x then y :: table else y :: store x table

def holds (x : α) : List α → Bool
  | [] => false
  | y :: table => if y = x then true else if y = free then false else holds x table

/-- The table of `nb` slots that was given the different values `seen`. -/
def slots (nb : Nat) (seen : List α) : List α :=
  seen.take nb ++ List.replicate (nb - seen.length) free

variable {free} {nb : Nat} {seen l : List α} {x : α}

theorem store_of_mem (hfree : free ∉ l) (hx : x ∈ l) (rest : List α) :
    store free x (l ++ rest) = l ++ rest := by
  induction l with
  | nil => cases hx
  | cons y l ih =>
    have hy : y ≠ free := fun h => hfree (h ▸ mem_cons_self)
    rw [cons_append, store, if_neg hy]
    by_cases hyx : y = x
    · rw [if_pos hyx]
    · rw [if_neg hyx, ih (fun h => hfree (mem_cons_of_mem _ h))
        ((mem_cons.mp hx).resolve_left (Ne.symm hyx))]

theorem store_of_not_mem (hfree : free ∉ l) (hx : x ∉ l) (rest : List α) :
    store free x (l ++ rest) = l ++ store free x rest := by
  induction l with
  | nil => rfl
  | cons y l ih =>
    have hy : y ≠ free := fun h => hfree (h ▸ mem_cons_self)
    have hyx : y ≠ x := fun h => hx (h ▸ mem_cons_self)
    rw [cons_append, store, if_neg hy, if_neg hyx,
      ih (fun h => hfree (mem_cons_of_mem _ h)) (fun h => hx (mem_cons_of_mem _ h)),
      cons_append]

section

variable (hfree : free ∉ seen)
include hfree

theorem store_slots : store free x (slots free nb seen) = slots free nb (addNew seen x) := by
  have htake : free ∉ seen.take nb := fun h => hfree (mem_of_mem_take h)
  unfold slots addNew
  by_cases hmem : x ∈ seen.take nb
  · rw [if_pos (mem_of_mem_take hmem), store_of_mem htake hmem]
  · rw [store_of_not_mem htake hmem]
    by_cases hfull : nb ≤ seen.length
    · -- nothing changes in a full table
      have hnone : nb - seen.length = 0 := by omega
      have hsame : (if x ∈ seen then seen else seen ++ [x]).take nb = seen.take nb := by
        split
        · rfl
        · exact take_append_of_le_length hfull
      have hlen : nb - (if x ∈ seen then seen else seen ++ [x]).length = 0 := by
        split
        · exact hnone
        · rw [length_append]
          omega
      rw [hsame, hlen, hnone]
      rfl
    · have hall : seen.take nb = seen := take_of_length_le (by omega)
      rw [hall] at hmem ⊢
      have hall' : (seen ++ [x]).take nb = seen ++ [x] := by
        apply take_of_length_le
        rw [length_append, length_singleton]
        omega
      obtain ⟨k, hk⟩ : ∃ k, nb - seen.length = k + 1 := ⟨nb - seen.length - 1, by omega⟩
      have hk' : nb - (seen ++ [x]).length = k := by
        rw [length_append, length_singleton]
        omega
      rw [if_neg hmem, hall', hk, hk', replicate_succ, store, if_pos rfl, append_assoc]
      rfl

theorem store_free : store free free (slots free nb seen) = slots free nb seen := by
  have htake : free ∉ seen.take nb := fun h => hfree (mem_of_mem_take h)
  unfold slots
  rw [store_of_not_mem htake htake]
  cases nb - seen.length with
  | zero => rfl
  | succ k => rw [replicate_succ, store, if_pos rfl]

theorem not_mem_addNew (hx : x ≠ free) : free ∉ addNew seen x := by
  rw [mem_addNew]
  rintro (h | h)
  · exact hfree h
  · exact hx h.symm

/-- The table after values were stored holds as many of the different ones as it has slots. -/
theorem foldl_store (xs : List α) :
    xs.foldl (fun table x => store free x table) (slots free nb seen) =
      slots free nb ((xs.filter (· ≠ free)).foldl addNew seen) := by
  induction xs generalizing seen with
  | nil => rfl
  | cons x xs ih =>
    by_cases hx : x = free
    · rw [foldl_cons, hx, store_free hfree, ih hfree, filter_cons_of_neg (by simp)]
    · rw [foldl_cons, store_slots hfree, ih (not_mem_addNew hfree hx),
        filter_cons_of_pos (by simpa using hx), foldl_cons]

end

theorem holds_append_free (hfree : free ∉ l) (hx : x ≠ free) (k : Nat) :
    holds free x (l ++ replicate k free) = true ↔ x ∈ l := by
  induction l with
  | nil => cases k <;> simp [holds, replicate_succ, Ne.symm hx]
  | cons y l ih =>
    have hy : y ≠ free := fun h => hfree (h ▸ mem_cons_self)
    rw [cons_append, holds]
    by_cases hyx : y = x
    · simp [hyx]
    · rw [if_neg hyx, if_neg hy, ih (fun h => hfree (mem_cons_of_mem _ h))]
      simp [Ne.symm hyx]

theorem holds_slots (hfree : free ∉ seen) (hx : x ≠ free) :
    holds free x (slots free nb seen) = true ↔ x ∈ seen.take nb :=
  holds_append_free (fun h => hfree (mem_of_mem_take h)) hx _

end Slots

end DTLite.Reasoning
