import Mathlib.Data.List.Basic

/-! Files written piece by piece: where a piece starts, in bytes. -/

namespace DTLite.Reasoning

open List Option

section Layout

variable {α β : Type*} (bytes : α → List β)

/-- What the pieces make together. -/
def written (pieces : List α) : List β := pieces.flatMap bytes

@[simp] theorem written_nil : written bytes [] = [] := rfl

@[simp] theorem written_cons (x : α) (xs : List α) :
    written bytes (x :: xs) = bytes x ++ written bytes xs := rfl

@[simp] theorem written_append (xs ys : List α) :
    written bytes (xs ++ ys) = written bytes xs ++ written bytes ys :=
  flatMap_append

/-- The position of the first piece with the mark. -/
def startOf (mark : α → Bool) : List α → Option Nat
  | [] => none
  | x :: xs => if mark x then some 0 else (startOf mark xs).map ((bytes x).length + ·)

theorem startOf_append (mark : α → Bool) (xs ys : List α) :
    startOf bytes mark (xs ++ ys) =
      (startOf bytes mark xs).or
        ((startOf bytes mark ys).map ((written bytes xs).length + ·)) := by
  induction xs with
  | nil => simp [startOf]
  | cons x xs ih =>
    rw [cons_append, startOf, startOf]
    by_cases hx : mark x
    · rw [if_pos hx, if_pos hx, some_or]
    · rw [if_neg hx, if_neg hx, ih]
      cases startOf bytes mark xs with
      | some n => rfl
      | none => cases startOf bytes mark ys <;> simp [Nat.add_assoc]

variable {mark : α → Bool}

theorem startOf_eq_none {xs : List α} (h : ∀ x ∈ xs, ¬ mark x) : startOf bytes mark xs = none := by
  induction xs with
  | nil => rfl
  | cons x xs ih =>
    rw [startOf, if_neg (h x mem_cons_self), ih fun y hy => h y (mem_cons_of_mem x hy), map_none]

theorem startOf_append_of_none (xs : List α) {ys : List α} (h : startOf bytes mark ys = none) :
    startOf bytes mark (xs ++ ys) = startOf bytes mark xs := by
  rw [startOf_append, h, map_none, or_none]

/-- The first piece with the mark starts where the pieces before it end. -/
theorem startOf_concat_new {xs : List α} {x : α} (h : startOf bytes mark xs = none) (hx : mark x) :
    startOf bytes mark (xs ++ [x]) = some (written bytes xs).length := by
  rw [startOf_append, h, none_or, startOf, if_pos hx, map_some, Nat.add_zero]

end Layout

end DTLite.Reasoning
