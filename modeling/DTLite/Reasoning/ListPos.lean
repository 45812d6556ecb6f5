import Mathlib.Data.List.Basic

/-! Positions in a doubly linked list, and loops that walk two such lists side by side. -/

namespace DTLite.Reasoning

section ListPos

variable {α β σ : Type*}

/-- A link of the list: what it holds, and the links on either side, the nearest one first. -/
structure ListPos (α : Type*) where
  before : List α
  data : α
  after : List α

open ListPos

inductive Direction where
  | next
  | previous

namespace ListPos

def first : List α → Option (ListPos α)
  | [] => none
  | x :: l => some ⟨[], x, l⟩

def advance (pos : ListPos α) : Direction → Option (ListPos α)
  | .next =>
      match pos.after with
      | [] => none
      | x :: l => some ⟨pos.data :: pos.before, x, l⟩
  | .previous =>
      match pos.before with
      | [] => none
      | x :: l => some ⟨l, x, pos.data :: pos.after⟩

/-- What a loop from this position on meets, the position itself included. -/
def remaining (d : Direction) : Option (ListPos α) → List α
  | none => []
  | some pos =>
      match d with
      | .next => pos.data :: pos.after
      | .previous => pos.data :: pos.before

theorem remaining_some (d : Direction) (pos : ListPos α) :
    remaining d (some pos) = pos.data :: remaining d (pos.advance d) := by
  cases d with
  | next =>
    unfold advance
    cases hafter : pos.after <;> simp only [remaining, hafter]
  | previous =>
    unfold advance
    cases hbefore : pos.before <;> simp [remaining, hbefore]

@[simp] theorem remaining_next_first (l : List α) : remaining .next (first l) = l := by
  cases l <;> rfl

@[simp] theorem remaining_previous_first (l : List α) :
    remaining .previous (first l) = l.take 1 := by
  cases l <;> rfl

end ListPos

/-- The loop `while(xs) { if(!ys) return 0; body; }` over two lists that advance together. -/
def walk2 (d : Direction) (body : α → β → σ → σ) :
    Option (ListPos α) → Option (ListPos β) → σ → Bool × σ
  | none, _, s => (true, s)
  | some _, none, s => (false, s)
  | some x, some y, s => walk2 d body (x.advance d) (y.advance d) (body x.data y.data s)
termination_by xs => (ListPos.remaining d xs).length
decreasing_by
  rw [ListPos.remaining_some, List.length_cons]
  exact Nat.lt_succ_self _

theorem walk2_eq_foldl (d : Direction) (body : α → β → σ → σ) (xs : Option (ListPos α))
    (ys : Option (ListPos β)) (s : σ)
    (hlen : (remaining d xs).length = (remaining d ys).length) :
    walk2 d body xs ys s =
      (true, ((remaining d xs).zip (remaining d ys)).foldl
        (fun s p => body p.1 p.2 s) s) := by
  fun_induction walk2 d body xs ys s with
  | case1 ys s => rfl
  | case2 x s =>
    -- the second list cannot be shorter
    rw [remaining_some] at hlen
    exact absurd hlen (Nat.succ_ne_zero _)
  | case3 x y s ih =>
    rw [remaining_some d x, remaining_some d y] at hlen ⊢
    rw [ih (Nat.succ.inj hlen), List.zip_cons_cons, List.foldl_cons]

end ListPos

end DTLite.Reasoning
