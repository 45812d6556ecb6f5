import Mathlib.Data.List.Basic

/-!
# Reader-writer locks

A lock knows who holds it: one writer, or any number of readers.
-/

namespace DTLite.Reasoning

open List

inductive RwLock (τ : Type*) where
  | written (writer : τ)
  | shared (readers : List τ)
deriving DecidableEq, Repr

namespace RwLock

variable {τ : Type*}

def isFree : RwLock τ → Bool
  | shared [] => true
  | _ => false

-- `pthread_rwlock_trywrlock` and `pthread_rwlock_tryrdlock`.
def tryWrlock : RwLock τ → τ → Option (RwLock τ)
  | shared [], t => some (written t)
  | _, _ => none
def tryRdlock : RwLock τ → τ → Option (RwLock τ)
  | shared ts, t => some (shared (t :: ts))
  | written _, _ => none

-- `pthread_rwlock_unlock`.
def unlock [DecidableEq τ] : RwLock τ → τ → RwLock τ
  | written u, t => if u = t then shared [] else written u
  | shared ts, t => shared (ts.erase t)

/-- The lock is held, for writing or for reading. -/
def Holds (t : τ) : RwLock τ → Bool → Prop
  | written u, true => u = t
  | shared ts, false => t ∈ ts
  | _, _ => False

/-- The lock is held once, and by nobody else. -/
def OnlyHolds (t : τ) (l : RwLock τ) : Prop := l = written t ∨ l = shared [t]

variable {l l' : RwLock τ} {t u : τ} {write : Bool}

theorem isFree_eq_false_of_holds (h : l.Holds t write) : l.isFree = false := by
  cases l with
  | written u => rfl
  | shared ts =>
    cases write with
    | true => exact h.elim
    | false =>
      obtain ⟨u, ts, rfl⟩ := exists_cons_of_ne_nil (ne_nil_of_mem h)
      rfl

theorem Holds.eq_of_writes (h : l.Holds t true) (hother : l.Holds u write) : t = u := by
  cases l with
  | written v =>
    cases write with
    | true => exact h.symm.trans hother
    | false => exact hother.elim
  | shared ts => exact h.elim

theorem Holds.tryRdlock (h : l.Holds t write) (hlock : l.tryRdlock u = some l') :
    l'.Holds t write := by
  cases l with
  | written v => cases hlock
  | shared ts =>
    cases hlock
    cases write with
    | true => exact h
    | false => exact mem_cons_of_mem u h

theorem Holds.tryWrlock (h : l.Holds t write) : l.tryWrlock u = none := by
  have hheld := isFree_eq_false_of_holds h
  match l with
  | written v => rfl
  | shared [] => cases hheld
  | shared (v :: ts) => rfl

theorem Holds.unlock [DecidableEq τ] (h : l.Holds t write) (hne : t ≠ u) :
    (l.unlock u).Holds t write := by
  cases l with
  | written v =>
    cases write with
    | true =>
      have hv : v = t := h
      rw [RwLock.unlock, if_neg (hv ▸ hne)]
      exact h
    | false => exact h.elim
  | shared ts =>
    cases write with
    | true => exact h.elim
    | false => exact (mem_erase_of_ne hne).mpr h

theorem holds_tryWrlock (hlock : l.tryWrlock t = some l') : l'.Holds t true := by
  match l with
  | written v => cases hlock
  | shared [] =>
    cases hlock
    rfl
  | shared (v :: ts) => cases hlock

theorem holds_tryRdlock (hlock : l.tryRdlock t = some l') : l'.Holds t false := by
  cases l with
  | written v => cases hlock
  | shared ts =>
    cases hlock
    exact mem_cons_self

theorem unlock_tryWrlock [DecidableEq τ] (hlock : l.tryWrlock t = some l') :
    l'.unlock t = l ∧ l' ≠ l := by
  match l with
  | written v => cases hlock
  | shared [] =>
    cases hlock
    exact ⟨if_pos rfl, fun h => by cases h⟩
  | shared (v :: ts) => cases hlock

theorem unlock_tryRdlock [DecidableEq τ] (hlock : l.tryRdlock t = some l') :
    l'.unlock t = l ∧ l' ≠ l := by
  cases l with
  | written v => cases hlock
  | shared ts =>
    cases hlock
    refine ⟨congrArg shared (erase_cons_head t ts), fun h => ?_⟩
    exact cons_ne_self t ts (RwLock.shared.inj h)

section

variable (h : l.OnlyHolds t)
include h

theorem OnlyHolds.eq (hother : l.Holds u write) : u = t := by
  rcases h with rfl | rfl
  · cases write with
    | true => exact hother.symm
    | false => exact hother.elim
  · cases write with
    | true => exact hother.elim
    | false => exact mem_singleton.mp hother

theorem OnlyHolds.isFree : l.isFree = false := by
  rcases h with rfl | rfl <;> rfl

theorem OnlyHolds.unlock [DecidableEq τ] (hne : t ≠ u) : (l.unlock u).OnlyHolds t := by
  rcases h with rfl | rfl
  · exact .inl (if_neg hne)
  · have hnot : u ∉ [t] := fun hmem => hne (mem_singleton.mp hmem).symm
    exact .inr (congrArg shared (erase_of_not_mem hnot))

theorem OnlyHolds.tryWrlock : l.tryWrlock u = none := by
  rcases h with rfl | rfl <;> rfl

end

theorem tryWrlock_of_isFree (hfree : l.isFree = true) (t : τ) : ∃ l', l.tryWrlock t = some l' := by
  match l with
  | written v => cases hfree
  | shared [] => exact ⟨written t, rfl⟩
  | shared (v :: ts) => cases hfree

theorem onlyHolds_tryRdlock (hfree : l.isFree = true) (hlock : l.tryRdlock t = some l') :
    l'.OnlyHolds t := by
  match l with
  | written v => cases hlock
  | shared [] =>
    cases hlock
    exact .inr rfl
  | shared (v :: ts) => cases hfree

end RwLock

end DTLite.Reasoning
