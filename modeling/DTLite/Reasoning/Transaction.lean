import Mathlib.Data.Option.Basic
import Mathlib.Tactic.Set

/-!
# Transactions of one connection

The statements of a connection see the data as changed so far.  While a transaction is open, the
connection can go back to the data as they were when it began.
-/

namespace DTLite.Reasoning

/-- A connection: the data as its statements see them and, while a transaction is open, the data a
rollback goes back to. -/
structure Conn (σ : Type*) where
  data : σ
  saved : Option σ

namespace Conn

variable {σ : Type*}

-- A statement outside of transaction control.
def run (c : Conn σ) (f : σ → σ) : Conn σ := { c with data := f c.data }

-- There are no transactions inside of a transaction.
def start (c : Conn σ) (ok : Bool) : Conn σ :=
  if ok && c.saved.isNone then { c with saved := some c.data } else c

def commit (c : Conn σ) (ok : Bool) : Conn σ := if ok then { c with saved := none } else c

def rollback (c : Conn σ) : Conn σ :=
  match c.saved with
  | some data => ⟨data, none⟩
  | none => c

/-- `ok` tells whether the statement succeeds where it is allowed. Any other text is a syntax error.
-/
def exec (c : Conn σ) (text : String) (ok : Bool) : Conn σ :=
  if text = "BEGIN" ∨ text = "BEGIN TRANSACTION" then c.start ok
  else if text = "COMMIT" ∨ text = "COMMIT TRANSACTION" then c.commit ok
  else if text = "ROLLBACK" ∨ text = "ROLLBACK TRANSACTION" then c.rollback
  else c

/-- No transaction is open, and the data are `applied` if every statement succeeded and as they were
before otherwise. -/
structure Atomic (before after : Conn σ) (succeeded : Bool) (applied : σ) : Prop where
  closed : after.saved = none
  data_eq : after.data = if succeeded then applied else before.data

variable (c : Conn σ) (ok : Bool)

theorem exec_begin : c.exec "BEGIN TRANSACTION" ok = c.start ok := if_pos (by decide)

theorem exec_begin_short : c.exec "BEGIN" ok = c.start ok := if_pos (by decide)

theorem exec_commit : c.exec "COMMIT" ok = c.commit ok := by
  rw [exec, if_neg (by decide), if_pos (by decide)]

@[simp] theorem start_data : (c.start ok).data = c.data := by
  unfold start
  split <;> rfl

@[simp] theorem commit_data : (c.commit ok).data = c.data := by
  unfold commit
  split <;> rfl

theorem start_saved {c : Conn σ} (hclosed : c.saved = none) (ok : Bool) :
    (c.start ok).saved = if ok then some c.data else none := by
  unfold start
  cases ok <;> simp [hclosed]

theorem commit_saved : (c.commit ok).saved = if ok then none else c.saved := by
  unfold commit
  split <;> rfl

theorem commit_saved_eq_none_iff : (c.commit ok).saved = none ↔ ok = true ∨ c.saved = none := by
  unfold commit
  cases ok <;> simp

theorem rollback_run_start_data (f : σ → σ) :
    (((c.start ok).run f).rollback).data = c.saved.getD (if ok then c.data else f c.data) := by
  obtain ⟨data, saved⟩ := c
  cases saved with
  | none => cases ok <;> rfl
  | some saved => cases ok <;> rfl

theorem atomic_iff {before after : Conn σ} {data : σ} {closed : Prop} (hdata : after.data = data)
    (hsaved : after.saved = none ↔ closed) (succeeded : Bool) (applied : σ) :
    Atomic before after succeeded applied ↔
      closed ∧ data = if succeeded then applied else before.data := by
  rw [← hsaved, ← hdata]
  exact ⟨fun h => ⟨h.closed, h.data_eq⟩, fun h => ⟨h.1, h.2⟩⟩

/-- A text that is no statement stands in for the rollback: the data are changed in any case, and
the transaction is closed if it was never opened or the commit succeeds. -/
theorem transaction_outcome {c : Conn σ} (hclosed : c.saved = none) {text : String}
    (htext : ∀ (c : Conn σ) (ok : Bool), c.exec text ok = c) (f : σ → σ)
    (begins done commits : Bool) :
    let after := ((c.exec "BEGIN TRANSACTION" begins).run f).exec (if done then "COMMIT" else text)
      commits
    after.data = f c.data ∧
      (after.saved = none ↔ (begins = true → done = true ∧ commits = true)) := by
  intro after
  set changed := (c.exec "BEGIN TRANSACTION" begins).run f with hchanged
  have hdata : changed.data = f c.data := by
    show f (c.exec "BEGIN TRANSACTION" begins).data = _
    rw [exec_begin, start_data]
  have hsaved : changed.saved = none ↔ begins = false := by
    show (c.exec "BEGIN TRANSACTION" begins).saved = none ↔ _
    rw [exec_begin, start_saved hclosed]
    cases begins <;> simp
  cases done with
  | true =>
    have hafter : after = changed.commit commits := exec_commit changed commits
    rw [hafter, commit_data, commit_saved_eq_none_iff, hsaved]
    refine ⟨hdata, ?_⟩
    cases begins <;> simp
  | false =>
    have hafter : after = changed := htext changed commits
    rw [hafter]
    refine ⟨hdata, hsaved.trans ?_⟩
    cases begins <;> simp

end Conn

-- The data after a statement that succeeds or does nothing.
def attempt {σ : Type*} (ok : Bool) (f : σ → σ) (data : σ) : σ := if ok then f data else data

end DTLite.Reasoning
