import DTLite.Control.Jobs
import DTLite.Reasoning.Counting

/-!
# Where the jobs are

The places where a job can be are counted: the queues, the workers, the calls of
`dt_control_add_job`.  A job that was handed over is in one of them, once, until it is disposed.
-/

namespace DTLite

open Reasoning List Function

variable (data : JobId → JobData) (queues : JobQueue → List JobId) {c : AddCall} (s : JobControl)
  (i : JobId)

def one (j : JobId) : Nat :=
  if i = j then 1 else 0

@[simp]
theorem one_self (j : JobId) : one j j = 1 := if_pos rfl

theorem one_of_ne {i j : JobId} (h : i ≠ j) : one i j = 0 := if_neg h

theorem count_cons_one (j : JobId) (l : List JobId) : (j :: l).count i = l.count i + one i j := by
  rw [count_cons]
  by_cases h : i = j
  · subst h
    simp
  · rw [one_of_ne h, if_neg (by simpa using fun hji : j = i => h hji.symm)]

theorem update_succ_apply (f : JobId → Nat) (j i : JobId) :
    update f j (f j + 1) i = f i + one i j := by
  by_cases h : i = j
  · subst h
    rw [update_self, one_self]
  · rw [update_of_ne h, one_of_ne h]
    rfl

def Worker.count : Worker → Nat
  | idle => 0
  | scheduled j => one i j
  | executing j => one i j
  | executed j => one i j
  | completed j => one i j

def Worker.notStarted : Worker → Nat
  | scheduled j => one i j
  | _ => 0

def AddCall.count : AddCall → Nat
  | executing _ j => one i j
  | disposing j => one i j

def queuedIn : Nat :=
  total (fun q => (queues q).count i) JobQueue.all

variable (q : JobQueue)

theorem mem_all : q ∈ JobQueue.all := by
  cases q <;> decide

theorem nodup_all : JobQueue.all.Nodup := by decide

theorem queuedIn_update (l : List JobId) (i : JobId) :
    queuedIn (update queues q l) i + (queues q).count i = queuedIn queues i + l.count i :=
  total_update (f := fun l : List JobId => l.count i) nodup_all (mem_all q) l

theorem count_le_queuedIn (i : JobId) : (queues q).count i ≤ queuedIn queues i :=
  le_total_of_mem (f := fun q => (queues q).count i) (mem_all q)

theorem Worker.count_slot {w : Worker} {i : JobId} (h : w.slot = some i) : w.count i = 1 := by
  cases w <;> cases h <;> exact one_self i

namespace JobControl

/-- The places where the job is: queues, workers and calls. -/
def held : Nat :=
  queuedIn s.queues i + total (Worker.count i) s.workers + total (AddCall.count i) s.calls

-- The places from where it can still be executed by a worker.
def waiting : Nat :=
  queuedIn s.queues i + total (Worker.notStarted i) s.workers

def handedOver : Nat :=
  if i ∈ s.handed then 1 else 0

/-- A job is in one place or was disposed once. `hand` counts the jobs in hand in the middle of a
step, `ready` those of them that were not executed. -/
structure Ledger (s : JobControl) (hand ready : JobId → Nat) : Prop where
  owned : ∀ i, s.held i + s.disposed i + hand i = s.handedOver i
  once : ∀ i, s.executed i + s.waiting i + ready i ≤ s.handedOver i

def emptyHand (_ : JobId) : Nat := 0

/-- The queues: their lengths, and each job knows its queue. -/
structure Queues (s : JobControl) : Prop where
  lengths : ∀ q, s.queueLength q = (s.queues q).length
  bounded : (s.queues .systemFg).length ≤ dtControlMaxJobs
  tagged : ∀ q, ∀ j ∈ s.queues q, s.queue j = q

/-- A job of the system's foreground that is queued or scheduled. -/
def Active : Prop :=
  i ∈ s.queues .systemFg ∨ ∃ w ∈ s.workers, w.slot = some i ∧ s.queue i = .systemFg

def Distinct : Prop :=
  ∀ i j, s.Active i → s.Active j → i ≠ j → dtControlJobEqual data s.queue i j = false

-- 1 for a worker with an export job in its slot
def exportSlot (queue : JobId → JobQueue) (w : Worker) : Nat :=
  match w.slot with
  | none => 0
  | some j => if queue j = .userExport then 1 else 0

-- The flag tells of the one export job that is scheduled.
def Exports : Prop :=
  total (exportSlot s.queue) s.workers = if s.exportScheduled then 1 else 0

variable {s} in
theorem Exports.total_eq (h : s.Exports) :
    total (exportSlot s.queue) s.workers = if s.exportScheduled then 1 else 0 := h

variable {s} in
theorem Exports.total_le_one (h : s.Exports) : total (exportSlot s.queue) s.workers ≤ 1 := by
  rw [h.total_eq]
  split <;> omega

structure Invariant (data : JobId → JobData) (s : JobControl) : Prop where
  ledger : s.Ledger emptyHand emptyHand
  queued : s.Queues
  distinct : s.Distinct data
  exports : s.Exports

section Fresh

variable {s : JobControl} {j : JobId}

section

variable (h : s.Ledger emptyHand emptyHand) (hj : j ∉ s.handed)
include h hj

theorem Ledger.not_held : s.held j = 0 ∧ s.disposed j = 0 ∧ s.executed j = 0 := by
  have howned := h.owned j
  have honce := h.once j
  rw [handedOver, if_neg hj] at howned honce
  omega

theorem Ledger.not_mem_queue (q : JobQueue) : j ∉ s.queues q := by
  have hheld := (h.not_held hj).1
  have hle := count_le_queuedIn s.queues q j
  unfold held at hheld
  exact count_eq_zero.mp (by omega)

theorem Ledger.slot_ne {w : Worker} (hw : w ∈ s.workers) {i : JobId}
    (hi : w.slot = some i) : i ≠ j := by
  rintro rfl
  have hheld := (h.not_held hj).1
  have hle := le_total_of_mem (f := Worker.count i) hw
  rw [Worker.count_slot hi] at hle
  unfold held at hheld
  omega

theorem Ledger.active_ne {i : JobId} (hi : s.Active i) : i ≠ j := by
  rcases hi with hi | ⟨w, hw, hslot, -⟩
  · rintro rfl
    exact h.not_mem_queue hj .systemFg hi
  · exact h.slot_ne hj hw hslot

end

theorem handedOver_cons (hj : j ∉ s.handed) (i : JobId) :
    (if i ∈ j :: s.handed then 1 else 0) = s.handedOver i + one i j := by
  unfold handedOver
  by_cases h : i = j
  · subst h
    rw [if_pos mem_cons_self, if_neg hj, one_self]
  · rw [one_of_ne h]
    have hiff : i ∈ j :: s.handed ↔ i ∈ s.handed := by simp [h]
    simp only [hiff]
    rfl

theorem exportSlot_update (h : s.Ledger emptyHand emptyHand) (hj : j ∉ s.handed) (q : JobQueue) :
    total (exportSlot (update s.queue j q)) s.workers = total (exportSlot s.queue) s.workers := by
  apply total_congr
  intro w hw
  unfold exportSlot
  cases hslot : w.slot with
  | none => rfl
  | some i =>
    show (if update s.queue j q i = .userExport then 1 else 0) = _
    rw [update_of_ne (h.slot_ne hj hw hslot)]

end Fresh

theorem dtControlJobEqual_congr {queue queue' : JobId → JobQueue} {i j : JobId}
    (hi : queue' i = queue i) (hj : queue' j = queue j) :
    dtControlJobEqual data queue' i j = dtControlJobEqual data queue i j := by
  unfold dtControlJobEqual
  rw [hi, hj]

theorem dtControlJobEqual_symm (queue : JobId → JobQueue) (i j : JobId) :
    dtControlJobEqual data queue i j = dtControlJobEqual data queue j i := by
  have hexecute := Bool.beq_comm (a := (data i).execute) (b := (data j).execute)
  have hcb := Bool.beq_comm (a := (data i).stateChangedCb) (b := (data j).stateChangedCb)
  have hqueue := Bool.beq_comm (a := queue i) (b := queue j)
  have hparams := Bool.beq_comm (a := (data i).params) (b := (data j).params)
  have hdescription := Bool.beq_comm (a := (data i).description) (b := (data j).description)
  have hsize : ((data i).params.length ≠ 0 ∧ (data i).params.length = (data j).params.length) ↔
      ((data j).params.length ≠ 0 ∧ (data j).params.length = (data i).params.length) := by
    omega
  unfold dtControlJobEqual
  simp only [hsize, hexecute, hcb, hqueue, hparams, hdescription]

/-- Fewer active jobs with the same queues. -/
theorem Distinct.of_active {data : JobId → JobData} {s s' : JobControl} (h : s.Distinct data)
    (hactive : ∀ i, s'.Active i → s.Active i) (hqueue : ∀ i, s.Active i → s'.queue i = s.queue i) :
    s'.Distinct data := by
  intro i j hi hj hne
  have hsi := hactive i hi
  have hsj := hactive j hj
  rw [dtControlJobEqual_congr data (hqueue i hsi) (hqueue j hsj)]
  exact h i j hsi hsj hne

theorem Distinct.of_active_or {data : JobId → JobData} {s s' : JobControl}
    (h : s.Distinct data) (new : JobId) (hactive : ∀ i, s'.Active i → s.Active i ∨ i = new)
    (hqueue : ∀ i, s.Active i → s'.queue i = s.queue i)
    (hnew : ∀ i, s.Active i → dtControlJobEqual data s'.queue new i = false) :
    s'.Distinct data := by
  intro i j hi hj hne
  rcases hactive i hi with hsi | rfl
  · rcases hactive j hj with hsj | rfl
    · rw [dtControlJobEqual_congr data (hqueue i hsi) (hqueue j hsj)]
      exact h i j hsi hsj hne
    · rw [dtControlJobEqual_symm]
      exact hnew i hsi
  · rcases hactive j hj with hsj | rfl
    · exact hnew j hsj
    · exact absurd rfl hne

/-! ## Steps on the ledger -/

theorem returnFromAdd_of_mem {s : JobControl} (hc : c ∈ s.calls) :
    ∃ j, (∀ i, c.count i = one i j) ∧
      s.returnFromAdd c = JobControl.dispose { s with calls := s.calls.erase c } j := by
  rw [returnFromAdd, if_pos hc]
  cases c with
  | executing q j => exact ⟨j, fun _ => rfl, rfl⟩
  | disposing j => exact ⟨j, fun _ => rfl, rfl⟩

theorem returnFromAdd_of_not_mem {s : JobControl} (hc : c ∉ s.calls) : s.returnFromAdd c = s :=
  if_neg hc

section Steps

variable {s : JobControl} {hand hand' ready ready' : JobId → Nat} {j : JobId}

theorem Ledger.handOver (h : s.Ledger emptyHand emptyHand) (hj : j ∉ s.handed) :
    Ledger { s with handed := j :: s.handed } (one · j) (one · j) where
  owned i := by
    have howned := h.owned i
    show s.held i + s.disposed i + one i j = if i ∈ j :: s.handed then 1 else 0
    rw [handedOver_cons hj]
    unfold emptyHand at howned
    omega
  once i := by
    have honce := h.once i
    show s.executed i + s.waiting i + one i j ≤ if i ∈ j :: s.handed then 1 else 0
    rw [handedOver_cons hj]
    omega

section

variable (h : s.Ledger hand ready)
include h

theorem Ledger.once_of_le (hready : ∀ i, ready' i ≤ ready i) (i : JobId) :
    s.executed i + s.waiting i + ready' i ≤ s.handedOver i :=
  (Nat.add_le_add_left (hready i) _).trans (h.once i)

theorem Ledger.dispose
    (hhand : ∀ i, hand' i + one i j = hand i) (hready : ∀ i, ready' i ≤ ready i) :
    (s.dispose j).Ledger hand' ready' where
  owned i := by
    have howned := h.owned i
    have hi := hhand i
    show s.held i + update s.disposed j (s.disposed j + 1) i + hand' i = s.handedOver i
    rw [update_succ_apply]
    omega
  once := h.once_of_le hready

theorem Ledger.execute
    (hready : ∀ i, ready' i + one i j ≤ ready i) : (s.execute j).Ledger hand ready' where
  owned i := h.owned i
  once i := by
    have honce := h.once i
    have hi := hready i
    show update s.executed j (s.executed j + 1) i + s.waiting i + ready' i ≤ s.handedOver i
    rw [update_succ_apply]
    omega

theorem Ledger.setQueue {q : JobQueue} {l : List JobId} (n : Nat)
    (hhand : ∀ i, l.count i + hand' i = (s.queues q).count i + hand i)
    (hready : ∀ i, l.count i + ready' i ≤ (s.queues q).count i + ready i) :
    (s.setQueue q l n).Ledger hand' ready' where
  owned i := by
    have howned := h.owned i
    have hi := hhand i
    have hq := queuedIn_update s.queues q l i
    unfold JobControl.setQueue
    simp only [held, handedOver] at howned ⊢
    omega
  once i := by
    have honce := h.once i
    have hi := hready i
    have hq := queuedIn_update s.queues q l i
    unfold JobControl.setQueue
    simp only [waiting, handedOver] at honce ⊢
    omega

theorem Ledger.addCall (hhand : ∀ i, hand' i + c.count i = hand i)
    (hready : ∀ i, ready' i ≤ ready i) : Ledger { s with calls := c :: s.calls } hand' ready' where
  owned i := by
    have howned := h.owned i
    have hi := hhand i
    simp only [held, handedOver, total_cons] at howned ⊢
    omega
  once := h.once_of_le hready

end

theorem Ledger.eraseCall (h : s.Ledger emptyHand ready) (hc : c ∈ s.calls) :
    Ledger { s with calls := s.calls.erase c } (AddCall.count · c) ready where
  owned i := by
    have howned := h.owned i
    have herase := total_erase (f := AddCall.count i) hc
    simp only [held, handedOver, emptyHand] at howned ⊢
    omega
  once i := h.once i

theorem Ledger.setWorker (h : s.Ledger hand ready) {k : Nat} {w w' : Worker}
    (hw : s.workers[k]? = some w) (hhand : ∀ i, w'.count i + hand' i = w.count i + hand i)
    (hready : ∀ i, w'.notStarted i + ready' i ≤ w.notStarted i + ready i) :
    Ledger { s with workers := s.workers.set k w' } hand' ready' where
  owned i := by
    have howned := h.owned i
    have hi := hhand i
    have hset := total_set (f := Worker.count i) w' hw
    simp only [held, handedOver] at howned ⊢
    omega
  once i := by
    have honce := h.once i
    have hi := hready i
    have hset := total_set (f := Worker.notStarted i) w' hw
    simp only [waiting, handedOver] at honce ⊢
    omega

end Steps

section Top

variable (top : JobId) (kept : List JobId) (n : Nat)

def dropped : Option JobId → Nat
  | none => 0
  | some last => one i last

theorem insertTop_count (i : JobId) :
    (insertTop top kept n).1.count i + dropped i (insertTop top kept n).2 =
      (top :: kept).count i := by
  unfold insertTop
  split
  · cases hlast : (top :: kept).getLast? with
    | none => cases getLast?_eq_none_iff.mp hlast
    | some last =>
      have happend := dropLast_append_getLast? last hlast
      have hcount := congrArg (count i) happend
      rw [count_append, count_cons_one, count_nil] at hcount
      show (top :: kept).dropLast.count i + one i last = _
      omega
  · rfl

theorem insertTop_length (hn : n = kept.length) :
    (insertTop top kept n).1.length = if n + 1 > dtControlMaxJobs then n else n + 1 := by
  unfold insertTop
  split
  · rw [length_dropLast, hn]
    rfl
  · show kept.length + 1 = n + 1
    rw [hn]

theorem mem_insertTop {i : JobId} (h : i ∈ (insertTop top kept n).1) : i = top ∨ i ∈ kept := by
  unfold insertTop at h
  split at h
  · exact mem_cons.mp (dropLast_subset _ h)
  · exact mem_cons.mp h

variable (s : JobControl)

theorem pushTop_eq : ∃ state disposed, s.pushTop top kept n =
    { s.setQueue .systemFg (insertTop top kept n).1
        (if n + 1 > dtControlMaxJobs then n else n + 1) with
      state := state
      disposed := disposed } := by
  unfold pushTop
  dsimp only
  split <;> exact ⟨_, _, rfl⟩

variable {s top kept n}

theorem Ledger.setState {hand ready : JobId → Nat} (h : s.Ledger hand ready) (j : JobId)
    (state : JobState) : (s.setState j state).Ledger hand ready where
  owned := h.owned
  once := h.once

theorem Ledger.pushTop {hand hand' ready ready' : JobId → Nat} (h : s.Ledger hand ready)
    (hhand : ∀ i, (top :: kept).count i + hand' i = (s.queues .systemFg).count i + hand i)
    (hready : ∀ i, (top :: kept).count i + ready' i ≤ (s.queues .systemFg).count i + ready i) :
    (s.pushTop top kept n).Ledger hand' ready' := by
  have hcount := insertTop_count top kept n
  -- the list is written, with the discarded job in the hands
  have hqueue : (s.setQueue .systemFg (insertTop top kept n).1
      (if n + 1 > dtControlMaxJobs then n else n + 1)).Ledger
      (fun i => hand' i + dropped i (insertTop top kept n).2) ready' := by
    apply h.setQueue
    · intro i
      have hi := hhand i
      have hc := hcount i
      omega
    · intro i
      have hi := hready i
      have hc := hcount i
      omega
  apply Ledger.setState
  cases hdropped : (insertTop top kept n).2 with
  | none =>
    rw [hdropped] at hqueue
    exact hqueue
  | some last =>
    rw [hdropped] at hqueue
    exact hqueue.dispose (fun i => rfl) fun i => Nat.le_refl _

end Top

end JobControl

end DTLite
