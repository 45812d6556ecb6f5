import DTLite.Control.JobsSafety

/-!
# The priorities of waiting jobs

A head that is not picked gets a higher priority at every scheduling, also in the queue of exports
while it is left out.  The priority is an `unsigned char`.
-/

namespace DTLite

open Reasoning List Function

namespace JobControl

-- What the scheduling section of a worker takes, and from which queue.
def picked (s : JobControl) : JobEvent → Option (JobQueue × JobId)
  | .work k => if s.workers[k]? = some .idle then JobQueue.all.foldl s.pickHead none else none
  | _ => none

/-- A job that stays at the head does not lose priority, and no head that could be picked has a
higher one than the job that is picked. -/
structure Ages (data : JobId → JobData) (s : JobControl) (e : JobEvent) : Prop where
  heads : ∀ q i, (s.queues q).head? = some i →
    ((jobStep data s e).queues q).head? = some i → s.priority i ≤ (jobStep data s e).priority i
  picked : ∀ b ∈ s.picked e, ∀ q i, (s.queues q).head? = some i →
    (q = .userExport → s.exportScheduled = false) → s.priority i ≤ s.priority b.2

/-- No head that is left behind has the highest priority there is. -/
def BelowTop (s : JobControl) (e : JobEvent) : Prop :=
  ∀ b ∈ s.picked e, ∀ q ∈ JobQueue.all, q ≠ b.1 → ∀ i ∈ (s.queues q).head?, s.priority i ≠ 255

instance (s : JobControl) (e : JobEvent) : Decidable (s.BelowTop e) := by
  unfold BelowTop
  infer_instance

variable {data : JobId → JobData} {s : JobControl} {e : JobEvent} {winner q : JobQueue}
  {i j : JobId} {best : Option (JobQueue × JobId)}

-- The best head so far has at least the priority `p`.
def Reaches (s : JobControl) (p : UInt8) (best : Option (JobQueue × JobId)) : Prop :=
  ∃ b ∈ best, p ≤ s.priority b.2

theorem Reaches.pickHead {p : UInt8} (h : s.Reaches p best) (q : JobQueue) :
    s.Reaches p (s.pickHead best q) := by
  obtain ⟨b, hb, hle⟩ := h
  cases hb
  unfold JobControl.pickHead
  split
  · exact ⟨b, rfl, hle⟩
  · split
    · exact ⟨b, rfl, hle⟩
    · dsimp only
      split
      next hlt => exact ⟨_, rfl, UInt8.le_trans hle (UInt8.le_of_lt hlt)⟩
      next => exact ⟨b, rfl, hle⟩

theorem reaches_pickHead (hq : (s.queues q).head? = some i)
    (hexport : q = .userExport → s.exportScheduled = false) :
    s.Reaches (s.priority i) (s.pickHead best q) := by
  obtain ⟨rest, hq⟩ := head?_eq_some_iff.mp hq
  unfold JobControl.pickHead
  rw [hq]
  dsimp only
  split
  next hnot =>
    rw [Bool.and_eq_true, beq_iff_eq] at hnot
    exact absurd hnot.1 (by rw [hexport hnot.2]; exact Bool.false_ne_true)
  next =>
    split
    · exact ⟨_, rfl, UInt8.le_refl _⟩
    · split
      next => exact ⟨_, rfl, UInt8.le_refl _⟩
      next hle => exact ⟨_, rfl, UInt8.not_lt.mp hle⟩

theorem Reaches.foldl {p : UInt8} (h : s.Reaches p best) (qs : List JobQueue) :
    s.Reaches p (qs.foldl s.pickHead best) := by
  induction qs generalizing best with
  | nil => exact h
  | cons q qs ih => exact ih (h.pickHead q)

theorem reaches_foldl (hq : (s.queues q).head? = some i)
    (hexport : q = .userExport → s.exportScheduled = false) {qs : List JobQueue} (hmem : q ∈ qs) :
    s.Reaches (s.priority i) (qs.foldl s.pickHead best) := by
  obtain ⟨before, after, rfl⟩ := append_of_mem hmem
  rw [foldl_append, foldl_cons]
  exact (reaches_pickHead hq hexport).foldl after

section Raise

variable {queues : JobQueue → List JobId} {priority : JobId → UInt8}

theorem raisePriority_apply :
    raisePriority queues winner priority q i =
      if q ≠ winner ∧ (queues q).head? = some i then priority i + 1 else priority i := by
  unfold raisePriority
  by_cases hw : q = winner
  · simp [hw]
  · cases queues q with
    | nil => simp [hw]
    | cons j rest =>
      by_cases hj : i = j
      · simp [hw, hj]
      · simp [hw, hj, Ne.symm hj]

-- A head is in one queue only, so it is raised once.
theorem foldl_raisePriority {tag : JobId → JobQueue} (htag : ∀ q, ∀ j ∈ queues q, tag j = q)
    (hi : tag i = q) {qs : List JobQueue} (hnodup : qs.Nodup) :
    qs.foldl (raisePriority queues winner) priority i =
      if q ∈ qs ∧ q ≠ winner ∧ (queues q).head? = some i then priority i + 1 else priority i := by
  induction qs generalizing priority with
  | nil => simp
  | cons q' qs ih =>
    obtain ⟨hnot, hnodup⟩ := nodup_cons.mp hnodup
    rw [foldl_cons, ih hnodup, raisePriority_apply]
    by_cases hq : q = q'
    · simp [hq, hnot]
    · have hother : (queues q').head? ≠ some i := fun hhead =>
        hq (hi.symm.trans (htag q' i (mem_of_mem_head? hhead)))
      simp [hq, hother]

end Raise

theorem priority_le_schedule (h : s.Invariant data) {k : Nat} (hidle : s.workers[k]? = some .idle)
    (htop : s.BelowTop (.work k)) (hq : (s.queues q).head? = some i) :
    s.priority i ≤ (s.dtControlScheduleJob k).priority i := by
  unfold dtControlScheduleJob
  split
  · exact UInt8.le_refl _
  next winner j hpick =>
    have htag : ∀ q', ∀ i ∈ update s.queues winner (s.queues winner).tail q', s.queue i = q' := by
      intro q' i hi
      by_cases hw : q' = winner
      · subst hw
        rw [update_self] at hi
        exact h.queued.tagged q' i (mem_of_mem_tail hi)
      · rw [update_of_ne hw] at hi
        exact h.queued.tagged q' i hi
    have hi : s.queue i = q := h.queued.tagged q i (mem_of_mem_head? hq)
    show _ ≤ JobQueue.all.foldl (raisePriority (update s.queues winner _) winner) s.priority i
    rw [foldl_raisePriority htag hi nodup_all]
    split
    next hraised =>
      have hne := htop (winner, j) (by simp [picked, hidle, hpick]) q (mem_all q) hraised.2.1 i hq
      rw [UInt8.le_iff_toNat_le, UInt8.toNat_add]
      have hlt := UInt8.toNat_lt (s.priority i)
      have hne' : (s.priority i).toNat ≠ 255 := fun heq => hne (UInt8.toNat_inj.mp heq)
      show _ ≤ ((s.priority i).toNat + 1) % 256
      omega
    next => exact UInt8.le_refl _

theorem ages_jobStep (h : s.Invariant data) (htop : s.BelowTop e) : s.Ages data e where
  heads q i hq _ := by
    cases e with
    | add queueId j =>
      show _ ≤ (if j ∈ s.handed then s else dtControlAddJob data s queueId j).priority i
      split
      · exact UInt8.le_refl _
      next hj =>
        have hne : i ≠ j := fun heq =>
          h.ledger.not_mem_queue hj q (heq ▸ mem_of_mem_head? hq)
        rw [(dtControlAddJob_frame queueId j).2 i hne]
        exact UInt8.le_refl _
    | returnFromAdd c =>
      show _ ≤ (s.returnFromAdd c).priority i
      rw [(returnFromAdd_frame c).2.2]
      exact UInt8.le_refl _
    | work k =>
      show _ ≤ (s.dtControlRunJob k).priority i
      unfold dtControlRunJob startJob
      split
      next => exact UInt8.le_refl _
      next hidle => exact priority_le_schedule h hidle htop hq
      next => split <;> exact UInt8.le_refl _
      all_goals exact UInt8.le_refl _
    | cancel j => exact UInt8.le_refl _
  picked b hb q i hq hexport := by
    cases e with
    | work k =>
      obtain ⟨b', hb', hle⟩ := @reaches_foldl s q i none hq hexport _ (mem_all q)
      obtain ⟨-, hb⟩ := Option.ite_none_right_eq_some.mp hb
      exact Option.some.inj (hb'.symm.trans hb) ▸ hle
    | _ => cases hb

end JobControl

/-- Along every run of an initialised control where no head that is left behind has the highest
priority. -/
theorem jobStep_ages (data : JobId → JobData) (numThreads : Nat) {es : List JobEvent}
    (h : AllSteps (jobStep data) JobControl.BelowTop (dtControlJobsInit numThreads) es) :
    AllSteps (jobStep data) (JobControl.Ages data) (dtControlJobsInit numThreads) es :=
  ((allStates_of_step (fun _ => jobStep_invariant) es
    (dtControlJobsInit_invariant data numThreads)).allSteps.and h).mono
      fun _ _ h => JobControl.ages_jobStep h.1 h.2

def plainJobs (_ : JobId) : JobData := ⟨0, 0, [], []⟩

theorem jobStep_ages_two_queues :
    AllSteps (jobStep plainJobs) (JobControl.Ages plainJobs) (dtControlJobsInit 1)
      [.add (some .userBg) 0, .add (some .userFg) 1, .work 0] :=
  jobStep_ages plainJobs 1 (by decide)

/-- Worker 0 is at an export and another one waits, while worker 1 is free. -/
@[mk_iff]
structure ExportWaits (s : JobControl) (p : UInt8) : Prop where
  running : s.running = true
  exportScheduled : s.exportScheduled = true
  queues : s.queues = fun q => if q = .userExport then [1] else []
  workers : s.workers = [.scheduled 0, .idle]
  priority : s.priority 1 = p

-- A job of the user, which worker 1 runs from the scheduling to the end.
def userJob (j : JobId) : List JobEvent := .add (some .userFg) j :: List.replicate 5 (.work 1)

section

variable {s : JobControl} {p : UInt8} {j : JobId}

open JobControl

theorem ExportWaits.userJob (h : ExportWaits s p) (hj : j ∉ s.handed) (hne : 1 ≠ j) :
    let s' := (userJob j).foldl (jobStep plainJobs) s
    ExportWaits s' (p + 1) ∧ s'.handed = j :: s.handed := by
  obtain ⟨running, exportScheduled, queues, queueLength, workers, calls, queue, priority, state,
    handed, executed, disposed⟩ := s
  obtain ⟨rfl, rfl, rfl, rfl, rfl⟩ := h
  have hj : j ∉ handed := hj
  simp [DTLite.userJob, jobStep, hj, hne, exportWaits_iff, dtControlAddJob, addFifo, setJob,
    setQueue, setState, dtControlRunJob, dtControlScheduleJob, JobQueue.all, pickHead,
    raisePriority, startJob, execute, finishJob, completeJob, dispose]

theorem ExportWaits.not_ages (h : ExportWaits s 255) (hj : j ∉ s.handed) (hne : 1 ≠ j) :
    ¬ (jobStep plainJobs s (.add (some .userFg) j)).Ages plainJobs (.work 1) := by
  obtain ⟨running, exportScheduled, queues, queueLength, workers, calls, queue, priority, state,
    handed, executed, disposed⟩ := s
  obtain ⟨rfl, rfl, rfl, rfl, hpriority⟩ := h
  have hj : j ∉ handed := hj
  have hpriority : priority 1 = 255 := hpriority
  intro hages
  have hle := hages.heads .userExport 1
  simp [jobStep, hj, hne, hpriority, dtControlAddJob, addFifo, setJob, setQueue, setState,
    dtControlRunJob, dtControlScheduleJob, JobQueue.all, pickHead, raisePriority] at hle

end

-- Two exports, of which worker 0 takes the first, and the jobs 2 to `n + 1` of the user.
def starvingExport (n : Nat) : List JobEvent :=
  [.add (some .userExport) 0, .work 0, .add (some .userExport) 1] ++
    (List.range n).flatMap fun i => userJob (i + 2)

theorem exportWaits_starvingExport (n : Nat) :
    let s := (starvingExport n).foldl (jobStep plainJobs) (dtControlJobsInit 2)
    ExportWaits s (UInt8.ofNat n) ∧ ∀ j ∈ s.handed, j < n + 2 := by
  induction n with
  | zero => exact ⟨⟨rfl, rfl, funext fun q => by cases q <;> rfl, rfl, rfl⟩, by decide⟩
  | succ n ih =>
    have hlast : starvingExport (n + 1) = starvingExport n ++ userJob (n + 2) := by
      simp [starvingExport, range_succ]
    rw [hlast, foldl_append, UInt8.ofNat_add]
    obtain ⟨hwaits, hhanded⟩ :=
      ih.1.userJob (fun h => absurd (ih.2 _ h) (Nat.lt_irrefl _)) (by omega : 1 ≠ n + 2)
    refine ⟨hwaits, fun j hj => ?_⟩
    rw [hhanded] at hj
    rcases mem_cons.mp hj with rfl | hj
    · exact Nat.lt_succ_self _
    · exact Nat.lt_succ_of_lt (ih.2 j hj)

/-- Worker 1 has run 255 jobs of the user and schedules the next one: the priority of the export
that waits goes from 255 to 0. -/
theorem starvingExport_not_ages :
    let s := (starvingExport 255).foldl (jobStep plainJobs) (dtControlJobsInit 2)
    ¬ (jobStep plainJobs s (.add (some .userFg) 257)).Ages plainJobs (.work 1) :=
  (exportWaits_starvingExport 255).1.not_ages
    (fun h => absurd ((exportWaits_starvingExport 255).2 _ h) (Nat.lt_irrefl _)) (by decide)

end DTLite
