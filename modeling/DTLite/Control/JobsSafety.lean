import DTLite.Control.JobsSteps
import DTLite.Reasoning.Runs

/-!
# Every job is executed at most once and disposed exactly once

The invariant of the steps holds along every run.  A running control leaves the execution to its
workers, and the workers can always bring the jobs that were handed over to their end.
-/

namespace DTLite

open Reasoning List JobControl Worker

open JobControl

theorem jobStep_invariant {data : JobId → JobData} {s : JobControl} (e : JobEvent)
    (h : s.Invariant data) : (jobStep data s e).Invariant data := by
  cases e with
  | add queueId j =>
    show (if j ∈ s.handed then s else dtControlAddJob data s queueId j).Invariant data
    split
    · exact h
    · next hj => exact h.dtControlAddJob hj queueId
  | returnFromAdd c => exact h.returnFromAdd c
  | work k => exact h.dtControlRunJob k
  | cancel j =>
    exact ⟨⟨h.ledger.owned, h.ledger.once⟩, ⟨h.queued.lengths, h.queued.bounded, h.queued.tagged⟩,
      h.distinct, h.exports⟩

theorem total_replicate_zero {α : Type} {f : α → Nat} {a : α} (ha : f a = 0) (n : Nat) :
    total f (replicate n a) = 0 :=
  total_eq_zero fun b hb => by rw [eq_of_mem_replicate hb, ha]

theorem dtControlJobsInit_invariant (data : JobId → JobData) (numThreads : Nat) :
    (dtControlJobsInit numThreads).Invariant data where
  ledger :=
    { owned := fun i => by
        show queuedIn (fun _ => []) i + total (Worker.count i) (replicate numThreads .idle) +
          0 + 0 + 0 = 0
        rw [total_replicate_zero (show count i .idle = 0 from rfl)]
        rfl
      once := fun i => by
        show 0 + (queuedIn (fun _ => []) i +
          total (notStarted i) (replicate numThreads .idle)) + 0 ≤ 0
        rw [total_replicate_zero (show notStarted i .idle = 0 from rfl)]
        exact Nat.le_refl _ }
  queued :=
    { lengths := fun _ => rfl
      bounded := Nat.zero_le _
      tagged := fun _ _ h => by cases h }
  distinct := by
    rintro i j (hi | ⟨w, hw, hi, -⟩)
    · cases hi
    · rw [eq_of_mem_replicate hw] at hi
      cases hi
  exports := total_replicate_zero (show exportSlot (fun _ => .userFg) .idle = 0 from rfl) numThreads

namespace JobControl

def OnlyWorkers (s : JobControl) : Prop :=
  s.running = true ∧ ∀ q j, AddCall.executing q j ∉ s.calls

variable {data : JobId → JobData} {s : JobControl}

theorem OnlyWorkers.addSystemFg (h : s.OnlyWorkers) (j : JobId) :
    (addSystemFg data s j).OnlyWorkers := by
  have hcons : ∀ q i, AddCall.executing q i ∉ AddCall.disposing j :: s.calls := by
    intro q i hmem
    rcases mem_cons.mp hmem with hmem | hmem
    · cases hmem
    · exact h.2 q i hmem
  unfold JobControl.addSystemFg
  dsimp only
  split
  · exact ⟨h.1, hcons⟩
  · split
    · obtain ⟨state, disposed, heq⟩ := pushTop_eq ..
      rw [heq]
      exact ⟨h.1, hcons⟩
    · obtain ⟨state, disposed, heq⟩ := pushTop_eq ..
      rw [heq]
      exact h

theorem OnlyWorkers.dtControlAddJob (h : s.OnlyWorkers) (queueId : Option JobQueue) (j : JobId) :
    (dtControlAddJob data s queueId j).OnlyWorkers := by
  cases queueId with
  | none => exact h
  | some q =>
    have hrunning : ¬ (!s.running) = true := by rw [h.1]; decide
    unfold JobControl.dtControlAddJob
    dsimp only
    rw [if_neg hrunning]
    split
    · exact OnlyWorkers.addSystemFg (s := { s with handed := j :: s.handed }) h j
    · exact h

theorem OnlyWorkers.returnFromAdd (h : s.OnlyWorkers) (c : AddCall) :
    (s.returnFromAdd c).OnlyWorkers := by
  by_cases hc : c ∈ s.calls
  · obtain ⟨j, -, heq⟩ := returnFromAdd_of_mem hc
    rw [heq]
    exact ⟨h.1, fun q j hmem => h.2 q j (mem_of_mem_erase hmem)⟩
  · rw [returnFromAdd_of_not_mem hc]
    exact h

theorem dtControlRunJob_frame (s : JobControl) (k : Nat) :
    (s.dtControlRunJob k).running = s.running ∧ (s.dtControlRunJob k).calls = s.calls ∧
      (s.dtControlRunJob k).handed = s.handed ∧
      ((s.dtControlRunJob k).workers = s.workers ∨
        ∃ w, (s.dtControlRunJob k).workers = s.workers.set k w) := by
  unfold dtControlRunJob dtControlScheduleJob startJob
  repeat' split
  all_goals first | exact ⟨rfl, rfl, rfl, .inl rfl⟩ | exact ⟨rfl, rfl, rfl, .inr ⟨_, rfl⟩⟩

theorem OnlyWorkers.dtControlRunJob (h : s.OnlyWorkers) (k : Nat) :
    (s.dtControlRunJob k).OnlyWorkers := by
  obtain ⟨hrunning, hcalls, -⟩ := dtControlRunJob_frame s k
  rw [OnlyWorkers, hrunning, hcalls]
  exact h

end JobControl

theorem jobStep_onlyWorkers {data : JobId → JobData} {s : JobControl} (e : JobEvent)
    (h : s.OnlyWorkers) : (jobStep data s e).OnlyWorkers := by
  cases e with
  | add queueId j =>
    show (if j ∈ s.handed then s else dtControlAddJob data s queueId j).OnlyWorkers
    split
    · exact h
    · exact h.dtControlAddJob queueId j
  | returnFromAdd c => exact h.returnFromAdd c
  | work k => exact h.dtControlRunJob k
  | cancel j => exact h

/-! ## The workers get to the end of the jobs -/

def Worker.weight : Worker → Nat
  | idle => 0
  | scheduled _ => 4
  | executing _ => 3
  | executed _ => 2
  | completed _ => 1

namespace JobControl

def load (s : JobControl) : Nat :=
  5 * total (fun q => (s.queues q).length) JobQueue.all + total Worker.weight s.workers +
    s.calls.length

structure Settled (s : JobControl) : Prop where
  queues : ∀ q, s.queues q = []
  workers : ∀ w ∈ s.workers, w = .idle
  calls : s.calls = []

theorem Settled.disposed {s : JobControl} (h : s.Settled) (hledger : s.Ledger emptyHand emptyHand)
    {j : JobId} (hj : j ∈ s.handed) : s.disposed j = 1 := by
  have howned := hledger.owned j
  have hqueued : queuedIn s.queues j = 0 := total_eq_zero fun q _ => by rw [h.queues q]; rfl
  have hworkers : total (Worker.count j) s.workers = 0 :=
    total_eq_zero fun w hw => by rw [h.workers w hw]; rfl
  rw [held, h.calls, handedOver, if_pos hj] at howned
  unfold emptyHand at howned
  rw [total_nil] at howned
  omega

variable {data : JobId → JobData} {s : JobControl}

theorem load_returnFromAdd {c : AddCall} (hc : c ∈ s.calls) :
    (s.returnFromAdd c).load < s.load := by
  have hlength := length_erase_of_mem hc
  have hpos := length_pos_of_mem hc
  obtain ⟨j, -, heq⟩ := returnFromAdd_of_mem hc
  rw [heq]
  simp only [load, dispose]
  omega

theorem load_dtControlRunJob {k : Nat} {w : Worker} (hw : s.workers[k]? = some w)
    (hbusy : w ≠ .idle) : (s.dtControlRunJob k).load < s.load := by
  have hset := fun w' => total_set (f := weight) w' hw
  unfold dtControlRunJob
  rw [hw]
  cases w with
  | idle => exact absurd rfl hbusy
  | scheduled j =>
    have hexecuting := hset (.executing j)
    have hexecuted := hset (.executed j)
    show (s.startJob k j).load < s.load
    unfold startJob
    split
    · simp only [load, execute, weight] at hexecuting ⊢
      omega
    · simp only [load, weight] at hexecuted ⊢
      omega
  | executing j =>
    have hexecuted := hset (.executed j)
    simp only [load, finishJob, setState, weight] at hexecuted ⊢
    omega
  | executed j =>
    have hcompleted := hset (.completed j)
    simp only [load, completeJob, weight] at hcompleted ⊢
    omega
  | completed j =>
    have hidle := hset .idle
    simp only [load, dispose, weight] at hidle ⊢
    omega

theorem pickHead_isSome {best : Option (JobQueue × JobId)} {q : JobQueue}
    (hexport : s.exportScheduled = false) (h : best.isSome ∨ s.queues q ≠ []) :
    (s.pickHead best q).isSome := by
  unfold pickHead
  rw [hexport]
  split
  · next hq =>
    rcases h with h | h
    · exact h
    · exact absurd hq h
  · rw [Bool.false_and, if_neg (by decide)]
    split
    · rfl
    · split <;> rfl

theorem foldl_pickHead_isSome (hexport : s.exportScheduled = false) (qs : List JobQueue)
    {best : Option (JobQueue × JobId)} (h : best.isSome ∨ ∃ q ∈ qs, s.queues q ≠ []) :
    (qs.foldl s.pickHead best).isSome := by
  induction qs generalizing best with
  | nil =>
    rcases h with h | ⟨q, hq, -⟩
    · exact h
    · cases hq
  | cons p qs ih =>
    apply ih
    rcases h with h | ⟨q, hq, hne⟩
    · exact .inl (pickHead_isSome hexport (.inl h))
    · rcases mem_cons.mp hq with rfl | hq
      · exact .inl (pickHead_isSome hexport (.inr hne))
      · exact .inr ⟨q, hq, hne⟩

theorem load_dtControlScheduleJob {k : Nat} (hw : s.workers[k]? = some .idle)
    (hexport : s.exportScheduled = false) {q : JobQueue} (hq : s.queues q ≠ []) :
    (s.dtControlScheduleJob k).load < s.load := by
  have hsome := @foldl_pickHead_isSome s hexport JobQueue.all none (.inr ⟨q, mem_all q, hq⟩)
  obtain ⟨⟨winner, j⟩, hpick⟩ := Option.isSome_iff_exists.mp hsome
  obtain ⟨⟨rest, hqueue⟩, -⟩ := picked_all winner j hpick
  have hset := total_set (f := weight) (.scheduled j) hw
  have hupdate := total_update (f := fun l : List JobId => l.length) (g := s.queues) nodup_all
    (mem_all winner) rest
  have hscheduled : weight (.scheduled j) = 4 := rfl
  rw [hqueue, length_cons] at hupdate
  unfold dtControlScheduleJob
  rw [hpick]
  dsimp only
  rw [show (s.queues winner).tail = rest by rw [hqueue]; rfl]
  show 5 * total (fun i => (Function.update s.queues winner rest i).length) JobQueue.all +
    total weight (s.workers.set k (.scheduled j)) + s.calls.length < s.load
  unfold load
  omega

/-- Something can be done until everything is settled. -/
theorem exists_lighter (h : s.Invariant data) (hthreads : 0 < s.workers.length)
    (hopen : ¬ s.Settled) :
    ∃ e, (∀ q j, e ≠ JobEvent.add q j) ∧ (jobStep data s e).load < s.load := by
  by_cases hcalls : s.calls = []
  · by_cases hworkers : ∀ w ∈ s.workers, w = .idle
    · -- only the queues are left, and no export job is scheduled
      have hqueues : ∃ q, s.queues q ≠ [] := by
        apply Classical.byContradiction
        intro hnone
        exact hopen ⟨fun q => Classical.byContradiction fun hq => hnone ⟨q, hq⟩, hworkers, hcalls⟩
      obtain ⟨q, hq⟩ := hqueues
      have hexports := h.exports.total_eq
      have hexport : s.exportScheduled = false := by
        rw [total_eq_zero fun w hw => by rw [hworkers w hw]; rfl] at hexports
        cases hflag : s.exportScheduled with
        | false => rfl
        | true => rw [hflag] at hexports; cases hexports
      have hfirst : s.workers[0]? = some .idle := by
        rw [getElem?_eq_getElem hthreads, hworkers _ (getElem_mem hthreads)]
      refine ⟨.work 0, nofun, ?_⟩
      show (s.dtControlRunJob 0).load < s.load
      unfold dtControlRunJob
      rw [hfirst]
      exact load_dtControlScheduleJob hfirst hexport hq
    · obtain ⟨w, hw, hbusy⟩ : ∃ w ∈ s.workers, w ≠ .idle := by
        apply Classical.byContradiction
        intro hnone
        exact hworkers fun w hw => Classical.byContradiction fun hbusy => hnone ⟨w, hw, hbusy⟩
      obtain ⟨k, hk⟩ := mem_iff_getElem?.mp hw
      exact ⟨.work k, nofun, load_dtControlRunJob hk hbusy⟩
  · obtain ⟨c, hc⟩ := exists_mem_of_ne_nil _ hcalls
    exact ⟨.returnFromAdd c, nofun, load_returnFromAdd hc⟩

theorem dtControlAddJob_frame (queueId : Option JobQueue) (j : JobId) :
    (dtControlAddJob data s queueId j).workers = s.workers ∧
      ∀ i ≠ j, (dtControlAddJob data s queueId j).priority i = s.priority i := by
  have hset : ∀ p, ∀ i ≠ j, Function.update s.priority j p i = s.priority i :=
    fun p i hne => Function.update_of_ne hne _ _
  unfold dtControlAddJob
  dsimp only
  split
  · exact ⟨rfl, fun _ _ => rfl⟩
  · split
    · exact ⟨rfl, fun _ _ => rfl⟩
    · split
      · unfold addSystemFg
        dsimp only
        split
        · exact ⟨rfl, hset _⟩
        · split
          all_goals
            obtain ⟨state, disposed, heq⟩ := pushTop_eq ..
            rw [heq]
            exact ⟨rfl, hset _⟩
      · exact ⟨rfl, hset _⟩

theorem returnFromAdd_frame (c : AddCall) :
    (s.returnFromAdd c).workers = s.workers ∧ (s.returnFromAdd c).handed = s.handed ∧
      (s.returnFromAdd c).priority = s.priority := by
  by_cases hc : c ∈ s.calls
  · obtain ⟨j, -, heq⟩ := returnFromAdd_of_mem hc
    rw [heq]
    exact ⟨rfl, rfl, rfl⟩
  · rw [returnFromAdd_of_not_mem hc]
    exact ⟨rfl, rfl, rfl⟩

theorem jobStep_length (e : JobEvent) : (jobStep data s e).workers.length = s.workers.length := by
  cases e with
  | add queueId j =>
    show (if j ∈ s.handed then s else dtControlAddJob data s queueId j).workers.length = _
    split
    · rfl
    · rw [(dtControlAddJob_frame queueId j).1]
  | returnFromAdd c => exact congrArg length (returnFromAdd_frame c).1
  | work k =>
    show (s.dtControlRunJob k).workers.length = _
    rcases (dtControlRunJob_frame s k).2.2.2 with hworkers | ⟨w, hworkers⟩
    · rw [hworkers]
    · rw [hworkers, length_set]
  | cancel j => rfl

theorem jobStep_handed {e : JobEvent} (he : ∀ q j, e ≠ .add q j) :
    (jobStep data s e).handed = s.handed := by
  cases e with
  | add q j => exact absurd rfl (he q j)
  | returnFromAdd c => exact (returnFromAdd_frame c).2.1
  | work k => exact (dtControlRunJob_frame s k).2.2.1
  | cancel j => rfl

/-- Without new jobs the threads come to a state where every job is disposed. -/
theorem exists_settling (h : s.Invariant data) (hthreads : 0 < s.workers.length) :
    ∃ es : List JobEvent, (∀ e ∈ es, ∀ q j, e ≠ .add q j) ∧
      ∀ j ∈ s.handed, (es.foldl (jobStep data) s).disposed j = 1 := by
  -- by induction on what is left to do
  induction hn : s.load using Nat.strongRecOn generalizing s with
  | ind n ih =>
    by_cases hsettled : s.Settled
    · exact ⟨[], nofun, fun j => hsettled.disposed h.ledger⟩
    · obtain ⟨e, he, hless⟩ := exists_lighter h hthreads hsettled
      have hhanded := @jobStep_handed data s e he
      have hlength := @jobStep_length data s e
      obtain ⟨es, hes, hdisposed⟩ := ih _ (by rw [← hn]; exact hless) (jobStep_invariant e h)
        (by rw [hlength]; exact hthreads) rfl
      refine ⟨e :: es, ?_, fun j hj => hdisposed j (by rw [hhanded]; exact hj)⟩
      intro e' he'
      rcases mem_cons.mp he' with rfl | he'
      · exact he
      · exact hes e' he'

-- An export job is executed at the moment, by a worker or by a call.
def exportOfWorker (queue : JobId → JobQueue) : Worker → Nat
  | .executing j => if queue j = .userExport then 1 else 0
  | _ => 0

def exportOfCall : AddCall → Nat
  | .executing q _ => if q = .userExport then 1 else 0
  | .disposing _ => 0

def runningExports (s : JobControl) : Nat :=
  total (exportOfWorker s.queue) s.workers + total exportOfCall s.calls

/-- A job is executed at most once; it is in one place or was disposed once, and the threads can
bring every job to its disposal; the queues have their lengths; the queue of the system's foreground
is bounded and no two of its queued and scheduled jobs compare equal; at most one export job is
executed. -/
structure Sound (data : JobId → JobData) (s : JobControl) : Prop where
  executed : ∀ j, s.executed j ≤ 1
  disposed : ∀ j ∈ s.handed, s.held j + s.disposed j = 1
  settling : ∃ es : List JobEvent, (∀ e ∈ es, ∀ q j, e ≠ .add q j) ∧
    ∀ j ∈ s.handed, (es.foldl (jobStep data) s).disposed j = 1
  lengths : ∀ q, s.queueLength q = (s.queues q).length
  bounded : (s.queues .systemFg).length ≤ dtControlMaxJobs
  distinct : ∀ i j, s.Active i → s.Active j → i ≠ j → dtControlJobEqual data s.queue i j = false
  exports : s.runningExports ≤ 1

theorem Exports.runningExports_le (h : s.Exports) (hcalls : s.OnlyWorkers) :
    s.runningExports ≤ 1 := by
  have hle := h.total_le_one
  have hworkers : total (exportOfWorker s.queue) s.workers ≤
      total (exportSlot s.queue) s.workers := by
    apply total_le_total
    intro w _
    cases w <;> first | exact Nat.le_refl _ | exact Nat.zero_le _
  have hnone : total exportOfCall s.calls = 0 := by
    apply total_eq_zero
    intro c hc
    cases c with
    | executing q j => exact absurd hc (hcalls.2 q j)
    | disposing j => rfl
  unfold runningExports
  omega

theorem Invariant.sound (h : s.Invariant data) (hcalls : s.OnlyWorkers)
    (hthreads : 0 < s.workers.length) : s.Sound data where
  executed j := by
    have honce := h.ledger.once j
    have hle : s.handedOver j ≤ 1 := by
      unfold handedOver
      split <;> omega
    omega
  disposed j hj := by
    have howned := h.ledger.owned j
    rw [handedOver, if_pos hj] at howned
    exact howned
  settling := exists_settling h hthreads
  lengths := h.queued.lengths
  bounded := h.queued.bounded
  distinct := h.distinct
  exports := h.exports.runningExports_le hcalls

end JobControl

/-- Along every run of a control that was initialised, whatever steps the threads take in whatever
order. -/
theorem jobStep_sound (data : JobId → JobData) {numThreads : Nat} (hthreads : 0 < numThreads)
    (es : List JobEvent) :
    AllStates (jobStep data) (Sound data) (dtControlJobsInit numThreads) es := by
  have hrun : AllStates (jobStep data)
      (fun s => s.Invariant data ∧ s.OnlyWorkers ∧ 0 < s.workers.length)
      (dtControlJobsInit numThreads) es := by
    apply allStates_of_step
    · rintro s e ⟨hinv, hworkers, hlength⟩
      refine ⟨jobStep_invariant e hinv, jobStep_onlyWorkers e hworkers, ?_⟩
      rw [jobStep_length]
      exact hlength
    · refine ⟨dtControlJobsInit_invariant data numThreads, ⟨rfl, nofun⟩, ?_⟩
      show 0 < (replicate numThreads idle).length
      rw [length_replicate]
      exact hthreads
  exact hrun.mono fun s h => h.1.sound h.2.1 h.2.2

def sampleJob (j : JobId) : JobData where
  execute := 1
  stateChangedCb := 0
  params := [UInt8.ofNat (j % 2)]
  description := []

-- Jobs 1 and 3 compare equal, and so do the export jobs 2 and 4.
theorem twoThreads_sound :
    0 < 2 ∧ AllStates (jobStep sampleJob) (Sound sampleJob) (dtControlJobsInit 2)
      [.add (some .systemFg) 1, .add (some .systemFg) 3, .add (some .userExport) 2,
        .add (some .userExport) 4, .work 0, .work 1, .work 0, .work 1,
        .returnFromAdd (.disposing 3), .work 0, .work 0, .work 0, .work 0] :=
  ⟨by decide, jobStep_sound sampleJob (by decide) _⟩

end DTLite
