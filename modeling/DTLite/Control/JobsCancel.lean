import DTLite.Control.JobsSafety

/-!
# Cancelled jobs

A thread reads the state of a job in one section, sets it to running in another one and calls the
job back after that.  `dt_control_job_cancel` only writes the state, at any time.
-/

namespace DTLite

open Reasoning JobControl List Function

/-- How far a worker is with the job that it has picked. -/
inductive StartPhase where
  | picked
  -- the state was `DT_JOB_STATE_QUEUED`
  | checked
  -- the state is `DT_JOB_STATE_RUNNING`
  | running
deriving DecidableEq, Repr

/-- The control with the pieces of `dt_control_job_execute`. -/
structure CancelRun where
  control : JobControl
  phase : Nat → StartPhase
  -- the calls of `dt_control_add_job` that are about to call their job back
  starting : List (JobQueue × JobId)
  -- the jobs that were cancelled before they were executed
  cancelled : List JobId

open CancelRun

-- `job->execute(job)`.
def JobControl.callBack (s : JobControl) (j : JobId) : JobControl :=
  { s with executed := update s.executed j (s.executed j + 1) }

variable (data : JobId → JobData) (s : CancelRun)

namespace CancelRun

-- A control that is not running leaves the execution to the caller, who does not look at the state.
def addJob (queueId : Option JobQueue) (j : JobId) : CancelRun :=
  match queueId, s.control.running with
  | some q, false =>
      { s with
        control := { s.control.setState j .running with handed := j :: s.control.handed }
        starting := (q, j) :: s.starting }
  | _, _ => { s with control := dtControlAddJob data s.control queueId j }

def callBackAdded (q : JobQueue) (j : JobId) : CancelRun :=
  if (q, j) ∈ s.starting then
    { s with
      control := { s.control.callBack j with calls := .executing q j :: s.control.calls }
      starting := s.starting.erase (q, j) }
  else s

-- The next piece of `dt_control_job_execute` in worker `k`.
def startPiece (k : Nat) (j : JobId) : CancelRun :=
  match s.phase k with
  | .picked =>
      if s.control.state j = .queued then { s with phase := update s.phase k .checked }
      else { s with control := { s.control with workers := s.control.workers.set k (.executed j) } }
  | .checked =>
      { s with
        control := s.control.setState j .running
        phase := update s.phase k .running }
  | .running =>
      { s with
        control :=
          { s.control.callBack j with workers := s.control.workers.set k (.executing j) }
        phase := update s.phase k .picked }

def work (k : Nat) : CancelRun :=
  match s.control.workers[k]? with
  | some (.scheduled j) => s.startPiece k j
  | _ =>
      { s with
        control := s.control.dtControlRunJob k
        phase := update s.phase k .picked }

def dtControlJobCancel (j : JobId) : CancelRun :=
  { s with
    control := s.control.setState j .cancelled
    cancelled := if s.control.executed j = 0 then j :: s.cancelled else s.cancelled }

end CancelRun

inductive CancelEvent where
  -- a job is handed over once
  | add (queueId : Option JobQueue) (j : JobId)
  | callBack (q : JobQueue) (j : JobId)
  | returnFromAdd (c : AddCall)
  | work (k : Nat)
  | cancel (j : JobId)
deriving DecidableEq, Repr

def cancelStep : CancelEvent → CancelRun
  | .add queueId j => if j ∈ s.control.handed then s else s.addJob data queueId j
  | .callBack q j => s.callBackAdded q j
  | .returnFromAdd c => { s with control := s.control.returnFromAdd c }
  | .work k => s.work k
  | .cancel j => s.dtControlJobCancel j

namespace CancelRun

-- The control before any job, whether `dt_control_jobs_init` was called or not.
def init (running : Bool) (numThreads : Nat) : CancelRun where
  control := { dtControlJobsInit numThreads with running := running }
  phase _ := .picked
  starting := []
  cancelled := []

/-- A thread has decided to execute the job and has not called it back yet. -/
def Starting (j : JobId) : Prop :=
  (∃ k < s.control.workers.length, s.control.workers[k]? = some (.scheduled j) ∧
    s.phase k ≠ .picked) ∨
  ∃ x ∈ s.starting, x.2 = j

/-- A job is cancelled while it waits in the control, and a cancelled job does not bubble up. -/
def Careful : CancelEvent → Prop
  | .cancel j => s.control.executed j ≠ 0 ∨ j ∈ s.control.handed ∧ ¬ s.Starting j
  | .add queueId j => queueId = some .systemFg → ∀ other ∈ s.control.queues .systemFg,
      dtControlJobEqual data (update s.control.queue j .systemFg) j other = true →
      other ∉ s.cancelled
  | _ => True

instance decidableStarting (s : CancelRun) (j : JobId) : Decidable (s.Starting j) :=
  inferInstanceAs (Decidable (_ ∨ ∃ x ∈ s.starting, x.2 = j))

instance decidableCareful (data : JobId → JobData) (s : CancelRun) :
    (e : CancelEvent) → Decidable (s.Careful data e)
  | .cancel j => inferInstanceAs (Decidable (_ ∨ j ∈ s.control.handed ∧ ¬ s.Starting j))
  | .add queueId _ => inferInstanceAs (Decidable (queueId = some .systemFg → _))
  | .callBack .. => isTrue trivial
  | .returnFromAdd _ => isTrue trivial
  | .work _ => isTrue trivial

end CancelRun

/-! ## What the steps do to a job that is not queued -/

namespace JobControl

variable {s : JobControl} {i j : JobId}

section

variable (h : s.state j ≠ .queued)
include h

theorem state_setState_ne (hj : j ≠ i) (state : JobState) :
    (s.setState i state).state j ≠ .queued := by
  show update s.state i state j ≠ .queued
  rw [update_of_ne hj]
  exact h

theorem state_dispose_ne (i : JobId) : (s.dispose i).state j ≠ .queued := by
  show update s.state i .disposed j ≠ .queued
  by_cases hj : j = i
  · rw [hj, update_self]
    decide
  · rw [update_of_ne hj]
    exact h

theorem state_pushTop_ne {top : JobId} (hj : j ≠ top)
    (kept : List JobId) (n : Nat) : (s.pushTop top kept n).state j ≠ .queued := by
  apply state_setState_ne _ hj
  cases (insertTop top kept n).2 with
  | none => exact h
  | some last => exact state_dispose_ne h last

end

/-- What stays with a job that is not queued when another job is added. -/
structure Unqueued (s : JobControl) (j : JobId) : Prop where
  executed : s.executed j = 0
  state : s.state j ≠ .queued
  handed : j ∈ s.handed

section

variable (h : s.Unqueued j)
include h

theorem Unqueued.pushTop {top : JobId} (hj : j ≠ top) (kept : List JobId)
    (n : Nat) : (s.pushTop top kept n).Unqueued j := by
  have hstate := state_pushTop_ne h.state hj kept n
  obtain ⟨state, disposed, heq⟩ := pushTop_eq top kept n s
  rw [heq] at hstate ⊢
  exact ⟨h.executed, hstate, h.handed⟩

theorem Unqueued.dispose (i : JobId) : (s.dispose i).Unqueued j where
  __ := h
  state := state_dispose_ne h.state i

theorem Unqueued.setState (hj : j ≠ i) (state : JobState) :
    (s.setState i state).Unqueued j where
  __ := h
  state := state_setState_ne h.state hj state

theorem Unqueued.addSystemFg (hj : j ≠ i) {data : JobId → JobData}
    (hequal : ∀ other ∈ s.queues .systemFg,
      dtControlJobEqual data (update s.queue i .systemFg) i other = true → j ≠ other) :
    (addSystemFg data s i).Unqueued j := by
  have hjob : (s.setJob i .systemFg dtControlFgPriority).Unqueued j :=
    ⟨h.executed, h.state, h.handed⟩
  unfold JobControl.addSystemFg
  dsimp only
  split
  · exact ⟨h.executed, h.state, h.handed⟩
  · split
    next other hfind =>
      have hother := hequal other (mem_of_find?_eq_some hfind) (find?_some hfind)
      apply Unqueued.pushTop _ hother
      exact ⟨h.executed, h.state, h.handed⟩
    next => exact hjob.pushTop hj _ _

theorem Unqueued.dtControlAddJob (hj : j ≠ i) {data : JobId → JobData}
    {queueId : Option JobQueue} (hrunning : queueId = none ∨ s.running = true)
    (hequal : queueId = some .systemFg → ∀ other ∈ s.queues .systemFg,
      dtControlJobEqual data (update s.queue i .systemFg) i other = true → j ≠ other) :
    (dtControlAddJob data s queueId i).Unqueued j := by
  have hhanded : Unqueued { s with handed := i :: s.handed } j :=
    ⟨h.executed, h.state, mem_cons_of_mem i h.handed⟩
  unfold JobControl.dtControlAddJob
  cases queueId with
  | none => exact hhanded.dispose i
  | some q =>
    have hrunning : s.running = true := hrunning.resolve_left (Option.some_ne_none q)
    dsimp only
    rw [if_neg (by simp [hrunning])]
    split
    next hq =>
      subst hq
      exact hhanded.addSystemFg hj (hequal rfl)
    next =>
      have hadded : Unqueued (setQueue (setJob
          { s with handed := i :: s.handed } i q (if q = .userFg then dtControlFgPriority else 0))
          q (s.queues q ++ [i]) (s.queueLength q + 1)) j :=
        ⟨hhanded.executed, hhanded.state, hhanded.handed⟩
      exact hadded.setState hj .queued

theorem Unqueued.returnFromAdd (c : AddCall) : (s.returnFromAdd c).Unqueued j := by
  by_cases hc : c ∈ s.calls
  · obtain ⟨i, -, heq⟩ := returnFromAdd_of_mem hc
    rw [heq]
    exact ⟨h.executed, state_dispose_ne h.state i, h.handed⟩
  · rw [returnFromAdd_of_not_mem hc]
    exact h

theorem Unqueued.callBack (hj : j ≠ i) : (s.callBack i).Unqueued j where
  __ := h
  executed := (update_of_ne hj ..).trans h.executed

theorem Unqueued.dtControlRunJob {k : Nat}
    (hw : ∀ i, s.workers[k]? ≠ some (.scheduled i)) : (s.dtControlRunJob k).Unqueued j := by
  unfold JobControl.dtControlRunJob
  split
  · exact h
  · unfold dtControlScheduleJob
    split
    · exact h
    · exact ⟨h.executed, h.state, h.handed⟩
  next i hi => exact absurd hi (hw i)
  next i _ =>
    by_cases hj : j = i
    · subst hj
      refine ⟨h.executed, ?_, h.handed⟩
      show update s.state j .finished j ≠ .queued
      rw [update_self]
      decide
    · exact ⟨h.executed, state_setState_ne h.state hj .finished, h.handed⟩
  · exact ⟨h.executed, h.state, h.handed⟩
  next i _ => exact ⟨h.executed, state_dispose_ne h.state i, h.handed⟩

end

end JobControl

/-! ## Runs -/

namespace CancelRun

variable {data : JobId → JobData} {s : CancelRun} {j : JobId}

/-- Nothing will execute the job. -/
structure Stopped (s : CancelRun) (j : JobId) : Prop where
  unqueued : s.control.Unqueued j
  notStarting : ¬ s.Starting j

theorem Starting.of_workers {s' : CancelRun} (h : s'.Starting j)
    (hworkers : s'.control.workers = s.control.workers) (hphase : s'.phase = s.phase)
    (hstarting : ∀ x ∈ s'.starting, x.2 = j → x ∈ s.starting) : s.Starting j := by
  rcases h with h | ⟨x, hx, hj⟩
  · rw [hworkers, hphase] at h
    exact .inl h
  · exact .inr ⟨x, hstarting x hx hj, hj⟩

theorem Starting.of_set {s' : CancelRun} (h : s'.Starting j) {k : Nat}
    (hworkers : ∀ k' ≠ k, s'.control.workers[k']? = s.control.workers[k']?)
    (hphase : ∀ k' ≠ k, s'.phase k' = s.phase k')
    (hself : s'.phase k = .picked ∨ s'.control.workers[k]? ≠ some (.scheduled j))
    (hstarting : s'.starting = s.starting) : s.Starting j := by
  rcases h with ⟨k', hlt, hw, hk⟩ | h
  · left
    have hne : k' ≠ k := by
      rintro rfl
      rcases hself with hself | hself
      · exact hk hself
      · exact hself hw
    rw [hworkers k' hne] at hw
    rw [hphase k' hne] at hk
    exact ⟨k', (List.getElem?_eq_some_iff.mp hw).1, hw, hk⟩
  · rw [hstarting] at h
    exact .inr h

variable {queueId : Option JobQueue} {i : JobId}

section

variable (h : s.Stopped j)
include h

theorem Stopped.addJob_of_running (hj : j ≠ i)
    (hrunning : queueId = none ∨ s.control.running = true)
    (hequal : queueId = some .systemFg → ∀ other ∈ s.control.queues .systemFg,
      dtControlJobEqual data (update s.control.queue i .systemFg) i other = true →
      j ≠ other) :
    Stopped { s with control := dtControlAddJob data s.control queueId i } j where
  unqueued := h.unqueued.dtControlAddJob hj hrunning hequal
  notStarting hstart :=
    h.notStarting (hstart.of_workers (dtControlAddJob_frame _ _).1 rfl fun _ hx _ => hx)

theorem Stopped.addJob (hj : j ≠ i)
    (hequal : queueId = some .systemFg → ∀ other ∈ s.control.queues .systemFg,
      dtControlJobEqual data (update s.control.queue i .systemFg) i other = true →
      j ≠ other) : (s.addJob data queueId i).Stopped j := by
  unfold CancelRun.addJob
  cases queueId with
  | none => exact h.addJob_of_running hj (.inl rfl) hequal
  | some q =>
    cases hrunning : s.control.running with
    | true => exact h.addJob_of_running hj (.inr hrunning) hequal
    | false =>
      have hstate := h.unqueued.setState hj .running
      refine ⟨⟨hstate.executed, hstate.state, mem_cons_of_mem i hstate.handed⟩, ?_⟩
      intro hstart
      refine h.notStarting (hstart.of_workers rfl rfl ?_)
      intro x hx hxj
      rcases mem_cons.mp hx with rfl | hx
      · exact absurd hxj.symm hj
      · exact hx

theorem Stopped.callBackAdded (q : JobQueue) (i : JobId) : (s.callBackAdded q i).Stopped j := by
  unfold CancelRun.callBackAdded
  split
  next hmem =>
    have hj : j ≠ i := by
      rintro rfl
      exact h.notStarting (.inr ⟨_, hmem, rfl⟩)
    have hcalled := h.unqueued.callBack hj
    refine ⟨⟨hcalled.executed, hcalled.state, hcalled.handed⟩, fun hstart => h.notStarting ?_⟩
    exact hstart.of_workers rfl rfl fun _ hx _ => mem_of_mem_erase hx
  next => exact h

theorem Stopped.startPiece {k : Nat}
    (hw : s.control.workers[k]? = some (.scheduled i)) : (s.startPiece k i).Stopped j := by
  have hk : k < s.control.workers.length := (List.getElem?_eq_some_iff.mp hw).1
  have hself : j ≠ i → s.control.workers[k]? ≠ some (.scheduled j) := by
    intro hj
    rw [hw]
    simpa using Ne.symm hj
  have hstarted : s.phase k ≠ .picked → j ≠ i := by
    rintro hphase rfl
    exact h.notStarting (.inl ⟨k, hk, hw, hphase⟩)
  have hset : ∀ w, ∀ k' ≠ k, (s.control.workers.set k w)[k']? = s.control.workers[k']? :=
    fun w k' hne => getElem?_set_ne (Ne.symm hne)
  have hupdate : ∀ phase, ∀ k' ≠ k, update s.phase k phase k' = s.phase k' :=
    fun phase k' hne => update_of_ne hne ..
  unfold CancelRun.startPiece
  split
  next hphase =>
    split
    next hqueued =>
      have hj : j ≠ i := by
        rintro rfl
        exact h.unqueued.state hqueued
      refine ⟨h.unqueued, fun hstart => h.notStarting ?_⟩
      exact hstart.of_set (fun _ _ => rfl) (hupdate .checked) (.inr (hself hj)) rfl
    next =>
      refine ⟨⟨h.unqueued.executed, h.unqueued.state, h.unqueued.handed⟩,
        fun hstart => h.notStarting ?_⟩
      exact hstart.of_set (hset (.executed i)) (fun _ _ => rfl) (.inl hphase) rfl
  next hphase =>
    have hj := hstarted (by rw [hphase]; decide)
    refine ⟨h.unqueued.setState hj .running, fun hstart => h.notStarting ?_⟩
    exact hstart.of_set (fun _ _ => rfl) (hupdate .running) (.inr (hself hj)) rfl
  next hphase =>
    have hj := hstarted (by rw [hphase]; decide)
    have hcalled := h.unqueued.callBack hj
    refine ⟨⟨hcalled.executed, hcalled.state, hcalled.handed⟩, fun hstart => h.notStarting ?_⟩
    exact hstart.of_set (hset (.executing i)) (hupdate .picked) (.inl (update_self ..)) rfl

end

theorem workers_dtControlRunJob_of_ne (c : JobControl) {k k' : Nat} (hne : k' ≠ k) :
    (c.dtControlRunJob k).workers[k']? = c.workers[k']? := by
  rcases (dtControlRunJob_frame c k).2.2.2 with hworkers | ⟨w, hworkers⟩
  · rw [hworkers]
  · rw [hworkers, getElem?_set_ne (Ne.symm hne)]

theorem Stopped.work (h : s.Stopped j) (k : Nat) : (s.work k).Stopped j := by
  unfold CancelRun.work
  split
  next i hw => exact h.startPiece hw
  next hw =>
    refine ⟨h.unqueued.dtControlRunJob hw, fun hstart => h.notStarting ?_⟩
    exact hstart.of_set (fun k' => workers_dtControlRunJob_of_ne s.control)
      (fun k' hne => update_of_ne hne ..) (.inl (update_self ..)) rfl

theorem Stopped.cancel (h : s.Stopped j) (i : JobId) : (s.dtControlJobCancel i).Stopped j where
  unqueued := by
    by_cases hj : j = i
    · subst hj
      refine ⟨h.unqueued.executed, ?_, h.unqueued.handed⟩
      show update s.control.state j .cancelled j ≠ .queued
      rw [update_self]
      decide
    · exact h.unqueued.setState hj .cancelled
  notStarting hstart := h.notStarting (hstart.of_workers rfl rfl fun _ hx _ => hx)

variable {e : CancelEvent}

theorem Stopped.step (h : s.Stopped j) (hj : j ∈ s.cancelled)
    (he : s.Careful data e) : (cancelStep data s e).Stopped j := by
  cases e with
  | add queueId i =>
    show (if i ∈ s.control.handed then s else s.addJob data queueId i).Stopped j
    split
    next => exact h
    next hi =>
      apply h.addJob
      · rintro rfl
        exact hi h.unqueued.handed
      · rintro hq other hother hequal rfl
        exact he hq j hother hequal hj
  | callBack q i => exact h.callBackAdded q i
  | returnFromAdd c =>
    refine ⟨h.unqueued.returnFromAdd c, fun hstart => h.notStarting ?_⟩
    exact hstart.of_workers (returnFromAdd_frame c).1 rfl fun _ hx _ => hx
  | work k => exact h.work k
  | cancel i => exact h.cancel i

theorem stopped_cancel (hj : s.control.executed j = 0) (he : s.Careful data (.cancel j)) :
    (s.dtControlJobCancel j).Stopped j := by
  obtain ⟨hhanded, hstarting⟩ := he.resolve_left fun hne => hne hj
  refine ⟨⟨hj, ?_, hhanded⟩, fun hstart => hstarting ?_⟩
  · show update s.control.state j .cancelled j ≠ .queued
    rw [update_self]
    decide
  · exact hstart.of_workers rfl rfl fun _ hx _ => hx

def AllStopped (s : CancelRun) : Prop := ∀ j ∈ s.cancelled, s.Stopped j

theorem mem_cancelled_step (h : j ∈ (cancelStep data s e).cancelled) :
    j ∈ s.cancelled ∨ e = .cancel j ∧ s.control.executed j = 0 := by
  cases e with
  | add queueId i =>
    left
    have hsame : (if i ∈ s.control.handed then s else s.addJob data queueId i).cancelled =
        s.cancelled := by
      unfold addJob
      split
      · rfl
      · split <;> rfl
    exact hsame ▸ h
  | callBack q i =>
    left
    have hsame : (s.callBackAdded q i).cancelled = s.cancelled := by
      unfold callBackAdded
      split <;> rfl
    exact hsame ▸ h
  | returnFromAdd c => exact .inl h
  | work k =>
    left
    have hsame : (s.work k).cancelled = s.cancelled := by
      unfold work
      split
      · unfold startPiece
        split
        · split <;> rfl
        · rfl
        · rfl
      · rfl
    exact hsame ▸ h
  | cancel i =>
    have hmem : j ∈ if s.control.executed i = 0 then i :: s.cancelled else s.cancelled := h
    split at hmem
    next hexecuted =>
      rcases mem_cons.mp hmem with rfl | hmem
      · exact .inr ⟨rfl, hexecuted⟩
      · exact .inl hmem
    next => exact .inl hmem

theorem AllStopped.step (h : s.AllStopped) (he : s.Careful data e) :
    (cancelStep data s e).AllStopped := by
  intro j hj
  rcases mem_cancelled_step hj with hj | ⟨rfl, hexecuted⟩
  · exact (h j hj).step hj he
  · exact stopped_cancel hexecuted he

end CancelRun

/-- A job that was cancelled before it was executed is not executed any more. -/
theorem cancelStep_not_executed (data : JobId → JobData) (running : Bool) (numThreads : Nat)
    (events : List CancelEvent)
    (h : AllSteps (cancelStep data) (CancelRun.Careful data) (.init running numThreads) events) :
    AllStates (cancelStep data) (fun s => ∀ j ∈ s.cancelled, s.control.executed j = 0)
      (.init running numThreads) events := by
  have hinit : (init running numThreads).AllStopped :=
    fun j hj => absurd hj not_mem_nil
  have hstopped : AllStates (cancelStep data) AllStopped _ events :=
    allStates_of_allSteps (fun _ _ hs => hs.step) hinit h
  exact hstopped.mono fun s hs j hj => (hs j hj).unqueued.executed

theorem cancelStep_not_executed_queued :
    AllStates (cancelStep sampleJob) (fun s => ∀ j ∈ s.cancelled, s.control.executed j = 0)
      (.init true 1) [.add (some .userBg) 1, .cancel 1, .work 0, .work 0, .work 0, .work 0] :=
  cancelStep_not_executed sampleJob true 1 _ (by decide +kernel)

/-- Cancelled between the look at its state and the write, before an equal job bubbles it up, or
before it is added: the state is overwritten each time. -/
theorem cancelled_executed :
    let executed := fun events =>
      (events.foldl (cancelStep sampleJob) (.init true 1)).cancelled = [1] ∧
        (events.foldl (cancelStep sampleJob) (.init true 1)).control.executed 1 = 1
    executed [.add (some .userBg) 1, .work 0, .work 0, .cancel 1, .work 0, .work 0] ∧
      executed [.add (some .systemFg) 1, .cancel 1, .add (some .systemFg) 3, .work 0, .work 0,
        .work 0, .work 0] ∧
      executed [.cancel 1, .add (some .userBg) 1, .work 0, .work 0, .work 0, .work 0] := by
  decide +kernel

end DTLite
