import DTLite.Common.HistoryTable

/-!
# The job queues of the control

Jobs are added with `dt_control_add_job`, picked from their queue by the worker threads, executed
and disposed.  Every section under a mutex is one step, and so is every other piece of code that
touches a job; steps of any threads may be mixed in any order.
-/

namespace DTLite

/-- `dt_job_queue_t`. -/
inductive JobQueue where
  | userFg
  | systemFg
  | userBg
  | userExport
  | systemBg
deriving DecidableEq, Repr

-- The order of `control->queues`.
def JobQueue.all : List JobQueue :=
  [.userFg, .systemFg, .userBg, .userExport, .systemBg]

/-- `dt_job_state_t`. -/
inductive JobState where
  | initialized
  | queued
  | running
  | finished
  | cancelled
  | discarded
  | disposed
deriving DecidableEq, Repr

def dtControlFgPriority : UInt8 := 4

def dtControlMaxJobs : Nat := 30

/-- What a job has from its creation on.  `params` are the bytes that `params_size` tells of. -/
structure JobData where
  execute : Nat
  stateChangedCb : Nat
  params : List UInt8
  description : Text
deriving DecidableEq, Repr

-- A job is named by its address.
abbrev JobId := Nat

variable (data : JobId → JobData)

def dtControlJobEqual (queue : JobId → JobQueue) (j₁ j₂ : JobId) : Bool :=
  if (data j₁).params.length ≠ 0 ∧ (data j₁).params.length = (data j₂).params.length then
    (data j₁).execute == (data j₂).execute &&
      (data j₁).stateChangedCb == (data j₂).stateChangedCb && queue j₁ == queue j₂ &&
      (data j₁).params == (data j₂).params
  else
    (data j₁).execute == (data j₂).execute &&
      (data j₁).stateChangedCb == (data j₂).stateChangedCb && queue j₁ == queue j₂ &&
      (data j₁).description == (data j₂).description

/-- Where a worker is in `dt_control_run_job`: waiting for a job, behind the scheduling section, in
the callback of the job, behind it, behind the section that takes the job from `control->job`. -/
inductive Worker where
  | idle
  | scheduled (j : JobId)
  | executing (j : JobId)
  | executed (j : JobId)
  | completed (j : JobId)
deriving DecidableEq, Repr

-- The entry of the thread in `control->job`.
def Worker.slot : Worker → Option JobId
  | idle => none
  | scheduled j => some j
  | executing j => some j
  | executed j => some j
  | completed _ => none

/-- A call of `dt_control_add_job` that executes its job itself, or has one to dispose of. -/
inductive AddCall where
  | executing (queue : JobQueue) (j : JobId)
  | disposing (j : JobId)
deriving DecidableEq, Repr

/-- `dt_control_t`, the fields of the jobs that change, the threads, and what was done so far. -/
structure JobControl where
  running : Bool
  exportScheduled : Bool
  queues : JobQueue → List JobId
  queueLength : JobQueue → Nat
  -- one for each of the `num_threads` threads
  workers : List Worker
  calls : List AddCall
  queue : JobId → JobQueue
  priority : JobId → UInt8
  state : JobId → JobState
  handed : List JobId
  executed : JobId → Nat
  disposed : JobId → Nat

variable (s : JobControl) (k : Nat) (j : JobId)

namespace JobControl

def setState (state : JobState) : JobControl :=
  { s with state := Function.update s.state j state }

/-- `dt_control_job_dispose`. -/
def dispose : JobControl :=
  { s with
    state := Function.update s.state j .disposed
    disposed := Function.update s.disposed j (s.disposed j + 1) }

-- The start of `dt_control_job_execute`.
def execute : JobControl :=
  { s with
    state := Function.update s.state j .running
    executed := Function.update s.executed j (s.executed j + 1) }

def setQueue (s : JobControl) (q : JobQueue) (l : List JobId) (length : Nat) : JobControl :=
  { s with
    queues := Function.update s.queues q l
    queueLength := Function.update s.queueLength q length }

-- `job->queue` and `job->priority`
def setJob (q : JobQueue) (priority : UInt8) : JobControl :=
  { s with
    queue := Function.update s.queue j q
    priority := Function.update s.priority j priority }

-- The queues other than that of the system's foreground are FIFOs.
def addFifo (q : JobQueue) (j : JobId) : JobControl :=
  let s := s.setJob j q (if q = .userFg then dtControlFgPriority else 0)
  (s.setQueue q (s.queues q ++ [j]) (s.queueLength q + 1)).setState j .queued

-- The new list with `top` in front, and the job that is one too many.
def insertTop (top : JobId) (kept : List JobId) (length : Nat) : List JobId × Option JobId :=
  if length + 1 > dtControlMaxJobs then ((top :: kept).dropLast, (top :: kept).getLast?)
  else (top :: kept, none)

-- `*queue` gets the job on its top, and the last one is discarded when there are too many.
def pushTop (top : JobId) (kept : List JobId) (length : Nat) : JobControl :=
  let inserted := insertTop top kept length
  let s := s.setQueue .systemFg inserted.1
    (if length + 1 > dtControlMaxJobs then length else length + 1)
  let s := match inserted.2 with
    | none => s
    | some last => s.dispose last
  s.setState top .queued

/-- The queue of the system's foreground: a stack of limited size where an equal job bubbles up. -/
def addSystemFg : JobControl :=
  let s := s.setJob j .systemFg dtControlFgPriority
  let equal := dtControlJobEqual data s.queue j
  if s.workers.any fun w => w.slot.any equal then
    -- already scheduled: the new job is discarded behind the section
    { s with calls := .disposing j :: s.calls }
  else
    match (s.queues .systemFg).find? equal with
    | some other =>
      let s := { s with calls := .disposing j :: s.calls }
      s.pushTop other ((s.queues .systemFg).eraseP equal) (s.queueLength .systemFg - 1)
    | none => s.pushTop j (s.queues .systemFg) (s.queueLength .systemFg)

/-- `none` is a queue that does not exist. -/
def dtControlAddJob (queueId : Option JobQueue) (j : JobId) : JobControl :=
  let s := { s with handed := j :: s.handed }
  match queueId with
  | none => s.dispose j
  | some q =>
    if !s.running then { s.execute j with calls := .executing q j :: s.calls }
    else if q = .systemFg then addSystemFg data s j
    else s.addFifo q j

def returnFromAdd (c : AddCall) : JobControl :=
  if c ∈ s.calls then
    let s := { s with calls := s.calls.erase c }
    match c with
    | .executing _ j => s.dispose j
    | .disposing j => s.dispose j
  else s

-- One turn of the loop over the queues: the first head of the highest priority.
def pickHead (best : Option (JobQueue × JobId)) (q : JobQueue) : Option (JobQueue × JobId) :=
  match s.queues q with
  | [] => best
  | j :: _ =>
    if s.exportScheduled && q == .userExport then best
    else
      match best with
      | none => some (q, j)
      | some (_, b) => if s.priority j > s.priority b then some (q, j) else best

-- The heads that were not picked get a higher priority, an `unsigned char`.
def raisePriority (queues : JobQueue → List JobId) (winner : JobQueue) (priority : JobId → UInt8)
    (q : JobQueue) : JobId → UInt8 :=
  if q = winner then priority
  else
    match queues q with
    | [] => priority
    | j :: _ => Function.update priority j (priority j + 1)

/-- `dt_control_schedule_job` of worker `k`. -/
def dtControlScheduleJob : JobControl :=
  match JobQueue.all.foldl s.pickHead none with
  | none => s
  | some (winner, j) =>
    let s := s.setQueue winner (s.queues winner).tail (s.queueLength winner - 1)
    { s with
      exportScheduled := s.exportScheduled || winner == .userExport
      workers := s.workers.set k (.scheduled j)
      priority := JobQueue.all.foldl (raisePriority s.queues winner) s.priority }

-- A job that was cancelled in the meantime is not executed.
def startJob : JobControl :=
  if s.state j = .queued then { s.execute j with workers := s.workers.set k (.executing j) }
  else { s with workers := s.workers.set k (.executed j) }

def finishJob : JobControl :=
  { s.setState j .finished with workers := s.workers.set k (.executed j) }

-- The section that takes the job from `control->job`.
def completeJob : JobControl :=
  { s with
    workers := s.workers.set k (.completed j)
    exportScheduled := if s.queue j = .userExport then false else s.exportScheduled }

/-- The next piece of `dt_control_run_job` in worker `k`. -/
def dtControlRunJob : JobControl :=
  match s.workers[k]? with
  | none => s
  | some .idle => s.dtControlScheduleJob k
  | some (.scheduled j) => s.startJob k j
  | some (.executing j) => s.finishJob k j
  | some (.executed j) => s.completeJob k j
  | some (.completed j) => { s.dispose j with workers := s.workers.set k .idle }

end JobControl

inductive JobEvent where
  -- a job is handed over once
  | add (queueId : Option JobQueue) (j : JobId)
  | returnFromAdd (c : AddCall)
  | work (k : Nat)
  | cancel (j : JobId)
deriving DecidableEq, Repr

open JobControl in
def jobStep : JobEvent → JobControl
  | .add queueId j => if j ∈ s.handed then s else dtControlAddJob data s queueId j
  | .returnFromAdd c => s.returnFromAdd c
  | .work k => s.dtControlRunJob k
  -- `dt_control_job_cancel`
  | .cancel j => s.setState j .cancelled

/-- After `dt_control_jobs_init`: the control is running and no job has been handed over. -/
def dtControlJobsInit (numThreads : Nat) : JobControl where
  running := true
  exportScheduled := false
  queues := fun _ => []
  queueLength := fun _ => 0
  workers := List.replicate numThreads .idle
  calls := []
  queue := fun _ => .userFg
  priority := fun _ => 0
  state := fun _ => .initialized
  handed := []
  executed := fun _ => 0
  disposed := fun _ => 0

end DTLite
