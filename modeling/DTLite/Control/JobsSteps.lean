import DTLite.Control.JobsLedger

/-!
# The steps of the control

Adding a job and every piece of a worker keep the ledger of the jobs, the lengths of the queues, the
queue of the system's foreground free of equal jobs, and the flag for exports true to the workers.
-/

namespace DTLite

open Reasoning List Function JobControl

namespace JobControl

/-! ## Adding a job keeps the invariant -/

section Add

variable {data : JobId → JobData} {s : JobControl} {j : JobId}

theorem Ledger.setJob {hand ready : JobId → Nat} (h : s.Ledger hand ready) (j : JobId)
    (q : JobQueue) (p : UInt8) : (s.setJob j q p).Ledger hand ready where
  owned := h.owned
  once := h.once

theorem Queues.setJob (h : s.Queues) (hj : ∀ q, j ∉ s.queues q) (q : JobQueue) (p : UInt8) :
    (s.setJob j q p).Queues where
  __ := h
  tagged q' i hi := by
    have hne : i ≠ j := by
      rintro rfl
      exact hj q' hi
    show update s.queue j q i = q'
    rw [update_of_ne hne]
    exact h.tagged q' i hi

theorem Queues.setQueue (h : s.Queues) {q : JobQueue} {l : List JobId} {n : Nat}
    (hn : n = l.length) (hbound : q = .systemFg → l.length ≤ dtControlMaxJobs)
    (htag : ∀ i ∈ l, s.queue i = q) : (s.setQueue q l n).Queues where
  lengths q' := by
    show update s.queueLength q n q' = (update s.queues q l q').length
    by_cases hq : q' = q
    · subst hq
      rw [update_self, update_self, hn]
    · rw [update_of_ne hq, update_of_ne hq, h.lengths]
  bounded := by
    show (update s.queues q l .systemFg).length ≤ dtControlMaxJobs
    by_cases hq : JobQueue.systemFg = q
    · subst hq
      exact hbound rfl
    · rw [update_of_ne hq]
      exact h.bounded
  tagged q' i hi := by
    by_cases hq : q' = q
    · subst hq
      rw [show (s.setQueue q' l n).queues q' = l from update_self ..] at hi
      exact htag i hi
    · rw [show (s.setQueue q l n).queues q' = s.queues q' from update_of_ne hq ..] at hi
      exact h.tagged q' i hi

theorem Queues.of_eq (h : s.Queues) {s' : JobControl} (hqueues : s'.queues = s.queues)
    (hlength : s'.queueLength = s.queueLength) (hqueue : s'.queue = s.queue) : s'.Queues where
  lengths q := by
    rw [hqueues, hlength]
    exact h.lengths q
  bounded := by
    rw [hqueues]
    exact h.bounded
  tagged q i hi := by
    rw [hqueues] at hi
    rw [hqueue]
    exact h.tagged q i hi

theorem Queues.pushTop (h : s.Queues) {top : JobId} {kept : List JobId} {n : Nat}
    (hn : n = kept.length) (hbound : kept.length ≤ dtControlMaxJobs)
    (htag : ∀ i ∈ top :: kept, s.queue i = .systemFg) : (s.pushTop top kept n).Queues := by
  have hlength := insertTop_length top kept n hn
  have hqueue : (s.setQueue .systemFg (insertTop top kept n).1
      (if n + 1 > dtControlMaxJobs then n else n + 1)).Queues := by
    apply h.setQueue hlength.symm
    · intro _
      rw [hlength]
      split <;> omega
    · intro i hi
      exact htag i (mem_cons.mpr (mem_insertTop top kept n hi))
  obtain ⟨state, disposed, heq⟩ := pushTop_eq top kept n s
  rw [heq]
  exact hqueue.of_eq rfl rfl rfl

theorem active_setJob (h : s.Ledger emptyHand emptyHand) (hj : j ∉ s.handed) (q : JobQueue)
    (p : UInt8) {i : JobId} (hi : (s.setJob j q p).Active i) : s.Active i := by
  rcases hi with hi | ⟨w, hw, hslot, hq⟩
  · exact .inl hi
  · refine .inr ⟨w, hw, hslot, ?_⟩
    rw [show (s.setJob j q p).queue i = s.queue i from
      update_of_ne (h.slot_ne hj hw hslot) ..] at hq
    exact hq

theorem setJob_queue_of_active (h : s.Ledger emptyHand emptyHand) (hj : j ∉ s.handed)
    (q : JobQueue) (p : UInt8) {i : JobId} (hi : s.Active i) :
    (s.setJob j q p).queue i = s.queue i :=
  update_of_ne (h.active_ne hj hi) ..

section

variable (h : s.Invariant data)
include h

theorem Invariant.addFifo (hj : j ∉ s.handed) {q : JobQueue} (hq : q ≠ .systemFg) :
    (addFifo { s with handed := j :: s.handed } q j).Invariant data where
  ledger := by
    have hhand := (h.ledger.handOver hj).setJob j q (if q = .userFg then dtControlFgPriority else 0)
    have hcount : ∀ i, (s.queues q ++ [j]).count i + emptyHand i =
        (s.queues q).count i + one i j := by
      intro i
      rw [count_append, count_cons_one, count_nil]
      unfold emptyHand
      omega
    apply Ledger.setState
    exact hhand.setQueue _ hcount fun i => (hcount i).le
  queued := by
    have hjob := h.queued.setJob (h.ledger.not_mem_queue hj) q
      (if q = .userFg then dtControlFgPriority else 0)
    have hqueue := @Queues.setQueue _ hjob q (s.queues q ++ [j]) (s.queueLength q + 1)
      (by rw [length_append, h.queued.lengths]; rfl) (fun hfg => absurd hfg hq) ?_
    · exact hqueue.of_eq rfl rfl rfl
    · intro i hi
      rcases mem_append.mp hi with hi | hi
      · exact hjob.tagged q i hi
      · rw [mem_singleton.mp hi]
        exact update_self ..
  distinct := by
    have hjob : (s.setJob j q (if q = .userFg then dtControlFgPriority else 0)).Distinct data :=
      h.distinct.of_active (fun i hi => active_setJob h.ledger hj _ _ hi)
        (fun i hi => setJob_queue_of_active h.ledger hj _ _ hi)
    refine hjob.of_active ?_ fun _ _ => rfl
    rintro i (hi | hi)
    · left
      have hfg : update s.queues q (s.queues q ++ [j]) .systemFg = s.queues .systemFg :=
        update_of_ne (Ne.symm hq) ..
      show i ∈ s.queues .systemFg
      rw [← hfg]
      exact hi
    · exact .inr hi
  exports := (exportSlot_update h.ledger hj q).trans h.exports

theorem Invariant.discardNew (hj : j ∉ s.handed) (p : UInt8) :
    Invariant data { setJob { s with handed := j :: s.handed } j .systemFg p with
      calls := .disposing j :: s.calls } where
  ledger := ((h.ledger.handOver hj).setJob j .systemFg p).addCall
    (fun i => Nat.zero_add (one i j)) fun _ => Nat.zero_le _
  queued := (h.queued.setJob (h.ledger.not_mem_queue hj) .systemFg p).of_eq rfl rfl rfl
  distinct := h.distinct.of_active (fun _ => active_setJob h.ledger hj .systemFg p)
    (fun _ => setJob_queue_of_active h.ledger hj .systemFg p)
  exports := (exportSlot_update h.ledger hj .systemFg).trans h.exports

theorem Invariant.bubbleUp {equal : JobId → Bool} {other : JobId}
    (hfind : (s.queues .systemFg).find? equal = some other) :
    (s.pushTop other ((s.queues .systemFg).eraseP equal)
      (s.queueLength .systemFg - 1)).Invariant data := by
  obtain ⟨l₁, l₂, hqueue, herase⟩ := append_of_find? hfind
  have hlength : (s.queues .systemFg).length = l₁.length + l₂.length + 1 := by
    rw [hqueue, length_append, length_cons]
    omega
  have hbounded := h.queued.bounded
  have hmem : ∀ i ∈ other :: (l₁ ++ l₂), i ∈ s.queues .systemFg := by
    intro i hi
    rw [hqueue]
    simp only [mem_cons, mem_append] at hi ⊢
    tauto
  have hcount : ∀ i, (other :: (l₁ ++ l₂)).count i + emptyHand i =
      (s.queues .systemFg).count i + emptyHand i := by
    intro i
    rw [hqueue, count_append, count_cons_one, count_cons_one, count_append]
    omega
  rw [herase]
  obtain ⟨state, disposed, heq⟩ := pushTop_eq other (l₁ ++ l₂) (s.queueLength .systemFg - 1) s
  refine ⟨h.ledger.pushTop hcount fun i => (hcount i).le, h.queued.pushTop ?_ ?_ ?_, ?_, ?_⟩
  · rw [h.queued.lengths, length_append]
    omega
  · rw [length_append]
    omega
  · exact fun i hi => h.queued.tagged _ i (hmem i hi)
  · rw [heq]
    refine h.distinct.of_active ?_ fun _ _ => rfl
    rintro i (hi | hi)
    · exact .inl (hmem i (mem_cons.mpr (mem_insertTop _ _ _ hi)))
    · exact .inr hi
  · rw [heq]
    exact h.exports

theorem Invariant.pushNew (hj : j ∉ s.handed) (p : UInt8)
    (hslots : ∀ w ∈ s.workers, ∀ i, w.slot = some i →
      dtControlJobEqual data (update s.queue j .systemFg) j i = false)
    (hqueue : ∀ i ∈ s.queues .systemFg,
      dtControlJobEqual data (update s.queue j .systemFg) j i = false) :
    (pushTop (setJob { s with handed := j :: s.handed } j .systemFg p) j
      (s.queues .systemFg) (s.queueLength .systemFg)).Invariant data := by
  have hhand := (h.ledger.handOver hj).setJob j .systemFg p
  have hjob := h.queued.setJob (h.ledger.not_mem_queue hj) .systemFg p
  have hjob' : (setJob { s with handed := j :: s.handed } j .systemFg p).Queues :=
    hjob.of_eq rfl rfl rfl
  have hcount : ∀ i, (j :: s.queues .systemFg).count i + emptyHand i =
      (s.queues .systemFg).count i + one i j := by
    intro i
    rw [count_cons_one]
    unfold emptyHand
    omega
  obtain ⟨state, disposed, heq⟩ := pushTop_eq j (s.queues .systemFg) (s.queueLength .systemFg)
    (setJob { s with handed := j :: s.handed } j .systemFg p)
  refine ⟨hhand.pushTop hcount fun i => (hcount i).le,
    hjob'.pushTop (h.queued.lengths _) h.queued.bounded ?_, ?_, ?_⟩
  · intro i hi
    rcases mem_cons.mp hi with rfl | hi
    · exact update_self ..
    · exact hjob.tagged _ i hi
  · rw [heq]
    refine h.distinct.of_active_or j ?_
      (fun i => setJob_queue_of_active h.ledger hj .systemFg p) ?_
    · rintro i (hi | hi)
      · rcases mem_insertTop _ _ _ hi with hi | hi
        · exact .inr hi
        · exact .inl (.inl hi)
      · exact .inl (active_setJob h.ledger hj .systemFg p (.inr hi))
    · rintro i (hi | ⟨w, hw, hslot, -⟩)
      · exact hqueue i hi
      · exact hslots w hw i hslot
  · rw [heq]
    exact (exportSlot_update h.ledger hj .systemFg).trans h.exports

theorem Invariant.addSystemFg (hj : j ∉ s.handed) :
    (JobControl.addSystemFg data { s with handed := j :: s.handed } j).Invariant data := by
  unfold JobControl.addSystemFg
  dsimp only
  split
  · exact h.discardNew hj dtControlFgPriority
  · next hslots =>
    split
    · next other hfind =>
      exact (h.discardNew hj dtControlFgPriority).bubbleUp hfind
    · next hfind =>
      apply h.pushNew hj
      · intro w hw i hi
        cases hequal : dtControlJobEqual data (update s.queue j .systemFg) j i with
        | false => rfl
        | true =>
          refine absurd (any_eq_true.mpr ⟨w, hw, ?_⟩) hslots
          rw [hi]
          exact hequal
      · intro i hi
        have hne := find?_eq_none.mp hfind i hi
        exact Bool.eq_false_iff.mpr hne

/-- `dt_control_add_job` with a job that was not handed over before. -/
theorem Invariant.dtControlAddJob (hj : j ∉ s.handed)
    (queueId : Option JobQueue) : (dtControlAddJob data s queueId j).Invariant data := by
  unfold JobControl.dtControlAddJob
  cases queueId with
  | none =>
    have hledger : Ledger (dispose { s with handed := j :: s.handed } j)
        emptyHand emptyHand :=
      (h.ledger.handOver hj).dispose (fun i => Nat.zero_add (one i j)) fun i => Nat.zero_le _
    exact ⟨hledger, h.queued.of_eq rfl rfl rfl, h.distinct, h.exports⟩
  | some q =>
    dsimp only
    split
    · have hexecute : Ledger (execute { s with handed := j :: s.handed } j)
          (one · j) emptyHand :=
        (h.ledger.handOver hj).execute fun i => by rw [emptyHand, Nat.zero_add]
      have hledger : Ledger { execute { s with handed := j :: s.handed } j with
          calls := .executing q j :: s.calls } emptyHand emptyHand :=
        hexecute.addCall (fun i => Nat.zero_add (one i j)) fun i => Nat.le_refl _
      exact ⟨hledger, h.queued.of_eq rfl rfl rfl, h.distinct, h.exports⟩
    · split
      · exact h.addSystemFg hj
      · next hq => exact h.addFifo hj hq

theorem Invariant.returnFromAdd (c : AddCall) : (s.returnFromAdd c).Invariant data := by
  by_cases hc : c ∈ s.calls
  · obtain ⟨j, hcount, heq⟩ := returnFromAdd_of_mem hc
    have hledger : Ledger (dispose { s with calls := s.calls.erase c } j)
        emptyHand emptyHand :=
      (h.ledger.eraseCall hc).dispose (fun i => (Nat.zero_add _).trans (hcount i).symm)
        fun i => Nat.le_refl _
    rw [heq]
    exact ⟨hledger, h.queued.of_eq rfl rfl rfl, h.distinct, h.exports⟩
  · rw [returnFromAdd_of_not_mem hc]
    exact h

end

end Add

/-! ## The workers keep the invariant -/

section Work

variable {data : JobId → JobData} {s : JobControl} {k : Nat} {w w' : Worker} {j : JobId}

def Picked (s : JobControl) (best : Option (JobQueue × JobId)) : Prop :=
  ∀ q j, best = some (q, j) →
    (∃ rest, s.queues q = j :: rest) ∧ (q = .userExport → s.exportScheduled = false)

variable {best : Option (JobQueue × JobId)}

theorem Picked.pickHead (h : s.Picked best) (q : JobQueue) : s.Picked (s.pickHead best q) := by
  unfold JobControl.pickHead
  split
  · exact h
  · next j rest hq =>
    have hnew : ¬(s.exportScheduled && q == .userExport) = true → s.Picked (some (q, j)) := by
      intro hexport q' j' heq
      cases heq
      refine ⟨⟨rest, hq⟩, ?_⟩
      rintro rfl
      simpa using hexport
    split
    · exact h
    · next hexport =>
      split
      · exact hnew hexport
      · split
        · exact hnew hexport
        · exact h

theorem Picked.foldl (h : s.Picked best)
    (qs : List JobQueue) : s.Picked (qs.foldl s.pickHead best) := by
  induction qs generalizing best with
  | nil => exact h
  | cons q qs ih => exact ih (h.pickHead q)

theorem picked_all : s.Picked (JobQueue.all.foldl s.pickHead none) :=
  Picked.foldl (fun _ _ h => by cases h) _

theorem Distinct.setWorker (h : s.Distinct data) (hw : s.workers[k]? = some w)
    (hslot : ∀ i, w'.slot = some i → w.slot = some i) :
    Distinct data { s with workers := s.workers.set k w' } := by
  refine h.of_active ?_ fun _ _ => rfl
  rintro i (hi | ⟨v, hv, hi, hq⟩)
  · exact .inl hi
  · rcases mem_or_eq_of_mem_set hv with hv | rfl
    · exact .inr ⟨v, hv, hi, hq⟩
    · exact .inr ⟨w, mem_of_getElem? hw, hslot i hi, hq⟩

theorem Exports.setWorker (h : s.Exports) (hw : s.workers[k]? = some w)
    (hslot : w'.slot = w.slot) : Exports { s with workers := s.workers.set k w' } := by
  have hset := total_set (f := exportSlot s.queue) w' hw
  have hsame : exportSlot s.queue w' = exportSlot s.queue w := by
    unfold exportSlot
    rw [hslot]
  have hexports := h.total_eq
  show total (exportSlot s.queue) (s.workers.set k w') = if s.exportScheduled then 1 else 0
  omega

section TakeHead

variable {winner : JobQueue} {rest : List JobId}

theorem Ledger.takeHead (h : s.Ledger emptyHand emptyHand) (hqueue : s.queues winner = j :: rest)
    (hw : s.workers[k]? = some .idle) (n : Nat) :
    Ledger { s.setQueue winner rest n with workers := s.workers.set k (.scheduled j) }
      emptyHand emptyHand := by
  have htaken : (s.setQueue winner rest n).Ledger (one · j) (one · j) := by
    apply h.setQueue
    · intro i
      rw [hqueue, count_cons_one]
      rfl
    · intro i
      rw [hqueue, count_cons_one]
      exact Nat.le_refl _
  exact htaken.setWorker hw (fun i => (Nat.zero_add (one i j)).symm)
    fun i => Nat.le_of_eq (Nat.zero_add (one i j)).symm

theorem Queues.takeHead (h : s.Queues) (hqueue : s.queues winner = j :: rest) :
    (s.setQueue winner rest (s.queueLength winner - 1)).Queues := by
  apply h.setQueue
  · rw [h.lengths, hqueue]
    rfl
  · rintro rfl
    have hbounded := h.bounded
    rw [hqueue, length_cons] at hbounded
    omega
  · intro i hi
    exact h.tagged winner i (by rw [hqueue]; exact mem_cons_of_mem _ hi)

theorem Distinct.takeHead (h : s.Distinct data) (hqueue : s.queues winner = j :: rest)
    (hjob : s.queue j = winner) (n : Nat) :
    Distinct data { s.setQueue winner rest n with workers := s.workers.set k (.scheduled j) } := by
  refine h.of_active ?_ fun _ _ => rfl
  rintro i (hi | ⟨v, hv, hi, hq⟩)
  · left
    have hi' : i ∈ update s.queues winner rest .systemFg := hi
    by_cases hwinner : JobQueue.systemFg = winner
    · subst hwinner
      rw [hqueue]
      exact mem_cons_of_mem _ hi'
    · rw [update_of_ne hwinner] at hi'
      exact hi'
  · rcases mem_or_eq_of_mem_set hv with hv | rfl
    · exact .inr ⟨v, hv, hi, hq⟩
    · -- the new job of the slot was in the queue
      cases hi
      obtain rfl : winner = .systemFg := hjob.symm.trans hq
      left
      rw [hqueue]
      exact mem_cons_self

theorem Exports.takeHead (h : s.Exports) (hw : s.workers[k]? = some .idle)
    (hjob : s.queue j = winner) (hexport : winner = .userExport → s.exportScheduled = false) :
    total (exportSlot s.queue) (s.workers.set k (.scheduled j)) =
      if (s.exportScheduled || winner == .userExport) = true then 1 else 0 := by
  have hset := total_set (f := exportSlot s.queue) (.scheduled j) hw
  have hexports := h.total_eq
  have hidle : exportSlot s.queue .idle = 0 := rfl
  have hslot : exportSlot s.queue (.scheduled j) = if s.queue j = .userExport then 1 else 0 := rfl
  rw [hslot, hjob] at hset
  by_cases hwinner : winner = .userExport
  · rw [hexport hwinner] at hexports ⊢
    rw [if_pos hwinner] at hset
    simp only [hwinner, beq_self_eq_true, Bool.or_true, if_true]
    simp only [Bool.false_eq_true, if_false] at hexports
    omega
  · rw [if_neg hwinner] at hset
    have hbeq : (winner == JobQueue.userExport) = false := by simpa using hwinner
    rw [hbeq, Bool.or_false]
    omega

end TakeHead

section

variable (h : s.Invariant data)
include h

theorem Invariant.dtControlScheduleJob
    (hw : s.workers[k]? = some .idle) : (s.dtControlScheduleJob k).Invariant data := by
  unfold JobControl.dtControlScheduleJob
  split
  · exact h
  · next winner j hpick =>
    obtain ⟨⟨rest, hqueue⟩, hexport⟩ := picked_all winner j hpick
    have htail : (s.queues winner).tail = rest := by rw [hqueue]; rfl
    have hjob : s.queue j = winner := h.queued.tagged winner j (by rw [hqueue]; exact mem_cons_self)
    rw [htail]
    have hledger := h.ledger.takeHead hqueue hw (s.queueLength winner - 1)
    have hqueues := h.queued.takeHead hqueue
    exact ⟨⟨hledger.owned, hledger.once⟩, hqueues.of_eq rfl rfl rfl,
      h.distinct.takeHead hqueue hjob _, h.exports.takeHead hw hjob hexport⟩

theorem Invariant.startJob (hw : s.workers[k]? = some (.scheduled j)) :
    (s.startJob k j).Invariant data := by
  unfold JobControl.startJob
  split
  · have htaken : Ledger { s with workers := s.workers.set k (.executing j) } emptyHand (one · j) :=
      h.ledger.setWorker hw (fun i => rfl) fun i => Nat.le_of_eq (Nat.zero_add (one i j))
    have hledger :
        Ledger (execute { s with workers := s.workers.set k (.executing j) } j)
          emptyHand emptyHand := htaken.execute fun i => Nat.le_of_eq (Nat.zero_add (one i j))
    exact ⟨⟨hledger.owned, hledger.once⟩, h.queued.of_eq rfl rfl rfl,
      h.distinct.setWorker hw fun i hi => hi, h.exports.setWorker hw rfl⟩
  · exact ⟨h.ledger.setWorker hw (fun i => rfl) fun i => Nat.zero_le _,
      h.queued.of_eq rfl rfl rfl,
      h.distinct.setWorker hw fun i hi => hi, h.exports.setWorker hw rfl⟩

theorem Invariant.finishJob (hw : s.workers[k]? = some (.executing j)) :
    (s.finishJob k j).Invariant data := by
  have hledger : Ledger { s with workers := s.workers.set k (.executed j) } emptyHand emptyHand :=
    h.ledger.setWorker hw (fun i => rfl) fun i => Nat.zero_le _
  exact ⟨⟨hledger.owned, hledger.once⟩, h.queued.of_eq rfl rfl rfl,
    h.distinct.setWorker hw fun i hi => hi, h.exports.setWorker hw rfl⟩

theorem Invariant.completeJob (hw : s.workers[k]? = some (.executed j)) :
    (s.completeJob k j).Invariant data := by
  have hledger : Ledger { s with workers := s.workers.set k (.completed j) } emptyHand emptyHand :=
    h.ledger.setWorker hw (fun i => rfl) fun i => Nat.zero_le _
  refine ⟨⟨hledger.owned, hledger.once⟩, h.queued.of_eq rfl rfl rfl,
    h.distinct.setWorker hw nofun, ?_⟩
  -- an export job in the slot is the one that the flag tells of
  have hset := total_set (f := exportSlot s.queue) (.completed j) hw
  have hexports := h.exports.total_eq
  have hslot : exportSlot s.queue (.executed j) = if s.queue j = .userExport then 1 else 0 := rfl
  have hempty : exportSlot s.queue (.completed j) = 0 := rfl
  rw [hslot] at hset
  show total (exportSlot s.queue) (s.workers.set k (.completed j)) =
    if (if s.queue j = .userExport then false else s.exportScheduled) = true then 1 else 0
  by_cases hjob : s.queue j = .userExport
  · rw [if_pos hjob] at hset ⊢
    have hle := h.exports.total_le_one
    simp only [Bool.false_eq_true, if_false]
    omega
  · rw [if_neg hjob] at hset ⊢
    omega

theorem Invariant.disposeJob (hw : s.workers[k]? = some (.completed j)) :
    Invariant data { s.dispose j with workers := s.workers.set k .idle } := by
  have htaken : Ledger { s with workers := s.workers.set k .idle } (one · j) emptyHand :=
    h.ledger.setWorker hw (fun i => Nat.add_comm _ _) fun i => Nat.zero_le _
  have hledger : Ledger (dispose { s with workers := s.workers.set k .idle } j)
      emptyHand emptyHand := htaken.dispose (fun i => Nat.zero_add (one i j)) fun i => Nat.le_refl _
  exact ⟨⟨hledger.owned, hledger.once⟩, h.queued.of_eq rfl rfl rfl,
    h.distinct.setWorker hw nofun, h.exports.setWorker hw rfl⟩

theorem Invariant.dtControlRunJob (k : Nat) : (s.dtControlRunJob k).Invariant data := by
  unfold JobControl.dtControlRunJob
  split
  · exact h
  · next hw => exact h.dtControlScheduleJob hw
  · next hw => exact h.startJob hw
  · next hw => exact h.finishJob hw
  · next hw => exact h.completeJob hw
  · next hw => exact h.disposeJob hw

end

end Work

end JobControl

end DTLite
